import TokenPlan.Proofs.Plan.Execution

/-!
Records of results that are kept step by step. A result is recorded or forgotten, and what a record
says of an action is what the last step about it did, however the record is kept.
-/

set_option autoImplicit false
set_option relaxedAutoImplicit false

namespace TokenPlan

/-- A change of a record: an action gave an address, or what it gave no longer counts. -/
inductive Step where
  | record (id : ActionId) (address : Address)
  | forget (id : ActionId)
deriving DecidableEq

namespace Step

/-- The action that the step is about. -/
def id : Step → ActionId
  | record id _ => id
  | forget id => id

/-- The address that the step leaves for its action. -/
def address? : Step → Option Address
  | record _ address => some address
  | forget _ => none

end Step

/-- The last of the steps about an action. -/
def latest? (steps : List Step) (id : ActionId) : Option Step :=
  steps.reverse.find? fun step => step.id = id

private theorem latest?_cons (step : Step) (rest : List Step) (id : ActionId) :
    latest? (step :: rest) id =
      (latest? rest id).or (if step.id = id then some step else none) := by
  rw [latest?, List.reverse_cons, List.find?_append, ← latest?]
  by_cases same : step.id = id <;> simp [same]

/-- The address of an action, where the last step about it recorded one. -/
def recorded? (steps : List Step) (id : ActionId) : Option Address :=
  (latest? steps id).bind Step.address?

/-- A record of results that starts empty and from which results can be taken back. -/
class Journal (ρ : Type) extends Recording ρ where
  empty : ρ
  forget : ρ → ActionId → ρ
  addressOf_empty : ∀ id, addressOf empty id = none
  addressOf_forget : ∀ results id other,
    addressOf (forget results id) other = if id = other then none else addressOf results other

instance : Journal (Std.HashMap ActionId Address) where
  empty := ∅
  forget results id := results.erase id
  addressOf_empty id := Std.HashMap.getElem?_empty
  addressOf_forget results id other := by
    change (results.erase id)[other]? = if id = other then none else results[other]?
    simp [Std.HashMap.getElem?_erase]

instance : Journal (Std.TreeMap ActionId Address) where
  empty := ∅
  forget results id := results.erase id
  addressOf_empty id := Std.TreeMap.getElem?_emptyc
  addressOf_forget results id other := by
    change (results.erase id)[other]? = if id = other then none else results[other]?
    simp [Std.TreeMap.getElem?_erase]

namespace Journal

section Steps

variable {ρ : Type} [Journal ρ]

def apply (results : ρ) : Step → ρ
  | .record id address => Recording.record results id address
  | .forget id => forget results id

def applyAll (results : ρ) (steps : List Step) : ρ :=
  steps.foldl apply results

/-- The record that steps leave of an empty one. -/
def replay (ρ : Type) [Journal ρ] (steps : List Step) : ρ :=
  applyAll empty steps

private theorem addressOf_apply (results : ρ) (step : Step) (id : ActionId) :
    Progress.addressOf (apply results step) id =
      if step.id = id then step.address? else Progress.addressOf results id := by
  cases step with
  | record done address => exact Recording.addressOf_record results done address id
  | forget done => exact addressOf_forget results done id

/-- After a run of steps the last one about an action counts, or else what was there before. -/
private theorem addressOf_applyAll (results : ρ) (steps : List Step) (id : ActionId) :
    Progress.addressOf (applyAll results steps) id =
      match latest? steps id with
      | some step => step.address?
      | none => Progress.addressOf results id := by
  -- From any record, as the first step leaves another one to the others.
  induction steps generalizing results with
  | nil => rfl
  | cons step rest ih =>
    change Progress.addressOf (applyAll (apply results step) rest) id = _
    rw [ih, latest?_cons]
    cases latest? rest id with
    | some last => rfl
    | none =>
      rw [addressOf_apply]
      by_cases same : step.id = id <;> simp [same]

/-- A record that starts empty says of an action what the last step about it recorded. -/
theorem addressOf_replay (steps : List Step) (id : ActionId) :
    Progress.addressOf (replay ρ steps) id = recorded? steps id := by
  rw [replay, addressOf_applyAll, recorded?]
  cases latest? steps id with
  | some step => rfl
  | none => exact addressOf_empty id

theorem isComplete_replay (steps : List Step) (id : ActionId) :
    Progress.isComplete (replay ρ steps) id = (recorded? steps id).isSome := by
  rw [Progress.isComplete, addressOf_replay]

end Steps

end Journal

end TokenPlan
