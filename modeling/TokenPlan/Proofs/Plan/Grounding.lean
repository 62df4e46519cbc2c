import TokenPlan.Proofs.Plan.Journal

/-!
What the check of an order decides. A list of actions is grounded where whatever an action needs is
created before it. The check accepts the grounded lists without repeated names and no others. They
are those that can be run from nothing, and a refusal tells the first action that is at fault.
-/

set_option autoImplicit false
set_option relaxedAutoImplicit false

namespace TokenPlan

namespace Plan

/-! ### Grounded lists -/

/-- Whatever an action needs is created by an action before it. -/
def Grounded (actions : List Action) : Prop :=
  ∀ before a after, actions = before ++ a :: after →
    ∀ id, a.Needs id → ∃ b ∈ before, b.isCreate = true ∧ b.id = id

private theorem mem_created_iff {actions : List Action} {id : ActionId} :
    id ∈ created actions ↔ ∃ b ∈ actions, b.isCreate = true ∧ b.id = id := by
  simp only [created, List.mem_map, List.mem_filter, and_assoc]

private theorem firstUnresolved?_eq_none_iff_grounded {actions : List Action} :
    firstUnresolved? [] actions = none ↔ Grounded actions := by
  simp only [firstUnresolved?_eq_none_iff, List.not_mem_nil, false_or, mem_created_iff,
    Action.mem_dependencies_iff, Grounded]

private theorem checkOrder_eq_ok_iff_grounded {actions : List Action} :
    checkOrder actions = .ok () ↔ (actions.map Action.id).Nodup ∧ Grounded actions := by
  simp only [checkOrder_eq_ok_iff, mem_created_iff, Action.mem_dependencies_iff, Grounded]

private theorem checkOrder_of_append {earlier later : List Action}
    (ordered : checkOrder (earlier ++ later) = .ok ()) : checkOrder earlier = .ok () := by
  rw [checkOrder_eq_ok_iff_grounded] at ordered ⊢
  obtain ⟨distinct, grounded⟩ := ordered
  rw [List.map_append] at distinct
  refine ⟨(List.nodup_append.mp distinct).1, ?_⟩
  rintro before a after rfl
  exact grounded before a (after ++ later) (by rw [List.append_assoc, List.cons_append])

/-! ### Refusals -/

/-- Why a list of actions is refused: the first action at fault, repeated names before all else. -/
inductive Refused (actions : List Action) : PlanError → Prop
  | repeated (before : List Action) (a : Action) (after : List Action)
      (split : actions = before ++ a :: after) (first : (before.map Action.id).Nodup)
      (again : ∃ b ∈ before, b.id = a.id) : Refused actions (.mismatch a.id .duplicateAction)
  | ungrounded (distinct : (actions.map Action.id).Nodup) (before : List Action) (a : Action)
      (after : List Action) (split : actions = before ++ a :: after) (first : Grounded before)
      (id : ActionId) (needs : a.Needs id) (lacks : ∀ b ∈ before, b.isCreate = true → b.id ≠ id) :
      Refused actions (.unresolved a.id)

private theorem firstUnresolved?_eq_some_iff {made : List ActionId} {actions : List Action}
    {a : Action} :
    firstUnresolved? made actions = some a ↔
      ∃ before after, actions = before ++ a :: after ∧ firstUnresolved? made before = none ∧
        ∃ id ∈ a.dependencies, id ∉ made ∧ id ∉ created before := by
  constructor
  · intro found
    induction actions generalizing made with
    | nil => cases found
    | cons first rest ih =>
      by_cases ready : first.dependencies.all fun id => id ∈ made
      · simp only [firstUnresolved?, ready, if_true] at found
        obtain ⟨before, after, rfl, resolved, id, dependency, unmade, uncreated⟩ := ih found
        rw [mem_made_iff, not_or] at unmade
        refine ⟨first :: before, after, rfl, ?_, id, dependency, unmade.1, ?_⟩
        · simpa only [firstUnresolved?, ready, if_true] using resolved
        · rw [created_cons, List.mem_append, not_or]
          exact ⟨unmade.2, uncreated⟩
      · simp only [firstUnresolved?, ready, if_false, Bool.false_eq_true] at found
        obtain rfl := Option.some.inj found
        obtain ⟨id, dependency, unmade⟩ : ∃ id ∈ first.dependencies, id ∉ made := by
          simpa using ready
        exact ⟨[], rest, rfl, rfl, id, dependency, unmade, List.not_mem_nil⟩
  · rintro ⟨before, after, rfl, resolved, id, dependency, unmade, uncreated⟩
    have blocked : ¬ a.dependencies.all (fun id => id ∈ (created before).reverse ++ made) := by
      intro ready
      have known := List.all_eq_true.mp ready id dependency
      simp [unmade, uncreated] at known
    rw [firstUnresolved?_append resolved, firstUnresolved?, if_neg blocked]

private theorem refused_of_firstRepeated? {actions : List Action} {a : Action}
    (repeated : firstRepeated? [] actions = some a) :
    Refused actions (.mismatch a.id .duplicateAction) := by
  obtain ⟨names, behind, split, first, again⟩ := exists_names_of_firstRepeated? repeated
  obtain ⟨before, rest, rfl, rfl, shifted⟩ := List.map_eq_append_iff.mp split
  obtain ⟨b, after, rfl, same, -⟩ := List.map_eq_cons_iff.mp shifted
  rw [← same] at again ⊢
  refine .repeated before b after rfl first ?_
  simpa using again

private theorem refused_of_firstUnresolved? {actions : List Action} {a : Action}
    (distinct : (actions.map Action.id).Nodup)
    (unresolved : firstUnresolved? [] actions = some a) : Refused actions (.unresolved a.id) := by
  obtain ⟨before, after, split, resolved, id, dependency, -, uncreated⟩ :=
    firstUnresolved?_eq_some_iff.mp unresolved
  have first : Grounded before := firstUnresolved?_eq_none_iff_grounded.mp resolved
  have needs : a.Needs id := Action.mem_dependencies_iff.mp dependency
  have lacks : ∀ b ∈ before, b.isCreate = true → b.id ≠ id := by
    intro b mem creates named
    exact uncreated (mem_created_iff.mpr ⟨b, mem, creates, named⟩)
  exact .ungrounded distinct before a after split first id needs lacks

private theorem refused_of_checkOrder {actions : List Action} {e : PlanError}
    (refused : checkOrder actions = .error e) : Refused actions e := by
  unfold checkOrder at refused
  cases repeated : firstRepeated? [] actions with
  | some a =>
    rw [repeated] at refused
    obtain rfl := Except.error.inj refused
    exact refused_of_firstRepeated? repeated
  | none =>
    rw [repeated] at refused
    cases unresolved : firstUnresolved? [] actions with
    | some a =>
      rw [unresolved] at refused
      obtain rfl := Except.error.inj refused
      exact refused_of_firstUnresolved? (firstRepeated?_eq_none_iff.mp repeated).1 unresolved
    | none => simp [unresolved] at refused

private theorem checkOrder_of_refused {actions : List Action} {e : PlanError}
    (refused : Refused actions e) : checkOrder actions = .error e := by
  cases refused with
  | repeated before a after split first again =>
    have found : (firstRepeated? [] actions).map Action.id = some a.id := by
      rw [firstRepeated?_id_eq_some_iff]
      refine ⟨before.map Action.id, after.map Action.id, ?_, first, by simp, Or.inr ?_⟩
      · rw [split, List.map_append, List.map_cons]
      · exact List.mem_map.mpr again
    obtain ⟨b, repeated, same⟩ := Option.map_eq_some_iff.mp found
    rw [checkOrder, repeated, ← same]
  | ungrounded distinct before a after split first id needs lacks =>
    have fresh : firstRepeated? [] actions = none :=
      firstRepeated?_eq_none_iff.mpr ⟨distinct, by simp⟩
    have uncreated : id ∉ created before := by
      rw [mem_created_iff]
      rintro ⟨b, mem, creates, named⟩
      exact lacks b mem creates named
    have unresolved : firstUnresolved? [] actions = some a := by
      rw [firstUnresolved?_eq_some_iff]
      exact ⟨before, after, split, firstUnresolved?_eq_none_iff_grounded.mpr first, id,
        Action.mem_dependencies_iff.mpr needs, List.not_mem_nil, uncreated⟩
    rw [checkOrder, fresh, unresolved]

/-! ### Running from nothing -/

section Build

variable {ρ : Type}

/-- Runs an action for which the record has all it needs; the record is told of creations only. -/
def build [Recording ρ] (results : ρ) (a : Action) (address : Address) : Option ρ :=
  if a.Ready results then
    some (if a.isCreate then Recording.record results a.id address else results)
  else none

def buildAll [Recording ρ] : ρ → List (Action × Address) → Option ρ
  | results, [] => some results
  | results, (a, address) :: rest => do
    let results ← build results a address
    buildAll results rest

/-- The record has the results of `made` and of nothing else. -/
def Knows [Recording ρ] (results : ρ) (made : List ActionId) : Prop :=
  ∀ id, Progress.isComplete results id = true ↔ id ∈ made

private theorem knows_empty [Journal ρ] : Knows (Journal.empty : ρ) [] := by
  intro id
  rw [Progress.isComplete, Journal.addressOf_empty]
  simp

private theorem build_of_knows [Recording ρ] {results : ρ} {made : List ActionId}
    (knows : Knows results made) (a : Action) (address : Address) :
    if a.dependencies.all (fun id => id ∈ made) then
      ∃ later, build results a address = some later ∧
        Knows later (if a.isCreate then a.id :: made else made)
    else build results a address = none := by
  have same : a.Ready results ↔ a.dependencies.all fun id => id ∈ made := by
    simp only [Action.ready_iff, List.all_eq_true, decide_eq_true_iff, knows _]
  by_cases ready : a.dependencies.all fun id => id ∈ made
  · rw [if_pos ready]
    refine ⟨if a.isCreate then Recording.record results a.id address else results, ?_, ?_⟩
    · rw [build, if_pos (same.mpr ready)]
    · intro id
      cases a.isCreate with
      | false => exact knows id
      | true =>
        rw [if_pos rfl, if_pos rfl, Progress.isComplete_record, Bool.or_eq_true,
          decide_eq_true_iff, knows id, List.mem_cons, eq_comm]
  · rw [if_neg ready, build, if_neg (mt same.mp ready)]

/-- A run: with the results of what was made, actions run to the end if none is unresolved. -/
private theorem isSome_buildAll_iff [Recording ρ] {results : ρ} {made : List ActionId}
    (knows : Knows results made) (steps : List (Action × Address)) :
    (buildAll results steps).isSome ↔ firstUnresolved? made (steps.map Prod.fst) = none := by
  -- For any record, as each step leaves another one that knows what was made by then.
  induction steps generalizing results made with
  | nil => simp [buildAll, firstUnresolved?]
  | cons step rest ih =>
    obtain ⟨a, address⟩ := step
    have one := build_of_knows knows a address
    by_cases ready : a.dependencies.all fun id => id ∈ made
    · rw [if_pos ready] at one
      obtain ⟨later, built, knows_later⟩ := one
      have all : buildAll results ((a, address) :: rest) = buildAll later rest := by
        rw [buildAll, built]
        rfl
      rw [all, ih knows_later, List.map_cons, firstUnresolved?, if_pos ready]
    · rw [if_neg ready] at one
      have stuck : buildAll results ((a, address) :: rest) = none := by
        rw [buildAll, one]
        rfl
      rw [stuck, List.map_cons, firstUnresolved?, if_neg ready]
      simp

private theorem isSome_buildAll_empty_iff [Journal ρ] (steps : List (Action × Address)) :
    (buildAll (Journal.empty : ρ) steps).isSome ↔ Grounded (steps.map Prod.fst) := by
  rw [isSome_buildAll_iff knows_empty, firstUnresolved?_eq_none_iff_grounded]

end Build

/--
A list of actions passes exactly if all names differ and every action needs only what an action
before it creates, that is, if all names differ and the list runs from an empty record to the end
whatever addresses it gives. Otherwise the error tells the first repeated name, or else the first
action that needs something else. What stands in front of a list that passes passes as well.
-/
theorem checkOrder_decides_grounding (ρ : Type) [Journal ρ] (actions : List Action) :
    (checkOrder actions = .ok () ↔ (actions.map Action.id).Nodup ∧ Grounded actions) ∧
    (∀ steps : List (Action × Address), steps.map Prod.fst = actions →
      (checkOrder actions = .ok () ↔ (actions.map Action.id).Nodup ∧
        (buildAll (Journal.empty : ρ) steps).isSome)) ∧
    (∀ e, checkOrder actions = .error e ↔ Refused actions e) ∧
    ∀ earlier, earlier <+: actions → checkOrder actions = .ok () →
      checkOrder earlier = .ok () := by
  refine ⟨checkOrder_eq_ok_iff_grounded, ?_, ?_, ?_⟩
  · rintro steps rfl
    rw [isSome_buildAll_empty_iff]
    exact checkOrder_eq_ok_iff_grounded
  · intro e
    exact ⟨refused_of_checkOrder, checkOrder_of_refused⟩
  · rintro earlier ⟨later, rfl⟩ ordered
    exact checkOrder_of_append ordered

/-- A call is no creation, so its name inside a structure is not resolved. -/
example :
    checkOrder
      [.create "a" "A" [], .call "a.init" (.action "a") "init" [],
        .create "b" "B" [.array [.tuple [("owner", .ref "a"), ("next", .ref "a.init")]]]] =
      .error (.unresolved "b") := by
  rfl

end Plan

end TokenPlan
