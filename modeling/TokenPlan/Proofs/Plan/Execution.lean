import TokenPlan.Proofs.Plan.Needs
import TokenPlan.Proofs.Plan.Outcome
import TokenPlan.Proofs.Plan.Resolution

/-!
Running what is left of a plan. Whatever has run before, the actions that are pending can be run in
their order: each finds what it depends on, and what is left after it are the actions behind it.
-/

set_option autoImplicit false
set_option relaxedAutoImplicit false

namespace TokenPlan

/-- A record to which results can be added; a new result takes the place of an old one. -/
class Recording (ρ : Type) extends Progress ρ where
  record : ρ → ActionId → Address → ρ
  addressOf_record : ∀ results id address other,
    addressOf (record results id address) other =
      if id = other then some address else addressOf results other

instance : Recording (Std.HashMap ActionId Address) where
  record results id address := results.insert id address
  addressOf_record results id address other := by
    change (results.insert id address)[other]? =
      if id = other then some address else results[other]?
    simp [Std.HashMap.getElem?_insert]

instance : Recording (Std.TreeMap ActionId Address) where
  record results id address := results.insert id address
  addressOf_record results id address other := by
    change (results.insert id address)[other]? =
      if id = other then some address else results[other]?
    simp [Std.TreeMap.getElem?_insert]

variable {ρ : Type} [Recording ρ]

/-- Whatever the action needs has run. -/
def Action.Ready (a : Action) (results : ρ) : Prop :=
  ∀ id, a.Needs id → Progress.isComplete results id = true

theorem Action.ready_iff {a : Action} {results : ρ} :
    a.Ready results ↔ ∀ id ∈ a.dependencies, Progress.isComplete results id = true := by
  simp only [Ready, mem_dependencies_iff]

instance (a : Action) (results : ρ) : Decidable (a.Ready results) :=
  decidable_of_iff _ Action.ready_iff.symm

/-- Runs an action that is ready, with the address that it gives. -/
def perform (results : ρ) (a : Action) (address : Address) : Option ρ :=
  if a.Ready results then some (Recording.record results a.id address) else none

def performAll : ρ → List (Action × Address) → Option ρ
  | results, [] => some results
  | results, (a, address) :: rest => do
    let results ← perform results a address
    performAll results rest

theorem Progress.isComplete_record (results : ρ) (id : ActionId) (address : Address)
    (other : ActionId) :
    isComplete (Recording.record results id address) other =
      (decide (id = other) || isComplete results other) := by
  unfold isComplete
  rw [Recording.addressOf_record]
  by_cases same : id = other <;> simp [same]

namespace Plan

variable {actions rest : List Action} {a : Action} {results : ρ}

private theorem pending_record (distinct : (actions.map Action.id).Nodup)
    (next : Progress.pending results actions = a :: rest) (address : Address) :
    Progress.pending (Recording.record results a.id address) actions = rest := by
  -- The new result completes the actions named like `a`, of which the pending ones are only `a`.
  have kept : ∀ b : Action, (!Progress.isComplete (Recording.record results a.id address) b.id) =
      (decide (b.id ≠ a.id) && !Progress.isComplete results b.id) := by
    intro b
    rw [Progress.isComplete_record, Bool.not_or]
    simp [eq_comm]
  have sublist : (a :: rest).Sublist actions := next ▸ List.filter_sublist
  have distinct_left : a.id ∉ rest.map Action.id :=
    (List.nodup_cons.mp ((sublist.map Action.id).nodup distinct)).1
  have others : ∀ b ∈ rest, decide (b.id ≠ a.id) = true := by
    intro b mem
    rw [decide_eq_true_iff]
    intro same
    exact distinct_left (List.mem_map.mpr ⟨b, mem, same⟩)
  calc Progress.pending (Recording.record results a.id address) actions
      = actions.filter fun b => decide (b.id ≠ a.id) && !Progress.isComplete results b.id :=
        List.filter_congr fun b _ => kept b
    _ = (Progress.pending results actions).filter fun b => decide (b.id ≠ a.id) :=
        (List.filter_filter ..).symm
    _ = rest := by
        rw [next, List.filter_cons_of_neg (by simp)]
        exact List.filter_eq_self.mpr others

private theorem ready_of_pending (ordered : checkOrder actions = .ok ())
    (next : Progress.pending results actions = a :: rest) : a.Ready results := by
  obtain ⟨before, after, split, complete, -, -⟩ := List.filter_eq_cons_iff.mp next
  rw [Action.ready_iff]
  intro id dependency
  have earlier := (checkOrder_eq_ok_iff.mp ordered).2 before a after split id dependency
  obtain ⟨b, mem, rfl⟩ := List.mem_map.mp earlier
  simpa using complete b (List.mem_filter.mp mem).1

private theorem perform_of_pending (ordered : checkOrder actions = .ok ())
    (next : Progress.pending results actions = a :: rest) (address : Address) :
    ∃ after, perform results a address = some after ∧ Progress.pending after actions = rest := by
  have ready : a.Ready results := ready_of_pending ordered next
  refine ⟨Recording.record results a.id address, ?_, ?_⟩
  · rw [perform, if_pos ready]
  · exact pending_record (checkOrder_eq_ok_iff.mp ordered).1 next address

/-- A run: the pending actions run in their order, and at any point those behind it are left. -/
private theorem performAll_of_pending (ordered : checkOrder actions = .ok ())
    (done left : List (Action × Address))
    (all : (done ++ left).map Prod.fst = Progress.pending results actions) :
    ∃ after, performAll results done = some after ∧
      Progress.pending after actions = left.map Prod.fst := by
  -- For any record of results, as each step leaves another one to go on from.
  induction done generalizing results with
  | nil => exact ⟨results, rfl, all.symm⟩
  | cons step done ih =>
    obtain ⟨a, address⟩ := step
    obtain ⟨middle, performed, pending⟩ :=
      perform_of_pending ordered all.symm address
    obtain ⟨after, run, remaining⟩ := ih pending.symm
    refine ⟨after, ?_, remaining⟩
    rw [performAll, performed]
    exact run

private theorem exists_resolve_of_pending_nil (settings : Settings) {d : Distribution}
    (literal : Literal d.allocations) (finished : (planOf settings d).pending results = []) :
    ∃ resolved, (planOf settings d).deployment.resolve results = .ok resolved := by
  rw [Deployment.exists_resolve_iff]
  intro owner mem id action
  obtain ⟨a, creation, rfl⟩ := List.mem_map.mp (owner_created settings literal mem action)
  have complete := List.filter_eq_nil_iff.mp finished a (List.mem_filter.mp creation).1
  simpa using complete

/--
From any record of results, the pending actions of a plan can be run to the end in their order,
whatever addresses they give, and the deployment then resolves.
-/
theorem performAll_pending_of_planRows {d : Denomination} {rows : List Row} {settings : Settings}
    {p : CompiledPlan} (planned : planRows d rows settings = .ok p) (results : ρ)
    (steps : List (Action × Address)) (all : steps.map Prod.fst = p.pending results) :
    (∀ done left, steps = done ++ left →
      ∃ after, performAll results done = some after ∧ p.pending after = left.map Prod.fst) ∧
    ∃ final, performAll results steps = some final ∧ p.pending final = [] ∧
      ∃ resolved, p.deployment.resolve final = .ok resolved := by
  obtain ⟨allocations, report, derived, -, -, ordered, rfl⟩ := planRows_eq_ok_iff.mp planned
  have literal : Literal (completed allocations report settings).allocations :=
    literal_completed settings (yields_of_deriveAll derived)
  constructor
  · rintro done left rfl
    exact performAll_of_pending ordered done left all
  · obtain ⟨final, run, finished⟩ :=
      performAll_of_pending ordered steps [] (by rw [List.append_nil]; exact all)
    exact ⟨final, run, finished, exists_resolve_of_pending_nil settings literal finished⟩

/-- A pool and an account; the reserve takes the rest. -/
def poolAndAccount : List Row :=
  [.pool ⟨"team", "Team", Ratio.millionths 18000000, VestingSchedule.immediate⟩,
    .account ⟨"treasury", Address.zero, .percent (Ratio.millionths 5000000)⟩]

theorem performAll_pending_poolAndAccount :
    ∃ p, planRows Denomination.standard poolAndAccount Settings.standard = .ok p ∧
      let results := (∅ : Std.TreeMap ActionId Address).insert "SaleContract" Address.zero
      ∃ final, performAll results ((p.pending results).map fun a => (a, Address.zero)) =
        some final ∧ p.pending final = [] ∧
          ∃ resolved, p.deployment.resolve final = .ok resolved := by
  obtain ⟨p, planned⟩ : ∃ p, planRows Denomination.standard poolAndAccount Settings.standard =
      .ok p := ⟨_, rfl⟩
  refine ⟨p, planned, ?_⟩
  intro results
  have all : ((p.pending results).map fun a => (a, Address.zero)).map Prod.fst =
      p.pending results := by
    rw [List.map_map]
    exact List.map_id _
  exact (performAll_pending_of_planRows planned results _ all).2

end Plan

end TokenPlan
