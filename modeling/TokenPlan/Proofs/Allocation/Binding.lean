import TokenPlan.Allocation.Basic

/-!
Binding told over any run of calls. The first call that finds an allocation without an owner gives
it one, and every other call is refused and changes nothing; whatever is called, the claim itself
stays as it was made.
-/

set_option autoImplicit false
set_option relaxedAutoImplicit false

namespace TokenPlan.Allocation

/--
A call of binding: its answer, and the allocation behind it. A call that is refused gives no
allocation, so the one that was there stays.
-/
def call (a : Allocation) (target : Target) : Except PlanError Unit × Allocation :=
  match a.bind target with
  | .ok b => (.ok (), b)
  | .error e => (.error e, a)

/-- Calls one after the other, each with its answer and the allocation behind it. -/
def calls : Allocation → List Target → List (Except PlanError Unit × Allocation)
  | _, [] => []
  | a, target :: targets => a.call target :: (a.call target).2.calls targets

/-- Two allocations make the same claim; they may differ in their owners. -/
structure SameClaim (a b : Allocation) : Prop where
  id : b.id = a.id
  tokens : b.tokens = a.tokens
  kind : b.kind = a.kind
  obligation : b.obligation = a.obligation

/-- The allocation with an owner. -/
def ownedBy (a : Allocation) (target : Target) : Allocation :=
  { a with target := some target }

/-- What a run of calls answers and leaves, whether the allocation had an owner before or not. -/
structure BindsOnce (a : Allocation) (targets : List Target) : Prop where
  refused : a.target.isSome → a.calls targets =
    targets.map fun _ => (.error (.alreadyBound a.id), a)
  taken : ∀ first later, targets = first :: later → a.target = none →
    a.calls targets = (.ok (), a.ownedBy first) ::
      later.map fun _ => (.error (.alreadyBound a.id), a.ownedBy first)
  seen : ∀ first later, targets = first :: later → a.target = none →
    ∀ answer ∈ a.calls targets, answer.2.requireTarget = .ok first
  kept : ∀ answer ∈ a.calls targets, a.SameClaim answer.2

variable {a b c : Allocation} {target : Target} {targets : List Target}

/-! ### One call -/

private theorem SameClaim.refl (a : Allocation) : a.SameClaim a := ⟨rfl, rfl, rfl, rfl⟩

private theorem SameClaim.trans (first : a.SameClaim b) (second : b.SameClaim c) : a.SameClaim c :=
  ⟨second.id.trans first.id, second.tokens.trans first.tokens, second.kind.trans first.kind,
    second.obligation.trans first.obligation⟩

private theorem sameClaim_ownedBy (a : Allocation) (target : Target) :
    a.SameClaim (a.ownedBy target) :=
  ⟨rfl, rfl, rfl, rfl⟩

private theorem requireTarget_ownedBy (a : Allocation) (target : Target) :
    (a.ownedBy target).requireTarget = .ok target := rfl

private theorem call_of_unbound (unbound : a.target = none) :
    a.call target = (.ok (), a.ownedBy target) := by
  rw [call, bind_eq_ok_iff.mpr ⟨unbound, rfl⟩]
  rfl

private theorem call_of_bound (bound : a.target.isSome) :
    a.call target = (.error (.alreadyBound a.id), a) := by
  obtain ⟨owner, given⟩ := Option.isSome_iff_exists.mp bound
  rw [call, bind, given]

private theorem sameClaim_call (a : Allocation) (target : Target) :
    a.SameClaim (a.call target).2 := by
  cases owner : a.target with
  | none =>
    rw [call_of_unbound owner]
    exact sameClaim_ownedBy a target
  | some other =>
    rw [call_of_bound (by rw [owner]; rfl)]
    exact SameClaim.refl a

/-! ### A run of calls -/

/-- An allocation that has an owner stays as it is under all further calls. -/
theorem calls_of_bound (bound : a.target.isSome) :
    a.calls targets = targets.map fun _ => (.error (.alreadyBound a.id), a) := by
  induction targets with
  | nil => rfl
  | cons target targets ih => rw [calls, call_of_bound bound, ih, List.map_cons]

private theorem calls_of_unbound {first : Target} {later : List Target}
    (unbound : a.target = none) :
    a.calls (first :: later) = (.ok (), a.ownedBy first) ::
      later.map fun _ => (.error (.alreadyBound a.id), a.ownedBy first) := by
  have bound : (a.ownedBy first).target.isSome := rfl
  rw [calls, call_of_unbound unbound, calls_of_bound bound]
  rfl

private theorem sameClaim_calls (a : Allocation) (targets : List Target) :
    ∀ answer ∈ a.calls targets, a.SameClaim answer.2 := by
  induction targets generalizing a with
  | nil =>
    rw [calls]
    exact List.forall_mem_nil _
  | cons target targets ih =>
    rw [calls, List.forall_mem_cons]
    have first := sameClaim_call a target
    exact ⟨first, fun answer mem => first.trans (ih _ answer mem)⟩

theorem bindsOnce (a : Allocation) (targets : List Target) : a.BindsOnce targets where
  refused := calls_of_bound
  taken := by
    rintro first later rfl unbound
    exact calls_of_unbound unbound
  seen := by
    rintro first later rfl unbound
    rw [calls_of_unbound unbound, List.forall_mem_cons, List.forall_mem_map]
    exact ⟨requireTarget_ownedBy a first, fun _ _ => requireTarget_ownedBy a first⟩
  kept := sameClaim_calls a targets

end TokenPlan.Allocation
