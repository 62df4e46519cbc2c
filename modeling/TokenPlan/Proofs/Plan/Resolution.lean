import TokenPlan.Plan.Deployment
import TokenPlan.Proofs.Plan.Dependency

/-!
What a deployment resolves to, and what is reported where it does not. It resolves as soon as the
actions have run whose contracts own something.
-/

set_option autoImplicit false
set_option relaxedAutoImplicit false

namespace TokenPlan

variable {ρ : Type} [Progress ρ] {results : ρ}

/-! ### What a deployment resolves to -/

/-- The address of an owner, if it is known. -/
def Target.address? (results : ρ) : Target → Option Address
  | .account address => some address
  | .action id => Progress.addressOf results id

private theorem Target.resolve_eq (target : Target) (referrer : String) :
    target.resolve results referrer = require (.unresolved referrer) (target.address? results) := by
  cases target <;> rfl

namespace Deployment

/-- The name that stands with the first owner whose address is not known. -/
def firstUnknown? (results : ρ) (targets : List (String × Target)) : Option String :=
  (targets.find? fun entry => (entry.2.address? results).isNone).map Prod.fst

theorem firstUnknown?_cons (name : String) (target : Target) (rest : List (String × Target)) :
    firstUnknown? results ((name, target) :: rest) =
      if (target.address? results).isNone then some name else firstUnknown? results rest := by
  unfold firstUnknown?
  cases unknown : (target.address? results).isNone <;> simp [unknown]

private theorem resolveAllocations_eq_ok_iff {targets : List (String × Target)}
    {addresses : List (String × Address)} :
    resolveAllocations results targets = .ok addresses ↔
      addresses.map (fun entry => (entry.1, some entry.2)) =
        targets.map fun entry => (entry.1, entry.2.address? results) := by
  induction targets generalizing addresses with
  | nil =>
    rw [resolveAllocations, Except.ok.injEq, List.map_nil, List.map_eq_nil_iff]
    exact eq_comm
  | cons entry rest ih =>
    obtain ⟨id, target⟩ := entry
    simp only [resolveAllocations, bind_eq_ok_iff, Target.resolve_eq, require_eq_ok_iff, ih]
    constructor
    · rintro ⟨address, known, others, others_known, done⟩
      cases done
      simp [known, others_known]
    · intro known
      obtain ⟨first, others, rfl, first_known, others_known⟩ := List.map_eq_cons_iff.mp known
      obtain ⟨rfl, target_known⟩ := Prod.mk.inj first_known
      exact ⟨first.2, target_known.symm, others, others_known, rfl⟩

private theorem resolveAllocations_eq_error_iff {targets : List (String × Target)} {e : PlanError} :
    resolveAllocations results targets = .error e ↔
      ∃ name, firstUnknown? results targets = some name ∧ e = .unresolved name := by
  induction targets with
  | nil => simp [resolveAllocations, firstUnknown?]
  | cons entry rest ih =>
    obtain ⟨id, target⟩ := entry
    rw [resolveAllocations, bind_eq_error_iff, Target.resolve_eq, firstUnknown?_cons]
    cases known : target.address? results with
    | none => simp [require, eq_comm]
    | some address =>
      rw [Option.isNone_some, if_neg Bool.false_ne_true, ← ih]
      simp [require, bind_eq_error_iff, pure, Except.pure]

/-- All owners in the order in which they resolve, with the names that are reported for them. -/
def references (d : Deployment) : List (String × Target) :=
  (d.token.label, d.token) :: (d.sale.label, d.sale) :: (d.paymentAsset.label, d.paymentAsset) ::
    d.allocations

theorem resolve_eq_error_iff {d : Deployment} {e : PlanError} :
    d.resolve results = .error e ↔
      ∃ name, firstUnknown? results d.references = some name ∧ e = .unresolved name := by
  rw [← resolveAllocations_eq_error_iff]
  simp only [resolve, references, resolveAllocations, bind_eq_error_iff, pure, Except.pure,
    reduceCtorEq, and_false, exists_false, or_false]

theorem exists_resolve_iff_firstUnknown? {d : Deployment} :
    (∃ r, d.resolve results = .ok r) ↔ firstUnknown? results d.references = none := by
  have refused : ∀ e, d.resolve results = .error e ↔
      ∃ name, firstUnknown? results d.references = some name ∧ e = .unresolved name :=
    fun e => resolve_eq_error_iff
  cases resolved : d.resolve results with
  | error e =>
    obtain ⟨name, unknown, -⟩ := (refused e).mp resolved
    simp [unknown]
  | ok r =>
    cases unknown : firstUnknown? results d.references with
    | none => simp
    | some name =>
      have contrary := (refused _).mpr ⟨name, unknown, rfl⟩
      rw [resolved] at contrary
      cases contrary

theorem resolve_eq_ok_iff {d : Deployment} {r : ResolvedDeployment} :
    d.resolve results = .ok r ↔
      d.token.address? results = some r.token ∧ d.sale.address? results = some r.sale ∧
        d.paymentAsset.address? results = some r.paymentAsset ∧
          r.allocations.map (fun entry => (entry.1, some entry.2)) =
            d.allocations.map fun entry => (entry.1, entry.2.address? results) := by
  simp only [resolve, bind_eq_ok_iff, Target.resolve_eq, require_eq_ok_iff,
    resolveAllocations_eq_ok_iff]
  constructor
  · rintro ⟨token, token_known, sale, sale_known, asset, asset_known, addresses, others, done⟩
    cases done
    exact ⟨token_known, sale_known, asset_known, others⟩
  · rintro ⟨token, sale, asset, others⟩
    exact ⟨r.token, token, r.sale, sale, r.paymentAsset, asset, r.allocations, others, rfl⟩

theorem resolve_congr {σ : Type} [Progress σ] {others : σ}
    (same : ∀ id, Progress.addressOf results id = Progress.addressOf others id)
    (d : Deployment) : d.resolve results = d.resolve others := by
  have single : ∀ (target : Target) (name : String),
      target.resolve results name = target.resolve others name := by
    intro target name
    cases target with
    | account address => rfl
    | action id => rw [Target.resolve, Target.resolve, same]
  have several : ∀ targets : List (String × Target),
      resolveAllocations results targets = resolveAllocations others targets := by
    intro targets
    induction targets with
    | nil => rfl
    | cons entry rest ih => rw [resolveAllocations, resolveAllocations, single, ih]
  rw [resolve, resolve, single, single, single, several]

end Deployment

/-! ### When a deployment resolves -/

/-- Every action that the owner waits for has run. -/
def Target.Known (results : ρ) (target : Target) : Prop :=
  ∀ id, target.action? = some id → Progress.isComplete results id = true

private theorem Target.known_iff {target : Target} :
    target.Known results ↔ (target.address? results).isSome = true := by
  cases target with
  | account address => simp [Target.Known, Target.action?, Target.address?]
  | action id => simp [Target.Known, Target.action?, Target.address?, Progress.isComplete]

namespace Deployment

def owners (d : Deployment) : List Target :=
  d.token :: d.sale :: d.paymentAsset :: d.allocations.map Prod.snd

/-- A deployment resolves exactly where every owner is known. -/
theorem exists_resolve_iff {d : Deployment} :
    (∃ resolved, d.resolve results = .ok resolved) ↔ ∀ owner ∈ d.owners, owner.Known results := by
  rw [exists_resolve_iff_firstUnknown?, firstUnknown?, Option.map_eq_none_iff, List.find?_eq_none]
  simp only [references, owners, List.forall_mem_cons, List.forall_mem_map, Target.known_iff,
    ← Option.not_isSome, Bool.not_eq_true, Bool.not_eq_false']

end Deployment

/-! ### The owners of a plan -/

private theorem Entries.mem_set {α : Type} {key : String} {value : α} {entries : List (String × α)}
    {entry : String × α} (mem : entry ∈ set key value entries) :
    entry = (key, value) ∨ entry ∈ entries := by
  induction entries with
  | nil => exact Or.inl (List.mem_singleton.mp mem)
  | cons first rest ih =>
    by_cases same : first.1 = key
    · rw [set, if_pos same] at mem
      rcases List.mem_cons.mp mem with rfl | mem
      · exact Or.inl rfl
      · exact Or.inr (List.mem_cons_of_mem first mem)
    · rw [set, if_neg same] at mem
      rcases List.mem_cons.mp mem with rfl | mem
      · exact Or.inr List.mem_cons_self
      · rcases ih mem with rfl | mem
        · exact Or.inl rfl
        · exact Or.inr (List.mem_cons_of_mem first mem)

namespace Plan

private theorem mem_targetsOf {saleId : ActionId} {allocations : List Allocation}
    {entry : String × Target} (mem : entry ∈ targetsOf saleId allocations) :
    ∃ a ∈ allocations, entry = (a.id, a.owner saleId) := by
  have folded : ∀ (before : List (String × Target)) (allocations : List Allocation),
      entry ∈ allocations.foldl (fun targets a => Entries.set a.id (a.owner saleId) targets)
        before → entry ∈ before ∨ ∃ a ∈ allocations, entry = (a.id, a.owner saleId) := by
    intro before allocations
    induction allocations generalizing before with
    | nil => exact Or.inl
    | cons a rest ih =>
      intro mem
      rcases ih _ mem with earlier | ⟨b, b_mem, rfl⟩
      · rcases Entries.mem_set earlier with rfl | earlier
        · exact Or.inr ⟨a, List.mem_cons_self, rfl⟩
        · exact Or.inl earlier
      · exact Or.inr ⟨b, List.mem_cons_of_mem a b_mem, rfl⟩
  rcases folded [] allocations mem with none | found
  · cases none
  · exact found

private theorem action?_owner {saleId : ActionId} {allocations : List Allocation}
    (literal : Literal allocations) {a : Allocation} (mem : a ∈ allocations) {id : ActionId}
    (action : (a.owner saleId).action? = some id) : id = saleId ∨ id ∈ poolIdsOf allocations := by
  have a_literal := literal a mem
  obtain ⟨name, tokens, kind, target⟩ := a
  cases kind with
  | saleTier tier =>
    cases action
    exact Or.inl rfl
  | liquidityReserve =>
    cases action
    exact Or.inl rfl
  | vestingPool pool =>
    cases action
    exact Or.inr (List.mem_map.mpr ⟨(name, pool), List.mem_filterMap.mpr ⟨_, mem, rfl⟩, rfl⟩)
  | directAccount =>
    obtain ⟨address, rfl⟩ := a_literal rfl
    cases action

theorem created_actionsFor (settings : Settings) (allocations : List Allocation) :
    created (actionsFor settings allocations) =
      settings.paymentAsset.owner.action?.toList ++
        (settings.saleId :: (poolIdsOf allocations ++ [settings.tokenId])) := by
  have pool_calls : created ((poolsOf allocations).map (poolCall settings)) = [] := by
    induction poolsOf allocations with
    | nil => rfl
    | cons pool rest ih => exact ih
  have sale_calls : created (saleCalls settings) = [] := rfl
  simp only [actionsFor, created_append, created_assetCreations, created_saleCreation,
    created_map_poolCreation, created_tokenCreation, pool_calls, sale_calls]
  rfl

theorem owner_created (settings : Settings) {d : Distribution} (literal : Literal d.allocations)
    {owner : Target} (mem : owner ∈ (planOf settings d).deployment.owners) {id : ActionId}
    (action : owner.action? = some id) : id ∈ created (actionsFor settings d.allocations) := by
  rw [created_actionsFor]
  simp only [Deployment.owners, planOf, List.mem_cons, List.mem_map] at mem
  rcases mem with rfl | rfl | rfl | ⟨entry, entry_mem, rfl⟩
  · cases action
    simp
  · cases action
    simp
  · simp [action]
  · obtain ⟨a, a_mem, rfl⟩ := mem_targetsOf entry_mem
    rcases action?_owner literal a_mem action with rfl | pool
    · simp
    · simp [pool]

end Plan

end TokenPlan
