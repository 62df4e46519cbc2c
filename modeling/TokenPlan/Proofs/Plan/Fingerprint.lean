import TokenPlan.Proofs.Plan.Encoding
import TokenPlan.Proofs.Plan.Outcome

/-!
The text that is digested tells a plan and the settings behind it. Each setting leaves a trace in
the plan, but for the vesting contract where the plan creates none.
-/

set_option autoImplicit false
set_option relaxedAutoImplicit false

namespace TokenPlan

/-- Two texts that have one digest. -/
def Digest.Collide (first second : String) : Prop :=
  first ≠ second ∧ Digest.ofText first = Digest.ofText second

def CompiledPlan.HasPool (p : CompiledPlan) : Prop :=
  ∃ a ∈ p.allocations, a.vestingPool?.isSome = true

namespace Plan

private theorem poolsOf_map_bound (saleId : ActionId) (allocations : List Allocation) :
    poolsOf (allocations.map (Allocation.bound saleId)) = poolsOf allocations := by
  unfold poolsOf
  rw [List.filterMap_map]
  apply List.filterMap_congr
  intro a _
  simp only [Function.comp_apply, Allocation.vestingPool?, Allocation.bound_kind,
    Allocation.bound_id]

private theorem hasPool_planOf_iff {settings : Settings} {d : Distribution} :
    (planOf settings d).HasPool ↔ poolsOf d.allocations ≠ [] := by
  rw [← poolsOf_map_bound settings.saleId, poolsOf, Ne, List.filterMap_eq_nil_iff]
  simp [CompiledPlan.HasPool, planOf, Option.isSome_iff_ne_none]

/-! ### The traces of the settings -/

section Traces

variable {s t : Settings} {d e : Distribution}

private theorem action_eq (ordered : checkOrder (actionsFor s d.allocations) = .ok ())
    (ordered' : checkOrder (actionsFor t e.allocations) = .ok ())
    (same : planOf s d = planOf t e) {a b : Action} (mem : a ∈ actionsFor s d.allocations)
    (mem' : b ∈ actionsFor t e.allocations) (named : a.id = b.id) : a = b := by
  have found := action?_planOf s ordered mem
  rw [same, named, action?_planOf t ordered' mem'] at found
  exact (Option.some.inj found).symm

private theorem saleId_eq (same : planOf s d = planOf t e) : s.saleId = t.saleId :=
  Target.action.inj (congrArg (fun p => p.deployment.sale) same)

private theorem tokenId_eq (same : planOf s d = planOf t e) : s.tokenId = t.tokenId :=
  Target.action.inj (congrArg (fun p => p.deployment.token) same)

private theorem paymentAsset_eq (same : planOf s d = planOf t e) :
    s.paymentAsset = t.paymentAsset := by
  have owner : s.paymentAsset.owner = t.paymentAsset.owner :=
    congrArg (fun p => p.deployment.paymentAsset) same
  cases asset : s.paymentAsset <;> cases asset' : t.paymentAsset <;>
    simp_all [PaymentAsset.owner]

private theorem saleSettings_eq (ordered : checkOrder (actionsFor s d.allocations) = .ok ())
    (ordered' : checkOrder (actionsFor t e.allocations) = .ok ())
    (same : planOf s d = planOf t e) :
    s.saleContract = t.saleContract ∧ s.router = t.router ∧ s.liquidityRate = t.liquidityRate := by
  have created : saleCreation s d.allocations = saleCreation t e.allocations :=
    action_eq ordered ordered' same (saleCreation_mem s _) (saleCreation_mem t _) (saleId_eq same)
  have operation := congrArg Action.operation created
  obtain ⟨contract, arguments⟩ := Operation.create.inj operation
  obtain ⟨router, rest⟩ := List.cons.inj arguments
  exact ⟨contract, Argument.address.inj router, Argument.ofWord_inj.mp (List.cons.inj rest).1⟩

private theorem tokenContract_eq (ordered : checkOrder (actionsFor s d.allocations) = .ok ())
    (ordered' : checkOrder (actionsFor t e.allocations) = .ok ())
    (same : planOf s d = planOf t e) : s.tokenContract = t.tokenContract := by
  have created : tokenCreation s d.allocations = tokenCreation t e.allocations :=
    action_eq ordered ordered' same (tokenCreation_mem s _) (tokenCreation_mem t _)
      (tokenId_eq same)
  exact (Operation.create.inj (congrArg Action.operation created)).1

private theorem vestingContract_eq (ordered : checkOrder (actionsFor s d.allocations) = .ok ())
    (ordered' : checkOrder (actionsFor t e.allocations) = .ok ())
    (same : planOf s d = planOf t e) (pooled : (planOf s d).HasPool) :
    s.vestingContract = t.vestingContract := by
  have pools : poolsOf d.allocations = poolsOf e.allocations := by
    calc poolsOf d.allocations
        = poolsOf (planOf s d).allocations := (poolsOf_map_bound s.saleId _).symm
      _ = poolsOf (planOf t e).allocations := by rw [same]
      _ = poolsOf e.allocations := poolsOf_map_bound t.saleId _
  obtain ⟨pool, mem⟩ := List.exists_mem_of_ne_nil _ (hasPool_planOf_iff.mp pooled)
  have created : poolCreation s pool = poolCreation t pool :=
    action_eq ordered ordered' same (poolCreation_mem s mem) (poolCreation_mem t (pools ▸ mem)) rfl
  exact (Operation.create.inj (congrArg Action.operation created)).1

private theorem reserveId_eq {allocations allocations' : List Allocation}
    {report report' : SupplyReport}
    (same : planOf s (completed allocations report s) =
      planOf t (completed allocations' report' t)) : s.reserveId = t.reserveId := by
  have last : ∀ (settings : Settings) (allocations : List Allocation) (report : SupplyReport),
      (planOf settings (completed allocations report settings)).allocations.getLast?.map
        Allocation.id = some settings.reserveId := by
    intro settings allocations report
    rw [allocations_planOf_completed, List.getLast?_concat]
    rfl
  have here := last s allocations report
  rw [same, last t allocations' report'] at here
  exact (Option.some.inj here).symm

end Traces

private theorem planOf_vestingContract (settings : Settings) {d : Distribution}
    (no_pool : poolsOf d.allocations = []) (contract : String) :
    planOf { settings with vestingContract := contract } d = planOf settings d := by
  have actions : actionsFor { settings with vestingContract := contract } d.allocations =
      actionsFor settings d.allocations := by
    unfold actionsFor
    rw [no_pool]
    rfl
  rw [planOf, actions]
  rfl

/-- The settings behind equal plans agree, if not on a vesting contract that no pool uses. -/
private theorem settings_eq_of_planRows {d₁ d₂ : Denomination} {rows₁ rows₂ : List Row}
    {s t : Settings}
    {p : CompiledPlan} (planned₁ : planRows d₁ rows₁ s = .ok p)
    (planned₂ : planRows d₂ rows₂ t = .ok p) :
    { s with vestingContract := t.vestingContract } = t ∧ (p.HasPool → s = t) := by
  obtain ⟨allocations, report, -, -, -, ordered, rfl⟩ := planRows_eq_ok_iff.mp planned₁
  obtain ⟨allocations', report', -, -, -, ordered', same⟩ := planRows_eq_ok_iff.mp planned₂
  obtain ⟨saleContract, router, liquidityRate⟩ := saleSettings_eq ordered ordered' same
  have tokenContract := tokenContract_eq ordered ordered' same
  have vestingContract := vestingContract_eq ordered ordered' same
  have saleId := saleId_eq same
  have tokenId := tokenId_eq same
  have asset := paymentAsset_eq same
  have reserve := reserveId_eq same
  cases s
  cases t
  constructor
  · simp_all
  · intro pooled
    have vesting := vestingContract pooled
    simp_all

private theorem planRows_vestingContract {d : Denomination} {rows : List Row} {settings : Settings}
    {p : CompiledPlan} (planned : planRows d rows settings = .ok p) (no_pool : ¬ p.HasPool)
    (contract : String) :
    planRows d rows { settings with vestingContract := contract } = .ok p := by
  obtain ⟨allocations, report, derived, reported, free, ordered, rfl⟩ :=
    planRows_eq_ok_iff.mp planned
  have no_pools : poolsOf (completed allocations report settings).allocations = [] := by
    rw [hasPool_planOf_iff] at no_pool
    exact Decidable.not_not.mp no_pool
  have same := planOf_vestingContract settings no_pools contract
  refine planRows_eq_ok_iff.mpr ⟨allocations, report, derived, reported, free, ?_, same.symm⟩
  have actions := congrArg CompiledPlan.actions same
  change actionsFor _ _ = actionsFor _ _ at actions
  rw [← ordered]
  exact congrArg checkOrder actions

/--
The text of a plan tells the plan and its settings, but for a vesting contract that no pool uses and
that could be any other; so plans that differ have one fingerprint only if their texts collide.
-/
theorem eq_of_compact_eq {d₁ d₂ : Denomination} {rows₁ rows₂ : List Row} {s t : Settings}
    {p q : CompiledPlan} (planned₁ : planRows d₁ rows₁ s = .ok p)
    (planned₂ : planRows d₂ rows₂ t = .ok q) :
    (p.toJson.compact = q.toJson.compact →
      p = q ∧ { s with vestingContract := t.vestingContract } = t ∧ (p.HasPool → s = t)) ∧
    (¬ p.HasPool → ∀ contract,
      planRows d₁ rows₁ { s with vestingContract := contract } = .ok p) ∧
    (p ≠ q → p.fingerprint = q.fingerprint →
      Digest.Collide p.toJson.compact q.toJson.compact) := by
  have text : p.toJson.compact = q.toJson.compact → p = q :=
    fun same => CompiledPlan.toJson_inj.mp (Json.Value.render_inj.mp same)
  refine ⟨?_, planRows_vestingContract planned₁, ?_⟩
  · intro same
    obtain rfl := text same
    exact ⟨rfl, settings_eq_of_planRows planned₁ planned₂⟩
  · intro differ digests
    exact ⟨fun same => differ (text same), digests⟩

theorem eq_of_compact_eq_unpooled :
    let rows : List Row :=
      [.account ⟨"treasury", Address.zero, .percent (Ratio.millionths 5000000)⟩]
    let other : Settings := { Settings.standard with vestingContract := "Vault" }
    ∃ p q, planRows Denomination.standard rows Settings.standard = .ok p ∧
      planRows Denomination.standard rows other = .ok q ∧ p.toJson.compact = q.toJson.compact ∧
        p = q ∧ { Settings.standard with vestingContract := other.vestingContract } = other ∧
          (p.HasPool → Settings.standard = other) := by
  intro rows other
  obtain ⟨p, planned⟩ : ∃ p, planRows Denomination.standard rows Settings.standard = .ok p :=
    ⟨_, rfl⟩
  have planned_other : planRows Denomination.standard rows other = .ok p := by
    rw [← planned]
    rfl
  exact ⟨p, p, planned, planned_other, rfl, (eq_of_compact_eq planned planned_other).1 rfl⟩

end Plan

end TokenPlan
