import TokenPlan.Proofs.Plan.Settlement
import TokenPlan.Proofs.Plan.Solvency

/-!
Who owns what in a plan. The allocations of a plan are those that its table comes to, in the order
of the table, with the reserve behind them. Each keeps its name, its tokens and its kind; a tier and
the reserve are now owned by the sale contract, a pool by the vesting contract that is created under
its name, and an account by itself as before. The deployment tells the same owners under the same
names.
-/

set_option autoImplicit false
set_option relaxedAutoImplicit false

namespace TokenPlan

/-- The same allocation before and after a plan has given owners to those that had none. -/
inductive Allocation.Owned (saleId : ActionId) : Allocation → Allocation → Prop
  | tier (id : String) (tokens : Amount) (tier : SaleTier) :
      Owned saleId ⟨id, tokens, .saleTier tier, none⟩
        ⟨id, tokens, .saleTier tier, some (.action saleId)⟩
  | reserve (id : String) (tokens : Amount) :
      Owned saleId ⟨id, tokens, .liquidityReserve, none⟩
        ⟨id, tokens, .liquidityReserve, some (.action saleId)⟩
  | pool (id : String) (tokens : Amount) (pool : VestingPool) :
      Owned saleId ⟨id, tokens, .vestingPool pool, none⟩
        ⟨id, tokens, .vestingPool pool, some (.action id)⟩
  | account (id : String) (tokens : Amount) (address : Address) :
      Owned saleId ⟨id, tokens, .directAccount, some (.account address)⟩
        ⟨id, tokens, .directAccount, some (.account address)⟩

namespace Plan

/-- The actions with a name. -/
def named (id : ActionId) (actions : List Action) : List Action :=
  actions.filter fun a => a.id = id

/-- The calls of the contract that the action with a name creates. -/
def callsTo (id : ActionId) (actions : List Action) : List Action :=
  actions.filter fun a => a.calledAction? = some id

end Plan

namespace CompiledPlan

/-- Under the name of the pool one contract is created for its schedule, and it is called once. -/
structure ServesPool (p : CompiledPlan) (settings : Settings) (id : String) (pool : VestingPool) :
    Prop where
  created : Plan.named id p.actions =
    [Action.create id settings.vestingContract
      [.string pool.name, .ref settings.saleId, .ofWord pool.vesting.launchShare,
        .ofWord pool.vesting.cliffDuration, .ofWord pool.vesting.cliffShare,
        .ofWord pool.vesting.linearDuration]]
  called : Plan.callsTo id p.actions =
    [Action.call (Plan.callId (.action id) "setToken") (.action id) "setToken"
      [.ref settings.tokenId]]

/-- The plan gives their owners to `allocations` and to the reserve, and changes nothing else. -/
structure Allots (p : CompiledPlan) (rows : List Row) (settings : Settings)
    (allocations : List Allocation) : Prop where
  declared : List.Forall₂ Row.Yields rows allocations
  owned : List.Forall₂ (Allocation.Owned settings.saleId)
    (allocations ++ [Allocation.liquidity settings.reserveId p.supply.remainder]) p.allocations
  remains : 0 < p.supply.remainder.toNat
  sale : ∃ arguments, Plan.named settings.saleId p.actions =
    [Action.create settings.saleId settings.saleContract arguments]
  token : ∃ arguments, Plan.named settings.tokenId p.actions =
    [Action.create settings.tokenId settings.tokenContract arguments]
  pools : ∀ a ∈ p.allocations, ∀ pool, a.kind = .vestingPool pool →
    p.ServesPool settings a.id pool
  deployed : p.deployment.allocations.map (fun entry => (entry.1, some entry.2)) =
    p.allocations.map fun a => (a.id, a.target)
  distinct : (p.allocations.map Allocation.id).Nodup
  found : ∀ a ∈ p.allocations, p.deployment.allocation? a.id = a.target

end CompiledPlan

private theorem Entries.get?_of_mem {α : Type} {key : String} {value : α}
    {entries : List (String × α)}
    (distinct : (entries.map Prod.fst).Nodup) (mem : (key, value) ∈ entries) :
    get? key entries = some value := by
  have alone := Plan.filter_key_eq_singleton distinct mem
  rw [get?, ← List.head?_filter, alone]
  rfl

namespace Plan

variable {settings : Settings} {allocations : List Allocation} {d : Distribution}

private theorem owned_bound (saleId : ActionId) {a : Allocation}
    (unbound : a.kind ≠ .directAccount → a.target = none)
    (literal : a.kind = .directAccount → ∃ address, a.target = some (.account address)) :
    a.Owned saleId (a.bound saleId) := by
  obtain ⟨id, tokens, kind, target⟩ := a
  cases kind with
  | saleTier tier =>
    obtain rfl : target = none := unbound nofun
    exact Allocation.Owned.tier id tokens tier
  | liquidityReserve =>
    obtain rfl : target = none := unbound nofun
    exact Allocation.Owned.reserve id tokens
  | vestingPool pool =>
    obtain rfl : target = none := unbound nofun
    exact Allocation.Owned.pool id tokens pool
  | directAccount =>
    obtain ⟨address, rfl⟩ := literal rfl
    exact Allocation.Owned.account id tokens address

private theorem forall₂_owned (saleId : ActionId) (ready : d.Ready)
    (literal : Literal d.allocations) :
    List.Forall₂ (Allocation.Owned saleId) d.allocations
      (d.allocations.map (Allocation.bound saleId)) := by
  rw [List.forall₂_map_right_iff, List.forall₂_same]
  exact fun a mem => owned_bound saleId (ready.unbound a mem) (literal a mem)

/-! ### The contracts of a plan -/

private theorem named_eq_singleton {actions : List Action} {a : Action}
    (ordered : checkOrder actions = .ok ()) (mem : a ∈ actions) : named a.id actions = [a] :=
  filter_key_eq_singleton (checkOrder_eq_ok_iff.mp ordered).1 mem

private theorem nodup_poolIdsOf (ordered : checkOrder (actionsFor settings allocations) = .ok ()) :
    (poolIdsOf allocations).Nodup := by
  have distinct := (checkOrder_eq_ok_iff.mp ordered).1
  rw [map_id_actionsFor] at distinct
  have behind_asset := (List.nodup_append.mp distinct).2.1
  have behind_sale := (List.nodup_append.mp behind_asset).2.1
  exact (List.nodup_append.mp behind_sale).1

private theorem callsTo_append (id : ActionId) (first second : List Action) :
    callsTo id (first ++ second) = callsTo id first ++ callsTo id second :=
  List.filter_append first second

private theorem callsTo_actionsFor {id : ActionId} (other : settings.saleId ≠ id)
    (allocations : List Allocation) :
    callsTo id (actionsFor settings allocations) =
      ((poolsOf allocations).filter fun pool => pool.1 = id).map (poolCall settings) := by
  have asset : callsTo id (assetCreations settings.paymentAsset) = [] := by
    cases settings.paymentAsset <;> simp [callsTo, assetCreations]
  have sale : callsTo id [saleCreation settings allocations] = [] := by
    simp [callsTo, saleCreation]
  have pools : callsTo id ((poolsOf allocations).map (poolCreation settings)) = [] := by
    simp [callsTo, List.filter_map, Function.comp_def, poolCreation]
  have token : callsTo id [tokenCreation settings allocations] = [] := by
    simp [callsTo, tokenCreation]
  have pool_calls : callsTo id ((poolsOf allocations).map (poolCall settings)) =
      ((poolsOf allocations).filter fun pool => pool.1 = id).map (poolCall settings) := by
    simp [callsTo, List.filter_map, Function.comp_def, poolCall, contractCall, Target.action?]
  have sale_calls : callsTo id (saleCalls settings) = [] := by
    simp [callsTo, saleCalls, contractCall, Target.action?, other]
  simp only [actionsFor, callsTo_append, asset, sale, pools, token, pool_calls, sale_calls,
    List.nil_append, List.append_nil]

private theorem servesPool_planOf
    (ordered : checkOrder (actionsFor settings d.allocations) = .ok ())
    {id : String} {pool : VestingPool} (mem : (id, pool) ∈ poolsOf d.allocations) :
    (planOf settings d).ServesPool settings id pool := by
  have other : settings.saleId ≠ id := by
    rintro rfl
    exact saleId_not_mem_poolIdsOf ordered (List.mem_map.mpr ⟨_, mem, rfl⟩)
  constructor
  case created => exact named_eq_singleton ordered (poolCreation_mem settings mem)
  case called =>
    have alone := filter_key_eq_singleton (nodup_poolIdsOf ordered) mem
    change callsTo id (actionsFor settings d.allocations) = _
    rw [callsTo_actionsFor other, alone]
    rfl

/-! ### The deployment of a plan -/

private theorem target_bound_of_literal {saleId : ActionId} (literal : Literal allocations)
    {a : Allocation} (mem : a ∈ allocations) :
    (a.bound saleId).target = some (a.owner saleId) := by
  apply Allocation.target_bound
  intro direct
  obtain ⟨address, owner⟩ := literal a mem direct
  rw [owner]
  rfl

private theorem deployed_planOf (literal : Literal d.allocations)
    (distinct : (d.allocations.map Allocation.id).Nodup) :
    (planOf settings d).deployment.allocations.map (fun entry => (entry.1, some entry.2)) =
      (planOf settings d).allocations.map fun a => (a.id, a.target) := by
  rw [planOf, targetsOf_eq settings.saleId distinct, List.map_map, List.map_map]
  apply List.map_congr_left
  intro a mem
  simp only [Function.comp_apply, Allocation.bound_id, target_bound_of_literal literal mem]

private theorem found_planOf (literal : Literal d.allocations)
    (distinct : (d.allocations.map Allocation.id).Nodup) {a : Allocation}
    (mem : a ∈ d.allocations) :
    (planOf settings d).deployment.allocation? (a.bound settings.saleId).id =
      (a.bound settings.saleId).target := by
  rw [Allocation.bound_id, target_bound_of_literal literal mem, planOf,
    targetsOf_eq settings.saleId distinct]
  apply Entries.get?_of_mem
  · rw [List.map_map]
    exact distinct
  · exact List.mem_map.mpr ⟨a, mem, rfl⟩

/-! ### The whole -/

/-- A plan keeps the allocations of its table and gives each the owner that its kind asks for. -/
theorem allots_of_planRows {d : Denomination} {rows : List Row} {settings : Settings}
    {p : CompiledPlan} (planned : planRows d rows settings = .ok p) :
    ∃ allocations, deriveAll d rows = .ok allocations ∧ p.Allots rows settings allocations := by
  obtain ⟨allocations, report, derived, reported, free, ordered, rfl⟩ :=
    planRows_eq_ok_iff.mp planned
  have yields := yields_of_deriveAll derived
  have ready := ready_completed settings yields reported
  have literal : Literal (completed allocations report settings).allocations :=
    literal_completed settings yields
  have distinct := nodup_completed report derived free
  refine ⟨allocations, derived, ?_⟩
  constructor
  case declared => exact yields
  case owned => exact forall₂_owned settings.saleId ready literal
  case remains => exact (reportSupply_eq_ok_iff.mp reported).2.2.1
  case sale => exact ⟨_, named_eq_singleton ordered (saleCreation_mem settings _)⟩
  case token => exact ⟨_, named_eq_singleton ordered (tokenCreation_mem settings _)⟩
  case pools =>
    intro b mem pool kind
    obtain ⟨a, a_mem, rfl⟩ := List.mem_map.mp mem
    rw [Allocation.bound_kind] at kind
    rw [Allocation.bound_id]
    refine servesPool_planOf ordered (List.mem_filterMap.mpr ⟨a, a_mem, ?_⟩)
    simp [Allocation.vestingPool?, kind]
  case deployed => exact deployed_planOf literal distinct
  case distinct => simpa [planOf, Function.comp_def] using distinct
  case found =>
    intro b mem
    obtain ⟨a, a_mem, rfl⟩ := List.mem_map.mp mem
    exact found_planOf literal distinct a_mem

theorem allots_mixedRows :
    ∃ p, planRows thousand mixedRows Settings.standard = .ok p ∧
      ∃ allocations, deriveAll thousand mixedRows = .ok allocations ∧
        p.Allots mixedRows Settings.standard allocations := by
  obtain ⟨p, planned⟩ := isOk_iff.mp
    (show (planRows thousand mixedRows Settings.standard).isOk = true by decide +kernel)
  exact ⟨p, planned, allots_of_planRows planned⟩

end Plan

end TokenPlan
