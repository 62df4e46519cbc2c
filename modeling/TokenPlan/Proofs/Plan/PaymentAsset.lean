import TokenPlan.Proofs.Plan.Minting
import TokenPlan.Proofs.Plan.Outcome
import TokenPlan.Proofs.Supply.Provenance

/-!
What a plan owes to the choice of the payment asset. With a test asset the plan creates the asset
before anything else; the sale contract is told the asset in the last call. Nothing else depends on
the choice, so the plan for a test network is the plan for the main one up to these two actions. A
plan for an asset that exists is bound to it, and to the router that the settings name.
-/

set_option autoImplicit false
set_option relaxedAutoImplicit false

namespace TokenPlan

namespace Plan

/-- The call that makes a payment asset known to the sale contract. -/
def assetCall (saleId : ActionId) (asset : Argument) : Action :=
  Action.call (callId (.action saleId) setPaymentAssetMethod) (.action saleId)
    setPaymentAssetMethod [asset]

/-- The actions between the creation of the payment asset and the call that makes it known. -/
def sharedActions (settings : Settings) (allocations : List Allocation) : List Action :=
  [saleCreation settings allocations] ++ ((poolsOf allocations).map (poolCreation settings) ++
    ([tokenCreation settings allocations] ++ ((poolsOf allocations).map (poolCall settings) ++
      [contractCall settings.saleId setTokenMethod (.action settings.tokenId)])))

end Plan

/-- The same settings with a payment asset that exists. -/
def Settings.withExisting (settings : Settings) (asset : Address) : Settings :=
  { settings with paymentAsset := .existing asset }

/--
The plan `p` creates the payment asset `contract`, and `q` is the same plan with the asset at an
address: the creation, which comes first, is left out, and the last call has the address in the
place of the reference.
-/
structure CompiledPlan.AssetReplaced (p q : CompiledPlan) (saleId : ActionId) (contract : String)
    (asset : Address) : Prop where
  actions : ∃ shared,
    p.actions = Action.create contract contract [] ::
      (shared ++ [Plan.assetCall saleId (.ref contract)]) ∧
    q.actions = shared ++ [Plan.assetCall saleId (.address asset)]
  created : p.deployment.paymentAsset = .action contract
  deployment : q.deployment = { p.deployment with paymentAsset := .account asset }
  allocations : q.allocations = p.allocations
  supply : q.supply = p.supply

namespace Plan

private theorem actionsFor_eq (settings : Settings) (allocations : List Allocation) :
    actionsFor settings allocations =
      assetCreations settings.paymentAsset ++ (sharedActions settings allocations ++
        [assetCall settings.saleId (.ofTarget settings.paymentAsset.owner)]) := by
  simp only [actionsFor, sharedActions, saleCalls, List.append_assoc, List.cons_append,
    List.nil_append]
  rfl

private theorem checkOrder_actionsFor_eq_ok_iff {settings : Settings}
    {allocations : List Allocation}
    (literal : Literal allocations) :
    checkOrder (actionsFor settings allocations) = .ok () ↔
      ((actionsFor settings allocations).map Action.id).Nodup := by
  constructor
  · exact fun ordered => (checkOrder_eq_ok_iff.mp ordered).1
  · intro distinct
    have fresh : firstRepeated? [] (actionsFor settings allocations) = none :=
      firstRepeated?_eq_none_iff.mpr ⟨distinct, by simp⟩
    rw [checkOrder_actionsFor settings literal, fresh]

private theorem compile_eq_ok_iff_nodup {d : Distribution} {settings : Settings} {p : CompiledPlan}
    (literal : Literal d.allocations) :
    compile d settings = .ok p ↔
      d.Ready ∧ ((actionsFor settings d.allocations).map Action.id).Nodup ∧
        p = planOf settings d := by
  rw [compile_eq_ok_iff, checkOrder_actionsFor_eq_ok_iff literal]

variable {settings : Settings} {contract : String}

private theorem map_id_actionsFor_withExisting (deploys : settings.paymentAsset = .deploy contract)
    (asset : Address) (allocations : List Allocation) :
    (actionsFor settings allocations).map Action.id =
      contract :: (actionsFor (settings.withExisting asset) allocations).map Action.id := by
  rw [map_id_actionsFor, map_id_actionsFor, deploys]
  rfl

private theorem assetReplaced_planOf (deploys : settings.paymentAsset = .deploy contract)
    (asset : Address) (d : Distribution) :
    (planOf settings d).AssetReplaced (planOf (settings.withExisting asset) d) settings.saleId
      contract asset := by
  have owner : settings.paymentAsset.owner = .action contract := by
    rw [deploys]
    rfl
  constructor
  case actions =>
    refine ⟨sharedActions settings d.allocations, ?_, actionsFor_eq _ d.allocations⟩
    change actionsFor settings d.allocations = _
    rw [actionsFor_eq, deploys]
    rfl
  case created => exact owner
  case deployment => rfl
  case allocations => rfl
  case supply => rfl

/--
With a test asset a distribution compiles to the plan for an existing asset, up to the asset, and it
compiles wherever that plan does and has no action of the name of the test asset.
-/
theorem compile_withExisting {d : Distribution} (made : d.Made)
    (deploys : settings.paymentAsset = .deploy contract) (asset : Address) :
    (∀ p, compile d settings = .ok p →
      ∃ q, compile d (settings.withExisting asset) = .ok q ∧
        p.AssetReplaced q settings.saleId contract asset) ∧
    (∀ q, compile d (settings.withExisting asset) = .ok q → contract ∉ q.actions.map Action.id →
      ∃ p, compile d settings = .ok p ∧ p.AssetReplaced q settings.saleId contract asset) := by
  have literal : Literal d.allocations := fun a mem direct => made.literal mem direct
  have names := map_id_actionsFor_withExisting deploys asset d.allocations
  have replaced := assetReplaced_planOf deploys asset d
  constructor
  · intro p compiled
    obtain ⟨ready, distinct, rfl⟩ := (compile_eq_ok_iff_nodup literal).mp compiled
    rw [names, List.nodup_cons] at distinct
    exact ⟨_, (compile_eq_ok_iff_nodup literal).mpr ⟨ready, distinct.2, rfl⟩, replaced⟩
  · intro q compiled free
    obtain ⟨ready, distinct, rfl⟩ := (compile_eq_ok_iff_nodup literal).mp compiled
    have distinct_with : ((actionsFor settings d.allocations).map Action.id).Nodup := by
      rw [names]
      exact List.nodup_cons.mpr ⟨free, distinct⟩
    exact ⟨_, (compile_eq_ok_iff_nodup literal).mpr ⟨ready, distinct_with, rfl⟩, replaced⟩

theorem compile_withExisting_smallDistribution :
    let production := Settings.standard.withExisting Address.zero
    ∃ p q, compile smallDistribution Settings.standard = .ok p ∧
      compile smallDistribution production = .ok q ∧ "USDT" ∉ q.actions.map Action.id ∧
        p.AssetReplaced q "SaleContract" "USDT" Address.zero := by
  intro production
  have made : smallDistribution.Made := by
    refine ⟨smallDistribution.allocations.dropLast, smallDistribution.report, "liquidity_dex", ?_,
      rfl⟩
    simp only [smallDistribution, List.dropLast_cons_cons, List.dropLast_singleton,
      List.forall_mem_cons]
    exact ⟨.sale .., .vesting .., .account .., .account .., nofun⟩
  obtain ⟨q, compiled⟩ := isOk_iff.mp
    (show (compile smallDistribution production).isOk = true by decide +kernel)
  have free : "USDT" ∉ q.actions.map Action.id := by
    obtain ⟨-, -, rfl⟩ := compile_eq_ok_iff.mp compiled
    decide +kernel
  have deploys : Settings.standard.paymentAsset = .deploy "USDT" := rfl
  obtain ⟨-, backward⟩ := compile_withExisting made deploys Address.zero
  obtain ⟨p, compiled_with, replaced⟩ := backward q compiled free
  exact ⟨p, q, compiled_with, compiled, free, replaced⟩

end Plan

/-! ### Plans for an asset that exists -/

namespace CompiledPlan

/-- What each call of the method is told. -/
def calls (p : CompiledPlan) (method : String) : List (List Argument) :=
  p.actions.filterMap fun a =>
    match a.operation with
    | .create .. => none
    | .call _ called arguments => if called = method then some arguments else none

/-- What each creation of the contract is told. -/
def creations (p : CompiledPlan) (contract : String) : List (List Argument) :=
  p.actions.filterMap fun a =>
    match a.operation with
    | .create created arguments => if created = contract then some arguments else none
    | .call .. => none

/-- The plan is for the asset and the router at these addresses, and creates no test asset. -/
structure BoundTo (p : CompiledPlan) (asset router : Address) : Prop where
  untested : p.creations "USDT" = []
  deployed : p.deployment.paymentAsset = .account asset
  paid : p.calls "setUSDT" = [[.address asset]]
  routed : ∃ others, p.creations "SaleContract" = [.address router :: others]

end CompiledPlan

/-- The settings with standard names, for an asset and a router that exist. -/
def Settings.bound (asset router : Address) : Settings :=
  { Settings.standard with router := router, paymentAsset := .existing asset }

namespace Plan

private theorem filterMap_actionsFor {α : Type} {select : Action → Option α} {settings : Settings}
    (unpooled : ∀ pool, select (poolCreation settings pool) = none)
    (uncalled : ∀ pool, select (poolCall settings pool) = none) (allocations : List Allocation) :
    (actionsFor settings allocations).filterMap select =
      (assetCreations settings.paymentAsset ++
        (saleCreation settings allocations :: tokenCreation settings allocations ::
          saleCalls settings)).filterMap select := by
  have creations : ((poolsOf allocations).map (poolCreation settings)).filterMap select = [] := by
    simp [List.filterMap_map, unpooled]
  have calls : ((poolsOf allocations).map (poolCall settings)).filterMap select = [] := by
    simp [List.filterMap_map, uncalled]
  simp [actionsFor, List.filterMap_cons, creations, calls]

theorem boundTo_planOf (asset router : Address) (d : Distribution) :
    (planOf (Settings.bound asset router) d).BoundTo asset router := by
  constructor
  case untested => exact filterMap_actionsFor (fun _ => rfl) (fun _ => rfl) d.allocations
  case deployed => rfl
  case paid => exact filterMap_actionsFor (fun _ => rfl) (fun _ => rfl) d.allocations
  case routed => exact ⟨_, filterMap_actionsFor (fun _ => rfl) (fun _ => rfl) d.allocations⟩

end Plan

end TokenPlan
