import TokenPlan.Proofs.Plan.Alignment
import TokenPlan.Proofs.Plan.Blueprint

/-!
Compiling told in one equation: on a ready distribution it checks the order of the actions that the
plan consists of, and on any other it fails.
-/

set_option autoImplicit false
set_option relaxedAutoImplicit false

namespace TokenPlan

theorem Allocation.target_bound {saleId : ActionId} {a : Allocation}
    (owned : a.kind = .directAccount → a.target.isSome) :
    (a.bound saleId).target = some (a.owner saleId) := by
  unfold Allocation.owner
  cases given : (a.bound saleId).target with
  | some target => rfl
  | none =>
    exfalso
    unfold Allocation.bound at given
    cases kind : a.kind <;> simp_all

private theorem Allocation.requireTarget_bound {saleId : ActionId} {a : Allocation}
    (owned : a.kind = .directAccount → a.target.isSome) :
    (a.bound saleId).requireTarget = .ok (a.owner saleId) := by
  rw [Allocation.requireTarget, Allocation.target_bound owned]
  rfl

private theorem Allocation.isSome_of_requireTarget {a : Allocation} {target : Target}
    (given : a.requireTarget = .ok target) : a.target.isSome := by
  rw [Allocation.requireTarget, require_eq_ok_iff] at given
  rw [given]
  rfl

namespace Plan

theorem poolsOf_cons (a : Allocation) (rest : List Allocation) :
    poolsOf (a :: rest) = poolsOf [a] ++ poolsOf rest := by
  unfold poolsOf
  cases kind : a.vestingPool? <;> simp [kind]

theorem mintedDirectly_map_bound (saleId : ActionId) (allocations : List Allocation) :
    mintedDirectly (allocations.map (Allocation.bound saleId)) =
      (mintedDirectly allocations).map (Allocation.bound saleId) := by
  simp [mintedDirectly, List.filter_map, Function.comp_def]

theorem soldOf_map_bound (saleId : ActionId) (allocations : List Allocation) :
    soldOf (allocations.map (Allocation.bound saleId)) =
      (soldOf allocations).map (Allocation.bound saleId) := by
  simp [soldOf, List.filter_map, Function.comp_def]

theorem owedBy_mintedDirectly_add (allocations : List Allocation) :
    owedBy (mintedDirectly allocations) + owedBy (soldOf allocations) = owedBy allocations := by
  induction allocations with
  | nil => rfl
  | cons a rest ih =>
    unfold mintedDirectly soldOf at ih ⊢
    cases sold : a.kind.isSold <;> simp [sold] <;> omega

/-! ### The steps before the token -/

theorem pushCreate_eq (actions : List Action) (id : ActionId) (contract : String)
    (arguments : List Argument) :
    pushCreate actions id contract arguments =
      pushAll actions [Action.create id contract arguments] >>= fun actions =>
        pure (actions, .action id) := by
  rw [pushAll_singleton]
  rfl

theorem pushPaymentAsset_eq (asset : PaymentAsset) :
    pushPaymentAsset asset =
      pushAll [] (assetCreations asset) >>= fun actions => pure (actions, asset.owner) := by
  cases asset with
  | deploy contract => exact pushCreate_eq [] contract contract []
  | existing address => rfl

private theorem reserveTokens_eq (settings : Settings) {allocations : List Allocation}
    (reserved : ∃ a ∈ allocations, a.isReserve = true) :
    reserveTokens settings allocations = .ok (reserveOf allocations) := by
  have found : (allocations.find? Allocation.isReserve).isSome := List.find?_isSome.mpr reserved
  obtain ⟨a, first⟩ := Option.isSome_iff_exists.mp found
  simp [reserveTokens, reserveOf, first]

private theorem exists_reserve_of_reserveTokens {settings : Settings}
    {allocations : List Allocation}
    {tokens : Amount} (given : reserveTokens settings allocations = .ok tokens) :
    ∃ a ∈ allocations, a.isReserve = true := by
  rw [reserveTokens, require_eq_ok_iff, Option.map_eq_some_iff] at given
  obtain ⟨a, first, -⟩ := given
  exact ⟨a, List.mem_of_find?_eq_some first, List.find?_some first⟩

theorem pushSale_eq (settings : Settings) {allocations : List Allocation} (actions : List Action)
    (reserved : ∃ a ∈ allocations, a.isReserve = true) :
    pushSale settings allocations actions =
      pushAll actions [saleCreation settings allocations] >>= fun actions =>
        pure (actions, .action settings.saleId) := by
  rw [pushSale, reserveTokens_eq settings reserved, ok_bind, pushCreate_eq]
  rfl

theorem bindOwner_eq (settings : Settings) (actions : List Action) {a : Allocation}
    (unbound : a.kind ≠ .directAccount → a.target = none) :
    bindOwner settings (.action settings.saleId) actions a =
      pushAll actions ((poolsOf [a]).map (poolCreation settings)) >>= fun actions =>
        pure (actions, a.bound settings.saleId) := by
  obtain ⟨id, tokens, kind, target⟩ := a
  cases kind with
  | directAccount => rfl
  | vestingPool pool =>
    obtain rfl : target = none := unbound nofun
    change (pushCreate actions id settings.vestingContract _ >>= fun _ => _) =
      pushAll actions [poolCreation settings (id, pool)] >>= fun _ => _
    rw [pushCreate_eq, bind_assoc]
    rfl
  | saleTier tier =>
    obtain rfl : target = none := unbound nofun
    rfl
  | liquidityReserve =>
    obtain rfl : target = none := unbound nofun
    rfl

private theorem bindOwners_eq (settings : Settings) (actions : List Action)
    {allocations : List Allocation}
    (unbound : ∀ a ∈ allocations, a.kind ≠ .directAccount → a.target = none) :
    bindOwners settings (.action settings.saleId) actions allocations =
      pushAll actions ((poolsOf allocations).map (poolCreation settings)) >>= fun actions =>
        pure (actions, allocations.map (Allocation.bound settings.saleId)) := by
  induction allocations generalizing actions with
  | nil => rfl
  | cons a rest ih =>
    have unbound_rest : ∀ b ∈ rest, b.kind ≠ .directAccount → b.target = none :=
      fun b mem => unbound b (List.mem_cons_of_mem a mem)
    rw [bindOwners, bindOwner_eq settings actions (unbound a List.mem_cons_self),
      poolsOf_cons a rest, List.map_append, pushAll_append]
    simp only [bind_assoc, pure_bind, ih _ unbound_rest, List.map_cons]

private theorem unbound_of_bindOwners {settings : Settings} {sale : Target} {actions : List Action}
    {allocations : List Allocation} {result : List Action × List Allocation}
    (done : bindOwners settings sale actions allocations = .ok result) :
    ∀ a ∈ allocations, a.kind ≠ .directAccount → a.target = none := by
  induction allocations generalizing actions result with
  | nil => simp
  | cons a rest ih =>
    obtain ⟨first, bound, next⟩ := bind_eq_ok_iff.mp done
    obtain ⟨others, rest_done, -⟩ := bind_eq_ok_iff.mp next
    intro b mem indirect
    rcases List.mem_cons.mp mem with rfl | mem
    · cases kind : b.kind with
      | directAccount => exact absurd kind indirect
      | vestingPool pool =>
        simp only [bindOwner, kind] at bound
        obtain ⟨created, -, bound⟩ := bind_eq_ok_iff.mp bound
        obtain ⟨c, bound, -⟩ := bind_eq_ok_iff.mp bound
        exact (Allocation.bind_eq_ok_iff.mp bound).1
      | saleTier tier =>
        simp only [bindOwner, kind] at bound
        obtain ⟨c, bound, -⟩ := bind_eq_ok_iff.mp bound
        exact (Allocation.bind_eq_ok_iff.mp bound).1
      | liquidityReserve =>
        simp only [bindOwner, kind] at bound
        obtain ⟨c, bound, -⟩ := bind_eq_ok_iff.mp bound
        exact (Allocation.bind_eq_ok_iff.mp bound).1
    · exact ih rest_done b mem indirect

/-! ### The token -/

private theorem ownersOf_map_bound (saleId : ActionId) {allocations : List Allocation}
    (owned : ∀ a ∈ allocations, a.kind = .directAccount → a.target.isSome) :
    ownersOf (allocations.map (Allocation.bound saleId)) =
      .ok (allocations.map fun a => (a.id, .ofTarget (a.owner saleId))) := by
  induction allocations with
  | nil => rfl
  | cons a rest ih =>
    have owned_rest : ∀ b ∈ rest, b.kind = .directAccount → b.target.isSome :=
      fun b mem => owned b (List.mem_cons_of_mem a mem)
    rw [List.map_cons, ownersOf, Allocation.requireTarget_bound (owned a List.mem_cons_self),
      ih owned_rest, ok_bind, ok_bind, Allocation.bound_id]
    rfl

private theorem isSome_of_ownersOf {allocations : List Allocation}
    {owners : List (String × Argument)}
    (given : ownersOf allocations = .ok owners) : ∀ a ∈ allocations, a.target.isSome := by
  induction allocations generalizing owners with
  | nil => simp
  | cons a rest ih =>
    obtain ⟨target, first, next⟩ := bind_eq_ok_iff.mp given
    obtain ⟨others, rest_given, -⟩ := bind_eq_ok_iff.mp next
    intro b mem
    rcases List.mem_cons.mp mem with rfl | mem
    · exact Allocation.isSome_of_requireTarget first
    · exact ih rest_given b mem

private theorem addToSale_eq_ok_iff {saleId : ActionId} {sum total : Amount}
    {allocations : List Allocation} :
    addToSale saleId sum allocations = .ok total ↔
      sum.toNat + owedBy allocations = total.toNat := by
  induction allocations generalizing sum with
  | nil =>
    simp only [addToSale, Except.ok.injEq, owedBy_nil, Nat.add_zero]
    exact ⟨fun same => by rw [same], Amount.ext⟩
  | cons a rest ih =>
    simp only [addToSale, bind_eq_ok_iff, mapError_eq_ok_iff, require_eq_ok_iff, ih,
      Allocation.obligation_eq_ok_iff, Amount.add?_eq_some_iff, owedBy_cons]
    constructor
    · rintro ⟨obligation, single, next, step, sums⟩
      omega
    · intro sums
      have bound := total.isLt
      exact ⟨⟨a.owed, by omega⟩, rfl, ⟨sum.toNat + a.owed, by omega⟩, rfl, by
        change sum.toNat + a.owed + owedBy rest = total.toNat
        omega⟩

theorem soldAmount_toNat {d : Distribution} (ready : d.Ready) :
    (soldAmount d.allocations).toNat = owedBy (soldOf d.allocations) := by
  have covered := owedBy_mintedDirectly_add d.allocations
  have conserved := ready.conserved
  have bound := d.report.total.isLt
  cases sums : totalObligation (soldOf d.allocations) with
  | none =>
    rw [totalObligation_eq, Amount.ofNat?_eq_none_iff] at sums
    omega
  | some amount =>
    rw [soldAmount, sums, Option.getD_some]
    exact (totalObligation_eq_some_iff.mp sums).symm

private theorem saleBalance_eq (settings : Settings) {d : Distribution} (ready : d.Ready) :
    saleBalance settings.saleId (d.allocations.map (Allocation.bound settings.saleId)) =
      .ok (soldAmount d.allocations) := by
  change addToSale settings.saleId Amount.zero (soldOf _) = _
  rw [soldOf_map_bound, addToSale_eq_ok_iff, owedBy_map_bound, soldAmount_toNat ready]
  exact Nat.zero_add _

private theorem align_eq (action : ActionId) (entries : List (String × Argument × Amount)) :
    align action (entries.map fun entry => (entry.1, entry.2.1))
        (entries.map fun entry => (entry.1, entry.2.2)) =
      .ok (entries.map fun entry => entry.2.1, entries.map fun entry => .uint entry.2.2) := by
  have same : (entries.map fun entry => (entry.1, entry.2.1)).map Prod.fst =
      (entries.map fun entry => (entry.1, entry.2.2)).map Prod.fst := by
    rw [List.map_map, List.map_map]
    rfl
  rw [align_of_same same, List.map_map, List.map_map]
  rfl

private theorem pushToken_eq (settings : Settings) {d : Distribution} (actions : List Action)
    (ready : d.Ready) :
    pushToken settings (.action settings.saleId)
        (d.allocations.map (Allocation.bound settings.saleId)) actions =
      pushAll actions [tokenCreation settings d.allocations] >>= fun actions =>
        pure (actions, .action settings.tokenId) := by
  have owned : ∀ a ∈ mintedDirectly d.allocations, a.kind = .directAccount → a.target.isSome :=
    fun a mem => ready.owned a (List.mem_filter.mp mem).1
  have aligned := align_eq settings.tokenId
    ((mintedDirectly d.allocations).map (fun a =>
      (a.id, Argument.ofTarget (a.owner settings.saleId), a.tokens)) ++
        [(settings.saleId, Argument.ofTarget (.action settings.saleId), soldAmount d.allocations)])
  simp only [List.map_append, List.map_map, List.map_cons, List.map_nil, Function.comp_def]
    at aligned
  rw [pushToken, mintedDirectly_map_bound, ownersOf_map_bound settings.saleId owned]
  simp only [ok_bind, saleBalance_eq settings ready, amountsOf, List.map_map, Function.comp_def,
    Allocation.bound_id, Allocation.bound_tokens, aligned, pushCreate_eq]
  simp [tokenCreation, mintedOwners, mintedAmounts, Function.comp_def]

/-! ### The steps after the token -/

private theorem pushPoolCalls_eq (settings : Settings) (actions : List Action)
    (allocations : List Allocation) :
    pushPoolCalls (.action settings.tokenId) actions
        ((allocations.map (Allocation.bound settings.saleId)).filter fun a =>
          a.vestingPool?.isSome) =
      pushAll actions ((poolsOf allocations).map (poolCall settings)) := by
  induction allocations generalizing actions with
  | nil => rfl
  | cons a rest ih =>
    obtain ⟨id, tokens, kind, target⟩ := a
    cases kind with
    | vestingPool pool =>
      change (push actions (poolCall settings (id, pool)) >>= fun actions =>
          pushPoolCalls (.action settings.tokenId) actions _) =
        push actions (poolCall settings (id, pool)) >>= fun actions =>
          pushAll actions ((poolsOf rest).map (poolCall settings))
      simp only [ih]
    | directAccount => exact ih actions
    | saleTier tier => exact ih actions
    | liquidityReserve => exact ih actions

private theorem pushAll_saleCalls (settings : Settings) (actions : List Action) :
    pushAll actions (saleCalls settings) =
      pushCall actions (.action settings.saleId) setTokenMethod
          (.ofTarget (.action settings.tokenId)) >>= fun actions =>
        pushCall actions (.action settings.saleId) setPaymentAssetMethod
          (.ofTarget settings.paymentAsset.owner) := by
  change pushAll actions ([_] ++ [_]) = _
  simp only [pushAll_append, pushAll_singleton]
  rfl

private theorem collectTargets_map_bound (saleId : ActionId) (targets : List (String × Target))
    {allocations : List Allocation}
    (owned : ∀ a ∈ allocations, a.kind = .directAccount → a.target.isSome) :
    collectTargets targets (allocations.map (Allocation.bound saleId)) =
      .ok (allocations.foldl (fun targets a => Entries.set a.id (a.owner saleId) targets)
        targets) := by
  induction allocations generalizing targets with
  | nil => rfl
  | cons a rest ih =>
    have owned_rest : ∀ b ∈ rest, b.kind = .directAccount → b.target.isSome :=
      fun b mem => owned b (List.mem_cons_of_mem a mem)
    rw [List.map_cons, collectTargets, Allocation.requireTarget_bound (owned a List.mem_cons_self),
      ok_bind, Allocation.bound_id, ih _ owned_rest, List.foldl_cons]

/-! ### The whole -/

/-- Compiling a ready distribution is checking the order of the actions that its plan holds. -/
theorem compile_eq (settings : Settings) {d : Distribution} (ready : d.Ready) :
    compile d settings =
      checkOrder (actionsFor settings d.allocations) >>= fun _ => pure (planOf settings d) := by
  have conserved : d.check = .ok () := Distribution.check_eq_ok_iff.mpr ready.conserved
  -- Adding reports a repeated name before the order is checked, but it is the same report.
  refine Eq.trans ?_ <| pushAll_then_checkOrder (actionsFor settings d.allocations) fun actions =>
    pure { planOf settings d with actions := actions }
  simp only [compile, conserved, ok_bind, pushPaymentAsset_eq,
    pushSale_eq settings _ ready.reserved, bindOwners_eq settings _ ready.unbound,
    pushToken_eq settings _ ready, pushPoolCalls_eq,
    collectTargets_map_bound settings.saleId _ ready.owned, bind_assoc, pure_bind, actionsFor,
    pushAll_append, pushAll_saleCalls]
  rfl

private theorem ready_of_compile {d : Distribution} {settings : Settings} {p : CompiledPlan}
    (compiled : compile d settings = .ok p) : d.Ready := by
  obtain ⟨_, checked, compiled⟩ := bind_eq_ok_iff.mp compiled
  obtain ⟨asset, -, compiled⟩ := bind_eq_ok_iff.mp compiled
  obtain ⟨⟨before, sale⟩, sold, compiled⟩ := bind_eq_ok_iff.mp compiled
  obtain ⟨reserve, reserved, created⟩ := bind_eq_ok_iff.mp sold
  obtain ⟨owned, bound, compiled⟩ := bind_eq_ok_iff.mp compiled
  have unbound := unbound_of_bindOwners bound
  obtain rfl : sale = .action settings.saleId := by
    rw [pushCreate_eq] at created
    obtain ⟨actions, -, done⟩ := bind_eq_ok_iff.mp created
    cases done
    rfl
  rw [bindOwners_eq settings _ unbound] at bound
  obtain ⟨actions, -, done⟩ := bind_eq_ok_iff.mp bound
  cases done
  obtain ⟨token, minted, -⟩ := bind_eq_ok_iff.mp compiled
  obtain ⟨owners, given, -⟩ := bind_eq_ok_iff.mp minted
  refine ⟨Distribution.check_eq_ok_iff.mp checked, exists_reserve_of_reserveTokens reserved,
    unbound, ?_⟩
  intro a mem direct
  have direct_mem : a ∈ mintedDirectly (d.allocations.map (Allocation.bound settings.saleId)) := by
    refine List.mem_filter.mpr ⟨List.mem_map.mpr ⟨a, mem, ?_⟩, by simp [direct]; rfl⟩
    simp [Allocation.bound, direct]
  exact isSome_of_ownersOf given a direct_mem

theorem compile_eq_ok_iff {d : Distribution} {settings : Settings} {p : CompiledPlan} :
    compile d settings = .ok p ↔
      d.Ready ∧ checkOrder (actionsFor settings d.allocations) = .ok () ∧
        p = planOf settings d := by
  constructor
  · intro compiled
    have ready := ready_of_compile compiled
    rw [compile_eq settings ready] at compiled
    obtain ⟨_, ordered, done⟩ := bind_eq_ok_iff.mp compiled
    cases done
    exact ⟨ready, ordered, rfl⟩
  · rintro ⟨ready, ordered, rfl⟩
    rw [compile_eq settings ready, ordered]
    rfl

/-! ### Finding actions -/

theorem action?_planOf (settings : Settings) {d : Distribution} {a : Action}
    (ordered : checkOrder (actionsFor settings d.allocations) = .ok ())
    (mem : a ∈ actionsFor settings d.allocations) : (planOf settings d).action? a.id = some a :=
  find?_id_eq_some (checkOrder_eq_ok_iff.mp ordered).1 mem

theorem tokenCreation_mem (settings : Settings) (allocations : List Allocation) :
    tokenCreation settings allocations ∈ actionsFor settings allocations := by
  simp [actionsFor]

theorem saleCreation_mem (settings : Settings) (allocations : List Allocation) :
    saleCreation settings allocations ∈ actionsFor settings allocations := by
  simp [actionsFor]

theorem poolCreation_mem (settings : Settings) {allocations : List Allocation}
    {pool : String × VestingPool} (mem : pool ∈ poolsOf allocations) :
    poolCreation settings pool ∈ actionsFor settings allocations := by
  have created : poolCreation settings pool ∈ (poolsOf allocations).map (poolCreation settings) :=
    List.mem_map.mpr ⟨pool, mem, rfl⟩
  simp only [actionsFor, List.mem_append, created, true_or, or_true]

end Plan

end TokenPlan
