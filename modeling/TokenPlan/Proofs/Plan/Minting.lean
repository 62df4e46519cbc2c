import TokenPlan.Plan.Audit
import TokenPlan.Proofs.Plan.Compile

/-!
What the token mints is what the allocations are owed: not only in total, but at every address,
under any assignment of addresses to the actions of the plan.
-/

set_option autoImplicit false
set_option relaxedAutoImplicit false

namespace TokenPlan

/-- The address of an owner, where `home` tells the address that each action gives. -/
def Target.locate (home : ActionId → Address) : Target → Address
  | .action id => home id
  | .account address => address

/-- What the token mints to an address, from parallel lists of owners and amounts. -/
def paidTo (home : ActionId → Address) (x : Address) (owners : List Target)
    (amounts : List Amount) : Nat :=
  (((owners.zip amounts).filter fun slot => slot.1.locate home = x).map fun slot =>
    slot.2.toNat).sum

/-- What the allocations that are bound to an address are owed. -/
def owedTo (home : ActionId → Address) (x : Address) (allocations : List Allocation) : Nat :=
  owedBy (allocations.filter fun a => a.target.map (Target.locate home) = some x)

variable (home : ActionId → Address) (x : Address)

private theorem paidTo_append {owners : List Target} {amounts : List Amount}
    (paired : owners.length = amounts.length) (owner : Target) (amount : Amount) :
    paidTo home x (owners ++ [owner]) (amounts ++ [amount]) =
      paidTo home x owners amounts + if owner.locate home = x then amount.toNat else 0 := by
  unfold paidTo
  rw [List.zip_append paired, List.filter_append, List.map_append, List.sum_append]
  by_cases here : owner.locate home = x <;> simp [here]

private theorem owedTo_cons (a : Allocation) (rest : List Allocation) :
    owedTo home x (a :: rest) =
      (if a.target.map (Target.locate home) = some x then a.owed else 0) +
        owedTo home x rest := by
  unfold owedTo
  by_cases here : a.target.map (Target.locate home) = some x
  · simp only [List.filter_cons, here, decide_true, if_true, owedBy_cons]
  · simp only [List.filter_cons, here, decide_false, Bool.false_eq_true, if_false, Nat.zero_add]

namespace Plan

private theorem owedTo_mintedDirectly_add (allocations : List Allocation) :
    owedTo home x (mintedDirectly allocations) + owedTo home x (soldOf allocations) =
      owedTo home x allocations := by
  induction allocations with
  | nil => rfl
  | cons a rest ih =>
    unfold mintedDirectly soldOf at ih ⊢
    rw [owedTo_cons, ← ih]
    cases sold : a.kind.isSold with
    | false =>
      simp only [List.filter_cons, sold, Bool.not_false, if_true, Bool.false_eq_true, if_false,
        owedTo_cons]
      omega
    | true =>
      simp only [List.filter_cons, sold, Bool.not_true, if_true, Bool.false_eq_true, if_false,
        owedTo_cons]
      omega

private theorem owedTo_sold (saleId : ActionId) {allocations : List Allocation}
    (sold : ∀ a ∈ allocations, a.kind.isSold = true) :
    owedTo home x (allocations.map (Allocation.bound saleId)) =
      if home saleId = x then owedBy allocations else 0 := by
  induction allocations with
  | nil => simp [owedTo]
  | cons a rest ih =>
    have a_sold : a.kind.isSold = true := sold a List.mem_cons_self
    have indirect : a.kind = .directAccount → a.target.isSome := by
      intro direct
      rw [direct] at a_sold
      cases a_sold
    have target : (a.bound saleId).target = some (.action saleId) := by
      rw [Allocation.target_bound indirect, Allocation.owner_of_isSold saleId a a_sold]
    rw [List.map_cons, owedTo_cons, ih fun b mem => sold b (List.mem_cons_of_mem a mem), target,
      Allocation.bound_owed, owedBy_cons]
    by_cases here : home saleId = x <;> simp [Target.locate, here]

private theorem paidTo_direct (saleId : ActionId) {allocations : List Allocation}
    (direct : ∀ a ∈ allocations, a.kind.isSold = false)
    (owned : ∀ a ∈ allocations, a.kind = .directAccount → a.target.isSome) :
    paidTo home x (allocations.map (Allocation.owner saleId)) (allocations.map Allocation.tokens) =
      owedTo home x (allocations.map (Allocation.bound saleId)) := by
  induction allocations with
  | nil => rfl
  | cons a rest ih =>
    have owed := Allocation.owed_of_unsold (direct a List.mem_cons_self)
    have rest_paid := ih (fun b mem => direct b (List.mem_cons_of_mem a mem))
      (fun b mem => owned b (List.mem_cons_of_mem a mem))
    rw [List.map_cons, List.map_cons, List.map_cons, owedTo_cons, ← rest_paid,
      Allocation.target_bound (owned a List.mem_cons_self), Allocation.bound_owed, owed]
    by_cases here : (a.owner saleId).locate home = x <;> simp [paidTo, here]

private theorem paidTo_minted (saleId : ActionId) {d : Distribution} (ready : d.Ready) :
    paidTo home x (mintedOwners saleId d.allocations) (mintedAmounts d.allocations) =
      owedTo home x (d.allocations.map (Allocation.bound saleId)) := by
  have direct : ∀ a ∈ mintedDirectly d.allocations, a.kind.isSold = false := by
    intro a mem
    simpa using (List.mem_filter.mp mem).2
  have owned : ∀ a ∈ mintedDirectly d.allocations, a.kind = .directAccount → a.target.isSome :=
    fun a mem => ready.owned a (List.mem_filter.mp mem).1
  have sold : ∀ a ∈ soldOf d.allocations, a.kind.isSold = true :=
    fun a mem => (List.mem_filter.mp mem).2
  -- The last of the owners is the sale contract, which is minted all that is sold.
  rw [← owedTo_mintedDirectly_add home x (d.allocations.map (Allocation.bound saleId)),
    mintedDirectly_map_bound, soldOf_map_bound, owedTo_sold home x saleId sold, mintedOwners,
    mintedAmounts, paidTo_append home x (by simp), paidTo_direct home x saleId direct owned,
    soldAmount_toNat ready]
  rfl

/-! ### Totals -/

private theorem foldlM_add?_eq (sum : Amount) (amounts : List Amount) :
    amounts.foldlM Amount.add? sum =
      Amount.ofNat? (sum.toNat + (amounts.map Amount.toNat).sum) := by
  induction amounts generalizing sum with
  | nil => simp
  | cons amount rest ih =>
    rw [List.foldlM_cons, List.map_cons, List.sum_cons]
    cases step : sum.add? amount with
    | none =>
      -- Once a partial sum is too large the whole sum is.
      have large : 2 ^ 256 ≤ sum.toNat + amount.toNat := Amount.ofNat?_eq_none_iff.mp step
      exact (Amount.ofNat?_eq_none_iff.mpr (by omega)).symm
    | some next =>
      have next_eq : sum.toNat + amount.toNat = next.toNat := Amount.add?_eq_some_iff.mp step
      rw [Option.bind_eq_bind, Option.bind_some, ih next, ← next_eq, Nat.add_assoc]

private theorem sum_mintedAmounts {d : Distribution} (ready : d.Ready) :
    ((mintedAmounts d.allocations).map Amount.toNat).sum = d.report.total.toNat := by
  have direct : ∀ a ∈ mintedDirectly d.allocations, a.owed = a.tokens.toNat := by
    intro a mem
    exact Allocation.owed_of_unsold (by simpa using (List.mem_filter.mp mem).2)
  have owed : ((mintedDirectly d.allocations).map fun a => a.tokens.toNat).sum =
      owedBy (mintedDirectly d.allocations) := by
    unfold owedBy
    rw [List.map_congr_left direct]
  rw [mintedAmounts, List.map_append, List.sum_append, List.map_map]
  change ((mintedDirectly d.allocations).map fun a => a.tokens.toNat).sum + _ = _
  have conserved := ready.conserved
  have split := owedBy_mintedDirectly_add d.allocations
  have sold := soldAmount_toNat ready
  simp only [List.map_cons, List.map_nil, List.sum_cons, List.sum_nil, owed]
  omega

private theorem obligation_of_ready {d : Distribution} (ready : d.Ready) {a : Allocation}
    (mem : a ∈ d.allocations) : ∃ amount, a.obligation = .ok amount ∧ amount.toNat = a.owed := by
  have part := owed_le_owedBy mem
  have conserved := ready.conserved
  have bound := d.report.total.isLt
  exact ⟨⟨a.owed, by omega⟩, Allocation.obligation_eq_ok_iff.mpr rfl, rfl⟩

end Plan

/--
The creation of the token is told `owners` and `amounts` and nothing else, and these are what the
allocations of the plan are owed. No sum over them leaves the range of amounts.
-/
structure CompiledPlan.MintsWhatIsOwed (p : CompiledPlan) (settings : Settings)
    (owners : List Target) (amounts : List Amount) : Prop where
  token : p.deployment.token = .action settings.tokenId
  created : p.action? settings.tokenId =
    some (Action.create settings.tokenId settings.tokenContract
      [.array (owners.map .ofTarget), .array (amounts.map .uint)])
  paired : owners.length = amounts.length
  paid : ∀ home x, paidTo home x owners amounts = owedTo home x p.allocations
  obligations : ∀ a ∈ p.allocations, ∃ amount, a.obligation = .ok amount ∧ amount.toNat = a.owed
  mintedTotal : p.mintedTotal = p.supply.total.toNat
  minted : amounts.foldlM Amount.add? Amount.zero = some p.supply.total
  obligationsTotal : p.obligationsTotal = some p.supply.total

namespace Plan

/-- Whatever a distribution compiles to mints what its allocations are owed, address by address. -/
theorem mintsWhatIsOwed_of_compile {d : Distribution} {settings : Settings} {p : CompiledPlan}
    (compiled : compile d settings = .ok p) :
    ∃ owners amounts, p.MintsWhatIsOwed settings owners amounts := by
  obtain ⟨ready, ordered, rfl⟩ := compile_eq_ok_iff.mp compiled
  have found : (planOf settings d).action? settings.tokenId =
      some (tokenCreation settings d.allocations) :=
    action?_planOf settings ordered (tokenCreation_mem settings d.allocations)
  refine ⟨mintedOwners settings.saleId d.allocations, mintedAmounts d.allocations, ?_⟩
  constructor
  case token => rfl
  case created => exact found
  case paired => simp [mintedOwners, mintedAmounts]
  case paid => exact fun home x => paidTo_minted home x settings.saleId ready
  case obligations =>
    intro b mem
    obtain ⟨a, a_mem, rfl⟩ := List.mem_map.mp mem
    obtain ⟨amount, given, exact⟩ := obligation_of_ready ready a_mem
    refine ⟨amount, ?_, by rw [exact, Allocation.bound_owed]⟩
    rw [Allocation.obligation_eq_ok_iff, Allocation.bound_owed, exact]
  case mintedTotal =>
    have named : (planOf settings d).deployment.token.action?.getD "" = settings.tokenId := rfl
    rw [CompiledPlan.mintedTotal, named, found]
    change (((mintedAmounts d.allocations).map Argument.uint).map CompiledPlan.numberOf).sum = _
    rw [List.map_map]
    exact sum_mintedAmounts ready
  case minted =>
    rw [foldlM_add?_eq, sum_mintedAmounts ready]
    simp [Amount.zero, planOf]
  case obligationsTotal =>
    change totalObligation (d.allocations.map (Allocation.bound settings.saleId)) = _
    rw [totalObligation_eq_some_iff, owedBy_map_bound, ready.conserved]
    rfl

/-- A tier, a pool and two accounts at one address share a supply of a thousand. -/
def smallDistribution : Distribution :=
  { allocations :=
      [Allocation.sale "tier" (Amount.ofWord 9)
          { name := "Tier"
            cooldown := 0
            start := .instant 1717170214
            price := Amount.ofWord 34
            minimum := Amount.zero
            maximum := Amount.ofWord 10
            affiliateReserve := Amount.ofWord 1
            affiliateRate := 100000
            vesting := VestingSchedule.immediate },
        Allocation.vesting "team" (Amount.ofWord 180) ⟨"Team", VestingSchedule.immediate⟩,
        Allocation.account "cex" (Amount.ofWord 135) Address.zero,
        Allocation.account "treasury" (Amount.ofWord 65) Address.zero,
        Allocation.liquidity "liquidity_dex" (Amount.ofWord 610)]
    report := ⟨Amount.ofWord 1000, Amount.ofWord 390, Amount.ofWord 610⟩ }

theorem mintsWhatIsOwed_smallDistribution :
    ∃ p, compile smallDistribution Settings.standard = .ok p ∧
      ∃ owners amounts, p.MintsWhatIsOwed Settings.standard owners amounts := by
  have compiled : compile smallDistribution Settings.standard =
      .ok (planOf Settings.standard smallDistribution) := rfl
  exact ⟨_, compiled, mintsWhatIsOwed_of_compile compiled⟩

end Plan

end TokenPlan
