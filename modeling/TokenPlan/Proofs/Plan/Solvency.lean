import TokenPlan.Proofs.Plan.Minting
import TokenPlan.Proofs.Plan.Outcome
import TokenPlan.Proofs.Supply.Rounding

/-!
The sale contract of a plan can pay what it promises. It is told an offer for every tier of the
table, in the order of the table, and the reserve; the token mints to it the sum of the tokens and
the rebates that the offers promise and of the reserve, and nothing else is minted to it.
-/

set_option autoImplicit false
set_option relaxedAutoImplicit false

namespace TokenPlan

/-- The value of a field of a structure, if it is an amount, and nothing otherwise. -/
def Argument.amountAt (field : String) : Argument → Nat
  | .tuple fields =>
    match Entries.get? field fields with
    | some (.uint value) => value.toNat
    | _ => 0
  | _ => 0

/-- The tokens and the rebates that offers to the sale contract promise. -/
def promisedBy (offers : List Argument) : Nat :=
  (offers.map fun offer =>
    offer.amountAt "saleTotalAmount" + offer.amountAt "affiliateTotalAmount").sum

/-- A tier with the amounts that its row comes to. -/
structure Offer where
  row : SaleRow
  price : Amount
  tokens : Amount
  reserve : Amount
  minimum : Amount
  maximum : Amount

namespace Offer

def tier (o : Offer) : SaleTier :=
  { name := o.row.name
    cooldown := o.row.cooldown
    start := o.row.start
    price := o.price
    minimum := o.minimum
    maximum := o.maximum
    affiliateReserve := o.reserve
    affiliateRate := o.row.affiliateRate
    vesting := o.row.vesting }

/-- The allocation of the tier, which the sale contract holds. -/
def allocation (saleId : ActionId) (o : Offer) : Allocation :=
  ⟨o.row.id, o.tokens, .saleTier o.tier, some (.action saleId)⟩

/-- What the sale contract is told: all that is for sale and for rebates is also the balance. -/
def argument (o : Offer) : Argument :=
  .tuple
    [("name", .string o.row.name),
      ("cooldownDuration", .ofWord o.row.cooldown),
      ("saleStartTime", .ofWord o.row.start.encoded),
      ("salePrice", .uint o.price),
      ("saleTotalAmount", .uint o.tokens),
      ("saleBalance", .uint o.tokens),
      ("saleMinPerWallet", .uint o.minimum),
      ("saleMaxPerWallet", .uint o.maximum),
      ("affiliateTotalAmount", .uint o.reserve),
      ("affiliateBalance", .uint o.reserve),
      ("affiliatePercent", .ofWord o.row.affiliateRate),
      ("tgePercent", .ofWord o.row.vesting.launchShare),
      ("cliffDuration", .ofWord o.row.vesting.cliffDuration),
      ("cliffPercent", .ofWord o.row.vesting.cliffShare),
      ("linearDuration", .ofWord o.row.vesting.linearDuration)]

/-- The amounts are those of the row: tokens and rebates exhaust what a purchase may take. -/
structure Sound (d : Denomination) (o : Offer) : Prop where
  price : d.fiatAmount o.row.price = .ok o.price
  minimum : d.wholeTokens o.row.minimum.toNat = .ok o.minimum
  maximum : d.percentOfSupply o.row.target = .ok o.maximum
  exhaustive : o.tokens.toNat + o.reserve.toNat = o.maximum.toNat
  purchasable : o.minimum ≤ o.maximum

private theorem promised_eq (o : Offer) :
    o.argument.amountAt "saleTotalAmount" + o.argument.amountAt "affiliateTotalAmount" =
      o.tokens.toNat + o.reserve.toNat := by
  simp [Argument.amountAt, argument, Entries.get?]

end Offer

private theorem SaleRow.exists_offer {row : SaleRow} {d : Denomination} {a : Allocation}
    (derived : row.derive d = .ok a) :
    ∃ o : Offer, o.row = row ∧ o.Sound d ∧ a = Allocation.sale row.id o.tokens o.tier := by
  obtain ⟨tokens, tier, comes, rfl⟩ := SaleRow.derive_eq_ok_iff.mp derived
  refine ⟨⟨row, tier.price, tokens, tier.affiliateReserve, tier.minimum, tier.maximum⟩, rfl, ?_, ?_⟩
  · exact ⟨comes.price, comes.minimum, comes.maximum, comes.exhausted, comes.purchasable⟩
  · simp only [Offer.tier, ← comes.name, ← comes.cooldown, ← comes.start, ← comes.affiliateRate,
      ← comes.vesting]

namespace Plan

/-- The allocations of a table tell the sale contract one sound offer a tier. -/
structure Offered (d : Denomination) (saleId : ActionId) (rows : List Row)
    (allocations : List Allocation) (offers : List Offer) : Prop where
  declared : offers.map Offer.row = Row.sales rows
  told : tierArguments allocations = offers.map Offer.argument
  held : (allocations.map (Allocation.bound saleId)).filter (fun a => a.saleTier?.isSome) =
    offers.map (Offer.allocation saleId)
  sound : ∀ o ∈ offers, o.Sound d
  covered : owedBy (soldOf allocations) = promisedBy (offers.map Offer.argument)

/-- The rows of a table come to one sound offer a tier, whatever else stands between the tiers. -/
theorem exists_offered {d : Denomination} {rows : List Row} {allocations : List Allocation}
    (saleId : ActionId)
    (derived : List.Forall₂ (fun row a => Row.derive row d = .ok a) rows allocations) :
    ∃ offers, Offered d saleId rows allocations offers := by
  induction derived with
  | nil => exact ⟨[], rfl, rfl, rfl, by simp, rfl⟩
  | @cons row a rows allocations single _ ih =>
    obtain ⟨offers, declared, told, held, sound, covered⟩ := ih
    cases row with
    | sale row =>
      obtain ⟨o, rfl, o_sound, rfl⟩ := SaleRow.exists_offer single
      refine ⟨o :: offers, congrArg _ declared, congrArg _ told, congrArg _ held, ?_, ?_⟩
      · exact List.forall_mem_cons.mpr ⟨o_sound, sound⟩
      · have first := o.promised_eq
        change (o.tokens.toNat + o.reserve.toNat) + owedBy (soldOf allocations) = _
        rw [covered, ← first]
        rfl
    | pool row =>
      cases Row.yields_of_derive single
      exact ⟨offers, declared, told, held, sound, covered⟩
    | account row =>
      cases Row.yields_of_derive single
      exact ⟨offers, declared, told, held, sound, covered⟩

/-! ### The reserve and the other owners -/

private theorem reserveOf_append_liquidity {allocations : List Allocation} (id : String)
    (tokens : Amount)
    (explicit : ∀ a ∈ allocations, a.isReserve = false) :
    reserveOf (allocations ++ [Allocation.liquidity id tokens]) = tokens := by
  have none_found : allocations.find? Allocation.isReserve = none := by
    rw [List.find?_eq_none]
    intro a mem
    simp [explicit a mem]
  rw [reserveOf, List.find?_append, none_found]
  rfl

theorem tierArguments_append_liquidity (allocations : List Allocation) (id : String)
    (tokens : Amount) :
    tierArguments (allocations ++ [Allocation.liquidity id tokens]) =
      tierArguments allocations := by
  rw [tierArguments, List.filterMap_append]
  exact List.append_nil _

private theorem soldOf_append_liquidity (allocations : List Allocation) (id : String)
    (tokens : Amount) :
    soldOf (allocations ++ [Allocation.liquidity id tokens]) =
      soldOf allocations ++ [Allocation.liquidity id tokens] := by
  rw [soldOf, List.filter_append]
  rfl

theorem saleId_not_mem_poolIdsOf {settings : Settings} {allocations : List Allocation}
    (ordered : checkOrder (actionsFor settings allocations) = .ok ()) :
    settings.saleId ∉ poolIdsOf allocations := by
  have distinct := (checkOrder_eq_ok_iff.mp ordered).1
  rw [map_id_actionsFor] at distinct
  have behind := (List.nodup_append.mp distinct).2.1
  have alone : settings.saleId ∉ poolIdsOf allocations ++ _ := (List.nodup_cons.mp behind).1
  exact fun mem => alone (List.mem_append_left _ mem)

private theorem sale_not_mem_direct {settings : Settings} {allocations : List Allocation}
    (literal : Literal allocations)
    (ordered : checkOrder (actionsFor settings allocations) = .ok ()) :
    Target.action settings.saleId ∉
      (mintedDirectly allocations).map (Allocation.owner settings.saleId) := by
  intro mem
  obtain ⟨a, direct, owner⟩ := List.mem_map.mp mem
  obtain ⟨a_mem, unsold⟩ := List.mem_filter.mp direct
  have a_literal := literal a a_mem
  obtain ⟨id, tokens, kind, target⟩ := a
  cases kind with
  | saleTier tier => cases unsold
  | liquidityReserve => cases unsold
  | vestingPool pool =>
    obtain rfl : id = settings.saleId := Target.action.inj owner
    have pool_mem : (settings.saleId, pool) ∈ poolsOf allocations :=
      List.mem_filterMap.mpr ⟨_, a_mem, rfl⟩
    exact saleId_not_mem_poolIdsOf ordered (List.mem_map.mpr ⟨_, pool_mem, rfl⟩)
  | directAccount =>
    obtain ⟨address, rfl⟩ := a_literal rfl
    cases owner

end Plan

/--
The sale contract is told an offer for every tier and the reserve; the token mints to it, in the
last place and in no other, what the offers promise and the reserve.
-/
structure CompiledPlan.Solvent (p : CompiledPlan) (d : Denomination) (rows : List Row)
    (settings : Settings) (offers : List Offer) (owners : List Target) (amounts : List Amount)
    (minted : Amount) : Prop where
  told : p.action? settings.saleId =
    some (Action.create settings.saleId settings.saleContract
      [.address settings.router, .ofWord settings.liquidityRate, .uint p.supply.remainder,
        .array (offers.map Offer.argument)])
  reserve : p.allocations.getLast? =
    some ⟨settings.reserveId, p.supply.remainder, .liquidityReserve, some (.action settings.saleId)⟩
  declared : offers.map Offer.row = Row.sales rows
  held : p.allocations.filter (fun a => a.saleTier?.isSome) =
    offers.map (Offer.allocation settings.saleId)
  sound : ∀ o ∈ offers, o.Sound d
  minting : p.action? settings.tokenId =
    some (Action.create settings.tokenId settings.tokenContract
      [.array ((owners ++ [Target.action settings.saleId]).map .ofTarget),
        .array ((amounts ++ [minted]).map .uint)])
  paired : owners.length = amounts.length
  alone : Target.action settings.saleId ∉ owners
  covered : promisedBy (offers.map Offer.argument) + p.supply.remainder.toNat = minted.toNat

namespace Plan

/-- The sale contract of every plan is minted exactly what it is told to pay out. -/
theorem solvent_of_planRows {d : Denomination} {rows : List Row} {settings : Settings}
    {p : CompiledPlan} (planned : planRows d rows settings = .ok p) :
    ∃ offers owners amounts minted, p.Solvent d rows settings offers owners amounts minted := by
  obtain ⟨allocations, report, derived, reported, -, ordered, rfl⟩ := planRows_eq_ok_iff.mp planned
  have yields := yields_of_deriveAll derived
  have ready := ready_completed settings yields reported
  have literal : Literal (completed allocations report settings).allocations :=
    literal_completed settings yields
  have explicit : ∀ a ∈ allocations, a.isReserve = false :=
    Row.Yields.forall_mem yields fun _ _ single => single.isReserve
  obtain ⟨offers, offered⟩ := exists_offered settings.saleId (forall₂_of_deriveAfter derived)
  refine ⟨offers, (mintedDirectly (completed allocations report settings).allocations).map
      (Allocation.owner settings.saleId),
    (mintedDirectly (completed allocations report settings).allocations).map Allocation.tokens,
    soldAmount (completed allocations report settings).allocations, ?_⟩
  constructor
  case told =>
    have created := action?_planOf settings ordered (saleCreation_mem settings _)
    have tokens := reserveOf_append_liquidity settings.reserveId report.remainder explicit
    have tiers := tierArguments_append_liquidity allocations settings.reserveId report.remainder
    rw [offered.told] at tiers
    rw [saleCreation, completed, tokens, tiers] at created
    exact created
  case reserve =>
    rw [allocations_planOf_completed, List.getLast?_concat]
    rfl
  case declared => exact offered.declared
  case held =>
    rw [allocations_planOf_completed, List.filter_append, offered.held]
    exact List.append_nil _
  case sound => exact offered.sound
  case minting => exact action?_planOf settings ordered (tokenCreation_mem settings _)
  case paired => simp
  case alone => exact sale_not_mem_direct literal ordered
  case covered =>
    rw [soldAmount_toNat ready, ← offered.covered, completed, soldOf_append_liquidity,
      owedBy_append]
    rfl

theorem solvent_mixedRows :
    ∃ p, planRows thousand mixedRows Settings.standard = .ok p ∧
      ∃ offers owners amounts minted,
        p.Solvent thousand mixedRows Settings.standard offers owners amounts minted := by
  obtain ⟨p, planned⟩ := isOk_iff.mp
    (show (planRows thousand mixedRows Settings.standard).isOk = true by decide +kernel)
  exact ⟨p, planned, solvent_of_planRows planned⟩

end Plan

end TokenPlan
