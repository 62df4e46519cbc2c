import TokenPlan.Proofs.Allocation.Rebate
import TokenPlan.Proofs.Plan.Opening
import TokenPlan.Proofs.Unit.Price

/-!
What the sale contract is told to charge for a token. Every tier is offered at what its price in the
table comes to, so that tiers whose prices are a millionth of a dollar apart in the table are offered
at different prices, in the same order.
-/

set_option autoImplicit false
set_option relaxedAutoImplicit false

namespace TokenPlan

/-- The prices of the tiers, as the sale contract reads them. -/
def CompiledPlan.prices? (p : CompiledPlan) : Option (List Amount) := do
  let offers ← p.offers?
  offers.mapM (Argument.uintAt? "salePrice")

/-- The second tier costs at least a millionth of a dollar more. -/
def SaleRow.Below (tier dearer : SaleRow) : Prop :=
  tier.price.value + 1 / 10 ^ 6 ≤ dearer.price.value

/-- The tier is offered at the price that it has in the table. -/
def SaleRow.OfferedAt (d : Denomination) (tier : SaleRow) (price : Amount) : Prop :=
  d.fiatAmount tier.price = .ok price

namespace Plan

variable {d : Denomination} {rows : List Row} {settings : Settings} {p : CompiledPlan}

private theorem exists_prices? (planned : planRows d rows settings = .ok p) :
    ∃ prices, p.prices? = some prices ∧
      List.Forall₂ (SaleRow.OfferedAt d) (Row.sales rows) prices := by
  obtain ⟨allocations, report, derived, -, -, ordered, rfl⟩ := planRows_eq_ok_iff.mp planned
  obtain ⟨offers, offered, told⟩ := exists_offers? report derived ordered
  refine ⟨offers.map Offer.price, ?_, ?_⟩
  · rw [CompiledPlan.prices?, told]
    exact (List.mapM_map ..).trans (List.mapM_pure ..)
  · rw [← offered.declared, List.forall₂_map_left_iff, List.forall₂_map_right_iff,
      List.forall₂_same]
    exact fun o mem => (offered.sound o mem).price

/--
A price comes to its nearest millionths of a dollar in base units, or is refused because the
millionths, the decimals or their product are too large. Amounts are in the order of prices, and
apart where the prices are a millionth apart and six decimals are left; so are the prices at which a
plan offers two tiers of its table.
-/
theorem ofDollars_decides_price :
    (∀ dollars decimals result,
      Amount.ofDollars dollars decimals = result ↔ Amount.Priced dollars decimals result) ∧
    (∀ (x y : Ratio) (decimals : Nat) (less more : Amount),
      Amount.ofDollars x decimals = .ok less → Amount.ofDollars y decimals = .ok more →
        (x.value ≤ y.value → less ≤ more) ∧
          (6 ≤ decimals → x.value + 1 / 10 ^ 6 ≤ y.value → less < more)) ∧
    ∀ d rows settings p, planRows d rows settings = .ok p →
      ∃ prices, p.prices? = some prices ∧
        List.Forall₂ (SaleRow.OfferedAt d) (Row.sales rows) prices ∧
        (6 ≤ d.fiatDecimals → ∀ tier price dearer higher,
          (tier, price) ∈ (Row.sales rows).zip prices →
            (dearer, higher) ∈ (Row.sales rows).zip prices → tier.Below dearer →
              price < higher) := by
  refine ⟨fun _ _ _ => Amount.ofDollars_eq_iff, ?_, ?_⟩
  · intro x y decimals less more less_given more_given
    exact ⟨fun le => Amount.ofDollars_mono le less_given more_given,
      fun places apart => Amount.ofDollars_lt places apart less_given more_given⟩
  · intro d rows settings p planned
    obtain ⟨prices, read, offered⟩ := exists_prices? planned
    obtain ⟨-, offered_each⟩ := List.forall₂_iff_zip.mp offered
    refine ⟨prices, read, offered, ?_⟩
    intro places tier price dearer higher mem mem' below
    exact Amount.ofDollars_lt places below (offered_each mem) (offered_each mem')

/-- Two tiers, the second a millionth of a dollar dearer, and an account between them. -/
def risingRows : List Row :=
  [.sale SaleRow.onePercent, .account ⟨"cex", Address.zero, .percent (Ratio.millionths 500000)⟩,
    .sale
      { SaleRow.onePercent with
        id := "private"
        start := .afterPrevious
        price := Ratio.millionths 35 }]

theorem ofDollars_decides_price_rising :
    Amount.Priced (Ratio.millionths 34) 18 (.ok (Amount.ofWord 34000000000000)) ∧
      Amount.Priced (Ratio.millionths 35) 18 (.ok (Amount.ofWord 35000000000000)) ∧
      Amount.ofWord 34000000000000 ≤ Amount.ofWord 35000000000000 ∧
      Amount.ofWord 34000000000000 < Amount.ofWord 35000000000000 ∧
      ∃ p price higher, planRows thousand risingRows Settings.standard = .ok p ∧
        p.prices? = some [price, higher] ∧ price < higher := by
  have less_given : Amount.ofDollars (Ratio.millionths 34) 18 =
      .ok (Amount.ofWord 34000000000000) := by decide +kernel
  have more_given : Amount.ofDollars (Ratio.millionths 35) 18 =
      .ok (Amount.ofWord 35000000000000) := by decide +kernel
  have apart : (Ratio.millionths 34).value + 1 / 10 ^ 6 ≤ (Ratio.millionths 35).value := by
    have parts : (Ratio.millionths 34).num = 17 ∧ (Ratio.millionths 34).den = 500000 ∧
        (Ratio.millionths 35).num = 7 ∧ (Ratio.millionths 35).den = 200000 := by decide +kernel
    obtain ⟨num, den, num', den'⟩ := parts
    rw [Ratio.value, Ratio.value, num, den, num', den']
    norm_num
  obtain ⟨outcome, order, plans⟩ := ofDollars_decides_price
  obtain ⟨mono, strict⟩ := order _ _ _ _ _ less_given more_given
  have le : (Ratio.millionths 34).value ≤ (Ratio.millionths 35).value :=
    le_trans (le_add_of_nonneg_right (by norm_num)) apart
  refine ⟨(outcome _ _ _).mp less_given, (outcome _ _ _).mp more_given, mono le,
    strict (by decide) apart, ?_⟩
  obtain ⟨p, planned⟩ := isOk_iff.mp
    (show (planRows thousand risingRows Settings.standard).isOk = true by decide +kernel)
  obtain ⟨prices, read, offered, rises⟩ := plans _ _ _ _ planned
  cases offered with
  | @cons _ price _ _ _ rest =>
    cases rest with
    | @cons _ higher _ _ _ rest =>
      cases rest
      refine ⟨p, price, higher, planned, read, ?_⟩
      exact rises (by decide) _ _ _ _ List.mem_cons_self
        (List.mem_cons_of_mem _ List.mem_cons_self) apart

end Plan

end TokenPlan
