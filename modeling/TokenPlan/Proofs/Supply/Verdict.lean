import TokenPlan.Proofs.Supply.Obligation

/-!
The verdict on a supply. It hangs on nothing but the sum of all that is owed: below the supply the
report tells the sum and what it leaves, and from the supply on the sum is told as the error, as far
as an amount can tell it. So no order of the allocations and no place of an overflow is seen in it.
-/

set_option autoImplicit false
set_option relaxedAutoImplicit false

namespace TokenPlan

/-- What the check of a supply answers where `owed` is taken of it, counted without a bound. -/
inductive Verdict (total : Amount) (owed : Nat) : Except PlanError SupplyReport → Prop
  | sufficient {report : SupplyReport} (within : owed < total.toNat) (supply : report.total = total)
      (allocated : report.allocated.toNat = owed)
      (remainder : report.remainder.toNat = total.toNat - owed)
      (left : 0 < report.remainder.toNat) :
      Verdict total owed (.ok report)
  | exceeded {counted : Amount} (spent : total.toNat ≤ owed)
      (capped : counted.toNat = min owed (2 ^ 256 - 1)) :
      Verdict total owed (.error (.supplyExceeded total counted))

namespace Verdict

variable {total : Amount} {owed : Nat} {result other : Except PlanError SupplyReport}

private theorem unique (verdict : Verdict total owed result) (verdict' : Verdict total owed other) :
    result = other := by
  cases verdict with
  | @sufficient report within supply allocated remainder left =>
    cases verdict' with
    | @sufficient report' _ supply' allocated' remainder' _ =>
      have same_allocated : report.allocated = report'.allocated :=
        Amount.ext (allocated.trans allocated'.symm)
      have same_remainder : report.remainder = report'.remainder :=
        Amount.ext (remainder.trans remainder'.symm)
      obtain ⟨_, _, _⟩ := report
      cases supply
      cases supply'
      cases same_allocated
      cases same_remainder
      rfl
    | exceeded spent _ => exact absurd within (Nat.not_lt_of_le spent)
  | @exceeded counted spent capped =>
    cases verdict' with
    | sufficient within _ _ _ _ => exact absurd within (Nat.not_lt_of_le spent)
    | @exceeded counted' _ capped' =>
      have same : counted = counted' := Amount.ext (capped.trans capped'.symm)
      rw [same]

private theorem eq_iff (verdict : Verdict total owed result) :
    result = other ↔ Verdict total owed other := by
  constructor
  · rintro rfl
    exact verdict
  · intro verdict'
    exact verdict.unique verdict'

private theorem congr {owed' : Nat} (same : min owed (2 ^ 256 - 1) = min owed' (2 ^ 256 - 1))
    (verdict : Verdict total owed result) : Verdict total owed' result := by
  have bound := total.isLt
  cases verdict with
  | sufficient within supply allocated remainder left =>
    have equal : owed = owed' := by omega
    exact equal ▸ .sufficient within supply allocated remainder left
  | exceeded spent capped =>
    have spent' : total.toNat ≤ owed' := by omega
    exact .exceeded spent' (capped.trans same)

end Verdict

private theorem verdict_reportSupply (allocations : List Allocation) (total : Amount) :
    Verdict total (owedBy allocations) (reportSupply allocations total) := by
  by_cases left : owedBy allocations < total.toNat
  · obtain ⟨report, given⟩ := exists_reportSupply left
    obtain ⟨supply, allocated, positive, parts⟩ := reportSupply_eq_ok_iff.mp given
    have remainder : report.remainder.toNat = total.toNat - owedBy allocations := by omega
    rw [given]
    exact .sufficient left supply allocated remainder positive
  · have spent : total.toNat ≤ owedBy allocations := Nat.le_of_not_lt left
    rw [reportSupply_of_le spent]
    exact .exceeded spent (Amount.toNat_saturate _)

private theorem owedBy_perm {allocations others : List Allocation}
    (perm : others.Perm allocations) :
    owedBy others = owedBy allocations :=
  (perm.map Allocation.owed).sum_nat

/--
The check of a supply answers with the verdict on what is owed and with nothing else. It answers
the same in every order of the allocations, and wherever the sums are equal as far as amounts go:
so a single obligation that is too large counts like a sum that is.
-/
theorem reportSupply_decides_verdict (allocations : List Allocation) (total : Amount) :
    (∀ result, reportSupply allocations total = result ↔
      Verdict total (owedBy allocations) result) ∧
    (∀ others, others.Perm allocations →
      reportSupply others total = reportSupply allocations total) ∧
    ∀ others, min (owedBy others) (2 ^ 256 - 1) = min (owedBy allocations) (2 ^ 256 - 1) →
      reportSupply others total = reportSupply allocations total := by
  have verdict := verdict_reportSupply allocations total
  have counts : ∀ others,
      min (owedBy others) (2 ^ 256 - 1) = min (owedBy allocations) (2 ^ 256 - 1) →
        reportSupply others total = reportSupply allocations total := by
    intro others same
    exact ((verdict_reportSupply others total).congr same).unique verdict
  refine ⟨fun _ => verdict.eq_iff, ?_, counts⟩
  · intro others perm
    apply counts
    rw [owedBy_perm perm]

/-- A tier whose tokens and rebates together are no amount. -/
def overdrawnTier : Allocation :=
  Allocation.sale "seed" Amount.largest
    { name := "Seed"
      cooldown := 0
      start := .instant 1717170214
      price := Amount.ofWord 34
      minimum := Amount.zero
      maximum := Amount.largest
      affiliateReserve := Amount.ofWord 1
      affiliateRate := 100000
      vesting := VestingSchedule.immediate }

/-- Two accounts whose tokens are amounts, but not their sum. -/
def overdrawnAccounts : List Allocation :=
  [Allocation.account "treasury" Amount.largest Address.zero,
    Allocation.account "team" (Amount.ofWord 7) Address.zero]

theorem reportSupply_decides_verdict_overdrawn :
    (overdrawnTier :: overdrawnAccounts).reverse.Perm (overdrawnTier :: overdrawnAccounts) ∧
    reportSupply (overdrawnTier :: overdrawnAccounts).reverse Amount.largest =
      reportSupply (overdrawnTier :: overdrawnAccounts) Amount.largest ∧
    min (owedBy overdrawnAccounts) (2 ^ 256 - 1) = min (owedBy [overdrawnTier]) (2 ^ 256 - 1) ∧
    reportSupply overdrawnAccounts Amount.largest = reportSupply [overdrawnTier] Amount.largest ∧
    reportSupply [overdrawnTier] Amount.largest =
      .error (.supplyExceeded Amount.largest Amount.largest) := by
  have reversed := List.reverse_perm (overdrawnTier :: overdrawnAccounts)
  have same : min (owedBy overdrawnAccounts) (2 ^ 256 - 1) =
      min (owedBy [overdrawnTier]) (2 ^ 256 - 1) := by decide
  refine ⟨reversed, ?_, same, ?_, ?_⟩
  · exact (reportSupply_decides_verdict _ Amount.largest).2.1 _ reversed
  · exact (reportSupply_decides_verdict _ Amount.largest).2.2 _ same
  · exact ((reportSupply_decides_verdict _ _).1 _).mpr (.exceeded (by decide) (by decide))

end TokenPlan
