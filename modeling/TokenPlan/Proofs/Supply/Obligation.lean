import TokenPlan.Supply.Distribution

/-!
Obligations as sums without a bound. The checked sums of amounts agree with them wherever they fit,
so neither the order of the additions nor the place of an overflow matters.
-/

set_option autoImplicit false
set_option relaxedAutoImplicit false

namespace TokenPlan

/-- What an allocation takes of the supply, counted without a bound. -/
def Allocation.owed (a : Allocation) : Nat :=
  match a.kind with
  | .saleTier tier => a.tokens.toNat + tier.affiliateReserve.toNat
  | _ => a.tokens.toNat

def owedBy (allocations : List Allocation) : Nat :=
  (allocations.map Allocation.owed).sum

@[simp] theorem owedBy_nil : owedBy [] = 0 := rfl

@[simp] theorem owedBy_cons (a : Allocation) (rest : List Allocation) :
    owedBy (a :: rest) = a.owed + owedBy rest := by
  simp [owedBy]

@[simp] theorem owedBy_append (before after : List Allocation) :
    owedBy (before ++ after) = owedBy before + owedBy after := by
  simp [owedBy]

theorem owed_le_owedBy {a : Allocation} {allocations : List Allocation} (mem : a ∈ allocations) :
    a.owed ≤ owedBy allocations := by
  obtain ⟨before, after, rfl⟩ := List.append_of_mem mem
  rw [owedBy_append, owedBy_cons]
  omega

theorem Allocation.owed_of_unsold {a : Allocation} (unsold : a.kind.isSold = false) :
    a.owed = a.tokens.toNat := by
  unfold Allocation.owed
  cases kind : a.kind with
  | saleTier tier => simp [kind, AllocationKind.isSold] at unsold
  | liquidityReserve => rfl
  | vestingPool pool => rfl
  | directAccount => rfl

private theorem Allocation.obligation_eq (a : Allocation) :
    a.obligation = require .overflow (Amount.ofNat? a.owed) := by
  unfold Allocation.obligation Allocation.owed
  cases a.kind with
  | saleTier tier => rfl
  | liquidityReserve => simp [require]
  | vestingPool pool => simp [require]
  | directAccount => simp [require]

theorem Allocation.obligation_eq_ok_iff {a : Allocation} {amount : Amount} :
    a.obligation = .ok amount ↔ a.owed = amount.toNat := by
  rw [Allocation.obligation_eq, require_eq_ok_iff, Amount.ofNat?_eq_some_iff]

private theorem addObligations_eq (sum : Amount) (allocations : List Allocation) :
    addObligations sum allocations = Amount.ofNat? (sum.toNat + owedBy allocations) := by
  induction allocations generalizing sum with
  | nil => simp [addObligations]
  | cons a rest ih =>
    rw [addObligations, Allocation.obligation_eq, owedBy_cons]
    cases single : Amount.ofNat? a.owed with
    | none =>
      have large : 2 ^ 256 ≤ a.owed := Amount.ofNat?_eq_none_iff.mp single
      simp only [require]
      exact (Amount.ofNat?_eq_none_iff.mpr (by omega)).symm
    | some obligation =>
      have exact : a.owed = obligation.toNat := Amount.ofNat?_eq_some_iff.mp single
      simp only [require, Option.bind_eq_bind]
      cases sums : sum.add? obligation with
      | none =>
        have large : 2 ^ 256 ≤ sum.toNat + obligation.toNat := Amount.ofNat?_eq_none_iff.mp sums
        exact (Amount.ofNat?_eq_none_iff.mpr (by omega)).symm
      | some next =>
        have sum_eq : sum.toNat + obligation.toNat = next.toNat := Amount.add?_eq_some_iff.mp sums
        rw [Option.bind_some, ih next]
        congr 1
        omega

theorem totalObligation_eq (allocations : List Allocation) :
    totalObligation allocations = Amount.ofNat? (owedBy allocations) := by
  rw [totalObligation, addObligations_eq]
  simp [Amount.zero]

theorem totalObligation_eq_some_iff {allocations : List Allocation} {total : Amount} :
    totalObligation allocations = some total ↔ owedBy allocations = total.toNat := by
  rw [totalObligation_eq, Amount.ofNat?_eq_some_iff]

/-! ### The check of a supply -/

/-- The amount next to a number: the largest amount stands for every number above it. -/
def Amount.saturate (n : Nat) : Amount :=
  (ofNat? n).getD largest

theorem Amount.toNat_saturate (n : Nat) : (saturate n).toNat = min n (2 ^ 256 - 1) := by
  unfold saturate ofNat?
  split
  · rename_i fits
    change n = min n (2 ^ 256 - 1)
    omega
  · rename_i wide
    change 2 ^ 256 - 1 = min n (2 ^ 256 - 1)
    omega

@[simp] theorem Amount.saturate_toNat (a : Amount) : saturate a.toNat = a := by
  rw [saturate, ofNat?_toNat, Option.getD_some]

/--
The check of a supply is one comparison with the sum without a bound. A sum that is no amount lies
above every supply, so it does not matter whether an addition or a single obligation was too large.
-/
private theorem reportSupply_eq (allocations : List Allocation) (total : Amount) :
    reportSupply allocations total =
      if owedBy allocations < total.toNat then
        .ok ⟨total, Amount.saturate (owedBy allocations),
          Amount.saturate (total.toNat - owedBy allocations)⟩
      else .error (.supplyExceeded total (Amount.saturate (owedBy allocations))) := by
  unfold reportSupply
  cases sums : totalObligation allocations with
  | none =>
    rw [totalObligation_eq] at sums
    have large : 2 ^ 256 ≤ owedBy allocations := Amount.ofNat?_eq_none_iff.mp sums
    have bound := total.isLt
    rw [if_neg (by omega), Amount.saturate, sums]
    rfl
  | some allocated =>
    have exact : owedBy allocations = allocated.toNat := totalObligation_eq_some_iff.mp sums
    rw [exact, Amount.saturate_toNat]
    by_cases spent : total ≤ allocated
    · have not_left : ¬ allocated.toNat < total.toNat := Nat.not_lt_of_le spent
      rw [if_neg not_left]
      exact if_pos spent
    · have left : allocated.toNat < total.toNat := Nat.lt_of_not_le spent
      have apart : allocated.toNat + (total.toNat - allocated.toNat) = total.toNat :=
        Nat.add_sub_of_le (Nat.le_of_lt left)
      have rest : total.sub? allocated =
          some (Amount.saturate (total.toNat - allocated.toNat)) := by
        have bound := total.isLt
        rw [Amount.sub?_eq_some_iff, Amount.toNat_saturate]
        omega
      simp only [spent, left, if_true, if_false, rest]

/-- A report is given exactly where allocations leave something, and it tells what they leave. -/
theorem reportSupply_eq_ok_iff {allocations : List Allocation} {total : Amount}
    {report : SupplyReport} :
    reportSupply allocations total = .ok report ↔
      report.total = total ∧ report.allocated.toNat = owedBy allocations ∧
        0 < report.remainder.toNat ∧
          report.allocated.toNat + report.remainder.toNat = total.toNat := by
  have bound := total.isLt
  rw [reportSupply_eq]
  by_cases left : owedBy allocations < total.toNat
  · rw [if_pos left, Except.ok.injEq]
    constructor
    · rintro rfl
      simp only [Amount.toNat_saturate, true_and]
      omega
    · rintro ⟨rfl, allocated, -, parts⟩
      have remains : report.remainder.toNat = report.total.toNat - owedBy allocations := by omega
      rw [← allocated, Amount.saturate_toNat, allocated, ← remains, Amount.saturate_toNat]
  · rw [if_neg left]
    simp only [reduceCtorEq, false_iff]
    omega

theorem exists_reportSupply {allocations : List Allocation} {total : Amount}
    (left : owedBy allocations < total.toNat) :
    ∃ report, reportSupply allocations total = .ok report := by
  rw [reportSupply_eq, if_pos left]
  exact ⟨_, rfl⟩

/-- Allocations that leave nothing are refused with their sum, which may be no amount any more. -/
theorem reportSupply_of_le {allocations : List Allocation} {total : Amount}
    (spent : total.toNat ≤ owedBy allocations) :
    reportSupply allocations total =
      .error (.supplyExceeded total (Amount.saturate (owedBy allocations))) := by
  rw [reportSupply_eq, if_neg (Nat.not_lt_of_le spent)]

/-! ### The check of a distribution -/

theorem Distribution.check_eq (d : Distribution) :
    d.check =
      if d.report.total.toNat < owedBy d.allocations then
        .error (.supplyExceeded d.report.total (Amount.saturate (owedBy d.allocations)))
      else if owedBy d.allocations < d.report.total.toNat then
        .error (.mismatch PlanError.wholeSupply
          (.unbalanced d.report.total (Amount.saturate (owedBy d.allocations))))
      else .ok () := by
  unfold Distribution.check
  cases sums : totalObligation d.allocations with
  | none =>
    rw [totalObligation_eq] at sums
    have large : 2 ^ 256 ≤ owedBy d.allocations := Amount.ofNat?_eq_none_iff.mp sums
    have bound := d.report.total.isLt
    rw [if_pos (by omega), Amount.saturate, sums]
    rfl
  | some sum =>
    have exact : owedBy d.allocations = sum.toNat := totalObligation_eq_some_iff.mp sums
    rw [exact, Amount.saturate_toNat]
    rfl

/-- The check passes exactly where the obligations make up the total supply. -/
theorem Distribution.check_eq_ok_iff {d : Distribution} :
    d.check = .ok () ↔ owedBy d.allocations = d.report.total.toNat := by
  rw [Distribution.check_eq]
  split
  · rename_i above
    simp only [reduceCtorEq, false_iff]
    omega
  · rename_i not_above
    split
    · rename_i below
      simp only [reduceCtorEq, false_iff]
      omega
    · rename_i not_below
      simp only [true_iff]
      omega

end TokenPlan
