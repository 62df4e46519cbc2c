import TokenPlan.Proofs.Supply.Reserve

/-!
The balance of a distribution. Allocations and a report are made into a distribution exactly if no
allocation is a reserve or has the name of one, and what is owed makes up the supply with what the
report leaves. Every refusal tells which of these fails, the first of them where several do; above
the supply it tells the sum as far as an amount can, below it the sum itself.
-/

set_option autoImplicit false
set_option relaxedAutoImplicit false

namespace TokenPlan

namespace Distribution

/-- The allocations with one unbound reserve behind them, which takes what the report leaves. -/
structure Completes (allocations : List Allocation) (report : SupplyReport) (reserveId : String)
    (d : Distribution) : Prop where
  listed : d.allocations = allocations ++ [Allocation.liquidity reserveId report.remainder]
  alone : d.allocations.filter Allocation.isReserve =
    [Allocation.liquidity reserveId report.remainder]
  reserve : d.reserve? = some (Allocation.liquidity reserveId report.remainder)
  reported : d.report = report
  checked : d.check = .ok ()

/-- What adding a reserve answers, with the circumstances in which it does. -/
inductive Balance (allocations : List Allocation) (report : SupplyReport) (reserveId : String) :
    Except PlanError Distribution → Prop
  | reserveGiven {before after : List Allocation} {existing : Allocation}
      (split : allocations = before ++ existing :: after)
      (first : ∀ a ∈ before, a.isReserve = false) (reserve : existing.isReserve = true) :
      Balance allocations report reserveId (.error (.mismatch existing.id .explicitReserve))
  | nameTaken (explicit : ∀ a ∈ allocations, a.isReserve = false)
      (taken : reserveId ∈ allocations.map Allocation.id) :
      Balance allocations report reserveId (.error (.table (.duplicateId reserveId)))
  | exceeded {counted : Amount} (explicit : ∀ a ∈ allocations, a.isReserve = false)
      (free : reserveId ∉ allocations.map Allocation.id)
      (above : report.total.toNat < owedBy allocations + report.remainder.toNat)
      (capped : counted.toNat =
        min (owedBy allocations + report.remainder.toNat) (2 ^ 256 - 1)) :
      Balance allocations report reserveId (.error (.supplyExceeded report.total counted))
  | short {sum : Amount} (explicit : ∀ a ∈ allocations, a.isReserve = false)
      (free : reserveId ∉ allocations.map Allocation.id)
      (below : owedBy allocations + report.remainder.toNat < report.total.toNat)
      (exact : sum.toNat = owedBy allocations + report.remainder.toNat) :
      Balance allocations report reserveId
        (.error (.mismatch PlanError.wholeSupply (.unbalanced report.total sum)))
  | filled {d : Distribution} (explicit : ∀ a ∈ allocations, a.isReserve = false)
      (free : reserveId ∉ allocations.map Allocation.id)
      (balanced : owedBy allocations + report.remainder.toNat = report.total.toNat)
      (completed : d.Completes allocations report reserveId) :
      Balance allocations report reserveId (.ok d)

variable {allocations : List Allocation} {report : SupplyReport} {reserveId : String}

theorem completes_of_withReserve {d : Distribution}
    (made : withReserve allocations report reserveId = .ok d) :
    d.Completes allocations report reserveId := by
  obtain ⟨explicit, -, balanced, rfl⟩ := withReserve_eq_ok_iff.mp made
  have none_else : allocations.filter Allocation.isReserve = [] := by
    rw [List.filter_eq_nil_iff]
    intro a mem
    rw [explicit a mem]
    exact Bool.false_ne_true
  constructor
  case listed => rfl
  case alone =>
    rw [List.filter_append, none_else]
    rfl
  case reserve =>
    rw [reserve?, List.getLast?_concat]
    rfl
  case reported => rfl
  case checked =>
    rw [check_eq_ok_iff, owedBy_append_reserve]
    exact balanced

private theorem balance_of_free (explicit : ∀ a ∈ allocations, a.isReserve = false)
    (free : reserveId ∉ allocations.map Allocation.id) :
    Balance allocations report reserveId (withReserve allocations report reserveId) := by
  have bound := report.total.isLt
  rcases Nat.lt_trichotomy (owedBy allocations + report.remainder.toNat) report.total.toNat with
    below | balanced | above
  · rw [withReserve_of_free explicit free, check_eq, owedBy_append_reserve,
      if_neg (Nat.not_lt_of_gt below), if_pos below]
    refine .short explicit free below ?_
    rw [Amount.toNat_saturate]
    omega
  · have made := withReserve_eq_ok_iff.mpr ⟨explicit, free, balanced, rfl⟩
    rw [made]
    exact .filled explicit free balanced (completes_of_withReserve made)
  · rw [withReserve_of_free explicit free, check_eq, owedBy_append_reserve, if_pos above]
    exact .exceeded explicit free above (Amount.toNat_saturate _)

private theorem balance_withReserve (allocations : List Allocation) (report : SupplyReport)
    (reserveId : String) :
    Balance allocations report reserveId (withReserve allocations report reserveId) := by
  cases found : allocations.find? Allocation.isReserve with
  | some existing =>
    obtain ⟨reserve, before, after, split, first⟩ := List.find?_eq_some_iff_append.mp found
    rw [withReserve_of_reserve found]
    exact .reserveGiven split (by simpa using first) reserve
  | none =>
    have explicit : ∀ a ∈ allocations, a.isReserve = false := by
      simpa using List.find?_eq_none.mp found
    by_cases taken : reserveId ∈ allocations.map Allocation.id
    · rw [withReserve_of_taken explicit taken]
      exact .nameTaken explicit taken
    · exact balance_of_free explicit taken

/--
A distribution is made exactly of allocations that have no reserve and leave its name free, and that
make up the supply with what the report leaves. Everything that is answered is told by the balance,
and with the report on the allocations themselves only a reserve or a name is refused.
-/
theorem withReserve_decides_balance (allocations : List Allocation) (report : SupplyReport)
    (reserveId : String) :
    ((∃ d, withReserve allocations report reserveId = .ok d) ↔
      (∀ a ∈ allocations, a.isReserve = false) ∧ reserveId ∉ allocations.map Allocation.id ∧
        owedBy allocations + report.remainder.toNat = report.total.toNat) ∧
    Balance allocations report reserveId (withReserve allocations report reserveId) ∧
    ∀ total, reportSupply allocations total = .ok report →
      ∀ e, withReserve allocations report reserveId = .error e →
        (∃ existing ∈ allocations, existing.isReserve = true ∧
          e = .mismatch existing.id .explicitReserve) ∨
        (reserveId ∈ allocations.map Allocation.id ∧ e = .table (.duplicateId reserveId)) := by
  have balance := balance_withReserve allocations report reserveId
  refine ⟨?_, balance, ?_⟩
  · constructor
    · rintro ⟨d, made⟩
      obtain ⟨explicit, free, balanced, -⟩ := withReserve_eq_ok_iff.mp made
      exact ⟨explicit, free, balanced⟩
    · rintro ⟨explicit, free, balanced⟩
      exact ⟨_, withReserve_eq_ok_iff.mpr ⟨explicit, free, balanced, rfl⟩⟩
  · intro total reported e refused
    -- the report leaves what is missing, so neither comparison of the sum can fail
    have balanced := owedBy_append_liquidity reserveId reported
    rw [owedBy_append_reserve] at balanced
    rw [refused] at balance
    cases balance with
    | @reserveGiven before after existing split first reserve =>
      have mem : existing ∈ allocations := by
        rw [split]
        exact List.mem_append_right before List.mem_cons_self
      exact Or.inl ⟨existing, mem, reserve, rfl⟩
    | nameTaken explicit taken => exact Or.inr ⟨taken, rfl⟩
    | exceeded explicit free above capped => omega
    | short explicit free below exact => omega

theorem withReserve_decides_balance_taken :
    let allocations := [Allocation.account "liquidity_dex" (Amount.ofWord 5) Address.zero]
    let report : SupplyReport := ⟨Amount.ofWord 10, Amount.ofWord 5, Amount.ofWord 5⟩
    reportSupply allocations report.total = .ok report ∧
    withReserve allocations report "liquidity_dex" =
      .error (.table (.duplicateId "liquidity_dex")) ∧
    "liquidity_dex" ∈ allocations.map Allocation.id := by
  intro allocations report
  have reported : reportSupply allocations report.total = .ok report := rfl
  have refused : withReserve allocations report "liquidity_dex" =
      .error (.table (.duplicateId "liquidity_dex")) := rfl
  refine ⟨reported, refused, ?_⟩
  rcases (withReserve_decides_balance allocations report "liquidity_dex").2.2 _ reported _ refused
    with ⟨existing, -, -, explicit⟩ | ⟨taken, -⟩
  · cases explicit
  · exact taken

end Distribution

end TokenPlan
