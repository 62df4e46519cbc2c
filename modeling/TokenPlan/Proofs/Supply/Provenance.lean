import TokenPlan.Plan.Compiled
import TokenPlan.Proofs.Supply.Reserve

/-!
Where distributions come from. Allocations are made by their kinds and bound at most once, and a
distribution is made of them and of a report. The reserve has to fill the supply up, so a report on
other allocations is refused; what a report that was made by hand says beyond its remainder is not
compared with the allocations.
-/

set_option autoImplicit false
set_option relaxedAutoImplicit false

namespace TokenPlan

/-! ### Allocations and distributions as they are made -/

/-- An allocation that is made as one of the kinds and then bound, where that succeeds. -/
inductive Allocation.Made : Allocation → Prop
  | sale (id : String) (tokens : Amount) (tier : SaleTier) : Made (Allocation.sale id tokens tier)
  | vesting (id : String) (tokens : Amount) (pool : VestingPool) :
      Made (Allocation.vesting id tokens pool)
  | liquidity (id : String) (tokens : Amount) : Made (Allocation.liquidity id tokens)
  | account (id : String) (tokens : Amount) (address : Address) :
      Made (Allocation.account id tokens address)
  | bound {a b : Allocation} {target : Target} (made : Made a) (binds : a.bind target = .ok b) :
      Made b

/-- A distribution that is made of allocations, whatever report the reserve rests on. -/
def Distribution.Made (d : Distribution) : Prop :=
  ∃ allocations report reserveId, (∀ a ∈ allocations, Allocation.Made a) ∧
    Distribution.withReserve allocations report reserveId = .ok d

private theorem Allocation.Made.literal {a : Allocation} (made : a.Made)
    (direct : a.kind = .directAccount) :
    ∃ address, a.target = some (.account address) := by
  induction made with
  | sale id tokens tier => cases direct
  | vesting id tokens pool => cases direct
  | liquidity id tokens => cases direct
  | account id tokens address => exact ⟨address, rfl⟩
  | bound _ binds ih =>
    obtain ⟨free, rfl⟩ := Allocation.bind_eq_ok_iff.mp binds
    obtain ⟨address, owner⟩ := ih direct
    rw [free] at owner
    cases owner

theorem Distribution.Made.literal {d : Distribution} (made : d.Made) {a : Allocation}
    (mem : a ∈ d.allocations) (direct : a.kind = .directAccount) :
    ∃ address, a.target = some (.account address) := by
  obtain ⟨allocations, report, reserveId, all_made, kept⟩ := made
  obtain ⟨-, -, -, rfl⟩ := Distribution.withReserve_eq_ok_iff.mp kept
  rcases List.mem_append.mp mem with mem | reserve
  · exact (all_made a mem).literal direct
  · obtain rfl := List.mem_singleton.mp reserve
    cases direct

/-! ### Reports -/

/--
A report with which a distribution is made tells what the allocations leave. It is the report on
these allocations exactly if it leaves something and its parts make up its total; so any report that
was given for some allocations is the report on these.
-/
theorem reportSupply_of_withReserve {allocations : List Allocation} {report : SupplyReport}
    {reserveId : String} {d : Distribution}
    (kept : Distribution.withReserve allocations report reserveId = .ok d) :
    owedBy allocations + report.remainder.toNat = report.total.toNat ∧
      (reportSupply allocations report.total = .ok report ↔
        0 < report.remainder.toNat ∧
          report.allocated.toNat + report.remainder.toNat = report.total.toNat) ∧
      ∀ others total, reportSupply others total = .ok report →
        reportSupply allocations report.total = .ok report := by
  obtain ⟨-, -, filled, -⟩ := Distribution.withReserve_eq_ok_iff.mp kept
  have exactly : reportSupply allocations report.total = .ok report ↔
      0 < report.remainder.toNat ∧
        report.allocated.toNat + report.remainder.toNat = report.total.toNat := by
    rw [reportSupply_eq_ok_iff]
    constructor
    · rintro ⟨-, -, left, parts⟩
      exact ⟨left, parts⟩
    · rintro ⟨left, parts⟩
      exact ⟨rfl, by omega, left, parts⟩
  refine ⟨filled, exactly, ?_⟩
  intro others total given
  obtain ⟨rfl, -, left, parts⟩ := reportSupply_eq_ok_iff.mp given
  exact exactly.mpr ⟨left, parts⟩

/-- A report on ten base units of which an account takes five. -/
def halfReport : SupplyReport :=
  ⟨Amount.ofWord 10, Amount.ofWord 5, Amount.ofWord 5⟩

theorem reportSupply_of_withReserve_halfReport :
    (∃ d, Distribution.withReserve [Allocation.account "treasury" (Amount.ofWord 5) Address.zero]
      halfReport "liquidity_dex" = .ok d) ∧
    reportSupply [Allocation.account "treasury" (Amount.ofWord 5) Address.zero] halfReport.total =
      .ok halfReport := by
  have kept : ∃ d, Distribution.withReserve
      [Allocation.account "treasury" (Amount.ofWord 5) Address.zero] halfReport "liquidity_dex" =
        .ok d := ⟨_, rfl⟩
  refine ⟨kept, ?_⟩
  obtain ⟨d, made⟩ := kept
  exact (reportSupply_of_withReserve made).2.1.mpr (by decide)

/--
A report made by hand that leaves nothing and counts no allocation, beside an account that takes the
whole supply: a distribution is made of them and compiled, though the supply is exceeded.
-/
theorem compile_unreported :
    let allocations := [Allocation.account "treasury" (Amount.ofWord 10) Address.zero]
    let report : SupplyReport := ⟨Amount.ofWord 10, Amount.zero, Amount.zero⟩
    (∃ d, Distribution.withReserve allocations report "liquidity_dex" = .ok d ∧
      (Plan.compile d Settings.standard).isOk = true) ∧
    reportSupply allocations report.total =
      .error (.supplyExceeded (Amount.ofWord 10) (Amount.ofWord 10)) := by
  intro allocations report
  exact ⟨⟨_, rfl, by decide +kernel⟩, rfl⟩

end TokenPlan
