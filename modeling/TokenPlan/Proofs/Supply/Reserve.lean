import TokenPlan.Proofs.Supply.Obligation

/-!
The reserve that is added to a report's own allocations: its name may not be taken, and nothing else
can go wrong, since what the report leaves makes up the supply.
-/

set_option autoImplicit false
set_option relaxedAutoImplicit false

namespace TokenPlan

private theorem owed_liquidity (id : String) (tokens : Amount) :
    (Allocation.liquidity id tokens).owed = tokens.toNat := rfl

theorem owedBy_append_reserve (allocations : List Allocation) (id : String) (tokens : Amount) :
    owedBy (allocations ++ [Allocation.liquidity id tokens]) =
      owedBy allocations + tokens.toNat := by
  rw [owedBy_append, owedBy_cons, owedBy_nil, owed_liquidity, Nat.add_zero]

theorem owedBy_append_liquidity {allocations : List Allocation} {total : Amount}
    {report : SupplyReport} (id : String) (reported : reportSupply allocations total = .ok report) :
    owedBy (allocations ++ [Allocation.liquidity id report.remainder]) = report.total.toNat := by
  obtain ⟨same_total, allocated, -, exact⟩ := reportSupply_eq_ok_iff.mp reported
  rw [owedBy_append_reserve, same_total]
  omega

namespace Distribution

variable {allocations : List Allocation} {report : SupplyReport} {reserveId : String}

/-! ### The three steps of adding a reserve -/

/-- A reserve among the allocations is refused, and of several the first is named. -/
theorem withReserve_of_reserve {existing : Allocation}
    (found : allocations.find? Allocation.isReserve = some existing) :
    withReserve allocations report reserveId = .error (.mismatch existing.id .explicitReserve) := by
  simp only [withReserve, found]
  rfl

theorem withReserve_of_taken (explicit : ∀ a ∈ allocations, a.isReserve = false)
    (taken : reserveId ∈ allocations.map Allocation.id) :
    withReserve allocations report reserveId = .error (.table (.duplicateId reserveId)) := by
  have none_found : allocations.find? Allocation.isReserve = none := by
    simpa using explicit
  have some_taken : (allocations.any fun a => a.id = reserveId) = true := by
    simpa using taken
  simp only [withReserve, none_found, some_taken, if_true]
  rfl

theorem withReserve_of_free (explicit : ∀ a ∈ allocations, a.isReserve = false)
    (free : reserveId ∉ allocations.map Allocation.id) :
    withReserve allocations report reserveId =
      check ⟨allocations ++ [Allocation.liquidity reserveId report.remainder], report⟩ >>= fun _ =>
        .ok ⟨allocations ++ [Allocation.liquidity reserveId report.remainder], report⟩ := by
  have none_found : allocations.find? Allocation.isReserve = none := by
    simpa using explicit
  have none_taken : (allocations.any fun a => a.id = reserveId) = false := by
    simpa using free
  simp only [withReserve, none_found, none_taken]
  rfl

/-- A reserve is added where there is none, its name is free and it fills the supply up. -/
theorem withReserve_eq_ok_iff {d : Distribution} :
    withReserve allocations report reserveId = .ok d ↔
      (∀ a ∈ allocations, a.isReserve = false) ∧ reserveId ∉ allocations.map Allocation.id ∧
        owedBy allocations + report.remainder.toNat = report.total.toNat ∧
          d = ⟨allocations ++ [Allocation.liquidity reserveId report.remainder], report⟩ := by
  cases found : allocations.find? Allocation.isReserve with
  | some existing =>
    have reserve := List.find?_some found
    have mem := List.mem_of_find?_eq_some found
    rw [withReserve_of_reserve found]
    constructor
    · nofun
    · rintro ⟨explicit, -⟩
      rw [explicit existing mem] at reserve
      cases reserve
  | none =>
    have explicit : ∀ a ∈ allocations, a.isReserve = false := by
      simpa using List.find?_eq_none.mp found
    by_cases taken : reserveId ∈ allocations.map Allocation.id
    · rw [withReserve_of_taken explicit taken]
      exact ⟨nofun, fun given => absurd taken given.2.1⟩
    · have filled : check ⟨allocations ++ [Allocation.liquidity reserveId report.remainder],
          report⟩ = .ok () ↔
            owedBy allocations + report.remainder.toNat = report.total.toNat := by
        rw [check_eq_ok_iff, owedBy_append_reserve]
      rw [withReserve_of_free explicit taken, bind_eq_ok_iff, ← filled]
      constructor
      · rintro ⟨_, passed, done⟩
        cases done
        exact ⟨explicit, taken, passed, rfl⟩
      · rintro ⟨-, -, passed, rfl⟩
        exact ⟨(), passed, rfl⟩

theorem withReserve_eq {total : Amount} (reserveId : String)
    (explicit : ∀ a ∈ allocations, a.isReserve = false)
    (reported : reportSupply allocations total = .ok report) :
    withReserve allocations report reserveId =
      if reserveId ∈ allocations.map Allocation.id then .error (.table (.duplicateId reserveId))
      else .ok ⟨allocations ++ [Allocation.liquidity reserveId report.remainder], report⟩ := by
  by_cases taken : reserveId ∈ allocations.map Allocation.id
  · rw [if_pos taken, withReserve_of_taken explicit taken]
  · have filled := owedBy_append_liquidity reserveId reported
    rw [owedBy_append_reserve] at filled
    rw [if_neg taken]
    exact withReserve_eq_ok_iff.mpr ⟨explicit, taken, filled, rfl⟩

end Distribution

end TokenPlan
