import TokenPlan.Supply.Report

/-!
Distributions: allocations together with the reserve that takes what they leave. What explicit
allocations leave of the supply goes to the reserve, and the obligations then make up the supply
exactly.
-/

set_option autoImplicit false
set_option relaxedAutoImplicit false

namespace TokenPlan

/-- Allocations with the report on which their reserve rests. -/
structure Distribution where
  allocations : List Allocation
  report : SupplyReport
deriving DecidableEq

namespace Distribution

/-- The reserve, which stands last. -/
def reserve? (d : Distribution) : Option Allocation :=
  d.allocations.getLast?.filter Allocation.isReserve

/-- The obligations make up the total supply. -/
def check (d : Distribution) : Except PlanError Unit :=
  match totalObligation d.allocations with
  | none => .error (.supplyExceeded d.report.total Amount.largest)
  | some sum =>
    if d.report.total < sum then .error (.supplyExceeded d.report.total sum)
    else if sum < d.report.total then
      .error (.mismatch PlanError.wholeSupply (.unbalanced d.report.total sum))
    else .ok ()

/--
Adds the reserve to allocations that have none. A report that was made for other allocations is
caught, since the obligations then miss the total supply.
-/
def withReserve (allocations : List Allocation) (report : SupplyReport) (reserveId : String) :
    Except PlanError Distribution := do
  if let some existing := allocations.find? Allocation.isReserve then
    throw (.mismatch existing.id .explicitReserve)
  if allocations.any fun a => a.id = reserveId then
    throw (.table (.duplicateId reserveId))
  let distribution : Distribution :=
    ⟨allocations ++ [Allocation.liquidity reserveId report.remainder], report⟩
  distribution.check
  return distribution

end Distribution

end TokenPlan
