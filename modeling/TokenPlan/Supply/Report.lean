import TokenPlan.Allocation.Basic

/-!
Reports on the supply: what the allocations take of it and what they leave. They have to leave
something, so that the liquidity reserve is never empty.
-/

set_option autoImplicit false
set_option relaxedAutoImplicit false

namespace TokenPlan

/-- The total supply, what explicit allocations take of it, and the rest. -/
structure SupplyReport where
  total : Amount
  allocated : Amount
  remainder : Amount
deriving DecidableEq

def SupplyReport.toJson (r : SupplyReport) : Json.Value :=
  .object
    [("totalSupply", r.total.toJson), ("allocated", r.allocated.toJson),
      ("remainder", r.remainder.toJson)]

/-- Adds obligations to a sum; there is none once an obligation or a sum is too large. -/
def addObligations : Amount → List Allocation → Option Amount
  | sum, [] => some sum
  | sum, a :: rest =>
    match a.obligation with
    | .error _ => none
    | .ok obligation => do
      let sum ← sum.add? obligation
      addObligations sum rest

def totalObligation (allocations : List Allocation) : Option Amount :=
  addObligations Amount.zero allocations

/-- Reports on allocations against a supply; a sum that is no amount counts as the largest one. -/
def reportSupply (allocations : List Allocation) (total : Amount) :
    Except PlanError SupplyReport :=
  match totalObligation allocations with
  | none => .error (.supplyExceeded total Amount.largest)
  | some allocated =>
    if total ≤ allocated then .error (.supplyExceeded total allocated)
    else
      match total.sub? allocated with
      | none => .error (.supplyExceeded total allocated)
      | some remainder => .ok ⟨total, allocated, remainder⟩

end TokenPlan
