import TokenPlan.Plan.Compiled

/-!
Figures read back off a plan: what the token mints, what the allocations take, and the contracts.
-/

set_option autoImplicit false
set_option relaxedAutoImplicit false

namespace TokenPlan.CompiledPlan

def numberOf : Argument → Nat
  | .uint value => value.toNat
  | _ => 0

/-- The sum of the amounts that the token mints. -/
def mintedTotal (p : CompiledPlan) : Nat :=
  match p.action? (p.deployment.token.action?.getD "") with
  | none => 0
  | some action =>
    match action.arguments[1]? with
    | some (Argument.array amounts) => (amounts.map numberOf).sum
    | _ => 0

def createdContracts (p : CompiledPlan) : List String :=
  p.actions.filterMap Action.contract?

/-- The sum of the obligations of all allocations, if it is an amount. -/
def obligationsTotal (p : CompiledPlan) : Option Amount :=
  totalObligation p.allocations

end TokenPlan.CompiledPlan
