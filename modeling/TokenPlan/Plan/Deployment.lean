import TokenPlan.Entries
import TokenPlan.Plan.Error
import TokenPlan.Plan.Progress

/-!
Deployments: where the token, the sale contract, the payment asset and the owner of each allocation
will live, and their addresses once the actions have run.
-/

set_option autoImplicit false
set_option relaxedAutoImplicit false

namespace TokenPlan

/-- The owners of all that a plan deploys, those of allocations in the order of the table. -/
structure Deployment where
  token : Target
  sale : Target
  paymentAsset : Target
  allocations : List (String × Target)
deriving DecidableEq

/-- A deployment with an address in the place of every owner. -/
structure ResolvedDeployment where
  token : Address
  sale : Address
  paymentAsset : Address
  allocations : List (String × Address)
deriving DecidableEq

/-- The address of an owner; where its action has not run, `referrer` is reported. -/
def Target.resolve {ρ : Type} [Progress ρ] (target : Target) (results : ρ) (referrer : String) :
    Except PlanError Address :=
  match target with
  | .account address => .ok address
  | .action id => require (.unresolved referrer) (Progress.addressOf results id)

def Target.label (target : Target) : String :=
  target.action?.getD ""

namespace Deployment

def allocation? (d : Deployment) (id : String) : Option Target :=
  Entries.get? id d.allocations

def resolveAllocations {ρ : Type} [Progress ρ] (results : ρ) :
    List (String × Target) → Except PlanError (List (String × Address))
  | [] => .ok []
  | (id, target) :: rest => do
    let address ← target.resolve results id
    let addresses ← resolveAllocations results rest
    return (id, address) :: addresses

/-- Resolves every owner: token, sale, payment asset, then the allocations in their order. -/
def resolve {ρ : Type} [Progress ρ] (d : Deployment) (results : ρ) :
    Except PlanError ResolvedDeployment := do
  let token ← d.token.resolve results d.token.label
  let sale ← d.sale.resolve results d.sale.label
  let paymentAsset ← d.paymentAsset.resolve results d.paymentAsset.label
  let allocations ← resolveAllocations results d.allocations
  return ⟨token, sale, paymentAsset, allocations⟩

def toJson (d : Deployment) : Json.Value :=
  .object
    [("token", d.token.toJson), ("sale", d.sale.toJson), ("paymentAsset", d.paymentAsset.toJson),
      ("allocations", .object (d.allocations.map fun entry => (entry.1, entry.2.toJson)))]

end Deployment

def ResolvedDeployment.toJson (d : ResolvedDeployment) : Json.Value :=
  .object
    [("token", d.token.toJson), ("sale", d.sale.toJson), ("paymentAsset", d.paymentAsset.toJson),
      ("allocations", .object (d.allocations.map fun entry => (entry.1, entry.2.toJson)))]

end TokenPlan
