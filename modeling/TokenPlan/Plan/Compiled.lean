import TokenPlan.Digest.Blake3
import TokenPlan.Json.Printer
import TokenPlan.Plan.Deployment
import TokenPlan.Plan.Order
import TokenPlan.Plan.Settings
import TokenPlan.Supply.Distribution

/-!
Plans compiled from a distribution. The actions are, in this order: the test payment asset where one
is needed; the sale contract with all tiers and the reserve; a vesting contract for each pool; the
token, which mints to every owner; and the calls that make the token and the payment asset known.
-/

set_option autoImplicit false
set_option relaxedAutoImplicit false

namespace TokenPlan

/-- A plan with the allocations that it was compiled from, each bound to its owner. -/
structure CompiledPlan where
  actions : List Action
  allocations : List Allocation
  deployment : Deployment
  supply : SupplyReport

namespace Plan

/-- The method that makes the token known to a contract. -/
def setTokenMethod : String := "setToken"

/-- The method that makes the payment asset known to the sale contract. -/
def setPaymentAssetMethod : String := "setUSDT"

/-- Adds an action with a new name at the end. -/
def push (actions : List Action) (a : Action) : Except PlanError (List Action) :=
  if actions.any fun other => other.id = a.id then .error (.mismatch a.id .duplicateAction)
  else .ok (actions ++ [a])

def pushCreate (actions : List Action) (id : ActionId) (contract : String)
    (arguments : List Argument) : Except PlanError (List Action × Target) := do
  let actions ← push actions (Action.create id contract arguments)
  return (actions, .action id)

/-- The name of a call: the contract's name or address, a point, and the method. -/
def callId (target : Target) (method : String) : ActionId :=
  match target with
  | .action id => id ++ "." ++ method
  | .account address => address.render ++ "." ++ method

/-- Adds a call of a method with one argument. -/
def pushCall (actions : List Action) (target : Target) (method : String) (argument : Argument) :
    Except PlanError (List Action) :=
  push actions (Action.call (callId target method) target method [argument])

/-- The payment asset, with its creation where it is a test asset. -/
def pushPaymentAsset (asset : PaymentAsset) : Except PlanError (List Action × Target) :=
  match asset with
  | .deploy contract => pushCreate [] contract contract []
  | .existing address => .ok ([], .account address)

/-- What the sale contract is told about a tier that sells `tokens`. -/
def tierArgument (tier : SaleTier) (tokens : Amount) : Argument :=
  .tuple
    [("name", .string tier.name),
      ("cooldownDuration", .ofWord tier.cooldown),
      ("saleStartTime", .ofWord tier.start.encoded),
      ("salePrice", .uint tier.price),
      ("saleTotalAmount", .uint tokens),
      ("saleBalance", .uint tokens),
      ("saleMinPerWallet", .uint tier.minimum),
      ("saleMaxPerWallet", .uint tier.maximum),
      ("affiliateTotalAmount", .uint tier.affiliateReserve),
      ("affiliateBalance", .uint tier.affiliateReserve),
      ("affiliatePercent", .ofWord tier.affiliateRate),
      ("tgePercent", .ofWord tier.vesting.launchShare),
      ("cliffDuration", .ofWord tier.vesting.cliffDuration),
      ("cliffPercent", .ofWord tier.vesting.cliffShare),
      ("linearDuration", .ofWord tier.vesting.linearDuration)]

def tierArguments (allocations : List Allocation) : List Argument :=
  allocations.filterMap fun a => a.saleTier?.map fun tier => tierArgument tier a.tokens

def reserveTokens (settings : Settings) (allocations : List Allocation) :
    Except PlanError Amount :=
  require (.mismatch settings.reserveId .reserveMissing) <|
    (allocations.find? Allocation.isReserve).map Allocation.tokens

def pushSale (settings : Settings) (allocations : List Allocation) (actions : List Action) :
    Except PlanError (List Action × Target) := do
  let reserve ← reserveTokens settings allocations
  pushCreate actions settings.saleId settings.saleContract
    [.address settings.router, .ofWord settings.liquidityRate, .uint reserve,
      .array (tierArguments allocations)]

def poolArguments (pool : VestingPool) (sale : Target) : List Argument :=
  [.string pool.name, .ofTarget sale, .ofWord pool.vesting.launchShare,
    .ofWord pool.vesting.cliffDuration, .ofWord pool.vesting.cliffShare,
    .ofWord pool.vesting.linearDuration]

/-- Binds an allocation to its owner; a pool's owner is a contract whose creation is added. -/
def bindOwner (settings : Settings) (sale : Target) (actions : List Action) (a : Allocation) :
    Except PlanError (List Action × Allocation) :=
  match a.kind with
  | .saleTier _ | .liquidityReserve => do
    let a ← a.bind sale
    return (actions, a)
  | .vestingPool pool => do
    let (actions, owner) ←
      pushCreate actions a.id settings.vestingContract (poolArguments pool sale)
    let a ← a.bind owner
    return (actions, a)
  | .directAccount => .ok (actions, a)

def bindOwners (settings : Settings) (sale : Target) :
    List Action → List Allocation → Except PlanError (List Action × List Allocation)
  | actions, [] => .ok (actions, [])
  | actions, a :: rest => do
    let (actions, a) ← bindOwner settings sale actions a
    let (actions, rest) ← bindOwners settings sale actions rest
    return (actions, a :: rest)

/-- Allocations whose tokens are minted to owners of their own. -/
def mintedDirectly (allocations : List Allocation) : List Allocation :=
  allocations.filter fun a => !a.kind.isSold

def ownersOf : List Allocation → Except PlanError (List (String × Argument))
  | [] => .ok []
  | a :: rest => do
    let owner ← a.requireTarget
    let owners ← ownersOf rest
    return (a.id, .ofTarget owner) :: owners

def amountsOf (allocations : List Allocation) : List (String × Amount) :=
  allocations.map fun a => (a.id, a.tokens)

/-- Adds obligations to what the sale contract holds; an overflow is told with where it happened. -/
def addToSale (saleId : ActionId) : Amount → List Allocation → Except PlanError Amount
  | sum, [] => .ok sum
  | sum, a :: rest => do
    let obligation ← a.obligation.mapError fun e => PlanError.table (.unit a.id e)
    let sum ← require (.table (.unit saleId .overflow)) (sum.add? obligation)
    addToSale saleId sum rest

/-- All that the sale contract sells, pays to affiliates or provides as liquidity. -/
def saleBalance (saleId : ActionId) (allocations : List Allocation) : Except PlanError Amount :=
  addToSale saleId Amount.zero (allocations.filter fun a => a.kind.isSold)

/-- Pairs owners and amounts from the index `index` on, which have to have the same names. -/
def alignFrom (action : ActionId) :
    Nat → List (String × Argument) → List (String × Amount) →
      Except PlanError (List Argument × List Argument)
  | index, (owner, argument) :: owners, (name, amount) :: amounts =>
    if owner = name then do
      let (arguments, values) ← alignFrom action (index + 1) owners amounts
      return (argument :: arguments, .uint amount :: values)
    else .error (.mismatch action (.misaligned owner name index))
  | _, _, _ => .ok ([], [])

/-- The owners and the amounts that the token is told, from lists of the same names in one order. -/
def align (action : ActionId) (owners : List (String × Argument))
    (amounts : List (String × Amount)) : Except PlanError (List Argument × List Argument) :=
  if owners.length = amounts.length then alignFrom action 0 owners amounts
  else .error (.mismatch action (.lengths owners.length amounts.length))

/-- Adds the creation of the token, which mints to direct owners and last to the sale contract. -/
def pushToken (settings : Settings) (sale : Target) (allocations : List Allocation)
    (actions : List Action) : Except PlanError (List Action × Target) := do
  let direct := mintedDirectly allocations
  let owners ← ownersOf direct
  let balance ← saleBalance settings.saleId allocations
  let (owners, amounts) ←
    align settings.tokenId (owners ++ [(settings.saleId, .ofTarget sale)])
      (amountsOf direct ++ [(settings.saleId, balance)])
  pushCreate actions settings.tokenId settings.tokenContract [.array owners, .array amounts]

/-- Adds the calls that make the token known to the vesting contracts. -/
def pushPoolCalls (token : Target) : List Action → List Allocation → Except PlanError (List Action)
  | actions, [] => .ok actions
  | actions, a :: rest => do
    let owner ← a.requireTarget
    let actions ← pushCall actions owner setTokenMethod (.ofTarget token)
    pushPoolCalls token actions rest

def collectTargets :
    List (String × Target) → List Allocation → Except PlanError (List (String × Target))
  | targets, [] => .ok targets
  | targets, a :: rest => do
    let owner ← a.requireTarget
    collectTargets (Entries.set a.id owner targets) rest

def compile (distribution : Distribution) (settings : Settings) :
    Except PlanError CompiledPlan := do
  distribution.check
  let (actions, paymentAsset) ← pushPaymentAsset settings.paymentAsset
  let (actions, sale) ← pushSale settings distribution.allocations actions
  let (actions, allocations) ← bindOwners settings sale actions distribution.allocations
  let (actions, token) ← pushToken settings sale allocations actions
  let pools := allocations.filter fun a => a.vestingPool?.isSome
  let actions ← pushPoolCalls token actions pools
  let actions ← pushCall actions sale setTokenMethod (.ofTarget token)
  let actions ← pushCall actions sale setPaymentAssetMethod (.ofTarget paymentAsset)
  let targets ← collectTargets [] allocations
  checkOrder actions
  return ⟨actions, allocations, ⟨token, sale, paymentAsset, targets⟩, distribution.report⟩

end Plan

namespace CompiledPlan

def action? (p : CompiledPlan) (id : ActionId) : Option Action :=
  p.actions.find? fun a => a.id = id

/-- The actions that have not run, in their order. -/
def pending {ρ : Type} [Progress ρ] (p : CompiledPlan) (results : ρ) : List Action :=
  Progress.pending results p.actions

def toJson (p : CompiledPlan) : Json.Value :=
  .object
    [("actions", .array (p.actions.map Action.toJson)),
      ("allocations", .array (p.allocations.map Allocation.toJson)),
      ("deployment", p.deployment.toJson), ("supply", p.supply.toJson)]

def fingerprint (p : CompiledPlan) : String :=
  Digest.ofText p.toJson.compact

end CompiledPlan

end TokenPlan
