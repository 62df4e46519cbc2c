import TokenPlan.Proofs.Plan.Order
import TokenPlan.Proofs.Supply.Obligation

/-!
The plan that a distribution compiles to, written down without any check: its actions, the owners of
its allocations and its deployment. Compiling succeeds exactly where the distribution is ready and
the actions stand in order, and the plan is then the one written down here.
-/

set_option autoImplicit false
set_option relaxedAutoImplicit false

namespace TokenPlan

namespace Allocation

/-- The allocation with the owner that a plan gives it. -/
def bound (saleId : ActionId) (a : Allocation) : Allocation :=
  match a.kind with
  | .saleTier _ => { a with target := some (.action saleId) }
  | .liquidityReserve => { a with target := some (.action saleId) }
  | .vestingPool _ => { a with target := some (.action a.id) }
  | .directAccount => a

/-- The owner that a plan gives to an allocation; a direct account has its own from the start. -/
def owner (saleId : ActionId) (a : Allocation) : Target :=
  (a.bound saleId).target.getD (.action a.id)

variable (saleId : ActionId) (a : Allocation)

@[simp] theorem bound_id : (a.bound saleId).id = a.id := by
  unfold bound
  split <;> rfl

@[simp] theorem bound_tokens : (a.bound saleId).tokens = a.tokens := by
  unfold bound
  split <;> rfl

@[simp] theorem bound_kind : (a.bound saleId).kind = a.kind := by
  unfold bound
  split <;> rfl

@[simp] theorem bound_owed : (a.bound saleId).owed = a.owed := by
  simp [owed]

theorem owner_of_isSold (sold : a.kind.isSold = true) : a.owner saleId = .action saleId := by
  unfold owner bound
  cases kind : a.kind <;> simp_all [AllocationKind.isSold]

end Allocation

def PaymentAsset.owner : PaymentAsset → Target
  | .deploy contract => .action contract
  | .existing address => .account address

/-- What compiling asks of a distribution before any action is added. -/
structure Distribution.Ready (d : Distribution) : Prop where
  conserved : owedBy d.allocations = d.report.total.toNat
  reserved : ∃ a ∈ d.allocations, a.isReserve = true
  unbound : ∀ a ∈ d.allocations, a.kind ≠ .directAccount → a.target = none
  owned : ∀ a ∈ d.allocations, a.kind = .directAccount → a.target.isSome

@[simp] theorem owedBy_map_bound (saleId : ActionId) (allocations : List Allocation) :
    owedBy (allocations.map (Allocation.bound saleId)) = owedBy allocations := by
  simp [owedBy, Function.comp_def]

namespace Plan

/-- The creation of the test asset, where there is one. -/
def assetCreations : PaymentAsset → List Action
  | .deploy contract => [Action.create contract contract []]
  | .existing _ => []

/-- The tokens of the first reserve; a ready distribution has one. -/
def reserveOf (allocations : List Allocation) : Amount :=
  ((allocations.find? Allocation.isReserve).map Allocation.tokens).getD Amount.zero

/-- The allocations that the sale contract holds. -/
def soldOf (allocations : List Allocation) : List Allocation :=
  allocations.filter fun a => a.kind.isSold

/-- What the sale contract holds; the supply of a ready distribution covers it. -/
def soldAmount (allocations : List Allocation) : Amount :=
  (totalObligation (soldOf allocations)).getD Amount.zero

def poolsOf (allocations : List Allocation) : List (String × VestingPool) :=
  allocations.filterMap fun a => a.vestingPool?.map fun pool => (a.id, pool)

def saleCreation (settings : Settings) (allocations : List Allocation) : Action :=
  Action.create settings.saleId settings.saleContract
    [.address settings.router, .ofWord settings.liquidityRate, .uint (reserveOf allocations),
      .array (tierArguments allocations)]

def poolCreation (settings : Settings) (pool : String × VestingPool) : Action :=
  Action.create pool.1 settings.vestingContract (poolArguments pool.2 (.action settings.saleId))

/-- The owners that the token mints to. -/
def mintedOwners (saleId : ActionId) (allocations : List Allocation) : List Target :=
  (mintedDirectly allocations).map (Allocation.owner saleId) ++ [.action saleId]

def mintedAmounts (allocations : List Allocation) : List Amount :=
  (mintedDirectly allocations).map Allocation.tokens ++ [soldAmount allocations]

def tokenCreation (settings : Settings) (allocations : List Allocation) : Action :=
  Action.create settings.tokenId settings.tokenContract
    [.array ((mintedOwners settings.saleId allocations).map .ofTarget),
      .array ((mintedAmounts allocations).map .uint)]

/-- The call of a method of a created contract with one argument. -/
def contractCall (id : ActionId) (method : String) (owner : Target) : Action :=
  Action.call (callId (.action id) method) (.action id) method [.ofTarget owner]

def poolCall (settings : Settings) (pool : String × VestingPool) : Action :=
  contractCall pool.1 setTokenMethod (.action settings.tokenId)

def saleCalls (settings : Settings) : List Action :=
  [contractCall settings.saleId setTokenMethod (.action settings.tokenId),
    contractCall settings.saleId setPaymentAssetMethod settings.paymentAsset.owner]

/-- The actions of the plan for allocations, in their order. -/
def actionsFor (settings : Settings) (allocations : List Allocation) : List Action :=
  assetCreations settings.paymentAsset ++ ([saleCreation settings allocations] ++
    ((poolsOf allocations).map (poolCreation settings) ++ ([tokenCreation settings allocations] ++
      ((poolsOf allocations).map (poolCall settings) ++ saleCalls settings))))

def targetsOf (saleId : ActionId) (allocations : List Allocation) : List (String × Target) :=
  allocations.foldl (fun targets a => Entries.set a.id (a.owner saleId) targets) []

def planOf (settings : Settings) (d : Distribution) : CompiledPlan :=
  { actions := actionsFor settings d.allocations
    allocations := d.allocations.map (Allocation.bound settings.saleId)
    deployment :=
      { token := .action settings.tokenId
        sale := .action settings.saleId
        paymentAsset := settings.paymentAsset.owner
        allocations := targetsOf settings.saleId d.allocations }
    supply := d.report }

end Plan

end TokenPlan
