import TokenPlan.Json.Codec
import TokenPlan.Plan.Error
import TokenPlan.Table.Row

/-!
Allocations: named claims on part of the supply. All of an allocation is fixed when it is made, but
for its owner, which is bound once; a direct account is its own owner from the start.
-/

set_option autoImplicit false
set_option relaxedAutoImplicit false

namespace TokenPlan

structure SaleTier where
  name : String
  cooldown : UInt64
  start : SaleStart
  /-- The price of a whole token in base units of the payment asset. -/
  price : Amount
  minimum : Amount
  maximum : Amount
  /-- Tokens kept for rebates on top of the tokens sold. -/
  affiliateReserve : Amount
  affiliateRate : UInt64
  vesting : VestingSchedule
deriving DecidableEq

/-- What a vesting contract is told about a pool. -/
structure VestingPool where
  name : String
  vesting : VestingSchedule
deriving DecidableEq

/-- The kinds of allocation, with what each holds beyond its tokens. -/
inductive AllocationKind where
  | saleTier (tier : SaleTier)
  | liquidityReserve
  | vestingPool (pool : VestingPool)
  | directAccount
deriving DecidableEq

/-- A named claim on part of the supply. -/
structure Allocation where
  id : String
  tokens : Amount
  kind : AllocationKind
  target : Option Target
deriving DecidableEq

namespace AllocationKind

def label : AllocationKind → String
  | .saleTier _ => "sale"
  | .liquidityReserve => "liquidity"
  | .vestingPool _ => "vesting"
  | .directAccount => "account"

/-- The tokens of this kind are minted to the sale contract. -/
def isSold : AllocationKind → Bool
  | .saleTier _ => true
  | .liquidityReserve => true
  | _ => false

def members : AllocationKind → Json.Members
  | .saleTier tier =>
    [("type", .string "sale_tier"), ("name", .string tier.name),
      ("cooldownDuration", Json.ofWord tier.cooldown), ("start", tier.start.toJson),
      ("price", tier.price.toJson), ("minPerWallet", tier.minimum.toJson),
      ("maxPerWallet", tier.maximum.toJson), ("affiliateReserve", tier.affiliateReserve.toJson),
      ("affiliatePercent", Json.ofWord tier.affiliateRate), ("vesting", tier.vesting.toJson)]
  | .liquidityReserve => [("type", .string "liquidity_reserve")]
  | .vestingPool pool =>
    [("type", .string "vesting_pool"), ("name", .string pool.name),
      ("vesting", pool.vesting.toJson)]
  | .directAccount => [("type", .string "direct_account")]

end AllocationKind

namespace Allocation

def unbound (id : String) (tokens : Amount) (kind : AllocationKind) : Allocation :=
  ⟨id, tokens, kind, none⟩

def sale (id : String) (tokens : Amount) (tier : SaleTier) : Allocation :=
  unbound id tokens (.saleTier tier)

def vesting (id : String) (tokens : Amount) (pool : VestingPool) : Allocation :=
  unbound id tokens (.vestingPool pool)

def liquidity (id : String) (tokens : Amount) : Allocation :=
  unbound id tokens .liquidityReserve

def account (id : String) (tokens : Amount) (address : Address) : Allocation :=
  ⟨id, tokens, .directAccount, some (.account address)⟩

def saleTier? (a : Allocation) : Option SaleTier :=
  match a.kind with
  | .saleTier tier => some tier
  | _ => none

def vestingPool? (a : Allocation) : Option VestingPool :=
  match a.kind with
  | .vestingPool pool => some pool
  | _ => none

def isReserve (a : Allocation) : Bool :=
  match a.kind with
  | .liquidityReserve => true
  | _ => false

/-- The tokens that the allocation takes of the supply: a tier also takes its affiliate reserve. -/
def obligation (a : Allocation) : Except UnitError Amount :=
  match a.kind with
  | .saleTier tier => require .overflow (a.tokens.add? tier.affiliateReserve)
  | _ => .ok a.tokens

def requireTarget (a : Allocation) : Except PlanError Target :=
  require (.unresolved a.id) a.target

/-- Binds the owner of an allocation that has none. -/
def bind (a : Allocation) (target : Target) : Except PlanError Allocation :=
  match a.target with
  | some _ => .error (.alreadyBound a.id)
  | none => .ok { a with target := some target }

/-- Only an allocation without an owner is bound, and nothing else of it changes. -/
theorem bind_eq_ok_iff {a b : Allocation} {target : Target} :
    a.bind target = .ok b ↔ a.target = none ∧ b = { a with target := some target } := by
  unfold bind
  cases a.target <;> simp [eq_comm]

def toJson (a : Allocation) : Json.Value :=
  .object <|
    [("id", .string a.id), ("tokens", a.tokens.toJson)] ++ a.kind.members ++
      [("target", Json.orNull Target.toJson a.target)]

end Allocation

end TokenPlan
