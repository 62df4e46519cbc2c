import TokenPlan.Address
import TokenPlan.Table.Vesting
import TokenPlan.Unit.Ratio

/-!
Rows of an allocation table. Percentages and prices are exact fractions; nothing is derived yet.
-/

set_option autoImplicit false
set_option relaxedAutoImplicit false

namespace TokenPlan

/-- When a sale tier opens: at an instant, or when the tier before it closes. -/
inductive SaleStart where
  | instant (second : UInt64)
  | afterPrevious
deriving DecidableEq

namespace SaleStart

/-- The instant as the sale contract takes it, where zero stands for the tier before. -/
def encoded : SaleStart → UInt64
  | .instant second => second
  | .afterPrevious => 0

def toJson : SaleStart → Json.Value
  | .instant second => .object [("at", Json.ofWord second)]
  | .afterPrevious => .string "after_previous"

end SaleStart

structure SaleRow where
  id : String
  name : String
  cooldown : UInt64
  start : SaleStart
  /-- Dollars for a whole token. -/
  price : Ratio
  /-- The percentage of the supply that the tokens sold and the affiliate pool make up together. -/
  target : Ratio
  /-- The least purchase in whole tokens. -/
  minimum : UInt64
  /-- The affiliate rebate in parts per million. -/
  affiliateRate : UInt64
  vesting : VestingSchedule
deriving DecidableEq

structure PoolRow where
  id : String
  name : String
  percent : Ratio
  vesting : VestingSchedule
deriving DecidableEq

/-- What an account receives: a percentage, the difference of two, or a number of base units. -/
inductive Share where
  | percent (percent : Ratio)
  | net (gross withheld : Ratio)
  | exact (amount : Amount)
deriving DecidableEq

structure AccountRow where
  id : String
  address : Address
  share : Share
deriving DecidableEq

inductive Row where
  | sale (row : SaleRow)
  | pool (row : PoolRow)
  | account (row : AccountRow)
deriving DecidableEq

namespace Row

def id : Row → String
  | .sale row => row.id
  | .pool row => row.id
  | .account row => row.id

def isSale : Row → Bool
  | .sale _ => true
  | _ => false

end Row

end TokenPlan
