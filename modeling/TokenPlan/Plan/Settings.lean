import TokenPlan.Json.Codec

/-!
Settings of a plan: the names of contracts and actions, the router, and the payment asset.
-/

set_option autoImplicit false
set_option relaxedAutoImplicit false

namespace TokenPlan

/-- Whether a plan is for a test network or for the main one. -/
inductive BuildMode where
  | development
  | production
deriving DecidableEq, Repr

namespace BuildMode

/-- The word for production, in any case and trimmed, names that mode; all else is development. -/
def ofText? : Option String → BuildMode
  | none => .development
  | some text =>
    if (Text.trim text.toList).map Char.toLower = "production".toList then .production
    else .development

def render : BuildMode → String
  | .development => "development"
  | .production => "production"

/-- A test network needs an asset of its own. -/
def deploysAsset : BuildMode → Bool
  | .development => true
  | .production => false

end BuildMode

/-- The asset in which tokens are paid: a test asset that the plan creates, or one that exists. -/
inductive PaymentAsset where
  | deploy (contract : String)
  | existing (address : Address)
deriving DecidableEq

namespace PaymentAsset

def test : PaymentAsset := .deploy "USDT"

/-- The asset for a mode; the main network needs one that exists. -/
def forMode (mode : BuildMode) (existing? : Option Address) : Option PaymentAsset :=
  if mode.deploysAsset then some test else existing?.map .existing

def toJson : PaymentAsset → Json.Value
  | .deploy contract => .object [("deploy", .object [("contract", .string contract)])]
  | .existing address => .object [("existing", address.toJson)]

end PaymentAsset

structure Settings where
  tokenContract : String
  tokenId : ActionId
  saleContract : String
  saleId : ActionId
  vestingContract : String
  router : Address
  /-- The share of the proceeds that becomes liquidity, in parts per million. -/
  liquidityRate : UInt64
  /-- The allocation that takes what the others leave. -/
  reserveId : String
  paymentAsset : PaymentAsset
deriving DecidableEq

namespace Settings

def standard : Settings :=
  { tokenContract := "Squiggle"
    tokenId := "squiggle"
    saleContract := "SaleContract"
    saleId := "SaleContract"
    vestingContract := "VestingContract"
    router := Address.zero
    liquidityRate := 57031
    reserveId := "liquidity_dex"
    paymentAsset := PaymentAsset.test }

def toJson (s : Settings) : Json.Value :=
  .object
    [("token_contract", .string s.tokenContract), ("token_id", .string s.tokenId),
      ("sale_contract", .string s.saleContract), ("sale_id", .string s.saleId),
      ("vesting_contract", .string s.vestingContract), ("liquidity_router", s.router.toJson),
      ("sale_liquidity_ppm", Json.ofWord s.liquidityRate), ("liquidity_id", .string s.reserveId),
      ("payment_asset", s.paymentAsset.toJson)]

end Settings

end TokenPlan
