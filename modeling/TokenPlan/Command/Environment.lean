import TokenPlan.Plan.Settings

/-!
The environment of a command: the mode, and the addresses that no table holds. They are read from
environment variables, where a blank one counts as not set.
-/

set_option autoImplicit false
set_option relaxedAutoImplicit false

namespace TokenPlan.Command

/-- The environment variables that a command looks at, as they are set. -/
structure Variables where
  mode : Option String
  paymentAsset : Option String
  router : Option String
  exchangeWallet : Option String
deriving DecidableEq

namespace Variables

def modeName : String := "NODE_ENV"

def paymentAssetName : String := "BSC_USDT_ADDRESS"

def routerName : String := "BSC_LIQUIDITY_ROUTER"

def exchangeWalletName : String := "CEX_ALLOCATION_ADDRESS"

def ofLookup (lookup : String → Option String) : Variables :=
  { mode := lookup modeName
    paymentAsset := lookup paymentAssetName
    router := lookup routerName
    exchangeWallet := lookup exchangeWalletName }

end Variables

inductive EnvironmentError where
  | malformed (name : String) (cause : UnitError)
  | required (name : String)
deriving DecidableEq

def EnvironmentError.chain : EnvironmentError → List String
  | .malformed name cause =>
    [name ++ " must be a 0x-prefixed 20-byte hex address", cause.message]
  | .required name => [name ++ " is required in production"]

/-- The mode and the addresses that a command works with. -/
structure Environment where
  mode : BuildMode
  paymentAsset : Option Address
  /-- The exchange router through which the sale contract provides liquidity. -/
  router : Option Address
  /-- The wallet that receives the exchange liquidity of the standard table. -/
  exchangeWallet : Address
deriving DecidableEq

namespace Environment

/-- The wallet for exchange liquidity where none is set. -/
def standardWallet : Address :=
  ⟨[0x03, 0xd1, 0xec, 0xec, 0x65, 0x13, 0xda, 0x22, 0x7c, 0x94, 0xca, 0x6e, 0x9a, 0x04, 0xbc, 0xb0,
    0x4a, 0x77, 0x7d, 0x32], rfl⟩

/-- A value that is not blank. -/
def present (value? : Option String) : Option String :=
  value?.filter fun value => !(Text.trim value.toList).isEmpty

/-- Reads the address in a variable, with white space allowed around it. -/
def readAddress (name value : String) : Except EnvironmentError Address :=
  (Address.ofText (String.ofList (Text.trim value.toList))).mapError (.malformed name)

def readOptional (name : String) (value? : Option String) :
    Except EnvironmentError (Option Address) :=
  match present value? with
  | none => .ok none
  | some value => some <$> readAddress name value

/-- Reads the environment; of several malformed addresses the first one is reported. -/
def ofVariables (v : Variables) : Except EnvironmentError Environment := do
  let paymentAsset ← readOptional Variables.paymentAssetName v.paymentAsset
  let router ← readOptional Variables.routerName v.router
  let exchangeWallet ← readOptional Variables.exchangeWalletName v.exchangeWallet
  return ⟨BuildMode.ofText? (present v.mode), paymentAsset, router,
    exchangeWallet.getD standardWallet⟩

def withMode (e : Environment) (mode : BuildMode) : Environment :=
  { e with mode := mode }

/-- The router; only a plan for a test network does without one. -/
def requireRouter (e : Environment) : Except EnvironmentError Address :=
  match e.router, e.mode with
  | some router, _ => .ok router
  | none, .development => .ok Address.zero
  | none, .production => .error (.required Variables.routerName)

/-- The settings of a plan; a missing payment asset is reported before a missing router. -/
def settings (e : Environment) : Except EnvironmentError Settings := do
  let paymentAsset ←
    require (.required Variables.paymentAssetName) (PaymentAsset.forMode e.mode e.paymentAsset)
  let router ← e.requireRouter
  return { Settings.standard with router := router, paymentAsset := paymentAsset }

end Environment

end TokenPlan.Command
