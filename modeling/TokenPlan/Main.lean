import TokenPlan.Command.Run

/-!
The command line program: it reads the environment and the table, and prints or saves what the
command ends in.
-/

set_option autoImplicit false
set_option relaxedAutoImplicit false

namespace TokenPlan.Command

/-- The code of a fault; some calls of the system give it with a minus sign. -/
def plainCode (code : UInt32) : Nat :=
  if code.toNat < 2 ^ 31 then code.toNat else 2 ^ 32 - code.toNat

def FileFault.ofError : IO.Error → FileFault
  | .noFileOrDirectory _ _ _ => .missing
  | .inappropriateType _ code reason => .ofCode (plainCode code) reason
  | .invalidArgument _ code reason => .ofCode (plainCode code) reason
  | .permissionDenied _ code reason => .ofCode (plainCode code) reason
  | .resourceExhausted _ code reason => .ofCode (plainCode code) reason
  | error => .other (toString error)

def readFile (path : String) : IO (Except FileFault String) := do
  try
    let bytes ← IO.FS.readBinFile path
    return require .notText (String.fromUTF8? bytes)
  catch error => return .error (.ofError error)

def writeFile (path text : String) : IO (Except FileFault Unit) := do
  try
    IO.FS.writeFile path text
    return .ok ()
  catch error => return .error (.ofError error)

def readVariables : IO Variables := do
  let mode ← IO.getEnv Variables.modeName
  let paymentAsset ← IO.getEnv Variables.paymentAssetName
  let router ← IO.getEnv Variables.routerName
  let exchangeWallet ← IO.getEnv Variables.exchangeWalletName
  return ⟨mode, paymentAsset, router, exchangeWallet⟩

/-- The source of the one file that an invocation reads. -/
def readSource (invocation : Invocation) : IO Source := do
  match invocation.tablePath? with
  | none => return fun _ => .error .missing
  | some path =>
    let content ← readFile path
    return fun _ => content

def perform (arguments : List String) : IO Outcome := do
  match Invocation.parse? arguments with
  | none => return .misuse
  | some invocation =>
    let vars ← readVariables
    let source ← readSource invocation
    match invocation.answer vars source with
    | .error f => return .failure f
    | .ok (.print text) => return .success text
    | .ok (.save path text) => return .saved path (← writeFile path text)

end TokenPlan.Command

def main (arguments : List String) : IO UInt32 := do
  let outcome ← TokenPlan.Command.perform arguments
  IO.print outcome.stdout
  IO.eprint outcome.stderr
  return UInt32.ofNat outcome.exit
