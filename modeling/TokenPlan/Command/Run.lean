import TokenPlan.Command.Directory
import TokenPlan.Command.Environment
import TokenPlan.Command.Failure
import TokenPlan.Command.Invocation
import TokenPlan.Command.Listing
import TokenPlan.Plan.Planning
import TokenPlan.Table.Standard

/-!
What a command does. All of its work is done before anything is written: it ends in a failure, or
in one text that is printed or saved.
-/

set_option autoImplicit false
set_option relaxedAutoImplicit false

namespace TokenPlan.Command

/-- The text that a command ends in, and where it goes. -/
inductive Emission where
  | print (text : String)
  | save (path text : String)
deriving DecidableEq, Repr

namespace Emission

/-- A text is saved where a file is named for it, and else printed on lines of its own. -/
def emit (out : Option String) (text : String) : Emission :=
  match out with
  | some path => .save path text
  | none => .print (text ++ "\n")

end Emission

abbrev Source := String → Except FileFault String

def readTableFile (source : Source) (path : String) : Except Failure String :=
  (source path).mapError fun fault => ⟨"failed to read table: " ++ path, [fault.message]⟩

def planOfTable (e : Environment) (source : Source) (settings : Settings) :
    Option String → Except Failure CompiledPlan
  | some path => do
    let text ← readTableFile source path
    (planText Denomination.standard text settings).mapError fun error =>
      ⟨"failed to plan table: " ++ path, error.chain⟩
  | none =>
    (planRows Denomination.standard (Standard.rows e.exchangeWallet) settings).mapError fun error =>
      ⟨"failed to compile deployment plan", error.chain⟩

def Format.render (p : CompiledPlan) : Format → String
  | .json => p.toJson.pretty
  | .text => p.listing p.fingerprint

def runPlan (e : Environment) (source : Source) (options : PlanOptions) :
    Except Failure Emission := do
  let e := if options.production then e.withMode .production else e
  let settings ← e.settings.mapError fun error => Failure.ofChain error.chain
  let compiled ← planOfTable e source settings options.table
  return Emission.emit options.out (options.format.render compiled)

/-- The rows of the table in a file, or of the standard table. -/
def rowsOfTable (e : Environment) (source : Source) : Option String → Except Failure (List Row)
  | some path => do
    let text ← readTableFile source path
    (readTable text).mapError fun error => ⟨"invalid table: " ++ path, error.chain⟩
  | none => .ok (Standard.rows e.exchangeWallet)

def runSupply (e : Environment) (source : Source) (table : Option String) :
    Except Failure Emission := do
  let rows ← rowsOfTable e source table
  let report ← (checkSupply Denomination.standard rows).mapError fun error =>
    ⟨"supply check failed", error.chain⟩
  return Emission.emit none report.listing

def runTable (e : Environment) (out : Option String) : Emission :=
  Emission.emit out (writeTable (Standard.rows e.exchangeWallet))

def versionText : String := "squiggle-deploy 0.1.0\n"

def usageText : String :=
  "Usage: squiggle-deploy [OPTIONS] <COMMAND>\n\n" ++
  "Commands:\n" ++
  "  plan    [--table FILE] [--out FILE] [--production] [--format json|text]\n" ++
  "  supply  [--table FILE]\n" ++
  "  table   [--out FILE]\n" ++
  "  help    [COMMAND]\n\n" ++
  "Options:\n" ++
  "  --log-level LEVEL\n" ++
  "  --log-format text|json\n" ++
  "  -h, --help\n" ++
  "  -V, --version\n"

def Invocation.inEnvironment (vars : Variables)
    (run : Environment → Except Failure Emission) : Except Failure Emission := do
  let e ← (Environment.ofVariables vars).mapError fun error =>
    ⟨"invalid environment", error.chain⟩
  run e

/-- What an invocation ends in; help and version need no environment. -/
def Invocation.answer (vars : Variables) (source : Source) :
    Invocation → Except Failure Emission
  | .plan options => inEnvironment vars fun e => runPlan e source options
  | .supply path => inEnvironment vars fun e => runSupply e source path
  | .table out => inEnvironment vars fun e => .ok (runTable e out)
  | .help => .ok (.print usageText)
  | .version => .ok (.print versionText)

/-- What an operator sees of a run. -/
structure Outcome where
  exit : Nat
  stdout : String
  stderr : String
deriving DecidableEq, Repr

namespace Outcome

def success (text : String) : Outcome := ⟨0, text, ""⟩

def failure (f : Failure) : Outcome := ⟨1, "", f.report⟩

/-- A command line that breaks the rules. -/
def misuse : Outcome := ⟨2, "", usageText⟩

def saved (path : String) : Except FileFault Unit → Outcome
  | .ok () => success ""
  | .error fault => failure ⟨"failed to write " ++ path, [fault.message]⟩

end Outcome

/-- Runs a command line in a directory, and gives the directory afterwards. -/
def run (vars : Variables) (directory : Directory) (arguments : List String) :
    Outcome × Directory :=
  match Invocation.parse? arguments with
  | none => (.misuse, directory)
  | some invocation =>
    match invocation.answer vars directory.read with
    | .error f => (.failure f, directory)
    | .ok (.print text) => (.success text, directory)
    | .ok (.save path text) =>
      match directory.write path text with
      | .error fault => (.saved path (.error fault), directory)
      | .ok directory => (.saved path (.ok ()), directory)

end TokenPlan.Command
