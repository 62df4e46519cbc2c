import TokenPlan.Text.Split

/-!
Invocations: what the words of a command line ask for. Options stand before the command, which takes
all words after it as its own. No option may be given twice, and no word may be left over.
-/

set_option autoImplicit false
set_option relaxedAutoImplicit false

namespace TokenPlan.Command

/-- A word of the command line by its first characters. -/
inductive Lexeme where
  /-- The mark after which no options are read. -/
  | escape
  /-- An option by its name, with the value that is attached by an equals sign. -/
  | option (name : String) (attached : Option String)
  | letter (c : Char)
  | plain (text : String)
deriving DecidableEq

/-- A single hyphen and the empty word are plain. -/
def Lexeme.ofText (text : String) : Lexeme :=
  match text.toList with
  | ['-', '-'] => .escape
  | '-' :: '-' :: body =>
    match Text.cut '=' body with
    | none => .option (String.ofList body) none
    | some (name, value) => .option (String.ofList name) (some (String.ofList value))
  | '-' :: c :: _ => .letter c
  | _ => .plain text

/-- The options and switches that may stand in one place of a command line. -/
structure Grammar where
  /-- Options that take a value, with the values that each of them takes. -/
  options : List (String × (String → Bool))
  switches : List String
  /-- Plain words name commands, and the version can be asked for. -/
  outermost : Bool

/-- The options and switches given, with their values; a switch has the empty value. -/
abbrev Given := List (String × String)

/-- Where the reading of one place of a command line ended. -/
inductive Scan where
  | done (given : Given)
  | command (name : String) (rest : List String)
  | help
  | version

namespace Grammar

/-- Adds an option, which may not have been given yet. -/
def give (name value : String) (given : Given) : Option Given :=
  if given.any fun entry => entry.1 = name then none else some ((name, value) :: given)

/-- Adds an option with a value, which has to be one that it takes. -/
def giveOption (g : Grammar) (name value : String) (given : Given) : Option Given := do
  let option ← g.options.find? fun option => option.1 = name
  if option.2 value then give name value given else none

def giveSwitch (g : Grammar) (name : String) (given : Given) : Option Given :=
  if name ∈ g.switches then give name "" given else none

def takesValue (g : Grammar) (name : String) : Bool :=
  g.options.any fun option => option.1 = name

/-- Reads words from left to right; the first fault or call for help ends the reading. -/
def scan (g : Grammar) (given : Given) : List String → Option Scan
  | [] => some (.done given)
  | text :: rest =>
    match Lexeme.ofText text with
    | .escape => if rest = [] then some (.done given) else none
    | .plain name => if g.outermost then some (.command name rest) else none
    | .letter 'h' => some .help
    | .letter c => if g.outermost ∧ c = 'V' then some .version else none
    | .option "help" none => some .help
    | .option name (some value) => do
      let given ← g.giveOption name value given
      scan g given rest
    | .option name none =>
      if g.outermost ∧ name = "version" then some .version
      else if g.takesValue name then
        match rest with
        | [] => none
        | next :: rest =>
          match Lexeme.ofText next with
          | .plain value => do
            let given ← g.giveOption name value given
            scan g given rest
          | _ => none
      else do
        let given ← g.giveSwitch name given
        scan g given rest

end Grammar

inductive Format where
  | json
  | text
deriving DecidableEq, Repr

def Format.ofText? (text : String) : Option Format :=
  if text = "json" then some .json else if text = "text" then some .text else none

structure PlanOptions where
  /-- The file of the table; without one the standard table is planned. -/
  table : Option String
  /-- The file that the plan is written to; without one it is printed. -/
  out : Option String
  /-- The plan is for the main network, whatever the environment says. -/
  production : Bool
  format : Format
deriving DecidableEq

inductive Invocation where
  | plan (options : PlanOptions)
  | supply (table : Option String)
  | table (out : Option String)
  | help
  | version
deriving DecidableEq

namespace Invocation

/-- Options of the log may stand in every place. -/
def logOptions : List (String × (String → Bool)) :=
  [("log-level", fun _ => true), ("log-format", fun _ => true)]

/-- An option that names a file, which no empty value does. -/
def fileOption (name : String) : String × (String → Bool) :=
  (name, fun value => value ≠ "")

def outerGrammar : Grammar := ⟨logOptions, [], true⟩

def planGrammar : Grammar :=
  ⟨[fileOption "table", fileOption "out", ("format", fun value => (Format.ofText? value).isSome)] ++
    logOptions, ["production"], false⟩

def supplyGrammar : Grammar := ⟨fileOption "table" :: logOptions, [], false⟩

def tableGrammar : Grammar := ⟨fileOption "out" :: logOptions, [], false⟩

def valueOf? (name : String) (given : Given) : Option String :=
  (given.find? fun entry => entry.1 = name).map Prod.snd

def ofScan? (build : Given → Invocation) : Option Scan → Option Invocation
  | some (.done given) => some (build given)
  | some .help => some .help
  | _ => none

def planOf (given : Given) : Invocation :=
  .plan
    { table := valueOf? "table" given
      out := valueOf? "out" given
      production := (valueOf? "production" given).isSome
      format := (valueOf? "format" given >>= Format.ofText?).getD .json }

def supplyOf (given : Given) : Invocation :=
  .supply (valueOf? "table" given)

def tableOf (given : Given) : Invocation :=
  .table (valueOf? "out" given)

/-- Help can be asked for on a single command, and on help itself. -/
def helpTopics : List String := ["plan", "supply", "table", "help"]

/-- Reads a command by its name and the words after it. -/
def ofCommand? (name : String) (rest : List String) : Option Invocation :=
  if name = "plan" then ofScan? planOf (planGrammar.scan [] rest)
  else if name = "supply" then ofScan? supplyOf (supplyGrammar.scan [] rest)
  else if name = "table" then ofScan? tableOf (tableGrammar.scan [] rest)
  else if name = "help" ∧ rest.length ≤ 1 ∧ rest.all (· ∈ helpTopics) then some .help
  else none

/-- Reads a command line; there is none for a line that breaks the rules. -/
def parse? (arguments : List String) : Option Invocation :=
  match outerGrammar.scan [] arguments with
  | some (.command name rest) => ofCommand? name rest
  | some .help => some .help
  | some .version => some .version
  | _ => none

def tablePath? : Invocation → Option String
  | .plan options => options.table
  | .supply path => path
  | _ => none

end Invocation

end TokenPlan.Command
