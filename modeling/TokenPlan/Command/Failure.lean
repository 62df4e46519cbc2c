/-!
Failures of a command, and the report that an operator gets to read.
-/

set_option autoImplicit false
set_option relaxedAutoImplicit false

namespace TokenPlan.Command

/-- What failed, and its causes from the nearest to the deepest. -/
structure Failure where
  context : String
  causes : List String
deriving DecidableEq, Repr

namespace Failure

def ofChain : List String → Failure
  | [] => ⟨"", []⟩
  | context :: causes => ⟨context, causes⟩

/-- A text whose lines after the first are moved to the right. -/
def indent (width : Nat) (text : List Char) : List Char :=
  text.flatMap fun c => if c = '\n' then '\n' :: List.replicate width ' ' else [c]

def single (cause : String) : String :=
  "    " ++ String.ofList (indent 4 cause.toList)

/-- Causes with their numbers, which stand below each other. -/
def numbered : Nat → List String → List String
  | _, [] => []
  | number, cause :: causes =>
    (String.ofList (List.leftpad 5 ' ' (Nat.toDigits 10 number)) ++ ": " ++
      String.ofList (indent 7 cause.toList)) :: numbered (number + 1) causes

def causeLines : List String → List String
  | [] => []
  | [cause] => ["", "Caused by:", single cause]
  | causes => "" :: "Caused by:" :: numbered 0 causes

def report (f : Failure) : String :=
  "\n".intercalate (("Error: " ++ f.context) :: causeLines f.causes) ++ "\n"

end Failure

end TokenPlan.Command
