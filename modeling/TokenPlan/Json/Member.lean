import TokenPlan.Json.Value
import TokenPlan.Unit.Word

/-!
Members of an object as the fields of a record: a field may stand once, and null in an optional
field means that it is absent.
-/

set_option autoImplicit false
set_option relaxedAutoImplicit false

namespace TokenPlan.Json

def Value.text? : Value → Option String
  | .string text => some text
  | _ => none

/-- A number written as plain digits that fits sixty-four bits. -/
def Value.word? : Value → Option UInt64
  | .natural value => Word.ofNat? value
  | _ => none

/-- The value of a field, which may be absent but not repeated. -/
def field? (key : String) (members : Members) : Option (Option Value) :=
  match members.filter (fun member => member.1 = key) with
  | [] => some none
  | [member] => some (some member.2)
  | _ => none

/-- Reads the value of a field that may be absent or null. -/
def optional {α : Type} (read : Value → Option α) : Option Value → Option (Option α)
  | none => some none
  | some .null => some none
  | some value => (read value).map some

def optionalField {α : Type} (read : Value → Option α) (key : String) (members : Members) :
    Option (Option α) :=
  field? key members >>= optional read

def requiredField {α : Type} (read : Value → Option α) (key : String) (members : Members) :
    Option α := do
  let value? ← field? key members
  let value ← value?
  read value

def ofWord (word : UInt64) : Value :=
  .natural word.toNat

/-- The value of an optional field, null where it is absent. -/
def orNull {α : Type} (write : α → Value) : Option α → Value
  | some value => write value
  | none => .null

/-- An optional field that is left out where it is absent. -/
def orOmitted {α : Type} (key : String) (write : α → Value) : Option α → Members
  | some value => [(key, write value)]
  | none => []

end TokenPlan.Json
