import TokenPlan.Json.Value
import TokenPlan.Text.Hex
import TokenPlan.Text.Split

/-!
The text of a JSON value, either without any white space or with one item or member a line.
-/

set_option autoImplicit false
set_option relaxedAutoImplicit false

namespace TokenPlan.Json

/-- Where white space goes: nowhere, or line breaks with two spaces for each level. -/
inductive Layout where
  | compact
  | pretty
deriving DecidableEq, Repr

namespace Layout

/-- What stands before an item, a member or a closing bracket at a level. -/
def gap : Layout → Nat → List Char
  | .compact, _ => []
  | .pretty, level => '\n' :: List.replicate (2 * level) ' '

/-- What stands between a key and its value. -/
def colon : Layout → List Char
  | .compact => [':']
  | .pretty => [':', ' ']

end Layout

/-- The text of a character in a string: quotes, backslashes and control characters are escaped. -/
def escape (c : Char) : List Char :=
  if c = '"' then ['\\', '"']
  else if c = '\\' then ['\\', '\\']
  else if c = '\x08' then ['\\', 'b']
  else if c = '\x0c' then ['\\', 'f']
  else if c = '\n' then ['\\', 'n']
  else if c = '\r' then ['\\', 'r']
  else if c = '\t' then ['\\', 't']
  else if c.toNat < 0x20 then
    ['\\', 'u', '0', '0', Text.hexDigit (c.toNat / 16), Text.hexDigit (c.toNat % 16)]
  else [c]

/-- The characters of a string, escaped, up to its closing quote. -/
def writeBody : List Char → List Char
  | [] => ['"']
  | c :: rest => escape c ++ writeBody rest

def writeString (text : String) : List Char :=
  '"' :: writeBody text.toList

/-- The text of a number that is not plain digits: sign, digits and exponent. -/
def writeDecimal (negative : Bool) (digits : Nat) (exponent : Int) : List Char :=
  (if negative then ['-'] else []) ++ Text.digits digits ++
    'e' :: ((if exponent < 0 then ['-'] else []) ++ Text.digits exponent.natAbs)

mutual

/-- The text of a value at a level of nesting. -/
def write (layout : Layout) (level : Nat) : Value → List Char
  | .null => ['n', 'u', 'l', 'l']
  | .bool true => ['t', 'r', 'u', 'e']
  | .bool false => ['f', 'a', 'l', 's', 'e']
  | .natural value => Text.digits value
  | .decimal negative digits exponent => writeDecimal negative digits exponent
  | .string text => writeString text
  | .array [] => ['[', ']']
  | .array (item :: items) =>
    '[' :: (layout.gap (level + 1) ++ (write layout (level + 1) item ++
      writeItems layout level items))
  | .object [] => ['{', '}']
  | .object ((key, value) :: members) =>
    '{' :: (layout.gap (level + 1) ++ (writeString key ++ (layout.colon ++
      (write layout (level + 1) value ++ writeMembers layout level members))))

/-- The items after the first one, and the closing bracket. -/
def writeItems (layout : Layout) (level : Nat) : List Value → List Char
  | [] => layout.gap level ++ [']']
  | item :: items =>
    ',' :: (layout.gap (level + 1) ++ (write layout (level + 1) item ++
      writeItems layout level items))

/-- The members after the first one, and the closing brace. -/
def writeMembers (layout : Layout) (level : Nat) : List (String × Value) → List Char
  | [] => layout.gap level ++ ['}']
  | (key, value) :: members =>
    ',' :: (layout.gap (level + 1) ++ (writeString key ++ (layout.colon ++
      (write layout (level + 1) value ++ writeMembers layout level members))))

end

def Value.render (layout : Layout) (value : Value) : String :=
  String.ofList (write layout 0 value)

/-- The text of a value without white space. -/
def Value.compact (value : Value) : String :=
  value.render .compact

/-- The text of a value with one item or member a line. -/
def Value.pretty (value : Value) : String :=
  value.render .pretty

end TokenPlan.Json
