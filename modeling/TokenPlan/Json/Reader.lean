import TokenPlan.Json.Value
import TokenPlan.Text.Hex
import TokenPlan.Text.Split

/-!
Reading of JSON texts as RFC 8259 gives them: one value with nothing but white space around it. A
control character in a string is refused, and so is half of a surrogate pair, but for strings that
are passed over.
-/

set_option autoImplicit false
set_option relaxedAutoImplicit false

namespace TokenPlan.Json

/-- The four characters that may stand between tokens. -/
def isSpace (c : Char) : Bool :=
  c = ' ' || c = '\n' || c = '\t' || c = '\r'

def skipSpace (text : List Char) : List Char :=
  text.dropWhile isSpace

/-- Reads the four digits of an escaped UTF-16 unit. -/
def readUnit : List Char → Option (Nat × List Char)
  | a :: b :: c :: d :: rest => do
    let a ← Text.hexValue? a
    let b ← Text.hexValue? b
    let c ← Text.hexValue? c
    let d ← Text.hexValue? d
    some (4096 * a + 256 * b + 16 * c + d, rest)
  | _ => none

/-- What is made of half a surrogate pair in a string: none, or the replacement character. -/
inductive HalfPair where
  | refused
  | replaced
deriving DecidableEq

/-- The character that is read for half a surrogate pair, if one is. -/
def HalfPair.character? : HalfPair → Option Char
  | .refused => none
  | .replaced => some (Char.ofNat 0xFFFD)

/-- Reads the escaped second half of a surrogate pair. -/
def readSecondHalf : List Char → Option (Nat × List Char)
  | '\\' :: 'u' :: rest =>
    (readUnit rest).filter fun read => 0xDC00 ≤ read.1 && read.1 ≤ 0xDFFF
  | _ => none

/--
Reads an escaped character after its mark: one unit, or the two units of a surrogate pair. What
follows half a pair is read on its own.
-/
def readUnicode (halves : HalfPair) (text : List Char) : Option (Char × List Char) := do
  let (unit, rest) ← readUnit text
  if unit < 0xD800 ∨ 0xDFFF < unit then some (Char.ofNat unit, rest)
  else
    match if unit < 0xDC00 then readSecondHalf rest else none with
    | some (low, rest) =>
      some (Char.ofNat (0x10000 + 0x400 * (unit - 0xD800) + (low - 0xDC00)), rest)
    | none => halves.character?.map fun c => (c, rest)

def escaped? (c : Char) : Option Char :=
  if c = '"' ∨ c = '\\' ∨ c = '/' then some c
  else if c = 'b' then some '\x08'
  else if c = 'f' then some '\x0c'
  else if c = 'n' then some '\n'
  else if c = 'r' then some '\r'
  else if c = 't' then some '\t'
  else none

/-- Reads an escape after its backslash. -/
def readEscape (halves : HalfPair) : List Char → Option (Char × List Char)
  | [] => none
  | c :: rest =>
    if c = 'u' then readUnicode halves rest else (escaped? c).map fun d => (d, rest)

/-- Reads the characters of a string up to and with its closing quote, at most `fuel` of them. -/
def readBody (halves : HalfPair) : Nat → List Char → Option (List Char × List Char)
  | 0, _ => none
  | _ + 1, [] => none
  | fuel + 1, c :: rest =>
    if c = '"' then some ([], rest)
    else if c = '\\' then do
      let (d, rest) ← readEscape halves rest
      let (body, rest) ← readBody halves fuel rest
      some (d :: body, rest)
    else if c.toNat < 0x20 then none
    else do
      let (body, rest) ← readBody halves fuel rest
      some (c :: body, rest)

def readString (halves : HalfPair) (text : List Char) : Option (String × List Char) :=
  (readBody halves (text.length + 1) text).map fun read => (String.ofList read.1, read.2)

/-- Reads the digits after a point, if there is one: their value and their number. -/
def readFraction : List Char → Option (Option (Nat × Nat) × List Char)
  | '.' :: rest =>
    (Text.readRun rest).map fun read =>
      (some (read.1, (rest.takeWhile Char.isDigit).length), read.2)
  | rest => some (none, rest)

def readSign : List Char → Bool × List Char
  | '-' :: rest => (true, rest)
  | '+' :: rest => (false, rest)
  | rest => (false, rest)

def readExponent (text : List Char) : Option (Option Int × List Char) :=
  match text with
  | [] => some (none, [])
  | c :: rest =>
    if c = 'e' ∨ c = 'E' then
      let (negative, rest) := readSign rest
      (Text.readRun rest).map fun (size, rest) =>
        (some (if negative then -(size : Int) else size), rest)
    else some (none, text)

/-- Reads a number after its sign; no zero may lead other digits. -/
def readNumber (negative : Bool) (text : List Char) : Option (Value × List Char) := do
  let (whole, rest) ← Text.readRun text
  if text.head? = some '0' ∧ (text.takeWhile Char.isDigit).length ≠ 1 then none
  else
    let (fraction?, rest) ← readFraction rest
    let (exponent?, rest) ← readExponent rest
    match negative, fraction?, exponent? with
    | false, none, none => some (.natural whole, rest)
    | _, _, _ =>
      let (fraction, places) := fraction?.getD (0, 0)
      some (.decimal negative (whole * 10 ^ places + fraction) (exponent?.getD 0 - places), rest)

def readKeyword (word : List Char) (value : Value) (text : List Char) :
    Option (Value × List Char) :=
  if word.isPrefixOf text then some (value, text.drop word.length) else none

mutual

/--
Reads a value at the front of a text, in at most `fuel` nested steps; `keys` holds for the keys of
the value itself, and `inner` for every other string in it.
-/
def readValue (keys inner : HalfPair) : Nat → List Char → Option (Value × List Char)
  | 0, _ => none
  | _ + 1, [] => none
  | fuel + 1, c :: rest =>
    if c = '"' then (readString inner rest).map fun read => (.string read.1, read.2)
    else if c = '[' then
      let rest := skipSpace rest
      if rest.head? = some ']' then some (.array [], rest.tail)
      else (readItems inner fuel rest).map fun read => (.array read.1, read.2)
    else if c = '{' then
      let rest := skipSpace rest
      if rest.head? = some '}' then some (.object [], rest.tail)
      else (readMembers keys inner fuel rest).map fun read => (.object read.1, read.2)
    else if c = 'n' then readKeyword ['u', 'l', 'l'] .null rest
    else if c = 't' then readKeyword ['r', 'u', 'e'] (.bool true) rest
    else if c = 'f' then readKeyword ['a', 'l', 's', 'e'] (.bool false) rest
    else if c = '-' then readNumber true rest
    else readNumber false (c :: rest)

/-- Reads the items of an array up to and with its closing bracket. -/
def readItems (inner : HalfPair) : Nat → List Char → Option (List Value × List Char)
  | 0, _ => none
  | fuel + 1, text => do
    let (item, rest) ← readValue inner inner fuel text
    match skipSpace rest with
    | ',' :: rest => do
      let (items, rest) ← readItems inner fuel (skipSpace rest)
      some (item :: items, rest)
    | ']' :: rest => some ([item], rest)
    | _ => none

/-- Reads the members of an object up to and with its closing brace. -/
def readMembers (keys inner : HalfPair) :
    Nat → List Char → Option (List (String × Value) × List Char)
  | 0, _ => none
  | fuel + 1, text => do
    let rest ← Text.expect '"' text
    let (key, rest) ← readString keys rest
    let rest ← Text.expect ':' (skipSpace rest)
    let (value, rest) ← readValue inner inner fuel (skipSpace rest)
    match skipSpace rest with
    | ',' :: rest => do
      let (members, rest) ← readMembers keys inner fuel (skipSpace rest)
      some ((key, value) :: members, rest)
    | '}' :: rest => some ([(key, value)], rest)
    | _ => none

end

/-- Reads a whole text as one value; each nested step takes at least half a character. -/
def readText (keys inner : HalfPair) (text : List Char) : Option Value := do
  let (value, rest) ← readValue keys inner (2 * text.length + 2) (skipSpace text)
  if skipSpace rest = [] then some value else none

def read? (text : String) : Option Value :=
  readText .refused .refused text.toList

/-- Reads a whole text as one value within the limits of a table. -/
def readWithinLimits? (text : String) : Option Value :=
  (read? text).filter Value.withinLimits

/--
Reads a whole text as one value from which members are picked by their keys. Half a surrogate pair
is refused in those keys alone: the other strings are passed over, and nothing depends on them.
-/
def readFields? (text : String) : Option Value :=
  readText .refused .replaced text.toList

end TokenPlan.Json
