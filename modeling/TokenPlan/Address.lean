import TokenPlan.Text.Blank
import TokenPlan.Text.Hex
import TokenPlan.Unit.Error

/-!
Twenty byte account and contract addresses, written as `0x` and forty lower case digits.
-/

set_option autoImplicit false
set_option relaxedAutoImplicit false

namespace TokenPlan

structure Address where
  bytes : List UInt8
  length_eq : bytes.length = 20
deriving DecidableEq

namespace Address

def zero : Address := ⟨List.replicate 20 0, rfl⟩

def ofDigits? (digits : List Char) : Option Address := do
  let bytes ← Text.bytesOfHex? digits
  if length_eq : bytes.length = 20 then some ⟨bytes, length_eq⟩ else none

/-- Reads a trimmed text: the mark in either case, then the digits. -/
def read? : List Char → Option Address
  | '0' :: 'x' :: digits => ofDigits? digits
  | '0' :: 'X' :: digits => ofDigits? digits
  | _ => none

/-- Reads an address, with white space allowed around it. -/
def ofText (text : String) : Except UnitError Address :=
  require (.invalidAddress text) (read? (Text.trim text.toList))

def render (a : Address) : String :=
  String.ofList ('0' :: 'x' :: Text.hexOfBytes a.bytes)

end Address

end TokenPlan
