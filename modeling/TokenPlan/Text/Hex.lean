/-!
Bytes as pairs of hexadecimal digits. Both cases are read; lower case is written.
-/

set_option autoImplicit false
set_option relaxedAutoImplicit false

namespace TokenPlan.Text

def hexValue? (c : Char) : Option Nat :=
  let code := c.toNat
  if 0x30 ≤ code ∧ code ≤ 0x39 then some (code - 0x30)
  else if 0x61 ≤ code ∧ code ≤ 0x66 then some (code - 0x57)
  else if 0x41 ≤ code ∧ code ≤ 0x46 then some (code - 0x37)
  else none

def hexDigit (n : Nat) : Char :=
  if n < 10 then Char.ofNat (0x30 + n) else Char.ofNat (0x57 + n)

/-- A byte is written high digit first. -/
def hexOfBytes : List UInt8 → List Char
  | [] => []
  | b :: bytes => hexDigit (b.toNat / 16) :: hexDigit (b.toNat % 16) :: hexOfBytes bytes

/-- The bytes that pairs of digits spell, in order. -/
def bytesOfHex? : List Char → Option (List UInt8)
  | [] => some []
  | [_] => none
  | high :: low :: rest => do
    let h ← hexValue? high
    let l ← hexValue? low
    let bytes ← bytesOfHex? rest
    some (UInt8.ofNat (16 * h + l) :: bytes)

theorem hexValue?_hexDigit : ∀ n < 16, hexValue? (hexDigit n) = some n := by decide

theorem bytesOfHex?_hexOfBytes (bytes : List UInt8) :
    bytesOfHex? (hexOfBytes bytes) = some bytes := by
  induction bytes with
  | nil => rfl
  | cons b bytes ih =>
    have bound := b.toNat_lt
    simp only [hexOfBytes, bytesOfHex?, hexValue?_hexDigit _ (show b.toNat / 16 < 16 by omega),
      hexValue?_hexDigit _ (show b.toNat % 16 < 16 by omega), ih, Option.bind_eq_bind,
      Option.bind_some]
    rw [show 16 * (b.toNat / 16) + b.toNat % 16 = b.toNat by omega]
    simp

end TokenPlan.Text
