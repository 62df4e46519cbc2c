import TokenPlan.Unit.Natural

/-!
Sixty-four bit counts: seconds, parts per million and whole tokens. A count that does not fit is
refused or held at the largest one, as the operation says; it never wraps.
-/

set_option autoImplicit false
set_option relaxedAutoImplicit false

namespace TokenPlan.Word

def ofNat? (n : Nat) : Option UInt64 :=
  if fits : n < 2 ^ 64 then some (UInt64.ofNatLT n fits) else none

/-- The count, or the largest one where it does not fit. -/
def saturate (n : Nat) : UInt64 :=
  (ofNat? n).getD (UInt64.ofNatLT (2 ^ 64 - 1) (by decide))

theorem toNat_of_ofNat? {n : Nat} {word : UInt64} (read : ofNat? n = some word) :
    word.toNat = n := by
  unfold ofNat? at read
  split at read
  · cases read
    simp
  · cases read

theorem toNat_saturate (n : Nat) : (saturate n).toNat = min n (2 ^ 64 - 1) := by
  unfold saturate ofNat?
  split
  · rename_i fits
    simp only [Option.getD_some, UInt64.toNat_ofNatLT]
    omega
  · rename_i wide
    simp only [Option.getD_none, UInt64.toNat_ofNatLT]
    omega

theorem ofNat?_toNat (word : UInt64) : ofNat? word.toNat = some word := by
  simp [ofNat?, word.toNat_lt]

end TokenPlan.Word
