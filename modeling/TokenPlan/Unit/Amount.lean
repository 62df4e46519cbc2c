import TokenPlan.Text.Split
import TokenPlan.Unit.Natural

/-!
Amounts of a token or of a fiat asset, in base units. An amount has 256 bits, and every operation
that could leave that range answers with nothing instead.
-/

set_option autoImplicit false
set_option relaxedAutoImplicit false

namespace TokenPlan

/-- A count of base units below `2 ^ 256`. -/
structure Amount where
  toNat : Nat
  isLt : toNat < 2 ^ 256
deriving DecidableEq

namespace Amount

instance : LE Amount := ⟨fun a b => a.toNat ≤ b.toNat⟩

instance : LT Amount := ⟨fun a b => a.toNat < b.toNat⟩

instance (a b : Amount) : Decidable (a ≤ b) :=
  inferInstanceAs (Decidable (a.toNat ≤ b.toNat))

instance (a b : Amount) : Decidable (a < b) :=
  inferInstanceAs (Decidable (a.toNat < b.toNat))

theorem ext {a b : Amount} (eq : a.toNat = b.toNat) : a = b := by
  cases a
  cases b
  cases eq
  rfl

def zero : Amount := ⟨0, by decide⟩

def largest : Amount := ⟨2 ^ 256 - 1, by decide⟩

def ofNat? (n : Nat) : Option Amount :=
  if fits : n < 2 ^ 256 then some ⟨n, fits⟩ else none

/-- A sixty-four bit count always fits. -/
def ofWord (word : UInt64) : Amount :=
  ⟨word.toNat, Nat.lt_trans word.toNat_lt (by decide)⟩

def add? (a b : Amount) : Option Amount :=
  ofNat? (a.toNat + b.toNat)

def sub? (a b : Amount) : Option Amount :=
  if b ≤ a then some ⟨a.toNat - b.toNat, Nat.lt_of_le_of_lt (Nat.sub_le _ _) a.isLt⟩ else none

/-- The quotient, rounded down. -/
def divNat (a : Amount) (divisor : Nat) : Amount :=
  ⟨a.toNat / divisor, Nat.lt_of_le_of_lt (Nat.div_le_self _ _) a.isLt⟩

/-- The amount `10 ^ exponent`; the largest power that fits has the exponent 77. -/
def powerOfTen? (exponent : Nat) : Option Amount :=
  if 77 < exponent then none else ofNat? (10 ^ exponent)

def render (a : Amount) : String :=
  Text.numeral a.toNat

/-- Reads decimal digits and nothing else; no digits at all are zero. -/
def ofDigits? (text : List Char) : Option Amount :=
  if text.all Char.isDigit then ofNat? (Text.spelled text) else none

theorem ofNat?_eq_some_iff {n : Nat} {a : Amount} : ofNat? n = some a ↔ n = a.toNat := by
  unfold ofNat?
  split
  · constructor
    · intro eq
      cases eq
      rfl
    · rintro rfl
      rfl
  · rename_i wide
    constructor
    · intro eq
      cases eq
    · rintro rfl
      exact absurd a.isLt wide

@[simp] theorem ofNat?_toNat (a : Amount) : ofNat? a.toNat = some a :=
  ofNat?_eq_some_iff.mpr rfl

theorem ofNat?_eq_none_iff {n : Nat} : ofNat? n = none ↔ 2 ^ 256 ≤ n := by
  unfold ofNat?
  split <;> simp <;> omega

theorem add?_eq_some_iff {a b sum : Amount} :
    a.add? b = some sum ↔ a.toNat + b.toNat = sum.toNat :=
  ofNat?_eq_some_iff

theorem sub?_eq_some_iff {a b rest : Amount} :
    a.sub? b = some rest ↔ b.toNat + rest.toNat = a.toNat := by
  unfold sub?
  split
  · rename_i le
    have le : b.toNat ≤ a.toNat := le
    constructor
    · intro eq
      cases eq
      exact Nat.add_sub_cancel' le
    · intro eq
      congr 1
      apply ext
      change a.toNat - b.toNat = rest.toNat
      omega
  · rename_i not_le
    have not_le : ¬ b.toNat ≤ a.toNat := not_le
    simp
    omega

theorem ofDigits?_render (a : Amount) : ofDigits? a.render.toList = some a := by
  have all : (Text.digits a.toNat).all Char.isDigit = true :=
    List.all_eq_true.mpr fun _ mem => Text.isDigit_of_mem_digits mem
  simp [ofDigits?, render, Text.numeral, all, Text.spelled_digits]

end Amount

end TokenPlan
