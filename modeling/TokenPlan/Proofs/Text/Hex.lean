import TokenPlan.Proofs.Text.Trim
import TokenPlan.Text.Hex

/-!
Hexadecimal digits and the bytes that pairs of them spell. A digit may stand in either case, and is
written in lower case: so the bytes of a text are written as the text itself in lower case.
-/

set_option autoImplicit false
set_option relaxedAutoImplicit false

namespace TokenPlan.Text

/-- A hexadecimal digit of either case, with its value. -/
inductive HexDigit : Char → Nat → Prop
  | decimal {c : Char} {n : Nat} (here : c.toNat = '0'.toNat + n) (small : n < 10) : HexDigit c n
  | lower {c : Char} {n : Nat} (here : c.toNat = 'a'.toNat + n) (small : n < 6) :
      HexDigit c (10 + n)
  | upper {c : Char} {n : Nat} (here : c.toNat = 'A'.toNat + n) (small : n < 6) :
      HexDigit c (10 + n)

/-- Pairs of digits spell bytes in their order: the first digit of a pair counts sixteen times. -/
inductive SpellsBytes : List Char → List UInt8 → Prop
  | nil : SpellsBytes [] []
  | cons {high low : Char} {h l : Nat} {b : UInt8} {digits : List Char} {bytes : List UInt8}
      (first : HexDigit high h) (second : HexDigit low l) (value : b.toNat = 16 * h + l)
      (behind : SpellsBytes digits bytes) : SpellsBytes (high :: low :: digits) (b :: bytes)

/-! ### Digits -/

variable {c : Char} {n : Nat}

private theorem HexDigit.value_lt (digit : HexDigit c n) : n < 16 := by
  cases digit <;> omega

private theorem hexValue?_eq_some_iff : hexValue? c = some n ↔ HexDigit c n := by
  have zero : '0'.toNat = 48 := rfl
  have lower_a : 'a'.toNat = 97 := rfl
  have upper_a : 'A'.toNat = 65 := rfl
  constructor
  · intro found
    unfold hexValue? at found
    simp only at found
    split at found
    · cases found
      exact .decimal (by omega) (by omega)
    · split at found
      · obtain rfl : 10 + (c.toNat - 97) = n := by
          have value := Option.some.inj found
          omega
        exact .lower (by omega) (by omega)
      · split at found
        · obtain rfl : 10 + (c.toNat - 65) = n := by
            have value := Option.some.inj found
            omega
          exact .upper (by omega) (by omega)
        · cases found
  · intro digit
    unfold hexValue?
    simp only
    cases digit with
    | decimal here small =>
      rw [if_pos (by omega), here, zero, Nat.add_sub_cancel_left]
    | @lower n here small =>
      rw [if_neg (by omega), if_pos (by omega)]
      congr 1
      omega
    | @upper n here small =>
      rw [if_neg (by omega), if_neg (by omega), if_pos (by omega)]
      congr 1
      omega

private theorem HexDigit.hexDigit_eq (digit : HexDigit c n) : hexDigit n = c.toLower := by
  have decimals : ∀ n < 10, hexDigit n = (Char.ofNat ('0'.toNat + n)).toLower := by decide
  have lowers : ∀ n < 6, hexDigit (10 + n) = (Char.ofNat ('a'.toNat + n)).toLower := by decide
  have uppers : ∀ n < 6, hexDigit (10 + n) = (Char.ofNat ('A'.toNat + n)).toLower := by decide
  rw [← Char.ofNat_toNat c]
  cases digit with
  | decimal here small =>
    rw [here]
    exact decimals n small
  | @lower n here small =>
    rw [here]
    exact lowers n small
  | @upper n here small =>
    rw [here]
    exact uppers n small

private theorem isBlank_hexDigit : ∀ n < 16, isBlank (hexDigit n) = false := by decide

/-! ### Bytes -/

variable {digits : List Char} {bytes : List UInt8}

theorem bytesOfHex?_eq_some_iff : bytesOfHex? digits = some bytes ↔ SpellsBytes digits bytes := by
  constructor
  · intro found
    fun_induction bytesOfHex? digits generalizing bytes with
    | case1 =>
      cases found
      exact .nil
    | case2 => cases found
    | case3 high low rest ih =>
      simp only [Option.bind_eq_bind, Option.bind_eq_some_iff] at found
      obtain ⟨h, high_read, l, low_read, others, behind, same⟩ := found
      cases same
      have first := hexValue?_eq_some_iff.mp high_read
      have second := hexValue?_eq_some_iff.mp low_read
      refine .cons first second ?_ (ih behind)
      have first_lt := first.value_lt
      have second_lt := second.value_lt
      rw [UInt8.toNat_ofNat', Nat.mod_eq_of_lt (by omega)]
  · intro spells
    induction spells with
    | nil => rfl
    | @cons high low h l b digits bytes first second value behind ih =>
      simp only [bytesOfHex?, hexValue?_eq_some_iff.mpr first, hexValue?_eq_some_iff.mpr second, ih,
        Option.bind_eq_bind, Option.bind_some, ← value, UInt8.ofNat_toNat]

theorem exists_spellsBytes {count : Nat} (length : digits.length = 2 * count)
    (hex : ∀ c ∈ digits, ∃ n, HexDigit c n) :
    ∃ bytes, SpellsBytes digits bytes ∧ bytes.length = count := by
  induction count generalizing digits with
  | zero =>
    obtain rfl := List.length_eq_zero_iff.mp length
    exact ⟨[], .nil, rfl⟩
  | succ count ih =>
    match digits, length, hex with
    | high :: low :: rest, length, hex =>
      obtain ⟨⟨h, first⟩, ⟨l, second⟩, hex_rest⟩ :
          (∃ n, HexDigit high n) ∧ (∃ n, HexDigit low n) ∧ ∀ c ∈ rest, ∃ n, HexDigit c n := by
        simpa using hex
      have length_rest : rest.length = 2 * count := by
        simp only [List.length_cons] at length
        omega
      obtain ⟨bytes, behind, count_eq⟩ := ih length_rest hex_rest
      have first_lt := first.value_lt
      have second_lt := second.value_lt
      have value : (UInt8.ofNat (16 * h + l)).toNat = 16 * h + l := by
        rw [UInt8.toNat_ofNat', Nat.mod_eq_of_lt (by omega)]
      exact ⟨_ :: bytes, .cons first second value behind, by rw [List.length_cons, count_eq]⟩

namespace SpellsBytes

theorem length_eq (spells : SpellsBytes digits bytes) : digits.length = 2 * bytes.length := by
  induction spells with
  | nil => rfl
  | cons first second value behind ih =>
    simp only [List.length_cons]
    omega

theorem hex (spells : SpellsBytes digits bytes) : ∀ c ∈ digits, ∃ n, HexDigit c n := by
  induction spells with
  | nil => simp
  | cons first second value behind ih =>
    simp only [List.forall_mem_cons]
    exact ⟨⟨_, first⟩, ⟨_, second⟩, ih⟩

theorem hexOfBytes_eq (spells : SpellsBytes digits bytes) :
    hexOfBytes bytes = digits.map Char.toLower := by
  induction spells with
  | nil => rfl
  | @cons high low h l b digits bytes first second value behind ih =>
    have second_lt := second.value_lt
    have high_eq : b.toNat / 16 = h := by omega
    have low_eq : b.toNat % 16 = l := by omega
    rw [hexOfBytes, high_eq, low_eq, first.hexDigit_eq, second.hexDigit_eq, ih]
    rfl

end SpellsBytes

theorem visible_hexOfBytes (bytes : List UInt8) : Visible (hexOfBytes bytes) := by
  induction bytes with
  | nil => exact nofun
  | cons b bytes ih =>
    have bound := b.toNat_lt
    rw [hexOfBytes, visible_cons, visible_cons]
    exact ⟨isBlank_hexDigit _ (by omega), isBlank_hexDigit _ (by omega), ih⟩

end TokenPlan.Text
