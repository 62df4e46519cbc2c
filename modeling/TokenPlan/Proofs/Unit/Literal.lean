import TokenPlan.Proofs.Text.Digits
import TokenPlan.Unit.Literal

/-!
What a decimal literal is read as, and that every fraction is read back from what is written for it,
whether that is a literal or a quotient: no literal is too long, and no part of it leaves its range.
-/

set_option autoImplicit false
set_option relaxedAutoImplicit false

namespace TokenPlan.Ratio

private theorem ofParts?_mul (x : Ratio) {factor : Nat} (positive : 0 < factor)
    (num_lt : x.num * factor < 2 ^ 128) (den_lt : x.den * factor < 2 ^ 128) :
    ofParts? (x.num * factor) (x.den * factor) = some x := by
  have den_pos : 0 < x.den * factor := Nat.mul_pos x.den_pos positive
  have divisor : (x.num * factor).gcd (x.den * factor) = factor := by
    rw [Nat.gcd_mul_right, x.reduced, Nat.one_mul]
  rw [ofParts?, dif_pos ⟨den_pos, num_lt, den_lt⟩]
  congr 1
  apply ext
  · simp only [reduce, divisor]
    exact Nat.mul_div_cancel x.num positive
  · simp only [reduce, divisor]
    exact Nat.mul_div_cancel x.den positive

/-! ### Decimal literals -/

/--
A decimal literal and its two sides: digits with at most one point among them, and no more than
thirty behind it.
-/
structure Decimal (body whole fraction : List Char) : Prop where
  split : body = whole ∧ fraction = [] ∨ body = whole ++ '.' :: fraction
  inhabited : whole ≠ [] ∨ fraction ≠ []
  whole_digits : ∀ c ∈ whole, c.isDigit = true
  fraction_digits : ∀ c ∈ fraction, c.isDigit = true
  short : fraction.length ≤ 30

variable {text body whole fraction : List Char}

private theorem Decimal.cut (decimal : Decimal body whole fraction) :
    (Text.cut '.' body).getD (body, []) = (whole, fraction) := by
  have no_point : '.' ∉ whole := fun mem => absurd (decimal.whole_digits _ mem) (by decide)
  rcases decimal.split with ⟨rfl, rfl⟩ | rfl
  · rw [Text.cut_eq_none_iff.mpr no_point]
    rfl
  · rw [Text.cut_append no_point]
    rfl

private theorem Decimal.visible (decimal : Decimal body whole fraction) : Text.Visible body := by
  have whole_visible := Text.visible_of_isDigit decimal.whole_digits
  have fraction_visible := Text.visible_of_isDigit decimal.fraction_digits
  rcases decimal.split with ⟨rfl, -⟩ | rfl
  · exact whole_visible
  · rw [Text.visible_append, Text.visible_cons]
    exact ⟨whole_visible, rfl, fraction_visible⟩

/-- A literal is the number that all its digits spell over a power of ten. -/
theorem readDecimal_of_trims (trims : Text.Trims text body)
    (decimal : Decimal body whole fraction) :
    readDecimal text =
      require .overflow (ofParts? (Text.spelled (whole ++ fraction)) (10 ^ fraction.length)) := by
  have well_formed : ¬ ((whole = [] ∧ fraction = []) ∨ whole.all Char.isDigit = false ∨
      fraction.all Char.isDigit = false ∨ maxFractionDigits < fraction.length) := by
    rintro (⟨no_whole, no_fraction⟩ | odd | odd | long)
    · exact decimal.inhabited.elim (fun some => some no_whole) fun some => some no_fraction
    · rw [List.all_eq_true.mpr decimal.whole_digits] at odd
      cases odd
    · rw [List.all_eq_true.mpr decimal.fraction_digits] at odd
      cases odd
    · exact absurd decimal.short (Nat.not_le_of_lt long)
  simp only [readDecimal, trims.trim_eq, decimal.cut, well_formed, if_false]

theorem readDecimal_of_odd (trims : Text.Trims text body)
    (odd : ∀ whole fraction, ¬ Decimal body whole fraction) :
    readDecimal text = .error (.invalidDecimal (String.ofList text)) := by
  obtain ⟨whole, fraction, sides⟩ : ∃ whole fraction,
      (Text.cut '.' body).getD (body, []) = (whole, fraction) := ⟨_, _, rfl⟩
  have split : body = whole ∧ fraction = [] ∨ body = whole ++ '.' :: fraction := by
    cases point : Text.cut '.' body with
    | none =>
      rw [point] at sides
      cases sides
      exact Or.inl ⟨rfl, rfl⟩
    | some parts =>
      rw [point] at sides
      cases sides
      exact Or.inr (Text.eq_of_cut point)
  have malformed : (whole = [] ∧ fraction = []) ∨ whole.all Char.isDigit = false ∨
      fraction.all Char.isDigit = false ∨ maxFractionDigits < fraction.length := by
    apply Decidable.byContradiction
    intro fine
    simp only [not_or, Bool.not_eq_false] at fine
    obtain ⟨inhabited, whole_digits, fraction_digits, short⟩ := fine
    refine odd whole fraction ⟨split, ?_, List.all_eq_true.mp whole_digits,
      List.all_eq_true.mp fraction_digits, Nat.le_of_not_lt short⟩
    exact Decidable.not_and_iff_not_or_not.mp inhabited
  simp only [readDecimal, trims.trim_eq, sides, malformed, if_true]

theorem exists_decimal_of_readDecimal {x : Ratio} (read : readDecimal text = .ok x) :
    ∃ whole fraction, Decimal (Text.trim text) whole fraction := by
  apply Classical.byContradiction
  intro odd
  rw [readDecimal_of_odd (Text.trims_trim text) fun whole fraction decimal =>
    odd ⟨whole, fraction, decimal⟩] at read
  cases read

private theorem readDecimal_of_decimal (decimal : Decimal body whole fraction) :
    readDecimal body =
      require .overflow (ofParts? (Text.spelled (whole ++ fraction)) (10 ^ fraction.length)) :=
  readDecimal_of_trims (Text.trim_eq_iff.mp (Text.trim_of_visible decimal.visible)) decimal

private theorem readDecimal_digits (n : Nat) :
    readDecimal (Text.digits n) = require .overflow (ofParts? n 1) := by
  have decimal : Decimal (Text.digits n) (Text.digits n) [] :=
    ⟨Or.inl ⟨rfl, rfl⟩, Or.inl (Text.digits_ne_nil n), fun _ mem => Text.isDigit_of_mem_digits mem,
      nofun, Nat.zero_le _⟩
  rw [readDecimal_of_decimal decimal, List.append_nil, Text.spelled_digits]
  rfl

/-! ### Positional notation -/

private theorem readDecimal_positional {places : Nat} (short : places ≤ maxFractionDigits)
    (scaled : Nat) :
    readDecimal (positional places scaled) =
      require .overflow (ofParts? scaled (10 ^ places)) := by
  unfold positional
  by_cases none : places = 0
  · subst none
    rw [if_pos rfl, readDecimal_digits, Nat.pow_zero]
  · have positive : 0 < places := Nat.pos_of_ne_zero none
    have below : scaled % 10 ^ places < 10 ^ places := Nat.mod_lt _ (Nat.pow_pos (by decide))
    have length := Text.length_paddedDigits positive below
    have spelled : Text.spelled (Text.digits (scaled / 10 ^ places) ++
        Text.paddedDigits places (scaled % 10 ^ places)) = scaled := by
      rw [Text.spelled_append, Text.spelled_digits, Text.spelled_paddedDigits, length]
      exact Nat.div_add_mod scaled (10 ^ places)
    have decimal : Decimal (Text.digits (scaled / 10 ^ places) ++
        '.' :: Text.paddedDigits places (scaled % 10 ^ places)) _ _ :=
      ⟨Or.inr rfl, Or.inl (Text.digits_ne_nil _), fun _ mem => Text.isDigit_of_mem_digits mem,
        fun _ mem => Text.isDigit_of_mem_paddedDigits mem, length.symm ▸ short⟩
    rw [if_neg none, readDecimal_of_decimal decimal, spelled, length]

private theorem no_stroke_positional (places scaled : Nat) : '/' ∉ positional places scaled := by
  have no_stroke : ∀ text : List Char, (∀ c ∈ text, c.isDigit = true) → '/' ∉ text :=
    fun text all mem => absurd (all _ mem) (by decide)
  unfold positional
  split
  · exact no_stroke _ fun _ mem => Text.isDigit_of_mem_digits mem
  · rw [List.mem_append, List.mem_cons, not_or, not_or]
    exact ⟨no_stroke _ fun _ mem => Text.isDigit_of_mem_digits mem, by decide,
      no_stroke _ fun _ mem => Text.isDigit_of_mem_paddedDigits mem⟩

private theorem decimalPlaces?_spec {x : Ratio} {places : Nat}
    (found : x.decimalPlaces? = some places) :
    places ≤ maxFractionDigits ∧ 10 ^ places % x.den = 0 := by
  have mem := List.mem_of_find?_eq_some found
  have exact := List.find?_some found
  rw [List.mem_range] at mem
  exact ⟨by omega, by simpa using exact⟩

private theorem ofParts?_scaled {x : Ratio} {places scaled : Nat}
    (found : x.decimalPlaces? = some places)
    (fits : x.scaledTo? places = some scaled) : ofParts? scaled (10 ^ places) = some x := by
  obtain ⟨short, exact⟩ := decimalPlaces?_spec found
  obtain ⟨scaled_eq, scaled_lt⟩ := part?_eq_some_iff.mp fits
  have product : x.den * (10 ^ places / x.den) = 10 ^ places :=
    Nat.mul_div_cancel' (Nat.dvd_of_mod_eq_zero exact)
  -- Thirty places are few enough for their power of ten to be a part of a fraction.
  have power_lt : 10 ^ places < 2 ^ 128 :=
    Nat.lt_of_le_of_lt (Nat.pow_le_pow_right (by decide) short) (by decide)
  have factor_pos : 0 < 10 ^ places / x.den := by
    apply Nat.pos_of_ne_zero
    intro zero
    rw [zero, Nat.mul_zero] at product
    exact Nat.ne_of_gt (Nat.pow_pos (by decide)) product.symm
  have whole := ofParts?_mul x factor_pos scaled_lt (by rw [product]; exact power_lt)
  rwa [product, scaled_eq] at whole

/-! ### Quotients -/

private theorem readDecimal_part {n : Nat} (n_lt : n < 2 ^ 128) :
    ∃ x : Ratio, readDecimal (Text.digits n) = .ok x ∧ x.num = n ∧ x.den = 1 := by
  have fits : 0 < 1 ∧ n < 2 ^ 128 ∧ 1 < 2 ^ 128 := ⟨by decide, n_lt, by decide⟩
  refine ⟨reduce n 1 fits.1 fits.2.1 fits.2.2, ?_, ?_, ?_⟩
  · rw [readDecimal_digits, ofParts?, dif_pos fits]
    rfl
  · simp [reduce]
  · simp [reduce]

private theorem readQuotient_parts (x : Ratio) :
    readQuotient (Text.digits x.num ++ '/' :: Text.digits x.den) = .ok x := by
  obtain ⟨divisor, divisor_read, divisor_num, divisor_den⟩ := readDecimal_part x.den_lt
  obtain ⟨dividend, dividend_read, dividend_num, dividend_den⟩ := readDecimal_part x.num_lt
  have no_stroke : '/' ∉ Text.digits x.num :=
    fun mem => absurd (Text.isDigit_of_mem_digits mem) (by decide)
  have nonzero : divisor.num ≠ 0 := by
    rw [divisor_num]
    exact Nat.ne_of_gt x.den_pos
  have quotient : dividend.div? divisor = some x := by
    rw [div?, if_neg nonzero, if_pos (dividend_den.trans divisor_den.symm), dividend_num,
      divisor_num, ofParts?_self]
  simp only [readQuotient, Text.cut_append no_stroke, divisor_read, dividend_read, ok_bind, nonzero,
    if_false, quotient]
  rfl

private theorem readQuotient_write (x : Ratio) : readQuotient x.write = .ok x := by
  unfold write
  cases found : x.decimalPlaces? with
  | none => exact readQuotient_parts x
  | some places =>
    cases fits : x.scaledTo? places with
    | none =>
      simp only [Option.bind_eq_bind, Option.bind_some, fits, Option.bind_none, Option.getD_none]
      exact readQuotient_parts x
    | some scaled =>
      have no_stroke := Text.cut_eq_none_iff.mpr (no_stroke_positional places scaled)
      simp only [Option.bind_eq_bind, Option.bind_some, fits, Option.getD_some, readQuotient,
        no_stroke, readDecimal_positional (decimalPlaces?_spec found).1, ofParts?_scaled found fits]
      rfl

theorem ofText_render (x : Ratio) : ofText x.render = .ok x := by
  rw [ofText, render, String.toList_ofList, readQuotient_write]

end TokenPlan.Ratio
