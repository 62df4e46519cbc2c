import TokenPlan.Proofs.Unit.Literal
import TokenPlan.Proofs.Unit.Quotient

/-!
Which texts are decimal literals, and what they are read as. The white space around a literal does
not count, nor do zeros before its digits; it stands for the number that its digits spell, moved
behind the point by as many places as there are digits behind it. A literal is refused only where
its digits spell a number of more than 128 bits, and every other text is refused as it was given.
-/

set_option autoImplicit false
set_option relaxedAutoImplicit false

namespace TokenPlan.Ratio

/-- What a text comes to as a decimal literal, with the circumstances. -/
inductive Reading (text : String) : Except UnitError Ratio → Prop
  | exact {body whole fraction : List Char} {n : Nat} {x : Ratio}
      (trims : Text.Trims text.toList body) (decimal : Decimal body whole fraction)
      (spells : Text.Spells (whole ++ fraction) n) (narrow : n < 2 ^ 128)
      (value : x.value = n / 10 ^ fraction.length) : Reading text (.ok x)
  | wide {body whole fraction : List Char} {n : Nat} (trims : Text.Trims text.toList body)
      (decimal : Decimal body whole fraction) (spells : Text.Spells (whole ++ fraction) n)
      (wide : 2 ^ 128 ≤ n) : Reading text (.error .overflow)
  | odd {body : List Char} (trims : Text.Trims text.toList body)
      (odd : ∀ whole fraction, ¬ Decimal body whole fraction) :
      Reading text (.error (.invalidDecimal text))

variable {body whole fraction : List Char}

private theorem Decimal.power_lt (decimal : Decimal body whole fraction) :
    10 ^ fraction.length < 2 ^ 128 :=
  Nat.lt_of_le_of_lt (Nat.pow_le_pow_right (by decide) decimal.short) (by decide)

private theorem Decimal.spells (decimal : Decimal body whole fraction) :
    Text.Spells (whole ++ fraction) (Text.spelled (whole ++ fraction)) := by
  apply Text.spells_spelled
  rw [List.forall_mem_append]
  exact ⟨decimal.whole_digits, decimal.fraction_digits⟩

private theorem Decimal.ofParts?_eq_some_iff {n : Nat} {x : Ratio}
    (decimal : Decimal body whole fraction) :
    ofParts? n (10 ^ fraction.length) = some x ↔
      n < 2 ^ 128 ∧ x.value = n / 10 ^ fraction.length := by
  have power_pos : 0 < 10 ^ fraction.length := Nat.pow_pos (by decide)
  rw [Ratio.ofParts?_eq_some_iff, Nat.cast_pow, Nat.cast_ofNat]
  constructor
  · rintro ⟨⟨-, narrow, -⟩, value⟩
    exact ⟨narrow, value⟩
  · rintro ⟨narrow, value⟩
    exact ⟨⟨power_pos, narrow, decimal.power_lt⟩, value⟩

private theorem Decimal.ofParts?_eq_none_iff {n : Nat} (decimal : Decimal body whole fraction) :
    ofParts? n (10 ^ fraction.length) = none ↔ 2 ^ 128 ≤ n := by
  have power_pos : 0 < 10 ^ fraction.length := Nat.pow_pos (by decide)
  unfold ofParts?
  split
  · rename_i fits
    simp only [reduceCtorEq, false_iff, Nat.not_le]
    exact fits.2.1
  · rename_i wide
    simp only [true_iff]
    apply Nat.le_of_not_lt
    exact fun narrow => wide ⟨power_pos, narrow, decimal.power_lt⟩

private theorem reading_ofDecimal (text : String) : Reading text (ofDecimal text) := by
  have trims := Text.trims_trim text.toList
  rw [ofDecimal]
  by_cases literal : ∃ whole fraction, Decimal (Text.trim text.toList) whole fraction
  · obtain ⟨whole, fraction, decimal⟩ := literal
    rw [readDecimal_of_trims trims decimal]
    cases found : ofParts? (Text.spelled (whole ++ fraction)) (10 ^ fraction.length) with
    | some x =>
      obtain ⟨narrow, value⟩ := decimal.ofParts?_eq_some_iff.mp found
      exact .exact trims decimal decimal.spells narrow value
    | none => exact .wide trims decimal decimal.spells (decimal.ofParts?_eq_none_iff.mp found)
  · have odd : ∀ whole fraction, ¬ Decimal (Text.trim text.toList) whole fraction :=
      fun whole fraction decimal => literal ⟨whole, fraction, decimal⟩
    rw [readDecimal_of_odd trims odd, String.ofList_toList]
    exact .odd trims odd

/-- Every text is read as the number of its literal, or refused for the one reason that it has. -/
theorem ofDecimal_decides_literal (text : String) (result : Except UnitError Ratio) :
    ofDecimal text = result ↔ Reading text result := by
  constructor
  · rintro rfl
    exact reading_ofDecimal text
  · intro reading
    rw [ofDecimal]
    cases reading with
    | exact trims decimal spells narrow value =>
      rw [readDecimal_of_trims trims decimal, spells.spelled_eq, require_eq_ok_iff]
      exact decimal.ofParts?_eq_some_iff.mpr ⟨narrow, value⟩
    | wide trims decimal spells wide =>
      rw [readDecimal_of_trims trims decimal, spells.spelled_eq,
        decimal.ofParts?_eq_none_iff.mpr wide]
      rfl
    | odd trims odd => rw [readDecimal_of_odd trims odd, String.ofList_toList]

/-- Neither leading zeros nor the white space count; the point needs digits on one side only. -/
example : ofDecimal "\u3000 000.250\u0085" = ofDecimal ".25" := by
  decide +kernel

end TokenPlan.Ratio
