import TokenPlan.Proofs.Unit.Literal
import TokenPlan.Proofs.Unit.Quotient

/-!
Where fractions are divided: in a quotient of two literals, and for the percentage that an affiliate
rate leaves. Both come to the quotient of the numbers in lowest terms, and are refused only where a
part of that has more than 128 bits, or where the divisor of the literals is zero.
-/

set_option autoImplicit false
set_option relaxedAutoImplicit false

namespace TokenPlan

namespace Ratio

/-! ### Quotients of literals -/

private theorem mem_of_readDecimal {text : List Char} {x : Ratio} (read : readDecimal text = .ok x)
    {c : Char} (mem : c ∈ text) : Text.isBlank c = true ∨ c.isDigit = true ∨ c = '.' := by
  by_cases blank : Text.isBlank c = true
  · exact Or.inl blank
  · have inner := Text.mem_trim_of_visible mem (Bool.eq_false_iff.mpr blank)
    obtain ⟨whole, fraction, decimal⟩ := exists_decimal_of_readDecimal read
    right
    rcases decimal.split with ⟨whole_eq, -⟩ | split
    · exact Or.inl (decimal.whole_digits c (whole_eq ▸ inner))
    · rw [split] at inner
      rcases List.mem_append.mp inner with before | behind
      · exact Or.inl (decimal.whole_digits c before)
      · rcases List.mem_cons.mp behind with rfl | behind
        · exact Or.inr rfl
        · exact Or.inl (decimal.fraction_digits c behind)

private theorem no_stroke_of_readDecimal {text : List Char} {x : Ratio}
    (read : readDecimal text = .ok x) : '/' ∉ text := by
  intro mem
  rcases mem_of_readDecimal read mem with blank | digit | point
  · exact absurd blank (by decide)
  · exact absurd digit (by decide)
  · exact absurd point (by decide)

private theorem divided_readQuotient {dividend divisor : List Char} {x y : Ratio}
    (dividend_read : readDecimal dividend = .ok x) (divisor_read : readDecimal divisor = .ok y) :
    Divided x.value y.value (readQuotient (dividend ++ '/' :: divisor)) := by
  have no_stroke := no_stroke_of_readDecimal dividend_read
  by_cases nothing : y.num = 0
  · have refused : readQuotient (dividend ++ '/' :: divisor) = .error .divisionByZero := by
      simp only [readQuotient, Text.cut_append no_stroke, divisor_read, ok_bind, nothing, if_true]
      rfl
    rw [refused]
    exact .byZero (value_eq_zero_iff.mpr nothing)
  · have quotient : readQuotient (dividend ++ '/' :: divisor) =
        require .overflow (x.div? y) := by
      simp only [readQuotient, Text.cut_append no_stroke, divisor_read, dividend_read, ok_bind,
        nothing, if_false]
    rw [quotient]
    exact divided_div? x nothing

end Ratio

/-! ### The percentage that is sold -/

private theorem divided_netOfAffiliate_scaled (target : Ratio) (rate : UInt64) :
    Ratio.Divided (target.value * partsPerMillion) (partsPerMillion + rate.toNat)
      (netOfAffiliate target rate) := by
  have whole : (partsPerMillion : ℚ) ≠ 0 := by
    norm_num [partsPerMillion]
  have paid : (1 + rateOf rate) * partsPerMillion = partsPerMillion + rate.toNat := by
    rw [rateOf, add_mul, one_mul, div_mul_cancel₀ _ whole]
  rw [← paid]
  exact (divided_netOfAffiliate target rate).scale whole

/--
Two literals that are read, with a stroke between them, come to the quotient of their numbers and to
nothing else; so does the percentage that is left of a target by any affiliate rate.
-/
theorem division_is_exact :
    (∀ (dividend divisor : String) (x y : Ratio), Ratio.ofDecimal dividend = .ok x →
      Ratio.ofDecimal divisor = .ok y → ∀ result,
        Ratio.ofText (dividend ++ "/" ++ divisor) = result ↔
          Ratio.Divided x.value y.value result) ∧
    ∀ (target : Ratio) (rate : UInt64) result, netOfAffiliate target rate = result ↔
      Ratio.Divided (target.value * partsPerMillion) (partsPerMillion + rate.toNat) result := by
  constructor
  · intro dividend divisor x y dividend_read divisor_read result
    have text : (dividend ++ "/" ++ divisor).toList =
        dividend.toList ++ '/' :: divisor.toList := by
      simp
    rw [Ratio.ofText, text]
    exact (Ratio.divided_readQuotient dividend_read divisor_read).eq_iff
  · intro target rate result
    exact (divided_netOfAffiliate_scaled target rate).eq_iff

theorem division_is_exact_largest : ∃ largest half third,
    Ratio.ofDecimal "340282366920938463463374607431768211455" = .ok largest ∧
      Ratio.ofDecimal "0.5" = .ok half ∧
      Ratio.ofDecimal "113427455640312821154458202477256070485" = .ok third ∧
      Ratio.Divided largest.value half.value (.error .overflow) ∧
      Ratio.Divided largest.value third.value (.ok (Ratio.millionths 3000000)) := by
  let largest := Ratio.reduce (2 ^ 128 - 1) 1 (by decide) (by decide) (by decide)
  let half := Ratio.millionths 500000
  let third := Ratio.reduce ((2 ^ 128 - 1) / 3) 1 (by decide) (by decide) (by decide)
  have largest_read : Ratio.ofDecimal "340282366920938463463374607431768211455" = .ok largest := by
    decide +kernel
  have half_read : Ratio.ofDecimal "0.5" = .ok half := by
    decide +kernel
  have third_read : Ratio.ofDecimal "113427455640312821154458202477256070485" = .ok third := by
    decide +kernel
  refine ⟨largest, half, third, largest_read, half_read, third_read, ?_, ?_⟩
  · exact (division_is_exact.1 _ _ _ _ largest_read half_read _).mp (by decide +kernel)
  · exact (division_is_exact.1 _ _ _ _ largest_read third_read _).mp (by decide +kernel)

end TokenPlan
