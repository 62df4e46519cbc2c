import Mathlib.Data.Nat.Cast.Field
import Mathlib.Data.Rat.Lemmas
import TokenPlan.Proofs.Unit.Quantize
import TokenPlan.Unit.Denomination

/-!
What dividing fractions gives. Common factors are taken out before anything is multiplied, and what
is left is in lowest terms already: so the parts that are multiplied are those of the quotient of
the numbers that the fractions stand for, and a product is too large only where the quotient has no
fraction.
-/

set_option autoImplicit false
set_option relaxedAutoImplicit false

namespace TokenPlan

namespace Ratio

variable {x y z : Ratio}

/-! ### Lowest terms -/

private theorem num_den_of_coprime {n d : Nat} (d_pos : 0 < d) (coprime : n.Coprime d) :
    (n / d : ℚ).num = n ∧ (n / d : ℚ).den = d := by
  have den_pos : (0 : ℤ) < d := Int.natCast_pos.mpr d_pos
  have parts : (n : ℤ).natAbs.Coprime (d : ℤ).natAbs := coprime
  have num := Rat.num_div_eq_of_coprime den_pos parts
  have den := Rat.den_div_eq_of_coprime den_pos parts
  simp only [Int.cast_natCast] at num den
  exact ⟨num, Int.natCast_inj.mp den⟩

private theorem num_value (x : Ratio) : x.value.num = x.num :=
  (num_den_of_coprime x.den_pos x.reduced).1

private theorem den_value (x : Ratio) : x.value.den = x.den :=
  (num_den_of_coprime x.den_pos x.reduced).2

theorem value_eq_zero_iff : x.value = 0 ↔ x.num = 0 := by
  rw [← Rat.num_eq_zero, num_value, Int.natCast_eq_zero]

private theorem eq_of_value_eq (same : x.value = y.value) : x = y := by
  apply ext
  · rw [← Int.natCast_inj, ← num_value, ← num_value, same]
  · rw [← den_value, ← den_value, same]

private theorem value_of_ofParts? {n d : Nat} (given : ofParts? n d = some z) :
    z.value = n / d := by
  unfold ofParts? at given
  split at given
  · rename_i fits
    cases given
    have common_pos : 0 < n.gcd d := Nat.gcd_pos_of_pos_right n fits.1
    have common_ne : (n.gcd d : ℚ) ≠ 0 := Nat.cast_ne_zero.mpr common_pos.ne'
    change ((n / n.gcd d : Nat) : ℚ) / (d / n.gcd d : Nat) = n / d
    rw [Nat.cast_div (Nat.gcd_dvd_left n d) common_ne,
      Nat.cast_div (Nat.gcd_dvd_right n d) common_ne, div_div_div_cancel_right₀ common_ne]
  · cases given

/-- Parts that fit make up the one fraction that stands for their quotient. -/
theorem ofParts?_eq_some_iff {n d : Nat} :
    ofParts? n d = some z ↔ (0 < d ∧ n < 2 ^ 128 ∧ d < 2 ^ 128) ∧ z.value = n / d := by
  constructor
  · intro given
    refine ⟨?_, value_of_ofParts? given⟩
    unfold ofParts? at given
    split at given
    · assumption
    · cases given
  · rintro ⟨fits, value⟩
    have given : ofParts? n d = some (reduce n d fits.1 fits.2.1 fits.2.2) := dif_pos fits
    rw [given, eq_of_value_eq (value.trans (value_of_ofParts? given).symm)]

private theorem coprime_across (x : Ratio) (nonzero : y.num ≠ 0) :
    (x.num / x.num.gcd y.num * (y.den / x.den.gcd y.den)).Coprime
      (x.den / x.den.gcd y.den * (y.num / x.num.gcd y.num)) := by
  have nums_pos : 0 < x.num.gcd y.num := Nat.gcd_pos_of_pos_right _ (Nat.pos_of_ne_zero nonzero)
  have dens_pos : 0 < x.den.gcd y.den := Nat.gcd_pos_of_pos_right _ y.den_pos
  have x_parts : x.num.Coprime x.den := x.reduced
  have y_parts : y.num.Coprime y.den := y.reduced
  have nums := Nat.coprime_div_gcd_div_gcd nums_pos
  have dens := Nat.coprime_div_gcd_div_gcd dens_pos
  -- Two of the four pairs are parts of one fraction, and the other two lost their common factor.
  apply Nat.Coprime.mul_left
  · apply Nat.Coprime.mul_right
    · exact (x_parts.coprime_div_left (Nat.gcd_dvd_left _ _)).coprime_div_right
        (Nat.gcd_dvd_left _ _)
    · exact nums
  · apply Nat.Coprime.mul_right
    · exact dens.symm
    · exact (y_parts.symm.coprime_div_left (Nat.gcd_dvd_right _ _)).coprime_div_right
        (Nat.gcd_dvd_right _ _)

/-! ### Quotients -/

/--
What dividing the number `p` by `q` comes to: the parts of the quotient in lowest terms, if both
have 128 bits.
-/
inductive Divided (p q : ℚ) : Except UnitError Ratio → Prop
  | byZero (zero : q = 0) : Divided p q (.error .divisionByZero)
  | exact {z : Ratio} (nonzero : q ≠ 0) (num : (p / q).num = z.num) (den : (p / q).den = z.den) :
      Divided p q (.ok z)
  | wide (nonzero : q ≠ 0) (wide : 2 ^ 128 ≤ (p / q).num.natAbs ∨ 2 ^ 128 ≤ (p / q).den) :
      Divided p q (.error .overflow)

namespace Divided

variable {p q : ℚ} {result other : Except UnitError Ratio}

private theorem unique (divided : Divided p q result) (divided' : Divided p q other) :
    result = other := by
  cases divided with
  | byZero zero =>
    cases divided' with
    | byZero _ => rfl
    | exact nonzero _ _ => exact absurd zero nonzero
    | wide nonzero _ => exact absurd zero nonzero
  | @exact z nonzero num den =>
    cases divided' with
    | byZero zero => exact absurd zero nonzero
    | @exact z' _ num' den' =>
      have same_num : z.num = z'.num := Int.natCast_inj.mp (num.symm.trans num')
      rw [Ratio.ext same_num (den.symm.trans den')]
    | wide _ wide =>
      rw [num, den, Int.natAbs_natCast] at wide
      have num_lt := z.num_lt
      have den_lt := z.den_lt
      omega
  | wide nonzero wide =>
    cases divided' with
    | byZero zero => exact absurd zero nonzero
    | @exact z _ num den =>
      rw [num, den, Int.natAbs_natCast] at wide
      have num_lt := z.num_lt
      have den_lt := z.den_lt
      omega
    | wide _ _ => rfl

theorem eq_iff (divided : Divided p q result) : result = other ↔ Divided p q other := by
  constructor
  · rintro rfl
    exact divided
  · intro divided'
    exact divided.unique divided'

private theorem of_value (nonzero : q ≠ 0) (value : z.value = p / q) : Divided p q (.ok z) :=
  .exact nonzero (value ▸ num_value z) (value ▸ den_value z)

private theorem value_eq (divided : Divided p q (.ok z)) : q ≠ 0 ∧ z.value = p / q := by
  cases divided with
  | exact nonzero num den =>
    refine ⟨nonzero, ?_⟩
    rw [← Rat.num_div_den (p / q), num, den]
    rfl

theorem scale {factor : ℚ} (factor_ne : factor ≠ 0) (divided : Divided p q result) :
    Divided (p * factor) (q * factor) result := by
  have same : p * factor / (q * factor) = p / q := mul_div_mul_right p q factor_ne
  cases divided with
  | byZero zero =>
    apply byZero
    rw [zero, zero_mul]
  | exact nonzero num den =>
    apply exact (mul_ne_zero nonzero factor_ne)
    · rw [same, num]
    · rw [same, den]
  | wide nonzero wide =>
    apply Divided.wide (mul_ne_zero nonzero factor_ne)
    rwa [same]

private theorem of_fits {n d : Nat} (nonzero : q ≠ 0) (d_pos : 0 < d) (n_lt : n < 2 ^ 128)
    (d_lt : d < 2 ^ 128) (value : (n / d : ℚ) = p / q) :
    Divided p q (require .overflow (ofParts? n d)) := by
  have given : ofParts? n d = some (reduce n d d_pos n_lt d_lt) := dif_pos ⟨d_pos, n_lt, d_lt⟩
  rw [given]
  exact of_value nonzero ((value_of_ofParts? given).trans value)

private theorem of_coprime {n d : Nat} (nonzero : q ≠ 0) (d_pos : 0 < d) (coprime : n.Coprime d)
    (value : (n / d : ℚ) = p / q) :
    Divided p q (require .overflow (part? n >>= fun num => part? d >>= fun den =>
      ofParts? num den)) := by
  obtain ⟨num, den⟩ := num_den_of_coprime d_pos coprime
  rw [value] at num den
  -- These are the parts of the quotient itself, so a part that is too large here is too large there.
  by_cases n_lt : n < 2 ^ 128
  · have n_part : part? n = some n := part?_eq_some_iff.mpr ⟨rfl, n_lt⟩
    by_cases d_lt : d < 2 ^ 128
    · have d_part : part? d = some d := part?_eq_some_iff.mpr ⟨rfl, d_lt⟩
      rw [n_part, d_part]
      exact of_fits nonzero d_pos n_lt d_lt value
    · have d_wide : part? d = none := part?_eq_none_iff.mpr (Nat.le_of_not_lt d_lt)
      rw [n_part, d_wide]
      apply wide nonzero
      rw [den]
      exact Or.inr (Nat.le_of_not_lt d_lt)
  · have n_wide : part? n = none := part?_eq_none_iff.mpr (Nat.le_of_not_lt n_lt)
    rw [n_wide]
    apply wide nonzero
    rw [num, Int.natAbs_natCast]
    exact Or.inl (Nat.le_of_not_lt n_lt)

end Divided

/-- A quotient is refused only where it has no fraction, whichever way it is computed. -/
theorem divided_div? (x : Ratio) (nonzero : y.num ≠ 0) :
    Divided x.value y.value (require .overflow (x.div? y)) := by
  have divisor : y.value ≠ 0 := mt value_eq_zero_iff.mp nonzero
  have y_pos : 0 < y.num := Nat.pos_of_ne_zero nonzero
  have y_num : (y.num : ℚ) ≠ 0 := Nat.cast_ne_zero.mpr nonzero
  have x_den := (den_cast_pos x).ne'
  have y_den := (den_cast_pos y).ne'
  unfold div?
  rw [if_neg nonzero]
  by_cases same_den : x.den = y.den
  · rw [if_pos same_den]
    apply Divided.of_fits divisor y_pos x.num_lt y.num_lt
    rw [value, value, same_den]
    field_simp
  rw [if_neg same_den]
  by_cases same_num : x.num = y.num
  · rw [if_pos same_num]
    apply Divided.of_fits divisor x.den_pos y.den_lt x.den_lt
    rw [value, value, same_num]
    field_simp
  rw [if_neg same_num]
  have nums_pos : 0 < x.num.gcd y.num := Nat.gcd_pos_of_pos_right _ y_pos
  have dens_pos : 0 < x.den.gcd y.den := Nat.gcd_pos_of_pos_right _ y.den_pos
  have nums_ne : (x.num.gcd y.num : ℚ) ≠ 0 := Nat.cast_ne_zero.mpr nums_pos.ne'
  have dens_ne : (x.den.gcd y.den : ℚ) ≠ 0 := Nat.cast_ne_zero.mpr dens_pos.ne'
  have den_pos : 0 < x.den / x.den.gcd y.den * (y.num / x.num.gcd y.num) := by
    apply Nat.mul_pos
    · exact Nat.div_gcd_pos_of_pos_left _ x.den_pos
    · exact Nat.div_gcd_pos_of_pos_right _ y_pos
  apply Divided.of_coprime divisor den_pos (coprime_across x nonzero)
  rw [Nat.cast_mul, Nat.cast_mul, Nat.cast_div (Nat.gcd_dvd_left x.num y.num) nums_ne,
    Nat.cast_div (Nat.gcd_dvd_right x.num y.num) nums_ne,
    Nat.cast_div (Nat.gcd_dvd_left x.den y.den) dens_ne,
    Nat.cast_div (Nat.gcd_dvd_right x.den y.den) dens_ne, value, value]
  field_simp

end Ratio

/-- The affiliate rate as a number: so much of what is sold is paid on top of it. -/
def rateOf (rate : UInt64) : ℚ := rate.toNat / partsPerMillion

theorem rateOf_nonneg (rate : UInt64) : 0 ≤ rateOf rate :=
  div_nonneg (Nat.cast_nonneg _) (Nat.cast_nonneg _)

theorem rateOf_mono {lower higher : UInt64} (le : lower ≤ higher) :
    rateOf lower ≤ rateOf higher :=
  div_le_div_of_nonneg_right (Nat.cast_le.mpr le) (Nat.cast_nonneg _)

theorem divided_netOfAffiliate (target : Ratio) (rate : UInt64) :
    Ratio.Divided target.value (1 + rateOf rate) (netOfAffiliate target rate) := by
  have rate_lt := rate.toNat_lt
  have fits : 0 < partsPerMillion ∧ partsPerMillion + rate.toNat < 2 ^ 128 ∧
      partsPerMillion < 2 ^ 128 := by
    unfold partsPerMillion
    omega
  have given : Ratio.ofParts? (partsPerMillion + rate.toNat) partsPerMillion =
      some (Ratio.reduce _ _ fits.1 fits.2.1 fits.2.2) := dif_pos fits
  have whole : (partsPerMillion : ℚ) ≠ 0 := by
    norm_num [partsPerMillion]
  have factor := Ratio.value_of_ofParts? given
  rw [Nat.cast_add, add_div, div_self whole, ← rateOf] at factor
  have paid_pos : 0 < 1 + rateOf rate := by
    linarith [rateOf_nonneg rate]
  rw [netOfAffiliate, given, ← factor]
  apply Ratio.divided_div?
  rw [← factor] at paid_pos
  exact mt Ratio.value_eq_zero_iff.mpr paid_pos.ne'

theorem value_of_netOfAffiliate {target net : Ratio} {rate : UInt64}
    (given : netOfAffiliate target rate = .ok net) :
    net.value = target.value / (1 + rateOf rate) := by
  have divided := divided_netOfAffiliate target rate
  rw [given] at divided
  exact divided.value_eq.2

end TokenPlan
