import TokenPlan.Proofs.Unit.Literal

/-!
How a fraction is spelled: in digits alone where it is a whole number; as a decimal literal with the
fewest places that spell it exactly, where thirty are enough and all its digits make a part of a
fraction; and as the quotient of its parts otherwise. Each fraction has one spelling, and is read
back from it.
-/

set_option autoImplicit false
set_option relaxedAutoImplicit false

namespace TokenPlan.Ratio

/-- The fewest places with which a decimal literal spells the fraction exactly. -/
structure FewestPlaces (x : Ratio) (places : Nat) : Prop where
  exact : x.den ∣ 10 ^ places
  least : ∀ fewer < places, ¬ x.den ∣ 10 ^ fewer

/-- The spelling of a fraction, with the circumstances in which it is chosen. -/
inductive Spelled (x : Ratio) : List Char → Prop
  | whole (integral : x.den = 1) : Spelled x (Text.digits x.num)
  | decimal {places whole fraction : Nat} (several : 0 < places)
      (short : places ≤ maxFractionDigits) (fewest : x.FewestPlaces places)
      (proper : fraction < 10 ^ places)
      (value : (whole * 10 ^ places + fraction) * x.den = x.num * 10 ^ places)
      (narrow : whole * 10 ^ places + fraction < 2 ^ 128) :
      Spelled x (Text.digits whole ++ '.' :: Text.paddedDigits places fraction)
  | unending (inexact : ∀ places ≤ maxFractionDigits, ¬ x.den ∣ 10 ^ places) :
      Spelled x (Text.digits x.num ++ '/' :: Text.digits x.den)
  | wide {places scaled : Nat} (short : places ≤ maxFractionDigits)
      (fewest : x.FewestPlaces places) (value : scaled * x.den = x.num * 10 ^ places)
      (wide : 2 ^ 128 ≤ scaled) :
      Spelled x (Text.digits x.num ++ '/' :: Text.digits x.den)

variable {x : Ratio} {places : Nat}

private theorem decimalPlaces?_eq_some_iff :
    x.decimalPlaces? = some places ↔ places ≤ maxFractionDigits ∧ x.FewestPlaces places := by
  simp only [decimalPlaces?, List.find?_range_eq_some, List.mem_range, beq_iff_eq,
    Bool.not_eq_true', beq_eq_false_iff_ne, ne_eq, ← Nat.dvd_iff_mod_eq_zero]
  constructor
  · rintro ⟨exact, below, least⟩
    exact ⟨Nat.le_of_lt_succ below, exact, least⟩
  · rintro ⟨short, exact, least⟩
    exact ⟨exact, Nat.lt_succ_of_le short, least⟩

private theorem decimalPlaces?_eq_none_iff :
    x.decimalPlaces? = none ↔ ∀ places ≤ maxFractionDigits, ¬ x.den ∣ 10 ^ places := by
  simp only [decimalPlaces?, List.find?_range_eq_none, Bool.not_eq_true', beq_eq_false_iff_ne,
    ne_eq, ← Nat.dvd_iff_mod_eq_zero, Nat.lt_succ_iff]

private theorem fewestPlaces_zero_iff : x.FewestPlaces 0 ↔ x.den = 1 := by
  constructor
  · exact fun fewest => Nat.dvd_one.mp fewest.exact
  · exact fun integral => ⟨Nat.dvd_one.mpr integral, nofun⟩

private theorem scaled_eq_iff {scaled : Nat} (exact : x.den ∣ 10 ^ places) :
    x.num * (10 ^ places / x.den) = scaled ↔ scaled * x.den = x.num * 10 ^ places := by
  have product : x.num * (10 ^ places / x.den) * x.den = x.num * 10 ^ places := by
    rw [Nat.mul_assoc, Nat.div_mul_cancel exact]
  rw [← product]
  exact ⟨fun eq => eq ▸ rfl, fun eq => (Nat.eq_of_mul_eq_mul_right x.den_pos eq).symm⟩

private theorem scaledTo?_eq_some_iff {scaled : Nat} (exact : x.den ∣ 10 ^ places) :
    x.scaledTo? places = some scaled ↔
      scaled * x.den = x.num * 10 ^ places ∧ scaled < 2 ^ 128 := by
  rw [scaledTo?, part?_eq_some_iff, scaled_eq_iff exact]
  constructor
  · rintro ⟨value, narrow⟩
    rw [(scaled_eq_iff exact).mpr value] at narrow
    exact ⟨value, narrow⟩
  · rintro ⟨value, narrow⟩
    rw [(scaled_eq_iff exact).mpr value]
    exact ⟨value, narrow⟩

private theorem scaledTo?_eq_none_iff (exact : x.den ∣ 10 ^ places) :
    x.scaledTo? places = none ↔
      ∃ scaled, scaled * x.den = x.num * 10 ^ places ∧ 2 ^ 128 ≤ scaled := by
  rw [scaledTo?, part?_eq_none_iff]
  constructor
  · exact fun wide => ⟨_, (scaled_eq_iff exact).mp rfl, wide⟩
  · rintro ⟨scaled, value, wide⟩
    rwa [(scaled_eq_iff exact).mpr value]

/-! ### The spelling that is written -/

private theorem write_of_positional {scaled : Nat} (found : x.decimalPlaces? = some places)
    (fits : x.scaledTo? places = some scaled) : x.write = positional places scaled := by
  simp [write, found, fits]

private theorem write_of_quotient (long : ∀ places, x.decimalPlaces? = some places →
    x.scaledTo? places = none) : x.write = Text.digits x.num ++ '/' :: Text.digits x.den := by
  cases found : x.decimalPlaces? with
  | none => simp [write, found]
  | some places => simp [write, found, long places found]

private theorem spelled_write (x : Ratio) : x.Spelled x.write := by
  cases found : x.decimalPlaces? with
  | none =>
    rw [write_of_quotient (by simp [found])]
    exact .unending (decimalPlaces?_eq_none_iff.mp found)
  | some places =>
    obtain ⟨short, fewest⟩ := decimalPlaces?_eq_some_iff.mp found
    cases fits : x.scaledTo? places with
    | none =>
      obtain ⟨scaled, value, wide⟩ := (scaledTo?_eq_none_iff fewest.exact).mp fits
      rw [write_of_quotient (by simp [found, fits])]
      exact .wide short fewest value wide
    | some scaled =>
      obtain ⟨value, narrow⟩ := (scaledTo?_eq_some_iff fewest.exact).mp fits
      rw [write_of_positional found fits, positional]
      by_cases none : places = 0
      · subst none
        have integral := fewestPlaces_zero_iff.mp fewest
        have scaled_eq : scaled = x.num := by simpa [integral] using value
        rw [if_pos rfl, scaled_eq]
        exact .whole integral
      · have split : scaled / 10 ^ places * 10 ^ places + scaled % 10 ^ places = scaled :=
          Nat.div_add_mod' scaled (10 ^ places)
        rw [if_neg none]
        refine .decimal (Nat.pos_of_ne_zero none) short fewest ?_ ?_ ?_
        · exact Nat.mod_lt _ (Nat.pow_pos (by decide))
        · rw [split, value]
        · rwa [split]

/-- The circumstances of two spellings exclude each other, so a fraction has no second one. -/
private theorem eq_write_of_spelled {text : List Char} (spelled : x.Spelled text) :
    text = x.write := by
  cases spelled with
  | whole integral =>
    have fewest := fewestPlaces_zero_iff.mpr integral
    have found := decimalPlaces?_eq_some_iff.mpr ⟨Nat.zero_le _, fewest⟩
    have fits := (scaledTo?_eq_some_iff fewest.exact).mpr
      ⟨show x.num * x.den = x.num * 10 ^ 0 by rw [integral, Nat.pow_zero], x.num_lt⟩
    rw [write_of_positional found fits, positional, if_pos rfl]
  | @decimal places whole fraction several short fewest proper value narrow =>
    have found := decimalPlaces?_eq_some_iff.mpr ⟨short, fewest⟩
    have fits := (scaledTo?_eq_some_iff fewest.exact).mpr ⟨value, narrow⟩
    have power_pos : 0 < 10 ^ places := Nat.pow_pos (by decide)
    have quotient : (whole * 10 ^ places + fraction) / 10 ^ places = whole := by
      rw [Nat.mul_comm, Nat.mul_add_div power_pos, Nat.div_eq_of_lt proper, Nat.add_zero]
    have remainder : (whole * 10 ^ places + fraction) % 10 ^ places = fraction := by
      rw [Nat.mul_comm, Nat.mul_add_mod, Nat.mod_eq_of_lt proper]
    rw [write_of_positional found fits, positional, if_neg (Nat.ne_of_gt several), quotient,
      remainder]
  | unending inexact =>
    have none := decimalPlaces?_eq_none_iff.mpr inexact
    rw [write_of_quotient (by simp [none])]
  | @wide places scaled short fewest value wide =>
    have found := decimalPlaces?_eq_some_iff.mpr ⟨short, fewest⟩
    have none := (scaledTo?_eq_none_iff fewest.exact).mpr ⟨scaled, value, wide⟩
    rw [write_of_quotient (by simp [found, none])]

/-- Every fraction has exactly one spelling, which is its text and is read as the fraction. -/
theorem spelling_of_render (x : Ratio) :
    ofText x.render = .ok x ∧ ∀ text, x.Spelled text ↔ text = x.render.toList := by
  refine ⟨ofText_render x, ?_⟩
  intro text
  rw [render, String.toList_ofList]
  constructor
  · exact eq_write_of_spelled
  · rintro rfl
    exact spelled_write x

/-- One place would spell it, but with more digits than a part of a fraction holds. -/
example : (ofParts? (2 ^ 128 - 1) 2).map render =
    some "340282366920938463463374607431768211455/2" := by
  decide +kernel

end TokenPlan.Ratio
