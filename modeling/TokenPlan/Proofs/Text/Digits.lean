import TokenPlan.Proofs.Text.Trim
import TokenPlan.Text.Split
import TokenPlan.Unit.Natural

/-!
Numbers in texts: the digits that are written are the ones that are read, up to whatever stands
behind them, and they are neither blank nor preceded by zeros that are not asked for.
-/

set_option autoImplicit false
set_option relaxedAutoImplicit false

namespace TokenPlan.Text

private theorem toNat_of_isDigit {c : Char} (digit : c.isDigit = true) :
    48 ≤ c.toNat ∧ c.toNat ≤ 57 := by
  simpa [Char.isDigit, UInt32.le_iff_toNat_le] using digit

private theorem isBlank_of_isDigit {c : Char} (digit : c.isDigit = true) : isBlank c = false := by
  obtain ⟨low, high⟩ := toNat_of_isDigit digit
  simp only [isBlank, Bool.or_eq_false_iff, Bool.and_eq_false_iff, decide_eq_false_iff_not,
    beq_eq_false_iff_ne]
  omega

theorem visible_of_isDigit {text : List Char} (all : ∀ c ∈ text, c.isDigit = true) :
    Visible text :=
  fun c mem => isBlank_of_isDigit (all c mem)

theorem visible_digits (n : Nat) : Visible (digits n) :=
  visible_of_isDigit fun _ mem => isDigit_of_mem_digits mem

theorem ne_of_isDigit {c mark : Char} (digit : c.isDigit = true) (other : mark.isDigit = false) :
    c ≠ mark := by
  rintro rfl
  rw [digit] at other
  cases other

/-! ### Runs of digits -/

/-- A text that does not go on with a digit. -/
def NoDigit (text : List Char) : Prop :=
  ∀ c, text.head? = some c → c.isDigit = false

private theorem noDigit_nil : NoDigit [] := nofun

theorem noDigit_cons {c : Char} {rest : List Char} (other : c.isDigit = false) :
    NoDigit (c :: rest) := by
  intro first eq
  cases eq
  exact other

private theorem takeWhile_of_noDigit {rest : List Char} (ends : NoDigit rest) :
    rest.takeWhile Char.isDigit = [] := by
  cases rest with
  | nil => rfl
  | cons c rest => rw [List.takeWhile_cons_of_neg (by simp [ends c rfl])]

private theorem dropWhile_of_noDigit {rest : List Char} (ends : NoDigit rest) :
    rest.dropWhile Char.isDigit = rest := by
  cases rest with
  | nil => rfl
  | cons c rest => rw [List.dropWhile_cons_of_neg (by simp [ends c rfl])]

theorem takeWhile_isDigit_append {run rest : List Char} (all : ∀ c ∈ run, c.isDigit = true)
    (ends : NoDigit rest) : (run ++ rest).takeWhile Char.isDigit = run := by
  rw [List.takeWhile_append_of_pos all, takeWhile_of_noDigit ends, List.append_nil]

private theorem readRun_append {run rest : List Char} (nonempty : run ≠ [])
    (all : ∀ c ∈ run, c.isDigit = true) (ends : NoDigit rest) :
    readRun (run ++ rest) = some (spelled run, rest) := by
  rw [readRun, takeWhile_isDigit_append all ends, List.dropWhile_append_of_pos all,
    dropWhile_of_noDigit ends]
  exact if_neg nonempty

theorem digits_ne_nil (n : Nat) : digits n ≠ [] :=
  Nat.toDigits_ne_nil

theorem readRun_digits (n : Nat) {rest : List Char} (ends : NoDigit rest) :
    readRun (digits n ++ rest) = some (n, rest) := by
  rw [readRun_append (digits_ne_nil n) (fun _ mem => isDigit_of_mem_digits mem) ends,
    spelled_digits]

private theorem head?_digits_ne {n : Nat} (positive : n ≠ 0) : (digits n).head? ≠ some '0' := by
  induction n using Nat.strongRecOn with
  | ind n ih =>
    by_cases small : n < 10
    · have single : digits n = [n.digitChar] := Nat.toDigits_of_lt_base small
      rw [single, List.head?_cons]
      intro zero
      exact positive (Nat.digitChar_eq_zero.mp (Option.some.inj zero))
    · have split : digits n = digits (n / 10) ++ [(n % 10).digitChar] :=
        Nat.toDigits_of_base_le (by decide) (Nat.le_of_not_lt small)
      have front : (digits n).head? = (digits (n / 10)).head? := by
        rw [split, List.head?_append]
        cases leading : digits (n / 10) with
        | nil => exact absurd leading (digits_ne_nil _)
        | cons c rest => rfl
      rw [front]
      exact ih (n / 10) (by omega) (by omega)

theorem length_digits_of_head? {n : Nat} (zero : (digits n).head? = some '0') :
    (digits n).length = 1 := by
  by_cases positive : n = 0
  · subst positive
    rfl
  · exact absurd zero (head?_digits_ne positive)

/-! ### Padded digits -/

theorem spelled_append (first second : List Char) :
    spelled (first ++ second) = 10 ^ second.length * spelled first + spelled second := by
  unfold spelled
  rw [Nat.ofDigitChars_append, Nat.ofDigitChars_eq_ofDigitChars_zero]

private theorem spelled_lt {run : List Char} (all : ∀ c ∈ run, c.isDigit = true) :
    spelled run < 10 ^ run.length := by
  induction run with
  | nil => exact Nat.one_pos
  | cons c rest ih =>
    obtain ⟨digit, all_rest⟩ := List.forall_mem_cons.mp all
    have first : spelled [c] ≤ 9 := by
      have bounds := toNat_of_isDigit digit
      rw [spelled, Nat.ofDigitChars_cons, Nat.ofDigitChars_nil]
      change 10 * 0 + (c.toNat - 48) ≤ 9
      omega
    have behind := ih all_rest
    have scaled : 10 ^ rest.length * spelled [c] ≤ 10 ^ rest.length * 9 :=
      Nat.mul_le_mul_left _ first
    rw [← List.singleton_append, spelled_append, List.length_append, List.length_singleton,
      Nat.pow_add, Nat.pow_one]
    omega

/-- Decimal digits spell a number: each counts ten times as much as the one behind it. -/
inductive Spells : List Char → Nat → Prop
  | nil : Spells [] 0
  | cons {c : Char} {digit n : Nat} {rest : List Char} (here : c.toNat = '0'.toNat + digit)
      (small : digit < 10) (behind : Spells rest n) :
      Spells (c :: rest) (digit * 10 ^ rest.length + n)

theorem Spells.spelled_eq {run : List Char} {n : Nat} (spells : Spells run n) :
    spelled run = n := by
  induction spells with
  | nil => rfl
  | @cons c digit n rest here small behind ih =>
    have first : spelled [c] = digit := by
      rw [spelled, Nat.ofDigitChars_cons, Nat.ofDigitChars_nil, here]
      omega
    rw [← List.singleton_append, spelled_append, first, ih, Nat.mul_comm]

theorem Spells.isDigit {run : List Char} {n : Nat} (spells : Spells run n) :
    ∀ c ∈ run, c.isDigit = true := by
  induction spells with
  | nil => nofun
  | @cons c digit n rest here small behind ih =>
    refine List.forall_mem_cons.mpr ⟨?_, ih⟩
    rw [Char.isDigit_iff_toNat, here]
    exact ⟨Nat.le_add_right _ _, Nat.add_le_add_left (Nat.le_of_lt_succ small) _⟩

theorem spells_spelled {run : List Char} (all : ∀ c ∈ run, c.isDigit = true) :
    Spells run (spelled run) := by
  induction run with
  | nil => exact .nil
  | cons c rest ih =>
    obtain ⟨digit, all_rest⟩ := List.forall_mem_cons.mp all
    obtain ⟨low, high⟩ := toNat_of_isDigit digit
    have here : c.toNat = '0'.toNat + (c.toNat - 48) := (Nat.add_sub_cancel' low).symm
    have spells := Spells.cons here (by omega) (ih all_rest)
    rwa [← spells.spelled_eq] at spells

theorem spelled_paddedDigits (width n : Nat) : spelled (paddedDigits width n) = n := by
  unfold paddedDigits List.leftpad spelled
  rw [Nat.ofDigitChars_append, Nat.ofDigitChars_replicate_zero, Nat.mul_zero]
  exact spelled_digits n

theorem isDigit_of_mem_paddedDigits {width n : Nat} {c : Char}
    (mem : c ∈ paddedDigits width n) : c.isDigit = true := by
  rcases List.mem_append.mp mem with zero | digit
  · obtain ⟨-, rfl⟩ := List.mem_replicate.mp zero
    rfl
  · exact isDigit_of_mem_digits digit

theorem visible_paddedDigits (width n : Nat) : Visible (paddedDigits width n) :=
  visible_of_isDigit fun _ mem => isDigit_of_mem_paddedDigits mem

theorem length_paddedDigits {width n : Nat} (positive : 0 < width) (fits : n < 10 ^ width) :
    (paddedDigits width n).length = width := by
  have short : (digits n).length ≤ width :=
    (Nat.length_toDigits_le_iff (by decide) positive).mpr fits
  rw [paddedDigits, List.length_leftpad]
  omega

/-- A number written in a fixed width is read in that width, whatever stands behind it. -/
theorem readFixed_paddedDigits {width n : Nat} (positive : 0 < width) (fits : n < 10 ^ width)
    (rest : List Char) : readFixed width (paddedDigits width n ++ rest) = some (n, rest) := by
  have length := length_paddedDigits positive fits
  have run : (paddedDigits width n ++ rest).take width = paddedDigits width n :=
    List.take_left' length
  have behind : (paddedDigits width n ++ rest).drop width = rest := List.drop_left' length
  have all : (paddedDigits width n).all Char.isDigit = true :=
    List.all_eq_true.mpr fun _ mem => isDigit_of_mem_paddedDigits mem
  simp only [readFixed, run, behind, length, all, and_self, if_true, spelled_paddedDigits]

theorem lt_of_readFixed {width n : Nat} {text rest : List Char}
    (read : readFixed width text = some (n, rest)) : n < 10 ^ width := by
  by_cases run : (text.take width).length = width ∧ (text.take width).all Char.isDigit = true
  · have bound := spelled_lt (List.all_eq_true.mp run.2)
    rw [readFixed, if_pos run] at read
    cases read
    rwa [run.1] at bound
  · rw [readFixed, if_neg run] at read
    cases read

theorem readUpTo_paddedDigits {width n : Nat} (positive : 0 < width) (fits : n < 10 ^ width)
    (rest : List Char) : readUpTo width (paddedDigits width n ++ rest) = some (n, rest) := by
  have length := length_paddedDigits positive fits
  have run : (paddedDigits width n ++ rest).take width = paddedDigits width n :=
    List.take_left' length
  have behind : (paddedDigits width n ++ rest).drop width = rest := List.drop_left' length
  have all : (paddedDigits width n).takeWhile Char.isDigit = paddedDigits width n := by
    have digit : ∀ c ∈ paddedDigits width n, c.isDigit = true :=
      fun _ mem => isDigit_of_mem_paddedDigits mem
    have whole := takeWhile_isDigit_append digit noDigit_nil
    rwa [List.append_nil] at whole
  have some_digits : paddedDigits width n ≠ [] := by
    intro none
    rw [none, List.length_nil] at length
    omega
  simp only [readUpTo, run, all, some_digits, if_false, length, behind, spelled_paddedDigits]

/-! ### Cuts -/

theorem cut_append {mark : Char} {before after : List Char} (absent : mark ∉ before) :
    cut mark (before ++ mark :: after) = some (before, after) := by
  induction before with
  | nil => simp [cut]
  | cons c rest ih =>
    have other : c ≠ mark := fun same => absent (same ▸ List.mem_cons_self)
    have rest_absent : mark ∉ rest := fun mem => absent (List.mem_cons_of_mem c mem)
    simp [cut, other, ih rest_absent]

theorem cut_eq_none_iff {mark : Char} {text : List Char} : cut mark text = none ↔ mark ∉ text := by
  induction text with
  | nil => simp [cut]
  | cons c rest ih =>
    by_cases same : c = mark
    · simp [cut, same]
    · simp [cut, same, ih, Ne.symm same]

end TokenPlan.Text
