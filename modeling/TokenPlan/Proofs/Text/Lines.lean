import TokenPlan.Proofs.Text.Digits

/-!
The lines of a text. A text has one line more than it has line breaks; and texts that are joined by
line breaks keep their own lines, so each of them is one line of the whole exactly if none of them
holds a line break.
-/

set_option autoImplicit false
set_option relaxedAutoImplicit false

namespace TokenPlan.Text

/-- The lines of a text: what stands around its line breaks. -/
def lines (text : String) : List String :=
  (text.toList.splitOn '\n').map String.ofList

/-- How many line breaks a text holds. -/
def breaks (text : String) : Nat :=
  text.toList.count '\n'

/-- A text without a line break. -/
def OneLine (text : String) : Prop :=
  '\n' ∉ text.toList

instance (text : String) : Decidable (OneLine text) :=
  inferInstanceAs (Decidable ('\n' ∉ text.toList))

theorem breaks_eq_zero_iff {text : String} : breaks text = 0 ↔ OneLine text :=
  List.count_eq_zero

@[simp] theorem breaks_append (front back : String) :
    breaks (front ++ back) = breaks front + breaks back := by
  rw [breaks, String.toList_append, List.count_append]
  rfl

/-! ### Texts without line breaks -/

theorem oneLine_of_visible {chars : List Char} (visible : Visible chars) :
    OneLine (String.ofList chars) := by
  intro mem
  rw [String.toList_ofList] at mem
  exact absurd (visible '\n' mem) (by decide)

@[simp] theorem breaks_numeral (n : Nat) : breaks (numeral n) = 0 :=
  breaks_eq_zero_iff.mpr (oneLine_of_visible (visible_digits n))

/-! ### Lines -/

private theorem length_splitOn (mark : Char) (chars : List Char) :
    (chars.splitOn mark).length = chars.count mark + 1 := by
  induction chars with
  | nil => rfl
  | cons c rest ih =>
    rw [List.splitOn_cons_eq_if_modifyHead, List.count_cons]
    split
    · rw [List.length_cons, ih]
    · rw [List.length_modifyHead, ih, Nat.add_zero]

private theorem length_lines (text : String) : (lines text).length = breaks text + 1 := by
  rw [lines, List.length_map, length_splitOn]
  rfl

private theorem splitOn_intercalate (mark : Char) {parts : List (List Char)}
    (inhabited : parts ≠ []) :
    ([mark].intercalate parts).splitOn mark = parts.flatMap (List.splitOn mark) := by
  induction parts with
  | nil => exact absurd rfl inhabited
  | cons part rest ih =>
    cases rest with
    | nil => simp
    | cons next rest =>
      rw [List.intercalate_cons_cons, List.append_assoc, List.singleton_append,
        List.splitOn_append_cons_self, ih (List.cons_ne_nil next rest)]
      rfl

theorem lines_intercalate {texts : List String} (inhabited : texts ≠ []) :
    lines ("\n".intercalate texts) = texts.flatMap lines := by
  have mark : "\n".toList = ['\n'] := rfl
  have parts : texts.map String.toList ≠ [] := mt List.map_eq_nil_iff.mp inhabited
  rw [lines, String.toList_intercalate, mark, splitOn_intercalate '\n' parts, List.flatMap_map,
    List.map_flatMap]
  rfl

theorem length_flatMap_lines (texts : List String) :
    (texts.flatMap lines).length = texts.length + (texts.map breaks).sum := by
  induction texts with
  | nil => rfl
  | cons text rest ih =>
    simp only [List.flatMap_cons, List.length_append, List.length_cons, List.map_cons,
      List.sum_cons, length_lines, ih]
    omega

/-- Texts of one line each are the lines of the whole. -/
theorem lines_intercalate_of_oneLine {texts : List String} (inhabited : texts ≠ [])
    (single : ∀ text ∈ texts, OneLine text) : lines ("\n".intercalate texts) = texts := by
  have mark : "\n".toList = ['\n'] := rfl
  have parts : texts.map String.toList ≠ [] := mt List.map_eq_nil_iff.mp inhabited
  have clear : ∀ part ∈ texts.map String.toList, '\n' ∉ part := List.forall_mem_map.mpr single
  rw [lines, String.toList_intercalate, mark, List.splitOn_intercalate '\n' clear parts,
    List.map_map]
  simp [Function.comp_def]

end TokenPlan.Text
