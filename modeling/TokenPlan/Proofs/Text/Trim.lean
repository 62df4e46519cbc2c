import TokenPlan.Text.Blank

/-!
What trimming leaves of a text: its one part that has nothing but white space around it and none at
its own ends.
-/

set_option autoImplicit false
set_option relaxedAutoImplicit false

namespace TokenPlan.Text

/-- A text of white space alone. -/
def Blank (text : List Char) : Prop :=
  ∀ c ∈ text, isBlank c = true

/-- A text without any white space. -/
def Visible (text : List Char) : Prop :=
  ∀ c ∈ text, isBlank c = false

/-- A text that neither begins nor ends with white space. -/
structure Bounded (text : List Char) : Prop where
  front : ∀ c, text.head? = some c → isBlank c = false
  back : ∀ c, text.getLast? = some c → isBlank c = false

/-- The body is what is left of the text without the white space around it. -/
structure Trims (text body : List Char) : Prop where
  around : ∃ before after, Blank before ∧ Blank after ∧ text = before ++ body ++ after
  bounded : Bounded body

variable {text body : List Char}

theorem visible_cons {c : Char} {rest : List Char} :
    Visible (c :: rest) ↔ isBlank c = false ∧ Visible rest :=
  List.forall_mem_cons

theorem visible_append {first second : List Char} :
    Visible (first ++ second) ↔ Visible first ∧ Visible second :=
  List.forall_mem_append

private theorem Blank.reverse (blank : Blank text) : Blank text.reverse :=
  fun c mem => blank c (List.mem_reverse.mp mem)

private theorem Visible.bounded (visible : Visible text) : Bounded text where
  front c first := visible c (List.mem_of_head? first)
  back c last := visible c (List.mem_of_getLast? last)

/-! ### One side -/

private theorem trimLeft_append {before : List Char} (blank : Blank before) (rest : List Char) :
    trimLeft (before ++ rest) = trimLeft rest :=
  List.dropWhile_append_of_pos blank

private theorem trimLeft_of_blank (blank : Blank text) : trimLeft text = [] := by
  have gone := trimLeft_append blank []
  rwa [List.append_nil] at gone

private theorem trimLeft_of_front (front : ∀ c, text.head? = some c → isBlank c = false) :
    trimLeft text = text := by
  cases text with
  | nil => rfl
  | cons c rest => exact trimLeft_cons_of_visible rest (front c rfl)

theorem trimLeft_of_visible (visible : Visible text) : trimLeft text = text :=
  trimLeft_of_front visible.bounded.front

private theorem exists_trimLeft (text : List Char) :
    ∃ before, Blank before ∧ text = before ++ trimLeft text :=
  ⟨text.takeWhile isBlank, fun c mem => List.all_eq_true.mp List.all_takeWhile c mem,
    List.takeWhile_append_dropWhile.symm⟩

private theorem isBlank_of_head?_trimLeft {c : Char} (first : (trimLeft text).head? = some c) :
    isBlank c = false := by
  have stopped := List.head?_dropWhile_not isBlank text
  rw [← trimLeft, first] at stopped
  exact stopped

/-! ### Both sides -/

theorem trims_trim (text : List Char) : Trims text (trim text) := by
  obtain ⟨before, blank_before, split⟩ := exists_trimLeft text
  obtain ⟨after, blank_after, split'⟩ := exists_trimLeft (trimLeft text).reverse
  have inner : trimLeft text = trim text ++ after.reverse := by
    have reversed := congrArg List.reverse split'
    rwa [List.reverse_reverse, List.reverse_append] at reversed
  constructor
  case around =>
    refine ⟨before, after.reverse, blank_before, blank_after.reverse, ?_⟩
    rw [List.append_assoc, ← inner]
    exact split
  case bounded =>
    constructor
    · intro c first
      have leading : (trimLeft text).head? = some c := by
        rw [inner, List.head?_append, first]
        rfl
      exact isBlank_of_head?_trimLeft leading
    · intro c last
      rw [trim, List.getLast?_reverse] at last
      exact isBlank_of_head?_trimLeft last

/-- White space around a text makes no difference to what trimming leaves. -/
theorem Trims.trim_eq (trims : Trims text body) : trim text = body := by
  obtain ⟨⟨before, after, blank_before, blank_after, rfl⟩, front, back⟩ := trims
  cases body with
  | nil =>
    have blank : trimLeft (before ++ [] ++ after) = [] := by
      rw [List.append_nil, trimLeft_append blank_before, trimLeft_of_blank blank_after]
    rw [trim, blank]
    rfl
  | cons c rest =>
    have left : trimLeft (before ++ c :: rest ++ after) = c :: rest ++ after := by
      rw [List.append_assoc, trimLeft_append blank_before]
      exact trimLeft_cons_of_visible _ (front c rfl)
    have right : trimLeft (c :: rest).reverse = (c :: rest).reverse := by
      apply trimLeft_of_front
      intro last
      rw [List.head?_reverse]
      exact back last
    rw [trim, left, List.reverse_append, trimLeft_append blank_after.reverse, right,
      List.reverse_reverse]

theorem trim_eq_iff : trim text = body ↔ Trims text body := by
  constructor
  · rintro rfl
    exact trims_trim text
  · exact Trims.trim_eq

theorem trim_of_visible (visible : Visible text) : trim text = text :=
  Trims.trim_eq ⟨⟨[], [], nofun, nofun, (List.append_nil text).symm⟩, visible.bounded⟩

theorem mem_trim_of_visible {c : Char} (mem : c ∈ text) (visible : isBlank c = false) :
    c ∈ trim text := by
  obtain ⟨before, after, blank_before, blank_after, split⟩ := (trims_trim text).around
  have not_blank : ∀ part, Blank part → c ∉ part := by
    intro part blank mem
    rw [blank c mem] at visible
    cases visible
  rw [split, List.append_assoc] at mem
  rcases List.mem_append.mp mem with first | behind
  · exact absurd first (not_blank before blank_before)
  · rcases List.mem_append.mp behind with inner | last
    · exact inner
    · exact absurd last (not_blank after blank_after)

theorem trim_ne_nil_iff : trim text ≠ [] ↔ ∃ c ∈ text, isBlank c = false := by
  constructor
  · intro left
    obtain ⟨⟨before, after, -, -, split⟩, front, -⟩ := trims_trim text
    obtain ⟨c, rest, eq⟩ := List.exists_cons_of_ne_nil left
    rw [eq] at split front
    exact ⟨c, by simp [split], front c rfl⟩
  · rintro ⟨c, mem, visible⟩
    exact List.ne_nil_of_mem (mem_trim_of_visible mem visible)

theorem trim_eq_nil_iff : trim text = [] ↔ Blank text := by
  constructor
  · intro gone c mem
    apply Classical.byContradiction
    intro visible
    exact trim_ne_nil_iff.mpr ⟨c, mem, Bool.eq_false_iff.mpr visible⟩ gone
  · intro blank
    rw [trim, trimLeft_of_blank blank]
    rfl

end TokenPlan.Text
