import TokenPlan.Command.Directory

/-!
Writing a file changes no other. A file stands under the way to it and its name, and these two can
be told apart again: ways end in a slash, and no name holds one.
-/

set_option autoImplicit false
set_option relaxedAutoImplicit false

namespace TokenPlan

private theorem Text.not_mem_of_mem_parts {mark : Char} {text part : List Char}
    (mem : part ∈ parts mark text) : mark ∉ part := by
  induction text generalizing part with
  | nil => simp_all [parts]
  | cons c rest ih =>
    by_cases marked : c = mark
    · rw [parts, if_pos marked] at mem
      rcases List.mem_cons.mp mem with rfl | mem
      · exact List.not_mem_nil
      · exact ih mem
    · rw [parts, if_neg marked] at mem
      split at mem
      · rename_i none
        exact absurd none (parts_ne_nil mark rest)
      · rename_i first others split_rest
        rw [split_rest] at ih
        rcases List.mem_cons.mp mem with rfl | mem
        · have fresh := ih List.mem_cons_self
          simp [Ne.symm marked, fresh]
        · exact ih (List.mem_cons_of_mem _ mem)

namespace Command.Directory

/-! ### Sites -/

/-- A way is empty or ends in a slash. -/
def IsWay (way : String) : Prop :=
  way = "" ∨ ∃ front, way = front ++ "/"

/-- What a path leads to can be told from the key of its site. -/
structure Site.Apart (site : Site) : Prop where
  way : IsWay site.way
  name : '/' ∉ site.name.toList

private theorem isWay_stepUp {way : String} (ends : IsWay way) : IsWay (stepUp way) := by
  unfold stepUp
  split
  · exact .inr ⟨"", rfl⟩
  · rcases ends with rfl | ⟨front, rfl⟩
    · exact .inr ⟨"..", rfl⟩
    · exact .inr ⟨"../" ++ front, by rw [String.append_assoc]⟩

private theorem IsWay.eq_nil {way : String} (ends : IsWay way) {front back : List Char}
    (split : way.toList = front ++ back) (clear : '/' ∉ back) : back = [] := by
  rcases ends with rfl | ⟨start, rfl⟩
  · exact (List.append_eq_nil_iff.mp split.symm).2
  · rcases List.eq_nil_or_concat back with none | ⟨init, last, rfl⟩
    · exact none
    · rw [String.toList_append, List.concat_eq_append, ← List.append_assoc] at split
      obtain ⟨-, slash⟩ := List.append_inj' split rfl
      obtain rfl : '/' = last := (List.cons.inj slash).1
      exact absurd (by simp) clear

private theorem Site.eq_of_key_eq {first second : Site} (first_apart : first.Apart)
    (second_apart : second.Apart) (same : first.key = second.key) : first = second := by
  have joined : first.way.toList ++ first.name.toList =
      second.way.toList ++ second.name.toList := by
    rw [← String.toList_append, ← String.toList_append]
    exact congrArg String.toList same
  have way : first.way = second.way := by
    rw [← String.toList_inj]
    rcases List.append_eq_append_iff.mp joined with ⟨between, way, name⟩ | ⟨between, way, name⟩
    · have clear : '/' ∉ between := fun mem =>
        first_apart.name (name ▸ List.mem_append_left _ mem)
      rw [way, second_apart.way.eq_nil way clear, List.append_nil]
    · have clear : '/' ∉ between := fun mem =>
        second_apart.name (name ▸ List.mem_append_left _ mem)
      rw [way, first_apart.way.eq_nil way clear, List.append_nil]
  have name : first.name = second.name := by
    rw [way] at joined
    exact String.toList_inj.mp (List.append_cancel_left joined)
  cases first
  cases second
  simp_all

private theorem apart_of_placeOf {way : String} {parts : List (List Char)} {site : Site}
    (ends : IsWay way) (clear : ∀ part ∈ parts, '/' ∉ part)
    (located : placeOf way parts = .file site) : site.Apart := by
  induction parts generalizing way with
  | nil => cases located
  | cons part rest ih =>
    obtain ⟨clear_part, clear_rest⟩ := List.forall_mem_cons.mp clear
    unfold placeOf at located
    split at located
    · exact ih ends clear_rest located
    · split at located
      · exact ih (isWay_stepUp ends) clear_rest located
      · split at located
        · cases located
          exact ⟨ends, by simpa using clear_part⟩
        · cases located

private theorem apart_of_locate {path : String} {site : Site} (located : locate path = .file site) :
    site.Apart := by
  refine apart_of_placeOf ?_ (fun part => Text.not_mem_of_mem_parts) located
  split
  · exact .inr ⟨"", rfl⟩
  · exact .inl rfl

/-! ### Files -/

variable {d after : Directory} {path other text : String}

private theorem get?_set_of_ne {site changed : Site} (apart : site.Apart)
    (changed_apart : changed.Apart)
    (different : site ≠ changed) : (d.set changed text).get? site = d.get? site :=
  Entries.get?_set_of_ne (fun same => different (site.eq_of_key_eq apart changed_apart same)) _ _

private theorem read_eq_ok_iff {content : String} :
    d.read path = .ok content ↔
      ∃ site, checkPath path = .ok () ∧ locate path = .file site ∧
        checkName site.name = .ok () ∧ d.get? site = some content := by
  cases followed : checkPath path with
  | error fault => simp [read, followed, bind, Except.bind]
  | ok done =>
    cases located : locate path with
    | directory =>
      simp [read, followed, located, bind, Except.bind, throw, throwThe, MonadExceptOf.throw]
    | beyond site onlySlashes =>
      cases checked : checkName site.name <;>
        simp [read, followed, located, checked, bind, Except.bind, throw, throwThe,
          MonadExceptOf.throw]
    | file site =>
      cases checked : checkName site.name with
      | error fault => simp [read, followed, located, checked, bind, Except.bind]
      | ok done =>
        cases found : d.get? site <;>
          simp [read, followed, located, checked, found, require, bind, Except.bind]

/-- A path that leads elsewhere leads to the same text as before, or to none as before. -/
theorem read_of_write_elsewhere (written : d.write path text = .ok after)
    (elsewhere : locate other ≠ locate path) (content : String) :
    after.read other = .ok content ↔ d.read other = .ok content := by
  obtain ⟨changed, -, located, -, rfl⟩ := write_eq_ok_iff.mp written
  have same : ∀ site, locate other = .file site → (d.set changed text).get? site = d.get? site := by
    intro site located_other
    refine get?_set_of_ne (apart_of_locate located_other) (apart_of_locate located) ?_
    rintro rfl
    exact elsewhere (located_other.trans located.symm)
  simp only [read_eq_ok_iff]
  constructor
  · rintro ⟨site, followed, located_other, checked, found⟩
    exact ⟨site, followed, located_other, checked, same site located_other ▸ found⟩
  · rintro ⟨site, followed, located_other, checked, found⟩
    exact ⟨site, followed, located_other, checked, (same site located_other).trans found⟩

end Command.Directory

end TokenPlan
