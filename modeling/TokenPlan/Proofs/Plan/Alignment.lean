import TokenPlan.Plan.Compiled

/-!
Owners and amounts that are told to the token in two lists. They are paired exactly if the two lists
have the same names in the same order, and then nothing is dropped, repeated or moved; else the
lengths are told if these are unequal, and if not, the first index at which the names differ.
-/

set_option autoImplicit false
set_option relaxedAutoImplicit false

namespace TokenPlan.Plan

/-- Two lists of names differ at an index, and at none before it. -/
structure FirstDifference (index : Nat) (first second : String) (names others : List String) :
    Prop where
  before : ∀ i < index, names[i]? = others[i]?
  here : names[index]? = some first
  there : others[index]? = some second
  differ : first ≠ second

/-- What pairing owners with amounts answers, with the circumstances and the words of an error. -/
inductive Pairing (action : ActionId) (owners : List (String × Argument))
    (amounts : List (String × Amount)) : Except PlanError (List Argument × List Argument) → Prop
  | paired (same : owners.map Prod.fst = amounts.map Prod.fst) :
      Pairing action owners amounts
        (.ok (owners.map Prod.snd, amounts.map fun entry => .uint entry.2))
  | lengths {e : PlanError} (unequal : owners.length ≠ amounts.length)
      (cause : e = .mismatch action (.lengths owners.length amounts.length))
      (words : e.message = mismatchMessage action (Text.numeral owners.length ++ " amounts")
        (Text.numeral amounts.length ++ " amounts")) :
      Pairing action owners amounts (.error e)
  | misaligned {e : PlanError} {owner name : String} {index : Nat}
      (equal : owners.length = amounts.length)
      (first : FirstDifference index owner name (owners.map Prod.fst) (amounts.map Prod.fst))
      (cause : e = .mismatch action (.misaligned owner name index))
      (words : e.message = mismatchMessage action
        ("amount for " ++ owner ++ " at index " ++ Text.numeral index) ("amount for " ++ name)) :
      Pairing action owners amounts (.error e)

/-! ### The first difference -/

namespace FirstDifference

variable {index : Nat} {first second name other : String} {names others : List String}

private theorem head (differ : name ≠ other) :
    FirstDifference 0 name other (name :: names) (other :: others) := by
  refine ⟨?_, rfl, rfl, differ⟩
  intro i negative
  exact absurd negative (Nat.not_lt_zero i)

private theorem cons (name : String) (behind : FirstDifference index first second names others) :
    FirstDifference (index + 1) first second (name :: names) (name :: others) := by
  refine ⟨?_, behind.here, behind.there, behind.differ⟩
  intro i before
  cases i with
  | zero => rfl
  | succ i => exact behind.before i (Nat.lt_of_succ_lt_succ before)

private theorem tail (difference : FirstDifference (index + 1) first second (name :: names)
    (other :: others)) : name = other ∧ FirstDifference index first second names others := by
  constructor
  · exact Option.some.inj (difference.before 0 (Nat.succ_pos index))
  · refine ⟨?_, difference.here, difference.there, difference.differ⟩
    intro i before
    exact difference.before (i + 1) (Nat.succ_lt_succ before)

private theorem exists_of_ne (equal : names.length = others.length) (different : names ≠ others) :
    ∃ index first second, FirstDifference index first second names others := by
  induction names generalizing others with
  | nil => exact absurd (List.length_eq_zero_iff.mp equal.symm).symm different
  | cons name names ih =>
    cases others with
    | nil => cases equal
    | cons other others =>
      by_cases same : name = other
      · subst same
        have behind_equal : names.length = others.length := Nat.succ.inj equal
        have behind_different : names ≠ others := by
          rintro rfl
          exact different rfl
        obtain ⟨index, first, second, behind⟩ := ih behind_equal behind_different
        exact ⟨index + 1, first, second, behind.cons name⟩
      · exact ⟨0, name, other, head same⟩

end FirstDifference

/-! ### Pairing -/

variable {action : ActionId} {owners : List (String × Argument)} {amounts : List (String × Amount)}

private theorem alignFrom_of_same (index : Nat)
    (same : owners.map Prod.fst = amounts.map Prod.fst) :
    alignFrom action index owners amounts =
      .ok (owners.map Prod.snd, amounts.map fun entry => .uint entry.2) := by
  induction owners generalizing index amounts with
  | nil =>
    obtain rfl := List.map_eq_nil_iff.mp same.symm
    rfl
  | cons owner owners ih =>
    cases amounts with
    | nil => cases same
    | cons amount amounts =>
      obtain ⟨here, behind⟩ := List.cons.inj same
      rw [alignFrom, if_pos here, ih (index + 1) behind]
      rfl

private theorem alignFrom_of_firstDifference {owner name : String} {offset : Nat} (index : Nat)
    (difference :
      FirstDifference offset owner name (owners.map Prod.fst) (amounts.map Prod.fst)) :
    alignFrom action index owners amounts =
      .error (.mismatch action (.misaligned owner name (index + offset))) := by
  induction offset generalizing index owners amounts with
  | zero =>
    match owners, amounts, difference with
    | [], _, difference => cases difference.here
    | _ :: _, [], difference => cases difference.there
    | _ :: _, _ :: _, difference =>
      cases difference.here
      cases difference.there
      rw [alignFrom, if_neg difference.differ, Nat.add_zero]
  | succ offset ih =>
    match owners, amounts, difference with
    | [], _, difference => cases difference.here
    | _ :: _, [], difference => cases difference.there
    | _ :: _, _ :: _, difference =>
      obtain ⟨same, behind⟩ := difference.tail
      rw [alignFrom, if_pos same, ih (index + 1) behind, Nat.add_right_comm]
      rfl

private theorem align_of_lengths (unequal : owners.length ≠ amounts.length) :
    align action owners amounts =
      .error (.mismatch action (.lengths owners.length amounts.length)) :=
  if_neg unequal

private theorem align_of_length (equal : owners.length = amounts.length) :
    align action owners amounts = alignFrom action 0 owners amounts :=
  if_pos equal

private theorem length_of_same (same : owners.map Prod.fst = amounts.map Prod.fst) :
    owners.length = amounts.length := by
  rw [← List.length_map Prod.fst, same, List.length_map]

theorem align_of_same (same : owners.map Prod.fst = amounts.map Prod.fst) :
    align action owners amounts =
      .ok (owners.map Prod.snd, amounts.map fun entry => .uint entry.2) := by
  rw [align_of_length (length_of_same same), alignFrom_of_same 0 same]

private theorem pairing_align (action : ActionId) (owners : List (String × Argument))
    (amounts : List (String × Amount)) :
    Pairing action owners amounts (align action owners amounts) := by
  by_cases same : owners.map Prod.fst = amounts.map Prod.fst
  · rw [align_of_same same]
    exact .paired same
  · by_cases equal : owners.length = amounts.length
    · have names_equal : (owners.map Prod.fst).length = (amounts.map Prod.fst).length := by
        rw [List.length_map, List.length_map, equal]
      obtain ⟨index, owner, name, first⟩ := FirstDifference.exists_of_ne names_equal same
      rw [align_of_length equal, alignFrom_of_firstDifference 0 first, Nat.zero_add]
      exact .misaligned equal first rfl rfl
    · rw [align_of_lengths equal]
      exact .lengths equal rfl rfl

private theorem align_eq_iff {result : Except PlanError (List Argument × List Argument)} :
    align action owners amounts = result ↔ Pairing action owners amounts result := by
  constructor
  · rintro rfl
    exact pairing_align action owners amounts
  · intro pairing
    cases pairing with
    | paired same => exact align_of_same same
    | lengths unequal cause words => rw [cause, align_of_lengths unequal]
    | misaligned equal first cause words =>
      rw [cause, align_of_length equal, alignFrom_of_firstDifference 0 first, Nat.zero_add]

/--
Owners and amounts are paired exactly if they have the same names in the same order, repeated or
not, and each list then keeps all it has in its order. Nothing else is answered but what the pairing
tells: the two lengths where they are unequal, and else the first index at which the names differ.
-/
theorem align_decides_pairing (action : ActionId) (owners : List (String × Argument))
    (amounts : List (String × Amount)) :
    ((∃ lists, align action owners amounts = .ok lists) ↔
      owners.map Prod.fst = amounts.map Prod.fst) ∧
    ∀ result, align action owners amounts = result ↔ Pairing action owners amounts result := by
  refine ⟨?_, fun _ => align_eq_iff⟩
  constructor
  · rintro ⟨lists, given⟩
    cases align_eq_iff.mp given with
    | paired same => exact same
  · intro same
    exact ⟨_, align_eq_iff.mpr (.paired same)⟩

/-- A repeated name does not keep a later difference from being told. -/
example : align "token" [("team", .ref "team"), ("team", .ref "sale"), ("cex", .ref "cex")]
    [("team", Amount.ofWord 1), ("team", Amount.ofWord 2), ("fund", Amount.ofWord 3)] =
      .error (.mismatch "token" (.misaligned "cex" "fund" 2)) := by
  rfl

end TokenPlan.Plan
