import TokenPlan.Proofs.Text.Digits
import TokenPlan.Proofs.Text.Trim
import TokenPlan.Table.Draft

/-!
Amounts in base units, as the rows of accounts give them. An amount is written in decimal digits,
with white space allowed around them. Every other text is refused as it was given, and so is a
number of more than 256 bits; but a text of white space alone, in which no digit was asked for, is
read as zero.
-/

set_option autoImplicit false
set_option relaxedAutoImplicit false

namespace TokenPlan

namespace Amount

/-- Reads the digits that are left of a text without the white space around them. -/
def ofText (text : String) : Except UnitError Amount :=
  require (.invalidDecimal text) (ofDigits? (Text.trim text.toList))

/-- Without the white space around it the text is a run of digits, which spells the number. -/
structure Numeral (text : String) (digits : List Char) (n : Nat) : Prop where
  trims : Text.Trims text.toList digits
  nonempty : digits ≠ []
  spells : Text.Spells digits n

/-- What a text comes to as an amount, with the circumstances. -/
inductive Reading (text : String) : Except UnitError Amount → Prop
  | exact {digits : List Char} {amount : Amount} (numeral : Numeral text digits amount.toNat) :
      Reading text (.ok amount)
  | blank (blank : Text.Blank text.toList) : Reading text (.ok zero)
  | wide {digits : List Char} {n : Nat} (numeral : Numeral text digits n) (wide : 2 ^ 256 ≤ n) :
      Reading text (.error (.invalidDecimal text))
  | odd {body : List Char} {c : Char} (trims : Text.Trims text.toList body) (mem : c ∈ body)
      (odd : c.isDigit = false) : Reading text (.error (.invalidDecimal text))

variable {text : String} {digits : List Char} {n : Nat}

/-! ### What is read -/

private theorem Numeral.all_digits (numeral : Numeral text digits n) :
    digits.all Char.isDigit = true :=
  List.all_eq_true.mpr numeral.spells.isDigit

private theorem Numeral.ofText_eq (numeral : Numeral text digits n) :
    ofText text = require (.invalidDecimal text) (ofNat? n) := by
  rw [ofText, numeral.trims.trim_eq, ofDigits?, if_pos numeral.all_digits,
    numeral.spells.spelled_eq]

theorem ofText_eq_iff {result : Except UnitError Amount} :
    ofText text = result ↔ Reading text result := by
  constructor
  · rintro rfl
    have trims := Text.trims_trim text.toList
    by_cases blank : Text.trim text.toList = []
    · rw [ofText, blank]
      exact .blank (Text.trim_eq_nil_iff.mp blank)
    · by_cases all : ∀ c ∈ Text.trim text.toList, c.isDigit = true
      · have numeral : Numeral text _ _ := ⟨trims, blank, Text.spells_spelled all⟩
        rw [numeral.ofText_eq]
        cases fits : ofNat? (Text.spelled (Text.trim text.toList)) with
        | some amount =>
          rw [ofNat?_eq_some_iff.mp fits] at numeral
          exact .exact numeral
        | none => exact .wide numeral (ofNat?_eq_none_iff.mp fits)
      · obtain ⟨c, mem, odd⟩ : ∃ c ∈ Text.trim text.toList, ¬ c.isDigit = true := by
          simpa using all
        rw [ofText, ofDigits?, if_neg fun digits => all (List.all_eq_true.mp digits)]
        exact .odd trims mem (Bool.eq_false_iff.mpr odd)
  · intro reading
    cases reading with
    | exact numeral => rw [numeral.ofText_eq, ofNat?_toNat, require]
    | blank blank =>
      rw [ofText, Text.trim_eq_nil_iff.mpr blank]
      rfl
    | wide numeral wide => rw [numeral.ofText_eq, ofNat?_eq_none_iff.mpr wide, require]
    | odd trims mem odd =>
      rw [ofText, trims.trim_eq, ofDigits?, if_neg, require]
      intro digits
      rw [List.all_eq_true.mp digits _ mem] at odd
      cases odd

theorem not_numeral_of_blank (blank : Text.Blank text.toList) : ¬ Numeral text digits n := by
  intro numeral
  apply numeral.nonempty
  rw [← numeral.trims.trim_eq]
  exact Text.trim_eq_nil_iff.mpr blank

/-- What is read spells a number, unless it is blank. -/
theorem Reading.spells_iff {amount : Amount} (reading : Reading text (.ok amount)) :
    (∃ digits, Numeral text digits amount.toNat) ↔ ¬ Text.Blank text.toList := by
  constructor
  · rintro ⟨digits, numeral⟩ blank
    exact not_numeral_of_blank blank numeral
  · intro seen
    cases reading with
    | exact numeral => exact ⟨_, numeral⟩
    | blank blank => exact absurd blank seen

private theorem reads_numerals_iff :
    (∀ amount : Amount, Reading text (.ok amount) ↔ ∃ digits, Numeral text digits amount.toNat) ↔
      ¬ Text.Blank text.toList := by
  constructor
  · intro strict blank
    obtain ⟨digits, numeral⟩ := (strict zero).mp (.blank blank)
    exact not_numeral_of_blank blank numeral
  · intro seen amount
    constructor
    · intro reading
      exact reading.spells_iff.mpr seen
    · rintro ⟨digits, numeral⟩
      exact .exact numeral

end Amount

/-! ### Rows -/

/-- The row of an account that is given a number of base units. -/
def AccountDraft.ofTokens (id address tokens : String) : AccountDraft :=
  ⟨id, some address, none, none, some tokens⟩

private theorem AccountDraft.complete_ofTokens {address : String} {account : Address}
    (valid : Address.ofText address = .ok account) (id tokens : String) :
    (ofTokens id address tokens).complete =
      (fun amount => ⟨id, account, .exact amount⟩) <$> inRow id (Amount.ofText tokens) := by
  have read : inRow id (Address.ofText address) = .ok account := by
    rw [valid]
    rfl
  change (inRow id (Address.ofText address) >>= fun account =>
    (inRow id (Amount.ofText tokens) >>= fun amount => .ok (Share.exact amount)) >>= fun share =>
      .ok (AccountRow.mk id account share)) = _
  rw [read, ok_bind]
  cases inRow id (Amount.ofText tokens) with
  | ok amount => rfl
  | error e => rfl

private theorem Amount.eq_invalidDecimal_of_ofText {text : String} {cause : UnitError}
    (refused : Amount.ofText text = .error cause) : cause = .invalidDecimal text := by
  cases Amount.ofText_eq_iff.mp refused with
  | wide numeral wide => rfl
  | odd trims mem odd => rfl

private theorem Draft.complete_ofTokens_eq_ok_iff {address : String} {account : Address}
    (valid : Address.ofText address = .ok account) {id tokens : String} {row : Row} :
    (Draft.account (.ofTokens id address tokens)).complete = .ok row ↔
      ∃ amount, Amount.Reading tokens (.ok amount) ∧
        row = .account ⟨id, account, .exact amount⟩ := by
  simp only [Draft.complete, AccountDraft.complete_ofTokens valid, map_eq_ok_iff, inRow,
    mapError_eq_ok_iff, Amount.ofText_eq_iff]
  constructor
  · rintro ⟨_, ⟨amount, read, rfl⟩, rfl⟩
    exact ⟨amount, read, rfl⟩
  · rintro ⟨amount, read, rfl⟩
    exact ⟨_, ⟨amount, read, rfl⟩, rfl⟩

private theorem Draft.complete_ofTokens_eq_error_iff {address : String} {account : Address}
    (valid : Address.ofText address = .ok account) {id tokens : String} {e : TableError} :
    (Draft.account (.ofTokens id address tokens)).complete = .error e ↔
      Amount.Reading tokens (.error (.invalidDecimal tokens)) ∧
        e = .unit id (.invalidDecimal tokens) := by
  simp only [Draft.complete, AccountDraft.complete_ofTokens valid, map_eq_error_iff, inRow,
    mapError_eq_error_iff, ← Amount.ofText_eq_iff]
  constructor
  · rintro ⟨cause, read, rfl⟩
    obtain rfl := Amount.eq_invalidDecimal_of_ofText read
    exact ⟨read, rfl⟩
  · rintro ⟨read, rfl⟩
    exact ⟨_, read, rfl⟩

/--
A row with an address and a text of tokens alone is completed to the amount that the text is read
as: the number that its digits spell, or zero if it is blank. For every other text it is refused,
with the text as it was given. So just the numerals of amounts are read, but for blank texts.
-/
theorem Draft.complete_decides_tokens {address : String} {account : Address}
    (valid : Address.ofText address = .ok account) (id tokens : String) :
    (∀ row, (Draft.account (.ofTokens id address tokens)).complete = .ok row ↔
      ∃ amount, Amount.Reading tokens (.ok amount) ∧
        row = .account ⟨id, account, .exact amount⟩) ∧
    (∀ e, (Draft.account (.ofTokens id address tokens)).complete = .error e ↔
      Amount.Reading tokens (.error (.invalidDecimal tokens)) ∧
        e = .unit id (.invalidDecimal tokens)) ∧
    ((∀ amount : Amount, (Draft.account (.ofTokens id address tokens)).complete =
        .ok (.account ⟨id, account, .exact amount⟩) ↔
          ∃ digits, Amount.Numeral tokens digits amount.toNat) ↔
      ¬ Text.Blank tokens.toList) := by
  refine ⟨fun _ => complete_ofTokens_eq_ok_iff valid, fun _ => complete_ofTokens_eq_error_iff valid,
    ?_⟩
  rw [← Amount.reads_numerals_iff]
  refine forall_congr' fun amount => ?_
  simp [complete_ofTokens_eq_ok_iff valid]

theorem Draft.complete_decides_tokens_padded :
    let complete (tokens : String) :=
      (Draft.account (.ofTokens "tre" "0x0707070707070707070707070707070707070707" tokens)).complete
    complete " 007\n" =
        .ok (.account ⟨"tre", ⟨List.replicate 20 7, rfl⟩, .exact ⟨7, by decide⟩⟩) ∧
      complete "+7" = .error (.unit "tre" (.invalidDecimal "+7")) := by
  have valid : Address.ofText "0x0707070707070707070707070707070707070707" =
      .ok ⟨List.replicate 20 7, rfl⟩ := rfl
  constructor
  · exact ((complete_decides_tokens valid "tre" " 007\n").1 _).mpr
      ⟨_, Amount.ofText_eq_iff.mp rfl, rfl⟩
  · exact ((complete_decides_tokens valid "tre" "+7").2.1 _).mpr ⟨Amount.ofText_eq_iff.mp rfl, rfl⟩

/-- A text without a single digit is read as an amount, though it spells no number. -/
theorem Draft.complete_blankTokens :
    (∀ digits n, ¬ Amount.Numeral "" digits n) ∧
      (Draft.account (.ofTokens "tre" "0x0707070707070707070707070707070707070707" "")).complete =
        .ok (.account ⟨"tre", ⟨List.replicate 20 7, rfl⟩, .exact Amount.zero⟩) :=
  ⟨fun _ _ => Amount.not_numeral_of_blank nofun, rfl⟩

end TokenPlan
