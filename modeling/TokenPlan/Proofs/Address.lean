import TokenPlan.Address
import TokenPlan.Proofs.Text.Hex

/-!
Which texts are addresses, and of which account. An address is the mark `0x` or `0X` with forty
hexadecimal digits behind it, with white space allowed around both; its bytes are the pairs of the
digits in order. It is written as its own text in lower case, so two texts are addresses of one
account exactly if they differ in nothing but case and the white space around them.
-/

set_option autoImplicit false
set_option relaxedAutoImplicit false

namespace TokenPlan.Address

/-- The mark in either case, with forty hexadecimal digits behind it. -/
structure Literal (body digits : List Char) : Prop where
  marked : body = '0' :: 'x' :: digits ∨ body = '0' :: 'X' :: digits
  forty : digits.length = 40
  hex : ∀ c ∈ digits, ∃ n, Text.HexDigit c n

/-- What a text comes to as an address, with the circumstances. -/
inductive Reading (text : String) : Except UnitError Address → Prop
  | exact {body digits : List Char} {a : Address} (trims : Text.Trims text.toList body)
      (literal : Literal body digits) (spells : Text.SpellsBytes digits a.bytes) :
      Reading text (.ok a)
  | odd {body : List Char} (trims : Text.Trims text.toList body)
      (odd : ∀ digits, ¬ Literal body digits) : Reading text (.error (.invalidAddress text))

/-- The texts differ in nothing but case and the white space around them. -/
def Alike (first second : String) : Prop :=
  (Text.trim first.toList).map Char.toLower = (Text.trim second.toList).map Char.toLower

variable {text : String} {body digits : List Char} {a b : Address}

/-! ### What is read -/

private theorem ofDigits?_eq_some_iff :
    ofDigits? digits = some a ↔ Text.SpellsBytes digits a.bytes := by
  simp only [ofDigits?, Option.bind_eq_bind, Option.bind_eq_some_iff]
  constructor
  · rintro ⟨bytes, read, given⟩
    split at given
    · cases given
      exact Text.bytesOfHex?_eq_some_iff.mp read
    · cases given
  · intro spells
    exact ⟨a.bytes, Text.bytesOfHex?_eq_some_iff.mpr spells, dif_pos a.length_eq⟩

private theorem Literal.of_spells
    (marked : body = '0' :: 'x' :: digits ∨ body = '0' :: 'X' :: digits)
    (spells : Text.SpellsBytes digits a.bytes) : Literal body digits where
  marked := marked
  forty := by rw [spells.length_eq, a.length_eq]
  hex := spells.hex

private theorem Literal.exists_address (literal : Literal body digits) :
    ∃ a : Address, Text.SpellsBytes digits a.bytes := by
  have pairs : digits.length = 2 * 20 := literal.forty
  obtain ⟨bytes, spells, length⟩ := Text.exists_spellsBytes pairs literal.hex
  exact ⟨⟨bytes, length⟩, spells⟩

private theorem read?_eq_some_iff :
    read? body = some a ↔ ∃ digits, Literal body digits ∧ Text.SpellsBytes digits a.bytes := by
  constructor
  · intro read
    unfold read? at read
    split at read
    · have spells := ofDigits?_eq_some_iff.mp read
      exact ⟨_, .of_spells (Or.inl rfl) spells, spells⟩
    · have spells := ofDigits?_eq_some_iff.mp read
      exact ⟨_, .of_spells (Or.inr rfl) spells, spells⟩
    · cases read
  · rintro ⟨digits, literal, spells⟩
    have read := ofDigits?_eq_some_iff.mpr spells
    rcases literal.marked with rfl | rfl
    · exact read
    · exact read

private theorem read?_eq_none_iff : read? body = none ↔ ∀ digits, ¬ Literal body digits := by
  constructor
  · intro unread digits literal
    obtain ⟨a, spells⟩ := literal.exists_address
    rw [read?_eq_some_iff.mpr ⟨digits, literal, spells⟩] at unread
    cases unread
  · intro odd
    apply Option.eq_none_iff_forall_ne_some.mpr
    intro a read
    obtain ⟨digits, literal, -⟩ := read?_eq_some_iff.mp read
    exact odd digits literal

private theorem ofText_eq_iff {result : Except UnitError Address} :
    ofText text = result ↔ Reading text result := by
  have trims := Text.trims_trim text.toList
  constructor
  · rintro rfl
    cases read : read? (Text.trim text.toList) with
    | some a =>
      obtain ⟨digits, literal, spells⟩ := read?_eq_some_iff.mp read
      rw [ofText, read]
      exact .exact trims literal spells
    | none =>
      rw [ofText, read]
      exact .odd trims (read?_eq_none_iff.mp read)
  · intro reading
    cases reading with
    | exact trims literal spells =>
      rw [ofText, trims.trim_eq, read?_eq_some_iff.mpr ⟨_, literal, spells⟩]
      rfl
    | odd trims odd =>
      rw [ofText, trims.trim_eq, read?_eq_none_iff.mpr odd]
      rfl

/-! ### What is written -/

theorem ofText_render (a : Address) : ofText a.render = .ok a := by
  have digits := Text.bytesOfHex?_eq_some_iff.mp (Text.bytesOfHex?_hexOfBytes a.bytes)
  have visible : Text.Visible ('0' :: 'x' :: Text.hexOfBytes a.bytes) := by
    rw [Text.visible_cons, Text.visible_cons]
    exact ⟨rfl, rfl, Text.visible_hexOfBytes a.bytes⟩
  have trims : Text.Trims a.render.toList ('0' :: 'x' :: Text.hexOfBytes a.bytes) := by
    rw [render, String.toList_ofList]
    exact Text.trim_eq_iff.mp (Text.trim_of_visible visible)
  exact ofText_eq_iff.mpr (.exact trims (.of_spells (Or.inl rfl) digits) digits)

private theorem render_eq_of_ofText (read : ofText text = .ok a) :
    a.render.toList = (Text.trim text.toList).map Char.toLower := by
  rw [render, String.toList_ofList]
  cases ofText_eq_iff.mp read with
  | @exact body digits _ trims literal spells =>
    rw [spells.hexOfBytes_eq, trims.trim_eq]
    rcases literal.marked with rfl | rfl
    · rfl
    · rfl

theorem eq_of_render_eq (same : a.render = b.render) : a = b := by
  have read := ofText_render a
  rw [same, ofText_render b] at read
  exact (Except.ok.inj read).symm

/--
Every text is read as the address that its digits spell, or refused as it was given for not being a
literal. An address is written as its text in lower case and read back from there, so two texts are
read as one address exactly if they are alike.
-/
theorem ofText_decides_account :
    (∀ text result, ofText text = result ↔ Reading text result) ∧
    (∀ text a, ofText text = .ok a →
      a.render.toList = (Text.trim text.toList).map Char.toLower) ∧
    (∀ a, ofText a.render = .ok a) ∧
    ∀ first second a b, ofText first = .ok a → ofText second = .ok b →
      (a = b ↔ Alike first second) := by
  refine ⟨fun _ _ => ofText_eq_iff, fun _ _ => render_eq_of_ofText, ofText_render, ?_⟩
  intro first second a b first_read second_read
  rw [Alike, ← render_eq_of_ofText first_read, ← render_eq_of_ofText second_read]
  constructor
  · rintro rfl
    rfl
  · intro same
    exact eq_of_render_eq (String.toList_injective same)

theorem ofText_decides_account_mixedCase : ∃ a,
    ofText "\u3000 0X00000000000000000000000000000000000000aB\n" = .ok a ∧
      ofText "0x00000000000000000000000000000000000000Ab" = .ok a ∧
      Alike "\u3000 0X00000000000000000000000000000000000000aB\n"
        "0x00000000000000000000000000000000000000Ab" ∧
      Reading "0x0x000000000000000000000000000000000000ab"
        (.error (.invalidAddress "0x0x000000000000000000000000000000000000ab")) := by
  let a : Address := ⟨List.replicate 19 0 ++ [0xab], rfl⟩
  have first : ofText "\u3000 0X00000000000000000000000000000000000000aB\n" = .ok a := rfl
  have second : ofText "0x00000000000000000000000000000000000000Ab" = .ok a := rfl
  refine ⟨a, first, second, ?_, ?_⟩
  · exact (ofText_decides_account.2.2.2 _ _ _ _ first second).mp rfl
  · exact (ofText_decides_account.1 _ _).mp rfl

end TokenPlan.Address
