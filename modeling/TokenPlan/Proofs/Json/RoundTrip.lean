import TokenPlan.Json.Printer
import TokenPlan.Json.Reader
import TokenPlan.Proofs.Text.Digits

/-!
Reading a JSON text undoes writing it, in either layout: every value comes back as the very tree
that was written, with its members in order and its numbers in the form that they had.
-/

set_option autoImplicit false
set_option relaxedAutoImplicit false

namespace TokenPlan.Json

/-! ### Strings -/

private theorem readUnit_control {n : Nat} (control : n < 32) (rest : List Char) :
    readUnit ('0' :: '0' :: Text.hexDigit (n / 16) :: Text.hexDigit (n % 16) :: rest) =
      some (n, rest) := by
  have zero : Text.hexValue? '0' = some 0 := rfl
  simp only [readUnit, zero, Text.hexValue?_hexDigit _ (show n / 16 < 16 by omega),
    Text.hexValue?_hexDigit _ (show n % 16 < 16 by omega), Option.bind_eq_bind, Option.bind_some]
  rw [show 4096 * 0 + 256 * 0 + 16 * (n / 16) + n % 16 = n by omega]

private theorem readEscape_control (halves : HalfPair) {c : Char} (control : c.toNat < 32)
    (rest : List Char) :
    readEscape halves ('u' :: '0' :: '0' :: Text.hexDigit (c.toNat / 16) ::
      Text.hexDigit (c.toNat % 16) :: rest) = some (c, rest) := by
  have low : c.toNat < 0xD800 ∨ 0xDFFF < c.toNat := Or.inl (by omega)
  simp only [readEscape, if_true, readUnicode, readUnit_control control, Option.bind_eq_bind,
    Option.bind_some, low, Char.ofNat_toNat]

private theorem escape_cases (c : Char) :
    (∃ text, escape c = '\\' :: text ∧
      ∀ halves rest, readEscape halves (text ++ rest) = some (c, rest)) ∨
    (escape c = [c] ∧ c ≠ '"' ∧ c ≠ '\\' ∧ ¬ c.toNat < 32) := by
  unfold escape
  by_cases quote : c = '"'
  · subst quote
    exact Or.inl ⟨['"'], rfl, fun _ _ => rfl⟩
  by_cases backslash : c = '\\'
  · subst backslash
    exact Or.inl ⟨['\\'], rfl, fun _ _ => rfl⟩
  by_cases backspace : c = '\x08'
  · subst backspace
    exact Or.inl ⟨['b'], rfl, fun _ _ => rfl⟩
  by_cases feed : c = '\x0c'
  · subst feed
    exact Or.inl ⟨['f'], rfl, fun _ _ => rfl⟩
  by_cases newline : c = '\n'
  · subst newline
    exact Or.inl ⟨['n'], rfl, fun _ _ => rfl⟩
  by_cases carriage : c = '\r'
  · subst carriage
    exact Or.inl ⟨['r'], rfl, fun _ _ => rfl⟩
  by_cases tab : c = '\t'
  · subst tab
    exact Or.inl ⟨['t'], rfl, fun _ _ => rfl⟩
  simp only [quote, backslash, backspace, feed, newline, carriage, tab, if_false]
  by_cases control : c.toNat < 32
  · rw [if_pos control]
    exact Or.inl ⟨_, rfl, fun halves rest => readEscape_control halves control rest⟩
  · rw [if_neg control]
    exact Or.inr ⟨rfl, quote, backslash, control⟩

private theorem readBody_escape (halves : HalfPair) (fuel : Nat) (c : Char) (rest : List Char) :
    readBody halves (fuel + 1) (escape c ++ rest) =
      (readBody halves fuel rest).map fun read => (c :: read.1, read.2) := by
  rcases escape_cases c with ⟨text, escaped, read⟩ | ⟨plain, quote, backslash, visible⟩
  · rw [escaped, List.cons_append, readBody, if_neg (by decide), if_pos rfl, read halves rest]
    simp only [Option.bind_eq_bind, Option.bind_some]
    cases readBody halves fuel rest <;> rfl
  · rw [plain, List.cons_append, List.nil_append, readBody, if_neg quote, if_neg backslash,
      if_neg visible]
    cases readBody halves fuel rest <;> rfl

private theorem readBody_writeBody (halves : HalfPair) {fuel : Nat} {text : List Char}
    (enough : text.length < fuel) (rest : List Char) :
    readBody halves fuel (writeBody text ++ rest) = some (text, rest) := by
  induction text generalizing fuel with
  | nil =>
    obtain ⟨fuel, rfl⟩ := Nat.exists_eq_succ_of_ne_zero (Nat.ne_of_gt enough)
    rfl
  | cons c text ih =>
    obtain ⟨fuel, rfl⟩ := Nat.exists_eq_succ_of_ne_zero (Nat.ne_of_gt (Nat.zero_lt_of_lt enough))
    rw [writeBody, List.append_assoc, readBody_escape,
      ih (Nat.lt_of_succ_lt_succ enough), Option.map_some]

private theorem length_le_length_writeBody (text : List Char) :
    text.length < (writeBody text).length := by
  induction text with
  | nil => decide
  | cons c text ih =>
    have written : 0 < (escape c).length := by
      rcases escape_cases c with ⟨rest, escaped, -⟩ | ⟨plain, -⟩
      · rw [escaped, List.length_cons]
        omega
      · rw [plain]
        exact Nat.zero_lt_one
    rw [writeBody, List.length_append, List.length_cons]
    omega

private theorem readString_writeBody (halves : HalfPair) (text : String) (rest : List Char) :
    readString halves (writeBody text.toList ++ rest) = some (text, rest) := by
  have enough : text.toList.length < (writeBody text.toList ++ rest).length + 1 := by
    have := length_le_length_writeBody text.toList
    rw [List.length_append]
    omega
  rw [readString, readBody_writeBody halves enough, Option.map_some, String.ofList_toList]

/-! ### Numbers -/

/-- A text that does not go on with what could belong to a number. -/
def EndsNumber (text : List Char) : Prop :=
  ∀ c, text.head? = some c → c.isDigit = false ∧ c ≠ '.' ∧ c ≠ 'e' ∧ c ≠ 'E'

private theorem endsNumber_nil : EndsNumber [] := nofun

private theorem EndsNumber.noDigit {text : List Char} (ends : EndsNumber text) :
    Text.NoDigit text :=
  fun c first => (ends c first).1

private theorem readFraction_of_head {text : List Char} (other : text.head? ≠ some '.') :
    readFraction text = some (none, text) := by
  cases text with
  | nil => rfl
  | cons c rest =>
    have no_point : c ≠ '.' := fun same => other (congrArg some same)
    simp [readFraction, no_point]

private theorem readExponent_of_ends {text : List Char} (ends : EndsNumber text) :
    readExponent text = some (none, text) := by
  cases text with
  | nil => rfl
  | cons c rest =>
    obtain ⟨-, -, lower, upper⟩ := ends c rfl
    rw [readExponent, if_neg (not_or.mpr ⟨lower, upper⟩)]

theorem digits_eq_cons (n : Nat) :
    ∃ c rest, Text.digits n = c :: rest ∧ c.isDigit = true := by
  cases first : Text.digits n with
  | nil => exact absurd first (Text.digits_ne_nil n)
  | cons c rest =>
    have mem : c ∈ Text.digits n := by
      rw [first]
      exact List.mem_cons_self
    exact ⟨c, rest, rfl, Text.isDigit_of_mem_digits mem⟩

private theorem readSign_digits (n : Nat) (rest : List Char) :
    readSign (Text.digits n ++ rest) = (false, Text.digits n ++ rest) := by
  obtain ⟨c, others, split, digit⟩ := digits_eq_cons n
  have minus : c ≠ '-' := Text.ne_of_isDigit digit rfl
  have plus : c ≠ '+' := Text.ne_of_isDigit digit rfl
  rw [split, List.cons_append]
  simp [readSign, minus, plus]

private theorem readExponent_writeDecimal (exponent : Int) {rest : List Char}
    (ends : Text.NoDigit rest) :
    readExponent ('e' :: ((if exponent < 0 then ['-'] else []) ++ Text.digits exponent.natAbs ++
      rest)) = some (some exponent, rest) := by
  rw [readExponent, if_pos (Or.inl rfl)]
  by_cases negative : exponent < 0
  · have size : -(exponent.natAbs : Int) = exponent := by omega
    simp only [negative, if_true, List.cons_append, List.nil_append, readSign,
      Text.readRun_digits _ ends, Option.map_some, size]
  · have size : (exponent.natAbs : Int) = exponent := by omega
    simp only [negative, if_false, List.nil_append, readSign_digits, Text.readRun_digits _ ends,
      Option.map_some, size, Bool.false_eq_true]

/-- The number that digits stand for: a natural one if neither a sign nor an exponent is there. -/
def number (negative : Bool) (digits : Nat) (exponent? : Option Int) : Value :=
  match negative, exponent? with
  | false, none => .natural digits
  | _, _ => .decimal negative digits (exponent?.getD 0)

private theorem readNumber_digits (negative : Bool) (n : Nat) {tail rest : List Char}
    {exponent? : Option Int} (ends : Text.NoDigit tail) (other : tail.head? ≠ some '.')
    (exponent : readExponent tail = some (exponent?, rest)) :
    readNumber negative (Text.digits n ++ tail) = some (number negative n exponent?, rest) := by
  have run : (Text.digits n ++ tail).takeWhile Char.isDigit = Text.digits n :=
    Text.takeWhile_isDigit_append (fun _ mem => Text.isDigit_of_mem_digits mem) ends
  have no_zero : ¬((Text.digits n ++ tail).head? = some '0' ∧ (Text.digits n).length ≠ 1) := by
    rintro ⟨zero, several⟩
    obtain ⟨c, others, split, -⟩ := digits_eq_cons n
    apply several
    apply Text.length_digits_of_head?
    rw [split] at zero ⊢
    exact zero
  simp only [readNumber, Text.readRun_digits n ends, Option.bind_eq_bind, Option.bind_some, run,
    no_zero, if_false, readFraction_of_head other, exponent, Option.getD_none, Nat.pow_zero,
    Nat.mul_one, Nat.add_zero]
  cases negative <;> cases exponent? <;> simp [number]

/-! ### White space -/

private theorem skipSpace_cons {c : Char} (visible : isSpace c = false) (rest : List Char) :
    skipSpace (c :: rest) = c :: rest :=
  List.dropWhile_cons_of_neg (by simp [visible])

private theorem skipSpace_gap (layout : Layout) (level : Nat) (text : List Char) :
    skipSpace (layout.gap level ++ text) = skipSpace text := by
  cases layout with
  | compact => rfl
  | pretty =>
    have spaces : ∀ c ∈ Layout.gap .pretty level, isSpace c = true := by
      intro c mem
      rcases List.mem_cons.mp mem with rfl | space
      · rfl
      · obtain ⟨-, rfl⟩ := List.mem_replicate.mp space
        rfl
    exact List.dropWhile_append_of_pos spaces

private theorem expect_colon (layout : Layout) (text : List Char) :
    ∃ behind, Text.expect ':' (skipSpace (layout.colon ++ text)) = some behind ∧
      skipSpace behind = skipSpace text := by
  cases layout with
  | compact => exact ⟨text, rfl, rfl⟩
  | pretty => exact ⟨' ' :: text, rfl, rfl⟩

private theorem isSpace_of_isDigit {c : Char} (digit : c.isDigit = true) : isSpace c = false := by
  have blank : c ≠ ' ' := Text.ne_of_isDigit digit rfl
  have newline : c ≠ '\n' := Text.ne_of_isDigit digit rfl
  have tab : c ≠ '\t' := Text.ne_of_isDigit digit rfl
  have carriage : c ≠ '\r' := Text.ne_of_isDigit digit rfl
  simp [isSpace, blank, newline, tab, carriage]

private theorem write_eq_cons (layout : Layout) (level : Nat) (v : Value) :
    ∃ c rest, write layout level v = c :: rest ∧ isSpace c = false ∧ c ≠ ']' := by
  have of_digits : ∀ (n : Nat) (tail : List Char), ∃ c rest,
      Text.digits n ++ tail = c :: rest ∧ isSpace c = false ∧ c ≠ ']' := by
    intro n tail
    obtain ⟨c, rest, split, digit⟩ := digits_eq_cons n
    refine ⟨c, rest ++ tail, by rw [split, List.cons_append], isSpace_of_isDigit digit, ?_⟩
    exact Text.ne_of_isDigit digit rfl
  cases v with
  | null => exact ⟨'n', _, rfl, rfl, by decide⟩
  | bool value => cases value <;> exact ⟨_, _, rfl, rfl, by decide⟩
  | natural value =>
    obtain ⟨c, rest, split, first⟩ := of_digits value []
    exact ⟨c, rest, by rw [write, ← split, List.append_nil], first⟩
  | decimal negative digits exponent =>
    cases negative with
    | true => exact ⟨'-', _, rfl, rfl, by decide⟩
    | false => exact of_digits digits _
  | string text => exact ⟨'"', _, rfl, rfl, by decide⟩
  | array items => cases items <;> exact ⟨'[', _, rfl, rfl, by decide⟩
  | object members => cases members <;> exact ⟨'{', _, rfl, rfl, by decide⟩

private theorem skipSpace_write (layout : Layout) (level : Nat) (v : Value) (rest : List Char) :
    skipSpace (write layout level v ++ rest) = write layout level v ++ rest := by
  obtain ⟨c, text, split, visible, -⟩ := write_eq_cons layout level v
  rw [split]
  exact skipSpace_cons visible _

private theorem head?_write_ne (layout : Layout) (level : Nat) (v : Value) (rest : List Char) :
    (write layout level v ++ rest).head? ≠ some ']' := by
  obtain ⟨c, text, split, -, other⟩ := write_eq_cons layout level v
  rw [split]
  exact fun same => other (Option.some.inj same)

private theorem endsNumber_cons {c : Char} (rest : List Char)
    (other : c.isDigit = false ∧ c ≠ '.' ∧ c ≠ 'e' ∧ c ≠ 'E') : EndsNumber (c :: rest) := by
  intro first eq
  cases eq
  exact other

private theorem endsNumber_gap (layout : Layout) (level : Nat) {c : Char} (rest : List Char)
    (other : c.isDigit = false ∧ c ≠ '.' ∧ c ≠ 'e' ∧ c ≠ 'E') :
    EndsNumber (layout.gap level ++ c :: rest) := by
  cases layout with
  | compact => exact endsNumber_cons rest other
  | pretty => exact endsNumber_cons _ (by decide)

private theorem endsNumber_writeItems (layout : Layout) (level : Nat) (items : List Value)
    (rest : List Char) : EndsNumber (writeItems layout level items ++ rest) := by
  cases items with
  | nil =>
    rw [writeItems, List.append_assoc]
    exact endsNumber_gap layout level rest (by decide)
  | cons item items => exact endsNumber_cons _ (by decide)

private theorem endsNumber_writeMembers (layout : Layout) (level : Nat) (members : Members)
    (rest : List Char) : EndsNumber (writeMembers layout level members ++ rest) := by
  cases members with
  | nil =>
    rw [writeMembers, List.append_assoc]
    exact endsNumber_gap layout level rest (by decide)
  | cons member members => exact endsNumber_cons _ (by decide)

/-! ### One step of the reader -/

variable {keys inner : HalfPair} {fuel : Nat} {text body tail rest behind : List Char}

private theorem readValue_array {items : List Value} (inhabited : (skipSpace text).head? ≠ some ']')
    (read : readItems inner fuel (skipSpace text) = some (items, rest)) :
    readValue keys inner (fuel + 1) ('[' :: text) = some (.array items, rest) := by
  simp [readValue, inhabited, read]

private theorem readValue_object {members : Members} (inhabited : (skipSpace text).head? ≠ some '}')
    (read : readMembers keys inner fuel (skipSpace text) = some (members, rest)) :
    readValue keys inner (fuel + 1) ('{' :: text) = some (.object members, rest) := by
  simp [readValue, inhabited, read]

private theorem readItems_cons {item : Value} {items : List Value}
    (first : readValue inner inner fuel text = some (item, tail))
    (comma : skipSpace tail = ',' :: behind)
    (others : readItems inner fuel (skipSpace behind) = some (items, rest)) :
    readItems inner (fuel + 1) text = some (item :: items, rest) := by
  simp [readItems, first, comma, others]

private theorem readItems_last {item : Value}
    (first : readValue inner inner fuel text = some (item, tail))
    (closing : skipSpace tail = ']' :: rest) :
    readItems inner (fuel + 1) text = some ([item], rest) := by
  simp [readItems, first, closing]

private theorem readMembers_cons {key : String} {value : Value} {members : Members}
    {afterKey afterColon : List Char} (name : readString keys body = some (key, afterKey))
    (colon : Text.expect ':' (skipSpace afterKey) = some afterColon)
    (first : readValue inner inner fuel (skipSpace afterColon) = some (value, tail))
    (comma : skipSpace tail = ',' :: behind)
    (others : readMembers keys inner fuel (skipSpace behind) = some (members, rest)) :
    readMembers keys inner (fuel + 1) ('"' :: body) = some ((key, value) :: members, rest) := by
  have quote : Text.expect '"' ('"' :: body) = some body := rfl
  simp [readMembers, quote, name, colon, first, comma, others]

private theorem readMembers_last {key : String} {value : Value} {afterKey afterColon : List Char}
    (name : readString keys body = some (key, afterKey))
    (colon : Text.expect ':' (skipSpace afterKey) = some afterColon)
    (first : readValue inner inner fuel (skipSpace afterColon) = some (value, tail))
    (closing : skipSpace tail = '}' :: rest) :
    readMembers keys inner (fuel + 1) ('"' :: body) = some ([(key, value)], rest) := by
  have quote : Text.expect '"' ('"' :: body) = some body := rfl
  simp [readMembers, quote, name, colon, first, closing]

private theorem readValue_digit {c : Char} (digit : c.isDigit = true) (text : List Char) :
    readValue keys inner (fuel + 1) (c :: text) = readNumber false (c :: text) := by
  have other : ∀ mark : Char, mark.isDigit = false → c ≠ mark :=
    fun mark => Text.ne_of_isDigit digit
  simp [readValue, other '"' rfl, other '[' rfl, other '{' rfl, other 'n' rfl, other 't' rfl,
    other 'f' rfl, other '-' rfl]

private theorem readValue_natural (n : Nat) (ends : EndsNumber rest) :
    readValue keys inner (fuel + 1) (Text.digits n ++ rest) = some (.natural n, rest) := by
  have other : rest.head? ≠ some '.' := fun point => (ends '.' point).2.1 rfl
  have read := readNumber_digits false n ends.noDigit other (readExponent_of_ends ends)
  obtain ⟨c, digits, split, digit⟩ := digits_eq_cons n
  rw [split, List.cons_append] at read ⊢
  rw [readValue_digit digit, read]
  rfl

private theorem readValue_decimal (negative : Bool) (n : Nat) (exponent : Int)
    (ends : EndsNumber rest) :
    readValue keys inner (fuel + 1) (writeDecimal negative n exponent ++ rest) =
      some (.decimal negative n exponent, rest) := by
  have read := readNumber_digits negative n (Text.noDigit_cons rfl) (by simp)
    (readExponent_writeDecimal exponent ends.noDigit)
  cases negative with
  | true =>
    have signed : writeDecimal true n exponent ++ rest = '-' :: (Text.digits n ++ 'e' ::
        ((if exponent < 0 then ['-'] else []) ++ Text.digits exponent.natAbs ++ rest)) := by
      simp [writeDecimal]
    rw [signed]
    exact read
  | false =>
    have unsigned : writeDecimal false n exponent ++ rest = Text.digits n ++ 'e' ::
        ((if exponent < 0 then ['-'] else []) ++ Text.digits exponent.natAbs ++ rest) := by
      simp [writeDecimal]
    obtain ⟨c, digits, split, digit⟩ := digits_eq_cons n
    rw [unsigned]
    rw [split, List.cons_append] at read ⊢
    rw [readValue_digit digit, read]
    rfl

/-! ### Whole values -/

private theorem length_write_pos (layout : Layout) (level : Nat) (v : Value) :
    0 < (write layout level v).length := by
  obtain ⟨c, rest, split, -⟩ := write_eq_cons layout level v
  rw [split]
  exact Nat.zero_lt_succ _

mutual

/-- A value is read back in front of anything that does not make a number of it longer. -/
private theorem readValue_write (layout : Layout) (keys inner : HalfPair) (level fuel : Nat)
    (rest : List Char) (v : Value) (ends : EndsNumber rest)
    (enough : 2 * (write layout level v).length ≤ fuel) :
    readValue keys inner fuel (write layout level v ++ rest) = some (v, rest) := by
  -- Each value and each item or member takes one step of the fuel and at least one character, so
  -- twice the length is enough.
  have positive := length_write_pos layout level v
  obtain ⟨fuel, rfl⟩ := Nat.exists_eq_succ_of_ne_zero (show fuel ≠ 0 by omega)
  match v with
  | .null => rfl
  | .bool true => rfl
  | .bool false => rfl
  | .natural n => exact readValue_natural n ends
  | .decimal negative n exponent => exact readValue_decimal negative n exponent ends
  | .string text =>
    have read := readString_writeBody inner text rest
    simp [write, writeString, readValue, read]
  | .array [] => rfl
  | .object [] => rfl
  | .array (item :: items) =>
    simp only [write, List.length_cons, List.length_append] at enough
    simp only [write, List.cons_append, List.append_assoc]
    apply readValue_array
    · rw [skipSpace_gap, skipSpace_write]
      exact head?_write_ne layout (level + 1) item _
    · rw [skipSpace_gap, skipSpace_write]
      exact readItems_write layout inner level fuel rest item items (by omega)
  | .object ((key, value) :: members) =>
    simp only [write, List.length_cons, List.length_append] at enough
    simp only [write, List.cons_append, List.append_assoc]
    apply readValue_object
    · rw [skipSpace_gap]
      exact nofun
    · rw [skipSpace_gap]
      exact readMembers_write layout keys inner level fuel rest key value members (by omega)
termination_by fuel

private theorem readItems_write (layout : Layout) (inner : HalfPair) (level fuel : Nat)
    (rest : List Char)
    (item : Value) (items : List Value)
    (enough : 2 * ((write layout (level + 1) item).length +
      (writeItems layout level items).length) ≤ fuel) :
    readItems inner fuel
        (write layout (level + 1) item ++ (writeItems layout level items ++ rest)) =
      some (item :: items, rest) := by
  have positive := length_write_pos layout (level + 1) item
  obtain ⟨fuel, rfl⟩ := Nat.exists_eq_succ_of_ne_zero (show fuel ≠ 0 by omega)
  match items with
  | [] =>
    simp only [writeItems, List.length_append, List.length_cons] at enough
    have first := readValue_write layout inner inner (level + 1) fuel _ item
      (endsNumber_writeItems layout level [] rest) (by omega)
    refine readItems_last first ?_
    rw [writeItems, List.append_assoc, skipSpace_gap]
    rfl
  | next :: items =>
    simp only [writeItems, List.length_append, List.length_cons] at enough
    have first := readValue_write layout inner inner (level + 1) fuel _ item
      (endsNumber_writeItems layout level (next :: items) rest) (by omega)
    have comma : skipSpace (writeItems layout level (next :: items) ++ rest) =
        ',' :: (layout.gap (level + 1) ++ (write layout (level + 1) next ++
          (writeItems layout level items ++ rest))) := by
      simp only [writeItems, List.cons_append, List.append_assoc]
      exact skipSpace_cons rfl _
    refine readItems_cons first comma ?_
    rw [skipSpace_gap, skipSpace_write]
    exact readItems_write layout inner level fuel rest next items (by omega)
termination_by fuel

private theorem readMembers_write (layout : Layout) (keys inner : HalfPair) (level fuel : Nat)
    (rest : List Char) (key : String) (value : Value) (members : Members)
    (enough : 2 * ((write layout (level + 1) value).length +
      (writeMembers layout level members).length) ≤ fuel) :
    readMembers keys inner fuel (writeString key ++ (layout.colon ++
        (write layout (level + 1) value ++ (writeMembers layout level members ++ rest)))) =
      some ((key, value) :: members, rest) := by
  have positive := length_write_pos layout (level + 1) value
  obtain ⟨fuel, rfl⟩ := Nat.exists_eq_succ_of_ne_zero (show fuel ≠ 0 by omega)
  have name := readString_writeBody keys key (layout.colon ++
    (write layout (level + 1) value ++ (writeMembers layout level members ++ rest)))
  obtain ⟨behind, colon, blank⟩ := expect_colon layout
    (write layout (level + 1) value ++ (writeMembers layout level members ++ rest))
  rw [skipSpace_write] at blank
  match members with
  | [] =>
    simp only [writeMembers, List.length_append, List.length_cons] at enough
    have first := readValue_write layout inner inner (level + 1) fuel _ value
      (endsNumber_writeMembers layout level [] rest) (by omega)
    rw [← blank] at first
    refine readMembers_last name colon first ?_
    rw [writeMembers, List.append_assoc, skipSpace_gap]
    rfl
  | (nextKey, next) :: members =>
    simp only [writeMembers, List.length_append, List.length_cons] at enough
    have first := readValue_write layout inner inner (level + 1) fuel _ value
      (endsNumber_writeMembers layout level ((nextKey, next) :: members) rest) (by omega)
    rw [← blank] at first
    have comma : skipSpace (writeMembers layout level ((nextKey, next) :: members) ++ rest) =
        ',' :: (layout.gap (level + 1) ++ (writeString nextKey ++ (layout.colon ++
          (write layout (level + 1) next ++ (writeMembers layout level members ++ rest))))) := by
      simp only [writeMembers, List.cons_append, List.append_assoc]
      exact skipSpace_cons rfl _
    refine readMembers_cons name colon first comma ?_
    rw [skipSpace_gap]
    exact readMembers_write layout keys inner level fuel rest nextKey next members (by omega)
termination_by fuel

end

/-- Reading the text of a value gives the value. -/
theorem readText_render (layout : Layout) (keys inner : HalfPair) (v : Value) :
    readText keys inner (v.render layout).toList = some v := by
  have read := readValue_write layout keys inner 0 (2 * (write layout 0 v).length + 2) [] v
    endsNumber_nil (by omega)
  have front := skipSpace_write layout 0 v []
  rw [List.append_nil] at read front
  have done : skipSpace [] = [] := rfl
  simp [readText, Value.render, front, read, done]

theorem read?_render (layout : Layout) (v : Value) : read? (v.render layout) = some v :=
  readText_render layout .refused .refused v

theorem readWithinLimits?_render (layout : Layout) {v : Value} (within : v.withinLimits = true) :
    readWithinLimits? (v.render layout) = some v := by
  rw [readWithinLimits?, read?_render, Option.filter_some, if_pos within]

end TokenPlan.Json
