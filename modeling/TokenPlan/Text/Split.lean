/-!
Cutting a text at the first or at every occurrence of a character, and reading runs of digits off
its front.
-/

set_option autoImplicit false
set_option relaxedAutoImplicit false

namespace TokenPlan.Text

/-- The parts before and after the first `mark`, if there is one. -/
def cut (mark : Char) : List Char → Option (List Char × List Char)
  | [] => none
  | c :: rest =>
    if c = mark then some ([], rest)
    else (cut mark rest).map fun parts => (c :: parts.1, parts.2)

/-- The parts of a text around every `mark`; a text without one is a single part. -/
def parts (mark : Char) : List Char → List (List Char)
  | [] => [[]]
  | c :: rest =>
    if c = mark then [] :: parts mark rest
    else
      match parts mark rest with
      | [] => [[c]]
      | part :: others => (c :: part) :: others

/-- The number that a run of decimal digits spells. -/
def spelled (digits : List Char) : Nat :=
  Nat.ofDigitChars 10 digits 0

/-- The decimal digits of a number, without leading zeros. -/
def digits (n : Nat) : List Char :=
  Nat.toDigits 10 n

def numeral (n : Nat) : String :=
  String.ofList (digits n)

/-- The decimal digits of a number, with leading zeros up to `width` digits. -/
def paddedDigits (width n : Nat) : List Char :=
  List.leftpad width '0' (digits n)

/-- Drops the character `mark` off the front, where it has to stand. -/
def expect (mark : Char) : List Char → Option (List Char)
  | [] => none
  | c :: rest => if c = mark then some rest else none

/-- Reads exactly `width` digits. -/
def readFixed (width : Nat) (text : List Char) : Option (Nat × List Char) :=
  let run := text.take width
  if run.length = width ∧ run.all Char.isDigit = true then some (spelled run, text.drop width)
  else none

/-- Reads between one and `width` digits, as many as there are. -/
def readUpTo (width : Nat) (text : List Char) : Option (Nat × List Char) :=
  let run := (text.take width).takeWhile Char.isDigit
  if run = [] then none else some (spelled run, text.drop run.length)

def readRun (text : List Char) : Option (Nat × List Char) :=
  let run := text.takeWhile Char.isDigit
  if run = [] then none else some (spelled run, text.dropWhile Char.isDigit)

theorem spelled_digits (n : Nat) : spelled (digits n) = n :=
  Nat.ofDigitChars_toDigits (by decide) (by decide)

theorem isDigit_of_mem_digits {n : Nat} {c : Char} (mem : c ∈ digits n) : c.isDigit = true :=
  Nat.isDigit_of_mem_toDigits (by decide) (by decide) mem

/-- A cut loses the mark and nothing else. -/
theorem eq_of_cut {mark : Char} {text before after : List Char}
    (found : cut mark text = some (before, after)) : text = before ++ mark :: after := by
  induction text generalizing before with
  | nil => simp [cut] at found
  | cons c rest ih =>
    simp only [cut] at found
    split at found
    · simp_all
    · obtain ⟨parts, inner, split⟩ := Option.map_eq_some_iff.mp found
      cases split
      rw [ih inner]
      rfl

theorem parts_ne_nil (mark : Char) (text : List Char) : parts mark text ≠ [] := by
  cases text with
  | nil => simp [parts]
  | cons c rest =>
    simp only [parts]
    split
    · simp
    · split <;> simp

end TokenPlan.Text
