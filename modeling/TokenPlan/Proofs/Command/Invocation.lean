import TokenPlan.Proofs.Command.Words

/-!
What a whole command line asks for. The switch for production and the option that names the file of
a text can be left out of a line, wherever they stand: the rest asks for the same invocation, but
for what they say. A text is saved only where words of the line name the file.
-/

set_option autoImplicit false
set_option relaxedAutoImplicit false

namespace TokenPlan.Command

/-- The words that name the file of a text. -/
inductive OutPhrase (path : String) : List String → Prop
  | separate : OutPhrase path ["--out", path]
  | attached : OutPhrase path ["--out=" ++ path]

namespace Invocation

variable {arguments before phrase after rest : List String} {command name value path : String}
variable {g : Grammar} {build : Given → Invocation} {i j : Invocation}

/-- The file that the text of an invocation is saved in. -/
def out? : Invocation → Option String
  | .plan options => options.out
  | .table path? => path?
  | _ => none

/-- The same invocation, with its text printed. -/
def printed : Invocation → Invocation
  | .plan options => .plan { options with out := none }
  | .table _ => .table none
  | i => i

/-! ### Commands -/

/-- A command with options of its own, how they are read, and what they ask for. -/
inductive Form : String → Grammar → (Given → Invocation) → Prop
  | plan : Form "plan" planGrammar planOf
  | supply : Form "supply" supplyGrammar supplyOf
  | table : Form "table" tableGrammar tableOf

private theorem Form.inner (form : Form command g build) : g.outermost = false := by
  cases form <;> rfl

private theorem Form.ofCommand?_eq (form : Form command g build) (rest : List String) :
    ofCommand? command rest = ofScan? build (g.scan [] rest) := by
  cases form <;> rfl

/-- What the words after a command ask for. -/
inductive Answers : String → List String → Invocation → Prop
  | given {command : String} {g : Grammar} {build : Given → Invocation} {rest : List String}
      {given : Given} (form : Form command g build) (reads : g.Reads [] rest (.done given)) :
      Answers command rest (build given)
  | help {command : String} {g : Grammar} {build : Given → Invocation} {rest : List String}
      (form : Form command g build) (reads : g.Reads [] rest .help) : Answers command rest .help
  | topic {rest : List String} (few : rest.length ≤ 1) (known : ∀ word ∈ rest, word ∈ helpTopics) :
      Answers "help" rest .help

private theorem ofScan?_eq_some_iff {scanned : Option Scan} :
    ofScan? build scanned = some i ↔
      (∃ given, scanned = some (.done given) ∧ build given = i) ∨
        scanned = some .help ∧ i = .help := by
  unfold ofScan?
  split <;> simp_all [eq_comm]

private theorem ofCommand?_eq_some_iff :
    ofCommand? command rest = some i ↔ Answers command rest i := by
  constructor
  · intro asked
    have answers : ∀ {g build}, Form command g build → Answers command rest i := by
      intro g build form
      rw [form.ofCommand?_eq, ofScan?_eq_some_iff] at asked
      rcases asked with ⟨given, scanned, rfl⟩ | ⟨scanned, rfl⟩
      · exact .given form (Grammar.reads_of_scan scanned)
      · exact .help form (Grammar.reads_of_scan scanned)
    by_cases plan : command = "plan"
    · subst plan
      exact answers .plan
    by_cases supply : command = "supply"
    · subst supply
      exact answers .supply
    by_cases table : command = "table"
    · subst table
      exact answers .table
    simp only [ofCommand?, plan, supply, table, if_false] at asked
    split at asked
    · rename_i topic
      cases asked
      obtain ⟨rfl, few, known⟩ := topic
      exact .topic few (by simpa using known)
    · cases asked
  · rintro (⟨form, reads⟩ | ⟨form, reads⟩ | ⟨few, known⟩)
    · rw [form.ofCommand?_eq, Grammar.scan_of_reads reads]
      rfl
    · rw [form.ofCommand?_eq, Grammar.scan_of_reads reads]
      rfl
    · simpa [ofCommand?, few] using known

private theorem parse?_eq_some_iff :
    parse? arguments = some i ↔
      (∃ command rest, outerGrammar.Reads [] arguments (.command command rest) ∧
        Answers command rest i) ∨
      (outerGrammar.Reads [] arguments .help ∧ i = .help) ∨
      (outerGrammar.Reads [] arguments .version ∧ i = .version) := by
  unfold parse?
  simp only [← Grammar.scan_eq_some_iff, ← ofCommand?_eq_some_iff]
  cases outerGrammar.scan [] arguments with
  | none => simp
  | some scanned =>
    cases scanned with
    | command name rest =>
      simp only [Option.some.injEq, Scan.command.injEq, reduceCtorEq, false_and, or_false]
      constructor
      · exact fun asked => ⟨name, rest, ⟨rfl, rfl⟩, asked⟩
      · rintro ⟨_, _, ⟨rfl, rfl⟩, asked⟩
        exact asked
    | done | help | version => simp [eq_comm]

/-! ### Leaving an option out -/

/-- Words that every command reads as one of its options, and no place before a command does. -/
structure Marks (phrase : List String) (name value : String) : Prop where
  phrased : ∀ {command g build}, Form command g build → g.Phrase phrase name value
  ordinary : name ≠ "help" ∧ name ≠ "version"
  unknown : outerGrammar.takesValue name = false

/-- What a line asks for with the words of an option, and without them. -/
inductive Omits (name value : String) : Invocation → Invocation → Prop
  | given {command : String} {g : Grammar} {build : Given → Invocation} {front back : Given}
      (form : Form command g build) (alone : name ∉ (front ++ back).map Prod.fst) :
      Omits name value (build (front ++ (name, value) :: back)) (build (front ++ back))
  | help : Omits name value .help .help
  | version : Omits name value .version .version

private theorem Marks.opens (marks : Marks phrase name value) : Grammar.Opens name phrase :=
  (marks.phrased .plan).opens

private theorem not_topic {text : String} {attached : Option String}
    (lexeme : Lexeme.ofText text = .option name attached) : text ∉ helpTopics := by
  have plain : ∀ topic ∈ helpTopics, Lexeme.ofText topic = .plain topic := by decide
  intro mem
  rw [plain text mem] at lexeme
  cases lexeme

private theorem Marks.exists_answers (marks : Marks phrase name value)
    (answers : Answers command (before ++ (phrase ++ after)) i) :
    ∃ j, Answers command (before ++ after) j ∧ Omits name value i j := by
  cases answers with
  | given form reads =>
    obtain ⟨t, without, omits⟩ := (marks.phrased form).omit form.inner reads
    cases omits with
    | done alone => exact ⟨_, .given form without, .given form alone⟩
    | asked asks => rcases asks with done | done <;> cases done
  | help form reads =>
    obtain ⟨t, without, omits⟩ := (marks.phrased form).omit form.inner reads
    cases omits with
    | asked => exact ⟨_, .help form without, .help⟩
  | topic few known =>
    obtain ⟨text, others, attached, rfl, lexeme⟩ := marks.opens
    exact absurd (known text (by simp)) (not_topic lexeme)

/-- No place before a command knows the option, so it stands behind one or behind a call for help. -/
private theorem Marks.outer_reads (marks : Marks phrase name value) {s : Scan}
    (reads : outerGrammar.Reads [] (before ++ (phrase ++ after)) s) :
    (∃ command words, s = .command command (words ++ (phrase ++ after)) ∧
      outerGrammar.Reads [] (before ++ after) (.command command (words ++ after))) ∨
    ((s = .help ∨ s = .version) ∧ outerGrammar.Reads [] (before ++ after) s) := by
  have opens := marks.opens.append after
  cases reads.leads opens with
  | asked asks regardless => exact .inr ⟨asks, regardless after⟩
  | @command command words outermost named =>
    exact .inl ⟨command, words, rfl, named after⟩
  | reached through behind =>
    rcases behind.knows opens marks.ordinary with valued | switched
    · rw [marks.unknown] at valued
      cases valued
    · cases switched

/-- A line that has a meaning has one without the option, and it is the same but for the option. -/
theorem Marks.exists_omits (marks : Marks phrase name value)
    (parsed : parse? (before ++ (phrase ++ after)) = some i) :
    ∃ j, parse? (before ++ after) = some j ∧ Omits name value i j := by
  simp only [parse?_eq_some_iff] at parsed ⊢
  rcases parsed with ⟨command, rest, reads, answers⟩ | ⟨reads, rfl⟩ | ⟨reads, rfl⟩
  · rcases marks.outer_reads reads with ⟨command, words, same, without⟩ | ⟨asks, -⟩
    · cases same
      obtain ⟨j, answers, omits⟩ := marks.exists_answers answers
      exact ⟨j, .inl ⟨command, _, without, answers⟩, omits⟩
    · rcases asks with done | done <;> cases done
  · rcases marks.outer_reads reads with ⟨_, _, same, -⟩ | ⟨-, without⟩
    · cases same
    · exact ⟨.help, .inr (.inl ⟨without, rfl⟩), .help⟩
  · rcases marks.outer_reads reads with ⟨_, _, same, -⟩ | ⟨-, without⟩
    · cases same
    · exact ⟨.version, .inr (.inr ⟨without, rfl⟩), .version⟩

/-! ### The switch for production and the file of a text -/

private theorem ofText_out (path : String) :
    Lexeme.ofText ("--out=" ++ path) = .option "out" (some path) := by
  have body : ("--out=" ++ path).toList = '-' :: '-' :: ("out=".toList ++ path.toList) := by
    rw [String.toList_append]
    rfl
  simp [Lexeme.ofText, body, Text.cut]

theorem marks_production : Marks ["--production"] "production" "" := by
  constructor
  case phrased =>
    intro command g build form
    have bare : g.takesValue "production" = false := by cases form <;> decide
    exact Grammar.phrase_switch (by decide) (by decide) bare
  case ordinary => decide
  case unknown => decide

theorem marks_out (phrase_of : OutPhrase path phrase) : Marks phrase "out" path := by
  constructor
  case phrased =>
    intro command g build form
    cases phrase_of with
    | separate =>
      have no_switch : "out" ∉ g.switches := by cases form <;> decide
      exact Grammar.phrase_separate (by decide) (by decide) no_switch
    | attached => exact Grammar.phrase_attached (ofText_out path)
  case ordinary => decide
  case unknown => decide

private theorem valueOf?_omit {front back : Given} {other : String} (different : name ≠ other)
    (content : String) :
    valueOf? name (front ++ (other, content) :: back) = valueOf? name (front ++ back) := by
  simp [valueOf?, List.find?_append, Ne.symm different]

private theorem valueOf?_of_alone {front back : Given} (alone : name ∉ (front ++ back).map Prod.fst)
    (value : String) :
    valueOf? name (front ++ (name, value) :: back) = some value ∧
      valueOf? name (front ++ back) = none := by
  have absent : ∀ entry ∈ front ++ back, entry.1 ≠ name := by
    intro entry mem same
    exact alone (List.mem_map.mpr ⟨entry, mem, same⟩)
  have none_of : ∀ part : Given, (∀ entry ∈ part, entry ∈ front ++ back) →
      part.find? (fun entry => entry.1 = name) = none := by
    intro part sub
    rw [List.find?_eq_none]
    intro entry mem
    simpa using absent entry (sub entry mem)
  constructor
  · rw [valueOf?, List.find?_append, none_of front fun entry => List.mem_append_left back]
    simp
  · rw [valueOf?, none_of _ fun entry mem => mem]
    rfl

theorem Omits.production (omits : Omits "production" "" i j) :
    (i = j ∧ ∀ options, i ≠ .plan options) ∨
      ∃ options : PlanOptions, options.production = false ∧
        i = .plan { options with production := true } ∧ j = .plan options := by
  cases omits with
  | help | version => exact .inl ⟨rfl, nofun⟩
  | @given command g build front back form alone =>
    have other : ∀ name, name ≠ "production" →
        valueOf? name (front ++ ("production", "") :: back) = valueOf? name (front ++ back) :=
      fun name different => valueOf?_omit different ""
    cases form with
    | supply => exact .inl ⟨by simp [supplyOf, other], nofun⟩
    | table => exact .inl ⟨by simp [tableOf, other], nofun⟩
    | plan =>
      obtain ⟨told, untold⟩ := valueOf?_of_alone alone ""
      exact .inr ⟨_, by simp [untold], by simp [planOf, other, told], rfl⟩

theorem Omits.out (omits : Omits "out" path i j) : j = i.printed := by
  cases omits with
  | help | version => rfl
  | @given command g build front back form alone =>
    have other : ∀ name, name ≠ "out" →
        valueOf? name (front ++ ("out", path) :: back) = valueOf? name (front ++ back) :=
      fun name different => valueOf?_omit different path
    have untold := (valueOf?_of_alone alone path).2
    cases form with
    | supply => simp [supplyOf, printed, other]
    | table => simp [tableOf, printed, untold]
    | plan => simp [planOf, printed, other, untold]

private theorem mem_of_valueOf? {given : Given} (told : valueOf? name given = some value) :
    (name, value) ∈ given := by
  obtain ⟨entry, found, rfl⟩ := Option.map_eq_some_iff.mp told
  have same : entry.1 = name := by simpa using List.find?_some found
  exact same ▸ List.mem_of_find?_eq_some found

theorem exists_outPhrase (parsed : parse? arguments = some i) (saved : i.out? = some path) :
    ∃ before phrase after, arguments = before ++ (phrase ++ after) ∧ OutPhrase path phrase := by
  rcases parse?_eq_some_iff.mp parsed with ⟨command, rest, outer, answers⟩ | ⟨-, rfl⟩ | ⟨-, rfl⟩
  · cases answers with
    | help | topic => cases saved
    | @given _ g build _ given form reads =>
      have mem : ("out", path) ∈ given := by
        cases form with
        | plan => exact mem_of_valueOf? saved
        | supply => cases saved
        | table => exact mem_of_valueOf? saved
      obtain ⟨front, rfl⟩ := outer.exists_before
      rcases reads.exists_words mem with told | ⟨before, phrase, after, rfl, spelled⟩
      · cases told
      · refine ⟨front ++ before, phrase, after, by rw [List.append_assoc], ?_⟩
        cases spelled with
        | switch lexeme ordinary bare known => cases form <;> exact absurd known (by decide)
        | attached lexeme =>
          rw [Lexeme.eq_of_attached lexeme]
          have text : "--" ++ ("out" ++ ("=" ++ path)) = "--out=" ++ path := by
            simp only [← String.append_assoc]
            rfl
          exact text ▸ .attached
        | separate lexeme ordinary plain =>
          obtain rfl := Lexeme.eq_of_bare lexeme
          obtain rfl := Lexeme.eq_of_plain plain
          exact .separate
  · cases saved
  · cases saved

end Invocation

end TokenPlan.Command
