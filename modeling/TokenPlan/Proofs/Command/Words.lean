import TokenPlan.Command.Invocation

/-!
What the words of a command line are read as. One place of a command line is a sequence of options
and switches, each of one or two words, and ends with its words, with the name of a command, or
where help or the version is asked for. The words of one option may be left out: the rest is then
read as it was, but for that option.
-/

set_option autoImplicit false
set_option relaxedAutoImplicit false

namespace TokenPlan.Command

/-! ### Lexemes -/

namespace Lexeme

variable {text name value : String}

theorem eq_of_plain (lexeme : ofText text = .plain value) : value = text := by
  unfold ofText at lexeme
  split at lexeme
  · cases lexeme
  · split at lexeme <;> cases lexeme
  · cases lexeme
  · cases lexeme
    rfl

theorem eq_of_bare (lexeme : ofText text = .option name none) : text = "--" ++ name := by
  unfold ofText at lexeme
  split at lexeme
  · cases lexeme
  · rename_i body nonempty split_text
    split at lexeme
    · cases lexeme
      rw [← String.toList_inj, split_text]
      simp
    · cases lexeme
  · cases lexeme
  · cases lexeme

theorem eq_of_attached (lexeme : ofText text = .option name (some value)) :
    text = "--" ++ (name ++ ("=" ++ value)) := by
  unfold ofText at lexeme
  split at lexeme
  · cases lexeme
  · rename_i body nonempty split_text
    split at lexeme
    · cases lexeme
    · rename_i before after found
      cases lexeme
      rw [Text.eq_of_cut found] at split_text
      rw [← String.toList_inj, split_text]
      simp
  · cases lexeme
  · cases lexeme

end Lexeme

namespace Grammar

/-- The option is known and takes the value. -/
def Takes (g : Grammar) (name value : String) : Prop :=
  ∃ option, g.options.find? (fun option => option.1 = name) = some option ∧ option.2 value = true

/-- A word that ends the reading by asking for something. -/
inductive Asks (g : Grammar) : Lexeme → Scan → Prop
  | shortHelp : Asks g (.letter 'h') .help
  | help : Asks g (.option "help" none) .help
  | shortVersion (outermost : g.outermost = true) : Asks g (.letter 'V') .version
  | version (outermost : g.outermost = true) : Asks g (.option "version" none) .version

/-- The words that give a switch, or an option with its value attached or in the next word. -/
inductive Spells (g : Grammar) : List String → String → String → Prop
  | switch {text name : String} (lexeme : Lexeme.ofText text = .option name none)
      (ordinary : ∀ s, ¬ g.Asks (.option name none) s) (bare : g.takesValue name = false)
      (known : name ∈ g.switches) : Spells g [text] name ""
  | attached {text name value : String} (lexeme : Lexeme.ofText text = .option name (some value))
      (taken : g.Takes name value) : Spells g [text] name value
  | separate {text next name value : String} (lexeme : Lexeme.ofText text = .option name none)
      (ordinary : ∀ s, ¬ g.Asks (.option name none) s) (plain : Lexeme.ofText next = .plain value)
      (taken : g.Takes name value) : Spells g [text, next] name value

/-- How the words of one place are read, with what was given before them. -/
inductive Reads (g : Grammar) : Given → List String → Scan → Prop
  | nil {given : Given} : Reads g given [] (.done given)
  | escape {given : Given} {text : String} (lexeme : Lexeme.ofText text = .escape) :
      Reads g given [text] (.done given)
  | command {given : Given} {text name : String} {rest : List String}
      (lexeme : Lexeme.ofText text = .plain name) (outermost : g.outermost = true) :
      Reads g given (text :: rest) (.command name rest)
  | asked {given : Given} {text : String} {rest : List String} {s : Scan}
      (asks : g.Asks (Lexeme.ofText text) s) : Reads g given (text :: rest) s
  | entry {given extended : Given} {words rest : List String} {name value : String} {s : Scan}
      (spelled : g.Spells words name value) (added : give name value given = some extended)
      (behind : Reads g extended rest s) : Reads g given (words ++ rest) s

variable {g : Grammar} {given extended : Given} {name value : String}

private theorem give_eq_some_iff :
    give name value given = some extended ↔
      name ∉ given.map Prod.fst ∧ extended = (name, value) :: given := by
  unfold give
  by_cases known : given.any fun entry => entry.1 = name
  · have mem : name ∈ given.map Prod.fst := by simpa using known
    rw [if_pos known]
    exact ⟨nofun, fun fresh => absurd mem fresh.1⟩
  · have fresh : name ∉ given.map Prod.fst := by simpa using known
    rw [if_neg known, Option.some.injEq]
    exact ⟨fun eq => ⟨fresh, eq.symm⟩, fun added => added.2.symm⟩

private theorem giveOption_eq_some_iff :
    g.giveOption name value given = some extended ↔
      g.Takes name value ∧ give name value given = some extended := by
  unfold giveOption Takes
  cases found : g.options.find? (fun option => option.1 = name) with
  | none => simp
  | some option => by_cases takes : option.2 value = true <;> simp [takes]

private theorem giveSwitch_eq_some_iff :
    g.giveSwitch name given = some extended ↔
      name ∈ g.switches ∧ give name "" given = some extended := by
  unfold giveSwitch
  split <;> simp_all

private theorem takesValue_of_takes (taken : g.Takes name value) : g.takesValue name = true := by
  obtain ⟨option, found, -⟩ := taken
  have same : option.1 = name := by simpa using List.find?_some found
  exact List.any_eq_true.mpr ⟨option, List.mem_of_find?_eq_some found, by simp [same]⟩

/-! ### The relation is what is computed -/

private theorem ordinary_iff :
    (∀ s, ¬ g.Asks (.option name none) s) ↔
      name ≠ "help" ∧ ¬ (g.outermost = true ∧ name = "version") := by
  constructor
  · intro ordinary
    constructor
    · rintro rfl
      exact ordinary _ .help
    · rintro ⟨outermost, rfl⟩
      exact ordinary _ (.version outermost)
  · rintro ⟨noHelp, noVersion⟩ s asks
    cases asks with
    | help => exact noHelp rfl
    | version outermost => exact noVersion ⟨outermost, rfl⟩

theorem reads_of_scan {words : List String} {s : Scan} (scanned : g.scan given words = some s) :
    g.Reads given words s := by
  fun_induction g.scan given words with
  | case1 given =>
    cases scanned
    exact .nil
  | case2 given text lexeme =>
    cases scanned
    exact .escape lexeme
  | case4 given text rest name lexeme outermost =>
    cases scanned
    exact .command lexeme outermost
  | case6 given text rest lexeme =>
    cases scanned
    exact .asked (lexeme ▸ .shortHelp)
  | case7 given text rest c other lexeme version =>
    cases scanned
    obtain ⟨outermost, rfl⟩ := version
    exact .asked (lexeme ▸ .shortVersion outermost)
  | case9 given text rest lexeme =>
    cases scanned
    exact .asked (lexeme ▸ .help)
  | case10 given text rest name value lexeme ih =>
    obtain ⟨extended, added, behind⟩ := Option.bind_eq_some_iff.mp scanned
    obtain ⟨taken, added⟩ := giveOption_eq_some_iff.mp added
    exact .entry (.attached lexeme taken) added (ih extended behind)
  | case11 given text rest name other lexeme version =>
    cases scanned
    obtain ⟨outermost, rfl⟩ := version
    exact .asked (lexeme ▸ .version outermost)
  | case13 given text name other lexeme noVersion valued next rest value plain ih =>
    obtain ⟨extended, added, behind⟩ := Option.bind_eq_some_iff.mp scanned
    obtain ⟨taken, added⟩ := giveOption_eq_some_iff.mp added
    have ordinary := ordinary_iff.mpr ⟨other, noVersion⟩
    exact .entry (.separate lexeme ordinary plain taken) added (ih extended behind)
  | case15 given text rest name other lexeme noVersion bare ih =>
    obtain ⟨extended, added, behind⟩ := Option.bind_eq_some_iff.mp scanned
    obtain ⟨known, added⟩ := giveSwitch_eq_some_iff.mp added
    have ordinary := ordinary_iff.mpr ⟨other, noVersion⟩
    have bare : g.takesValue name = false := by simpa using bare
    exact .entry (.switch lexeme ordinary bare known) added (ih extended behind)
  | case3 | case5 | case8 | case12 | case14 => cases scanned

theorem scan_of_reads {words : List String} {s : Scan} (reads : g.Reads given words s) :
    g.scan given words = some s := by
  induction reads with
  | nil => rfl
  | escape lexeme => simp [scan, lexeme]
  | command lexeme outermost => simp [scan, lexeme, outermost]
  | @asked given text rest s asks =>
    generalize lexeme : Lexeme.ofText text = l at asks
    cases asks <;> simp_all [scan]
  | @entry given extended words rest name value s spelled added behind ih =>
    cases spelled with
    | switch lexeme ordinary bare known =>
      obtain ⟨noHelp, noVersion⟩ := ordinary_iff.mp ordinary
      have added := giveSwitch_eq_some_iff.mpr ⟨known, added⟩
      simp [scan, lexeme, noVersion, bare, added, ih]
    | attached lexeme taken =>
      have added := giveOption_eq_some_iff.mpr ⟨taken, added⟩
      simp [scan, lexeme, added, ih]
    | separate lexeme ordinary plain taken =>
      obtain ⟨noHelp, noVersion⟩ := ordinary_iff.mp ordinary
      have valued := takesValue_of_takes taken
      have added := giveOption_eq_some_iff.mpr ⟨taken, added⟩
      simp [scan, lexeme, noVersion, valued, plain, added, ih]

theorem scan_eq_some_iff {words : List String} {s : Scan} :
    g.scan given words = some s ↔ g.Reads given words s :=
  ⟨reads_of_scan, scan_of_reads⟩

/-! ### Words before an option -/

/-- The words begin with an option or a switch of the name, whether or not the grammar knows it. -/
def Opens (name : String) (words : List String) : Prop :=
  ∃ text rest attached, words = text :: rest ∧ Lexeme.ofText text = .option name attached

/-- How the words before an option end, whatever follows them: the option is reached or not. -/
inductive Leads (g : Grammar) (given : Given) (before tail : List String) : Scan → Prop
  | asked {s : Scan} (asks : s = .help ∨ s = .version)
      (regardless : ∀ rest, g.Reads given (before ++ rest) s) : Leads g given before tail s
  | command {name : String} {words : List String} (outermost : g.outermost = true)
      (named : ∀ rest, g.Reads given (before ++ rest) (.command name (words ++ rest))) :
      Leads g given before tail (.command name (words ++ tail))
  | reached {extended : Given} {s : Scan}
      (through : ∀ rest s, g.Reads extended rest s → g.Reads given (before ++ rest) s)
      (behind : g.Reads extended tail s) : Leads g given before tail s

variable {before words after tail : List String} {s : Scan}

private theorem Asks.eq_or_eq {lexeme : Lexeme} (asks : g.Asks lexeme s) :
    s = .help ∨ s = .version := by
  cases asks with
  | shortHelp | help => exact .inl rfl
  | shortVersion | version => exact .inr rfl

private theorem Leads.entry (spelled : g.Spells words name value)
    (added : give name value given = some extended) (leads : g.Leads extended before tail s) :
    g.Leads given (words ++ before) tail s := by
  have extend : ∀ {rest s}, g.Reads extended (before ++ rest) s →
      g.Reads given (words ++ before ++ rest) s := by
    intro rest s reads
    rw [List.append_assoc]
    exact .entry spelled added reads
  cases leads with
  | asked asks regardless => exact .asked asks fun rest => extend (regardless rest)
  | command outermost named => exact .command outermost fun rest => extend (named rest)
  | reached through behind => exact .reached (fun _ _ reads => extend (through _ _ reads)) behind

theorem Opens.append (opens : Opens name words) (after : List String) :
    Opens name (words ++ after) := by
  obtain ⟨text, rest, attached, rfl, lexeme⟩ := opens
  exact ⟨text, rest ++ after, attached, rfl, lexeme⟩

private theorem Opens.ne_nil (opens : Opens name words) : words ≠ [] := by
  rintro rfl
  obtain ⟨text, rest, attached, split, -⟩ := opens
  cases split

private theorem Opens.not_plain {text : String} {rest : List String}
    (opens : Opens name (text :: rest)) :
    Lexeme.ofText text ≠ .plain value := by
  obtain ⟨_, _, attached, split, lexeme⟩ := opens
  obtain ⟨rfl, rfl⟩ := List.cons.inj split
  rw [lexeme]
  exact nofun

/-- What is read of words is told by those before an option, up to what the option leads to. -/
theorem Reads.leads (reads : g.Reads given (before ++ tail) s) (opens : Opens name tail) :
    g.Leads given before tail s := by
  by_cases none : before = []
  · subst none
    exact .reached (fun _ _ reads => reads) reads
  generalize line : before ++ tail = all at reads
  induction reads generalizing before with
  | nil => exact absurd (List.append_eq_nil_iff.mp line).1 none
  | escape lexeme =>
    obtain ⟨text, rest, rfl⟩ := List.exists_cons_of_ne_nil none
    have ended : rest ++ tail = [] := (List.cons.inj line).2
    exact absurd (List.append_eq_nil_iff.mp ended).2 opens.ne_nil
  | command lexeme outermost =>
    obtain ⟨text, rest, rfl⟩ := List.exists_cons_of_ne_nil none
    obtain ⟨rfl, rfl⟩ := List.cons.inj line
    exact .command outermost fun _ => .command lexeme outermost
  | asked asks =>
    obtain ⟨text, rest, rfl⟩ := List.exists_cons_of_ne_nil none
    obtain ⟨rfl, -⟩ := List.cons.inj line
    exact .asked asks.eq_or_eq fun _ => .asked asks
  | @entry given extended words rest name value s spelled added behind ih =>
    have further : ∀ next, next ++ tail = rest → g.Leads extended next tail s := by
      intro next split
      by_cases none : next = []
      · subst none
        obtain rfl : tail = rest := split
        exact .reached (fun _ _ reads => reads) behind
      · exact ih none split
    obtain ⟨text, others, rfl⟩ := List.exists_cons_of_ne_nil none
    cases spelled with
    | switch lexeme ordinary bare known =>
      obtain ⟨rfl, split⟩ := List.cons.inj line
      exact .entry (.switch lexeme ordinary bare known) added (further others split)
    | attached lexeme taken =>
      obtain ⟨rfl, split⟩ := List.cons.inj line
      exact .entry (.attached lexeme taken) added (further others split)
    | @separate _ next _ _ lexeme ordinary plain taken =>
      obtain ⟨rfl, split⟩ := List.cons.inj line
      -- The value is no option, so it stands before the option that follows.
      cases others with
      | nil =>
        obtain rfl : tail = next :: rest := split
        exact absurd plain opens.not_plain
      | cons second others =>
        obtain ⟨rfl, behind_value⟩ : second = next ∧ others ++ tail = rest := List.cons.inj split
        exact .entry (.separate lexeme ordinary plain taken) added (further others behind_value)

/-! ### Leaving an option out -/

/-- Words that are read as one entry of a known option, if they are read at all. -/
structure Phrase (g : Grammar) (words : List String) (name value : String) : Prop where
  opens : Opens name words
  gives : ∀ {given : Given} {after : List String} {s : Scan}, g.Reads given (words ++ after) s →
    ∃ extended, give name value given = some extended ∧ g.Reads extended after s

private theorem Reads.nodup {result : Given} (reads : g.Reads given words (.done result))
    (distinct : (given.map Prod.fst).Nodup) : (result.map Prod.fst).Nodup := by
  generalize done : Scan.done result = s at reads
  induction reads with
  | nil | escape =>
    cases done
    exact distinct
  | command => cases done
  | asked asks => rcases asks.eq_or_eq with rfl | rfl <;> cases done
  | entry spelled added behind ih =>
    obtain ⟨fresh, rfl⟩ := give_eq_some_iff.mp added
    exact ih (List.nodup_cons.mpr ⟨fresh, distinct⟩) done

private theorem Reads.rebase {fewer : Given} (reads : g.Reads given words s)
    (subset : ∀ name ∈ fewer.map Prod.fst, name ∈ given.map Prod.fst) :
    (∃ more, s = .done (more ++ given) ∧ g.Reads fewer words (.done (more ++ fewer))) ∨
      ((∀ result, s ≠ .done result) ∧ g.Reads fewer words s) := by
  induction reads generalizing fewer with
  | nil => exact .inl ⟨[], rfl, .nil⟩
  | escape lexeme => exact .inl ⟨[], rfl, .escape lexeme⟩
  | command lexeme outermost => exact .inr ⟨nofun, .command lexeme outermost⟩
  | asked asks =>
    refine .inr ⟨?_, .asked asks⟩
    rintro result rfl
    rcases asks.eq_or_eq with done | done <;> cases done
  | @entry given extended spelling rest other content s spelled added behind ih =>
    obtain ⟨fresh, rfl⟩ := give_eq_some_iff.mp added
    have added_to : give other content fewer = some ((other, content) :: fewer) :=
      give_eq_some_iff.mpr ⟨fun mem => fresh (subset other mem), rfl⟩
    have subset_with : ∀ name ∈ ((other, content) :: fewer).map Prod.fst,
        name ∈ ((other, content) :: given).map Prod.fst := by
      intro name mem
      rcases List.mem_cons.mp mem with rfl | mem
      · exact List.mem_cons_self
      · exact List.mem_cons_of_mem _ (subset name mem)
    rcases ih subset_with with ⟨more, rfl, reads⟩ | ⟨not_done, reads⟩
    · refine .inl ⟨more ++ [(other, content)], by simp, ?_⟩
      rw [List.append_assoc]
      exact .entry spelled added_to reads
    · exact .inr ⟨not_done, .entry spelled added_to reads⟩

/-- What becomes of what is read when the words of one entry are left out. -/
inductive Omits (name value : String) : Scan → Scan → Prop
  | done {front back : Given} (alone : name ∉ (front ++ back).map Prod.fst) :
      Omits name value (.done (front ++ (name, value) :: back)) (.done (front ++ back))
  | asked {s : Scan} (asks : s = .help ∨ s = .version) : Omits name value s s

private theorem Reads.asked_of_not_done (reads : g.Reads given words s)
    (inner : g.outermost = false)
    (not_done : ∀ result, s ≠ .done result) : s = .help ∨ s = .version := by
  induction reads with
  | nil | escape => exact absurd rfl (not_done _)
  | command lexeme outermost => exact absurd outermost (by simp [inner])
  | asked asks => exact asks.eq_or_eq
  | entry spelled added behind ih => exact ih not_done

/-- Where no command can be named, the words of an option can be left out. -/
theorem Phrase.omit {phrase : List String} (phrased : g.Phrase phrase name value)
    (inner : g.outermost = false) (reads : g.Reads [] (before ++ (phrase ++ after)) s) :
    ∃ t, g.Reads [] (before ++ after) t ∧ Omits name value s t := by
  cases reads.leads (phrased.opens.append after) with
  | asked asks regardless => exact ⟨s, regardless after, .asked asks⟩
  | command outermost named => exact absurd outermost (by simp [inner])
  | @reached given _ through behind =>
    obtain ⟨extended, added, reads_after⟩ := phrased.gives behind
    obtain ⟨-, rfl⟩ := give_eq_some_iff.mp added
    have subset : ∀ other ∈ given.map Prod.fst, other ∈ ((name, value) :: given).map Prod.fst :=
      fun other mem => List.mem_cons_of_mem name mem
    rcases reads_after.rebase subset with ⟨more, rfl, without⟩ | ⟨not_done, without⟩
    · refine ⟨_, through _ _ without, .done ?_⟩
      have distinct := reads.nodup List.nodup_nil
      rw [List.map_append, List.map_cons, List.perm_middle.nodup_iff, List.nodup_cons]
        at distinct
      rw [List.map_append]
      exact distinct.1
    · exact ⟨s, through _ _ without, .asked (without.asked_of_not_done inner not_done)⟩

/-! ### The words of an option -/

variable {text : String} {rest : List String}

private theorem Reads.of_attached (reads : g.Reads given (text :: rest) s)
    (lexeme : Lexeme.ofText text = .option name (some value)) :
    g.Takes name value ∧
      ∃ extended, give name value given = some extended ∧ g.Reads extended rest s := by
  have scanned := scan_of_reads reads
  simp only [scan, lexeme] at scanned
  obtain ⟨extended, added, behind⟩ := Option.bind_eq_some_iff.mp scanned
  obtain ⟨taken, added⟩ := giveOption_eq_some_iff.mp added
  exact ⟨taken, extended, added, reads_of_scan behind⟩

private theorem Reads.of_bare (reads : g.Reads given (text :: rest) s)
    (lexeme : Lexeme.ofText text = .option name none)
    (ordinary : name ≠ "help" ∧ name ≠ "version") :
    (g.takesValue name = false ∧ name ∈ g.switches ∧
      ∃ extended, give name "" given = some extended ∧ g.Reads extended rest s) ∨
    ∃ value after extended, rest = value :: after ∧ g.Takes name value ∧
      give name value given = some extended ∧ g.Reads extended after s := by
  obtain ⟨noHelp, noVersion⟩ := ordinary
  have scanned := scan_of_reads reads
  simp only [scan, lexeme, noVersion, and_false, if_false] at scanned
  by_cases valued : g.takesValue name = true
  · rw [if_pos valued] at scanned
    cases rest with
    | nil => cases scanned
    | cons next after =>
      simp only at scanned
      split at scanned
      · rename_i value plain
        obtain ⟨extended, added, behind⟩ := Option.bind_eq_some_iff.mp scanned
        obtain ⟨taken, added⟩ := giveOption_eq_some_iff.mp added
        obtain rfl := Lexeme.eq_of_plain plain
        exact .inr ⟨_, after, extended, rfl, taken, added, reads_of_scan behind⟩
      · cases scanned
  · rw [if_neg valued] at scanned
    obtain ⟨extended, added, behind⟩ := Option.bind_eq_some_iff.mp scanned
    obtain ⟨known, added⟩ := giveSwitch_eq_some_iff.mp added
    exact .inl ⟨by simpa using valued, known, extended, added, reads_of_scan behind⟩

theorem phrase_switch (lexeme : Lexeme.ofText text = .option name none)
    (ordinary : name ≠ "help" ∧ name ≠ "version") (bare : g.takesValue name = false) :
    g.Phrase [text] name "" := by
  refine ⟨⟨text, [], none, rfl, lexeme⟩, ?_⟩
  intro given after s reads
  rcases reads.of_bare lexeme ordinary with ⟨-, -, given_after⟩ | ⟨value, -, -, -, taken, -⟩
  · exact given_after
  · rw [takesValue_of_takes taken] at bare
    cases bare

theorem phrase_attached (lexeme : Lexeme.ofText text = .option name (some value)) :
    g.Phrase [text] name value :=
  ⟨⟨text, [], some value, rfl, lexeme⟩, fun reads => (reads.of_attached lexeme).2⟩

theorem phrase_separate (lexeme : Lexeme.ofText text = .option name none)
    (ordinary : name ≠ "help" ∧ name ≠ "version") (no_switch : name ∉ g.switches) :
    g.Phrase [text, value] name value := by
  refine ⟨⟨text, [value], none, rfl, lexeme⟩, ?_⟩
  intro given after s reads
  rcases reads.of_bare lexeme ordinary with ⟨-, known, -⟩ | ⟨next, behind, extended, split, -, read⟩
  · exact absurd known no_switch
  · obtain ⟨rfl, rfl⟩ := List.cons.inj split
    exact ⟨extended, read⟩

theorem Reads.knows (reads : g.Reads given words s) (opens : Opens name words)
    (ordinary : name ≠ "help" ∧ name ≠ "version") :
    g.takesValue name = true ∨ name ∈ g.switches := by
  obtain ⟨text, rest, attached, rfl, lexeme⟩ := opens
  cases attached with
  | some value => exact .inl (takesValue_of_takes (reads.of_attached lexeme).1)
  | none =>
    rcases reads.of_bare lexeme ordinary with ⟨-, known, -⟩ | ⟨value, -, -, -, taken, -⟩
    · exact .inr known
    · exact .inl (takesValue_of_takes taken)

theorem Reads.exists_words {result : Given} (reads : g.Reads given words (.done result))
    (mem : (name, value) ∈ result) :
    (name, value) ∈ given ∨ ∃ before phrase after,
      words = before ++ (phrase ++ after) ∧ g.Spells phrase name value := by
  generalize done : Scan.done result = s at reads
  induction reads with
  | nil | escape =>
    cases done
    exact .inl mem
  | command => cases done
  | asked asks => rcases asks.eq_or_eq with rfl | rfl <;> cases done
  | @entry given extended spelling rest other content s spelled added behind ih =>
    obtain ⟨-, rfl⟩ := give_eq_some_iff.mp added
    rcases ih done with before | ⟨before, phrase, after, rfl, phrased⟩
    · rcases List.mem_cons.mp before with same | before
      · cases same
        exact .inr ⟨[], spelling, rest, rfl, spelled⟩
      · exact .inl before
    · exact .inr ⟨spelling ++ before, phrase, after, by simp, phrased⟩

theorem Reads.exists_before {command : String}
    (reads : g.Reads given words (.command command rest)) : ∃ before, words = before ++ rest := by
  generalize named : Scan.command command rest = s at reads
  induction reads with
  | nil | escape => cases named
  | command =>
    cases named
    exact ⟨[_], rfl⟩
  | asked asks => rcases asks.eq_or_eq with rfl | rfl <;> cases named
  | entry spelled added behind ih =>
    obtain ⟨before, rfl⟩ := ih named
    exact ⟨_ ++ before, by rw [List.append_assoc]⟩

end Grammar

end TokenPlan.Command
