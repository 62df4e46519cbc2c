import TokenPlan.Command.Run
import TokenPlan.Proofs.Command.Directory
import TokenPlan.Proofs.Command.Invocation

/-!
What a run leaves behind. A run that fails prints nothing and leaves every file as it is. A run that
saves its text saves it in one file and prints nothing; the same line without that file prints the
text.
-/

set_option autoImplicit false
set_option relaxedAutoImplicit false

namespace TokenPlan.Command

variable {vars : Variables} {d after : Directory} {arguments : List String} {i : Invocation}
variable {source : Source} {e : Environment} {emission : Emission} {path text : String}

/-! ### How a run ends -/

/-- How a run ends, and the directory that it leaves. -/
inductive Ends (vars : Variables) (d : Directory) (arguments : List String) :
    Outcome × Directory → Prop
  | misused (unread : Invocation.parse? arguments = none) : Ends vars d arguments (.misuse, d)
  | failed {i : Invocation} {f : Failure} (parsed : Invocation.parse? arguments = some i)
      (answered : i.answer vars d.read = .error f) : Ends vars d arguments (.failure f, d)
  | printed {i : Invocation} {text : String} (parsed : Invocation.parse? arguments = some i)
      (answered : i.answer vars d.read = .ok (.print text)) :
      Ends vars d arguments (.success text, d)
  | saved {i : Invocation} {path text : String} {after : Directory}
      (parsed : Invocation.parse? arguments = some i)
      (answered : i.answer vars d.read = .ok (.save path text))
      (written : d.write path text = .ok after) : Ends vars d arguments (.success "", after)
  | unsaved {i : Invocation} {path text : String} {fault : FileFault}
      (parsed : Invocation.parse? arguments = some i)
      (answered : i.answer vars d.read = .ok (.save path text))
      (refused : d.write path text = .error fault) :
      Ends vars d arguments (.saved path (.error fault), d)

private theorem run_ends (vars : Variables) (d : Directory) (arguments : List String) :
    Ends vars d arguments (run vars d arguments) := by
  unfold run
  split
  · rename_i unread
    exact .misused unread
  · rename_i i parsed
    split
    · rename_i f answered
      exact .failed parsed answered
    · rename_i text answered
      exact .printed parsed answered
    · rename_i path text answered
      split
      · rename_i fault refused
        exact .unsaved parsed answered refused
      · rename_i after written
        exact .saved parsed answered written

private theorem silent_of_failure {ended : Outcome × Directory} (ends : Ends vars d arguments ended)
    (failed : ended.1.exit ≠ 0) : ended.1.stdout = "" ∧ ended.2 = d := by
  cases ends with
  | misused | failed | unsaved => exact ⟨rfl, rfl⟩
  | printed | saved => exact absurd rfl failed

/-- The run ends in a text, which is saved if there is a file for it, and else printed. -/
inductive EndsIn (vars : Variables) (d : Directory) (arguments : List String) :
    Option String → String → Prop
  | printed {text : String} (ended : run vars d arguments = (.success (text ++ "\n"), d)) :
      EndsIn vars d arguments none text
  | saved {path text : String} {after : Directory} (written : d.write path text = .ok after)
      (ended : run vars d arguments = (.success "", after)) :
      EndsIn vars d arguments (some path) text

theorem exists_answer (parsed : Invocation.parse? arguments = some i)
    (succeeded : (run vars d arguments).1.exit = 0) :
    ∃ emission, i.answer vars d.read = .ok emission := by
  cases answered : i.answer vars d.read with
  | ok emission => exact ⟨emission, rfl⟩
  | error f =>
    simp only [run, parsed, answered] at succeeded
    cases succeeded

/-- A run that is answered with a text ends in it, unless its file cannot be written. -/
theorem endsIn_of_answer {out : Option String} (parsed : Invocation.parse? arguments = some i)
    (answered : i.answer vars d.read = .ok (.emit out text))
    (succeeded : out = none ∨ (run vars d arguments).1.exit = 0) :
    EndsIn vars d arguments out text := by
  cases out with
  | none => exact .printed (by simp only [run, parsed, answered, Emission.emit])
  | some path =>
    cases written : d.write path text with
    | ok after =>
      refine .saved written ?_
      simp only [run, parsed, answered, Emission.emit, written]
      rfl
    | error fault =>
      simp only [run, parsed, answered, Emission.emit, written, reduceCtorEq, false_or] at succeeded
      cases succeeded

/-! ### Texts and the files for them -/

/-- The environment that a plan is made in. -/
def PlanOptions.environment (options : PlanOptions) (e : Environment) : Environment :=
  e.withMode (if options.production then .production else e.mode)

theorem inEnvironment_eq_ok_iff {act : Environment → Except Failure Emission} :
    Invocation.inEnvironment vars act = .ok emission ↔
      ∃ e, Environment.ofVariables vars = .ok e ∧ act e = .ok emission := by
  simp [Invocation.inEnvironment, bind_eq_ok_iff]

theorem runPlan_eq_ok_iff {options : PlanOptions} :
    runPlan e source options = .ok emission ↔
      ∃ settings compiled, (options.environment e).settings = .ok settings ∧
        planOfTable (options.environment e) source settings options.table = .ok compiled ∧
        emission = .emit options.out (options.format.render compiled) := by
  have chosen : (if options.production then e.withMode .production else e) =
      options.environment e := by
    unfold PlanOptions.environment
    split <;> rfl
  simp only [runPlan, chosen, bind_eq_ok_iff, mapError_eq_ok_iff]
  constructor
  · rintro ⟨settings, settled, compiled, planned, emitted⟩
    cases emitted
    exact ⟨settings, compiled, settled, planned, rfl⟩
  · rintro ⟨settings, compiled, settled, planned, rfl⟩
    exact ⟨settings, settled, compiled, planned, rfl⟩

private theorem answer_printed (file : i.out? = some path)
    (answered : i.answer vars source = .ok emission) :
    ∃ text, emission = .emit (some path) text ∧
      i.printed.answer vars source = .ok (.emit none text) := by
  cases i with
  | supply | help | version => cases file
  | plan options =>
    obtain ⟨e, loaded, ran⟩ := inEnvironment_eq_ok_iff.mp answered
    obtain ⟨settings, compiled, settled, planned, rfl⟩ := runPlan_eq_ok_iff.mp ran
    have named : options.out = some path := file
    refine ⟨options.format.render compiled, by rw [named], ?_⟩
    exact inEnvironment_eq_ok_iff.mpr
      ⟨e, loaded, runPlan_eq_ok_iff.mpr ⟨settings, compiled, settled, planned, rfl⟩⟩
  | table out =>
    obtain ⟨e, loaded, ran⟩ := inEnvironment_eq_ok_iff.mp answered
    obtain rfl : out = some path := file
    cases ran
    exact ⟨_, rfl, inEnvironment_eq_ok_iff.mpr ⟨e, loaded, rfl⟩⟩

/-- The run saves the text in the file, changes no other file and prints nothing. -/
structure SavesOnly (vars : Variables) (d : Directory) (arguments : List String)
    (path text : String) : Prop where
  outcome : (run vars d arguments).1 = .success ""
  held : (run vars d arguments).2.read path = .ok text
  elsewhere : ∀ other content, Directory.locate other ≠ Directory.locate path →
    ((run vars d arguments).2.read other = .ok content ↔ d.read other = .ok content)

private theorem EndsIn.savesOnly (ends : EndsIn vars d arguments (some path) text) :
    SavesOnly vars d arguments path text := by
  cases ends with
  | saved written ended =>
    constructor
    case outcome => rw [ended]
    case held =>
      rw [ended]
      exact Directory.read_of_write written
    case elsewhere =>
      intro other content elsewhere
      rw [ended]
      exact Directory.read_of_write_elsewhere written elsewhere content

/--
No partial results: a run that fails prints nothing and changes no file. One that succeeds with a
file named for its text saves the text there and does nothing else, and without the words that name
the file, wherever they stand, it prints the text with a line feed behind it.
-/
theorem effects_of_run (vars : Variables) (d : Directory) (arguments : List String) :
    ((run vars d arguments).1.exit ≠ 0 →
      (run vars d arguments).1.stdout = "" ∧ (run vars d arguments).2 = d) ∧
    ∀ i path, Invocation.parse? arguments = some i → i.out? = some path →
      (run vars d arguments).1.exit = 0 →
      (∃ before phrase after, arguments = before ++ (phrase ++ after) ∧ OutPhrase path phrase) ∧
      ∃ text, SavesOnly vars d arguments path text ∧
        ∀ before phrase after, arguments = before ++ (phrase ++ after) → OutPhrase path phrase →
          run vars d (before ++ after) = (.success (text ++ "\n"), d) := by
  refine ⟨silent_of_failure (run_ends vars d arguments), ?_⟩
  intro i path parsed file succeeded
  obtain ⟨emission, answered⟩ := exists_answer parsed succeeded
  obtain ⟨text, rfl, answered_printed⟩ := answer_printed file answered
  have saved := endsIn_of_answer parsed answered (.inr succeeded)
  refine ⟨Invocation.exists_outPhrase parsed file, text, saved.savesOnly, ?_⟩
  rintro before phrase after rfl phrase_of
  obtain ⟨j, parsed_without, omits⟩ := (Invocation.marks_out phrase_of).exists_omits parsed
  obtain rfl := omits.out
  cases endsIn_of_answer parsed_without answered_printed (.inl rfl) with
  | printed ended => exact ended

theorem effects_of_run_unset :
    let vars : Variables := ⟨none, none, none, none⟩
    let d : Directory := ⟨[]⟩
    ((run vars d ["plan", "--production"]).1.stdout = "" ∧
      (run vars d ["plan", "--production"]).2 = d) ∧
    ∃ text, SavesOnly vars d ["table", "--out", "table.json"] "table.json" text ∧
      run vars d ["table"] = (.success (text ++ "\n"), d) := by
  intro vars d
  have parsed : Invocation.parse? ["table", "--out", "table.json"] =
      some (.table (some "table.json")) := by decide +kernel
  obtain ⟨text, saved, printed⟩ :=
    ((effects_of_run vars d _).2 _ _ parsed rfl (by decide +kernel)).2
  refine ⟨(effects_of_run vars d ["plan", "--production"]).1 (by decide +kernel), text, saved, ?_⟩
  exact printed ["table"] ["--out", "table.json"] [] rfl .separate

end TokenPlan.Command
