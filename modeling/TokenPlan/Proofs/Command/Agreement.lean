import TokenPlan.Proofs.Command.Effects
import TokenPlan.Proofs.Command.Environment
import TokenPlan.Proofs.Plan.Outcome

/-!
How runs compare. The switch for production does what the mode of the environment does; a plan for
the main network is bound to the addresses that the environment names; and the report in the text of
a plan is the one that the supply command prints.
-/

set_option autoImplicit false
set_option relaxedAutoImplicit false

namespace TokenPlan.Command

variable {vars : Variables} {d : Directory} {arguments : List String} {i : Invocation}
variable {source : Source} {e : Environment} {options : PlanOptions}

/-! ### The switch for production -/

private theorem inEnvironment_inProduction (vars : Variables)
    (act : Environment → Except Failure Emission) :
    Invocation.inEnvironment vars.inProduction act =
      Invocation.inEnvironment vars fun e => act (e.withMode .production) := by
  rw [Invocation.inEnvironment, Environment.ofVariables_inProduction, Invocation.inEnvironment]
  cases Environment.ofVariables vars <;> rfl

private theorem answer_inProduction (unplanned : ∀ options, i ≠ .plan options) :
    i.answer vars.inProduction source = i.answer vars source := by
  cases i with
  | plan options => exact absurd rfl (unplanned options)
  | supply | table => exact inEnvironment_inProduction vars _
  | help | version => rfl

private theorem answer_production (unset : options.production = false) :
    (Invocation.plan { options with production := true }).answer vars source =
      (Invocation.plan options).answer vars.inProduction source := by
  have same : ∀ e, runPlan e source { options with production := true } =
      runPlan (e.withMode .production) source options := by
    intro e
    simp [runPlan, unset]
  rw [Invocation.answer, Invocation.answer, inEnvironment_inProduction]
  exact congrArg (Invocation.inEnvironment vars) (funext same)

private theorem run_production {before after : List String}
    (parsed : Invocation.parse? (before ++ "--production" :: after) = some i) :
    run vars d (before ++ "--production" :: after) = run vars.inProduction d (before ++ after) := by
  obtain ⟨j, parsed_without, omits⟩ := Invocation.marks_production.exists_omits parsed
  have answers : i.answer vars d.read = j.answer vars.inProduction d.read := by
    rcases omits.production with ⟨rfl, unplanned⟩ | ⟨options, unset, rfl, rfl⟩
    · exact (answer_inProduction unplanned).symm
    · exact answer_production unset
  simp only [run, parsed, parsed_without, answers]

/-! ### Texts of plans -/

/-- The network that a plan is for. -/
def PlanOptions.mode (options : PlanOptions) (vars : Variables) : BuildMode :=
  if options.production then .production
  else BuildMode.ofText? (Environment.present vars.mode)

private theorem exists_rows {settings : Settings} {table : Option String} {p : CompiledPlan}
    (planned : planOfTable e source settings table = .ok p) :
    ∃ rows, rowsOfTable e source table = .ok rows ∧
      planRows Denomination.standard rows settings = .ok p := by
  cases table with
  | none => exact ⟨_, rfl, mapError_eq_ok_iff.mp planned⟩
  | some path =>
    obtain ⟨text, found, planned⟩ := bind_eq_ok_iff.mp planned
    obtain ⟨rows, read, planned⟩ := bind_eq_ok_iff.mp (mapError_eq_ok_iff.mp planned)
    refine ⟨rows, bind_eq_ok_iff.mpr ⟨text, found, ?_⟩, mapError_eq_ok_iff.mp planned⟩
    exact mapError_eq_ok_iff.mpr (mapError_eq_ok_iff.mp read)

private theorem checkSupply_of_planRows {denomination : Denomination} {rows : List Row}
    {settings : Settings} {p : CompiledPlan}
    (planned : planRows denomination rows settings = .ok p) :
    checkSupply denomination rows = .ok p.supply := by
  obtain ⟨allocations, report, derived, reported, -, -, rfl⟩ := Plan.planRows_eq_ok_iff.mp planned
  exact Plan.checkSupply_eq_ok_iff.mpr ⟨allocations, derived, reported⟩

private theorem boundTo_of_planRows {denomination : Denomination} {rows : List Row}
    {p : CompiledPlan}
    {asset router : Address}
    (planned : planRows denomination rows (Settings.bound asset router) = .ok p) :
    p.BoundTo asset router := by
  obtain ⟨allocations, report, -, -, -, -, rfl⟩ := Plan.planRows_eq_ok_iff.mp planned
  exact Plan.boundTo_planOf asset router _

private theorem exists_plan (parsed : Invocation.parse? arguments = some (.plan options))
    (succeeded : (run vars d arguments).1.exit = 0) :
    ∃ e settings rows p, Environment.ofVariables vars = .ok e ∧
      (options.environment e).settings = .ok settings ∧
      rowsOfTable e d.read options.table = .ok rows ∧
      planRows Denomination.standard rows settings = .ok p ∧
      EndsIn vars d arguments options.out (options.format.render p) := by
  obtain ⟨emission, answered⟩ := exists_answer parsed succeeded
  obtain ⟨e, loaded, ran⟩ := inEnvironment_eq_ok_iff.mp answered
  obtain ⟨settings, p, settled, planned, rfl⟩ := runPlan_eq_ok_iff.mp ran
  obtain ⟨rows, found, planned⟩ := exists_rows planned
  exact ⟨e, settings, rows, p, loaded, settled, found, planned,
    endsIn_of_answer parsed answered (.inr succeeded)⟩

private theorem mode_eq (loaded : Environment.ofVariables vars = .ok e) :
    (options.environment e).mode = options.mode vars := by
  obtain ⟨-, -, -, mode⟩ := Environment.ofVariables_eq_ok_iff.mp loaded
  rw [PlanOptions.environment, Environment.withMode, mode, PlanOptions.mode]

private theorem exists_addresses {settings : Settings}
    (loaded : Environment.ofVariables vars = .ok e)
    (settled : (options.environment e).settings = .ok settings)
    (production : options.mode vars = .production) :
    ∃ asset router, Holds vars.paymentAsset asset ∧ Holds vars.router router ∧
      settings = Settings.bound asset router := by
  have mode : (options.environment e).mode = .production := (mode_eq loaded).trans production
  obtain ⟨asset, router, asset_set, router_set, rfl⟩ :=
    Environment.settings_of_production mode settled
  obtain ⟨asset_read, router_read, -, -⟩ := Environment.ofVariables_eq_ok_iff.mp loaded
  -- the mode is all that the options of a plan change
  have asset_set : e.paymentAsset = some asset := asset_set
  have router_set : e.router = some router := router_set
  rw [asset_set] at asset_read
  rw [router_set] at router_read
  exact ⟨asset, router, Environment.readOptional_eq_ok_some_iff.mp asset_read,
    Environment.readOptional_eq_ok_some_iff.mp router_read, rfl⟩

private theorem run_supply {checked : List String} {table : Option String} {rows : List Row}
    {report : SupplyReport}
    (parsed : Invocation.parse? checked = some (.supply table))
    (loaded : Environment.ofVariables vars = .ok e) (found : rowsOfTable e d.read table = .ok rows)
    (supplied : checkSupply Denomination.standard rows = .ok report) :
    run vars d checked = (.success ("\n".intercalate
      ["total supply: " ++ Text.numeral report.total.toNat,
        "allocated:    " ++ Text.numeral report.allocated.toNat,
        "remainder:    " ++ Text.numeral report.remainder.toNat] ++ "\n"), d) := by
  have answered : (Invocation.supply table).answer vars d.read =
      .ok (.emit none report.listing) := by
    refine inEnvironment_eq_ok_iff.mpr ⟨e, loaded, ?_⟩
    simp only [runSupply, found, supplied, mapError_ok, ok_bind]
    rfl
  cases endsIn_of_answer parsed answered (.inl rfl) with
  | printed ended => exact ended

/--
The switch for production, wherever it stands in a line, does what the mode of the environment does.
A plan for the main network is emitted only where both addresses are in the environment, and it is
bound to them. Where a plan is emitted, the supply command succeeds for the same table and prints
the three lines that stand in the text of the plan: the total supply, what is allocated of it, and
the rest.
-/
theorem agreement_of_run (vars : Variables) (d : Directory) (arguments : List String) :
    (∀ before after, arguments = before ++ "--production" :: after →
      Invocation.parse? arguments ≠ none →
      run vars d arguments = run vars.inProduction d (before ++ after)) ∧
    ∀ options, Invocation.parse? arguments = some (.plan options) →
      (run vars d arguments).1.exit = 0 →
      ∃ p, EndsIn vars d arguments options.out (options.format.render p) ∧
        (options.mode vars = .production → ∃ asset router, Holds vars.paymentAsset asset ∧
          Holds vars.router router ∧ p.BoundTo asset router) ∧
        (options.format = .text → EndsIn vars d arguments options.out ("\n".intercalate
          (Action.lines 0 p.actions ++
            ["", "total supply: " ++ Text.numeral p.supply.total.toNat,
              "allocated:    " ++ Text.numeral p.supply.allocated.toNat,
              "remainder:    " ++ Text.numeral p.supply.remainder.toNat,
              "fingerprint:  " ++ p.fingerprint]))) ∧
        ∀ checked, Invocation.parse? checked = some (.supply options.table) →
          run vars d checked = (.success ("\n".intercalate
            ["total supply: " ++ Text.numeral p.supply.total.toNat,
              "allocated:    " ++ Text.numeral p.supply.allocated.toNat,
              "remainder:    " ++ Text.numeral p.supply.remainder.toNat] ++ "\n"), d) := by
  constructor
  · rintro before after rfl meant
    obtain ⟨i, parsed⟩ := Option.ne_none_iff_exists'.mp meant
    exact run_production parsed
  · intro options parsed succeeded
    obtain ⟨e, settings, rows, p, loaded, settled, found, planned, ends⟩ :=
      exists_plan parsed succeeded
    refine ⟨p, ends, ?_, ?_, ?_⟩
    · intro production
      obtain ⟨asset, router, asset_held, router_held, rfl⟩ :=
        exists_addresses loaded settled production
      exact ⟨asset, router, asset_held, router_held, boundTo_of_planRows planned⟩
    · intro listed
      rw [listed, Format.render, CompiledPlan.listing, CompiledPlan.lines_eq] at ends
      exact ends
    · intro checked checked_parsed
      exact run_supply checked_parsed loaded found (checkSupply_of_planRows planned)

/-- Addresses for the main network, with white space around one of them. -/
def mainVariables : Variables :=
  { mode := none
    paymentAsset := some " 0x55d398326f99059fF775485246999027B3197955 "
    router := some "0x10ED43C718714eb63d5aA57B78B54704E256024E"
    exchangeWallet := none }

theorem agreement_of_run_main :
    let line := ["plan", "--production", "--format", "text"]
    run mainVariables ⟨[]⟩ line =
      run mainVariables.inProduction ⟨[]⟩ ["plan", "--format", "text"] ∧
    ∃ (p : CompiledPlan) (asset router : Address), p.BoundTo asset router ∧
      EndsIn mainVariables ⟨[]⟩ line none ("\n".intercalate (Action.lines 0 p.actions ++
        ["", "total supply: " ++ Text.numeral p.supply.total.toNat,
          "allocated:    " ++ Text.numeral p.supply.allocated.toNat,
          "remainder:    " ++ Text.numeral p.supply.remainder.toNat,
          "fingerprint:  " ++ p.fingerprint])) ∧
      run mainVariables ⟨[]⟩ ["supply"] = (.success ("\n".intercalate
        ["total supply: " ++ Text.numeral p.supply.total.toNat,
          "allocated:    " ++ Text.numeral p.supply.allocated.toNat,
          "remainder:    " ++ Text.numeral p.supply.remainder.toNat] ++ "\n"), ⟨[]⟩) := by
  intro line
  have parsed : Invocation.parse? line = some (.plan ⟨none, none, true, .text⟩) := by
    decide +kernel
  have supplied : Invocation.parse? ["supply"] = some (.supply none) := by decide +kernel
  obtain ⟨switched, planned⟩ := agreement_of_run mainVariables ⟨[]⟩ line
  obtain ⟨p, -, bound, listed, agrees⟩ := planned _ parsed (by decide +kernel)
  obtain ⟨asset, router, -, -, bound⟩ := bound rfl
  refine ⟨switched ["plan"] ["--format", "text"] rfl (by rw [parsed]; exact nofun), ?_⟩
  exact ⟨p, asset, router, bound, listed rfl, agrees ["supply"] supplied⟩

end TokenPlan.Command
