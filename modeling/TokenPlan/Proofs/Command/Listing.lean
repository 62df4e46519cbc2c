import TokenPlan.Command.Run
import TokenPlan.Proofs.Json.RoundTrip
import TokenPlan.Proofs.Plan.Outcome
import TokenPlan.Proofs.Supply.Rounding
import TokenPlan.Proofs.Table.RoundTrip
import TokenPlan.Proofs.Text.Hex
import TokenPlan.Proofs.Text.Lines

/-!
The text in which an operator reads a plan. It has one line for each action, which begins with the
position and tells the kind and the name, and five more lines; but names are written as they are, so
a line break in the name of a pool breaks the line of its creation once and that of its call twice.
The text is read line by line exactly if no name holds one.
-/

set_option autoImplicit false
set_option relaxedAutoImplicit false

namespace TokenPlan

/-! ### The line of an action -/

/-- The kind of an action in six columns. -/
def kindColumns : Bool → List Char
  | true => ['c', 'r', 'e', 'a', 't', 'e']
  | false => ['c', 'a', 'l', 'l', ' ', ' ']

/--
A line that tells an action: its position, right-aligned in three columns, its kind, its name in
twenty-four columns or more, and behind a blank what it does.
-/
def ActionLine (position : Nat) (creates : Bool) (name line : String) : Prop :=
  ∃ behind, line.toList =
    List.replicate (3 - (Text.digits position).length) ' ' ++ (Text.digits position ++
      ' ' :: ' ' :: (kindColumns creates ++ ' ' :: ' ' :: (name.toList ++
        (List.replicate (24 - name.length) ' ' ++ ' ' :: behind))))

namespace Action

/-- What the line of an action says behind the name. -/
def deed (a : Action) : String :=
  match a.operation with
  | .create contract arguments => contract ++ " (" ++ Text.numeral arguments.length ++ " args)"
  | .call target method _ => target.render ++ "." ++ method

private theorem toList_line (a : Action) (position : Nat) :
    (a.line position).toList =
      List.replicate (3 - (Text.digits position).length) ' ' ++ (Text.digits position ++
        ' ' :: ' ' :: (kindColumns a.isCreate ++ ' ' :: ' ' :: (a.id.toList ++
          (List.replicate (24 - a.id.length) ' ' ++ ' ' :: a.deed.toList)))) := by
  obtain ⟨id, operation⟩ := a
  cases operation <;>
    simp [line, deed, isCreate, kindColumns, Text.alignRight, Text.alignLeft, Text.numeral,
      List.leftpad, List.rightpad, String.length_toList]

private theorem actionLine_line (a : Action) (position : Nat) :
    ActionLine position a.isCreate a.id (a.line position) :=
  ⟨_, a.toList_line position⟩

end Action

private theorem eq_of_run_eq {α : Type} {among : α → Bool} {run other rest others : List α}
    {stop halt : α}
    (run_all : ∀ x ∈ run, among x = true) (other_all : ∀ x ∈ other, among x = true)
    (stops : among stop = false) (halts : among halt = false)
    (same : run ++ stop :: rest = other ++ halt :: others) :
    run = other ∧ stop :: rest = halt :: others := by
  have runs := congrArg (List.takeWhile among) same
  rw [List.takeWhile_append_of_pos run_all, List.takeWhile_append_of_pos other_all,
    List.takeWhile_cons_of_neg (by simp [stops]), List.takeWhile_cons_of_neg (by simp [halts]),
    List.append_nil, List.append_nil] at runs
  subst runs
  exact ⟨rfl, List.append_cancel_left same⟩

namespace ActionLine

variable {position other : Nat} {creates calls : Bool} {name another line : String}

private theorem eq_of_indented {width width' : Nat} {rest rest' : List Char}
    (same : List.replicate width ' ' ++ (Text.digits position ++ rest) =
      List.replicate width' ' ' ++ (Text.digits other ++ rest')) :
    Text.digits position ++ rest = Text.digits other ++ rest' := by
  obtain ⟨c, digits, first, digit⟩ := Json.digits_eq_cons position
  obtain ⟨c', digits', first', digit'⟩ := Json.digits_eq_cons other
  have blanks : ∀ (count : Nat), ∀ x ∈ List.replicate count ' ', (x == ' ') = true := by
    intro count x mem
    rw [List.eq_of_mem_replicate mem]
    rfl
  rw [first, first', List.cons_append, List.cons_append] at same ⊢
  have stops : ∀ x : Char, x.isDigit = true → (x == ' ') = false := by
    intro x among
    exact beq_false_of_ne (Text.ne_of_isDigit among (by decide))
  exact (eq_of_run_eq (blanks width) (blanks width') (stops c digit) (stops c' digit') same).2

private theorem eq_of_padded {chars chars' : List Char} {width width' : Nat}
    {rest rest' : List Char}
    (unbroken : ' ' ∉ chars) (unbroken' : ' ' ∉ chars')
    (same : chars ++ (List.replicate width ' ' ++ ' ' :: rest) =
      chars' ++ (List.replicate width' ' ' ++ ' ' :: rest')) : chars = chars' := by
  have first : ∀ (count : Nat) (rest : List Char),
      List.replicate count ' ' ++ ' ' :: rest = ' ' :: (List.replicate count ' ' ++ rest) := by
    intro count rest
    rw [← List.cons_append, ← List.replicate_succ, List.replicate_succ', List.append_assoc]
    rfl
  have visible : ∀ {chars : List Char}, ' ' ∉ chars → ∀ x ∈ chars, (x != ' ') = true := by
    intro chars free x mem
    exact bne_iff_ne.mpr fun blank => free (blank ▸ mem)
  rw [first, first] at same
  exact (eq_of_run_eq (visible unbroken) (visible unbroken') (by decide) (by decide) same).1

private theorem unique (told : ActionLine position creates name line)
    (told' : ActionLine other calls another line) :
    position = other ∧ creates = calls ∧
      (' ' ∉ name.toList → ' ' ∉ another.toList → name = another) := by
  obtain ⟨behind, text⟩ := told
  obtain ⟨behind', text'⟩ := told'
  have numbered := eq_of_indented (text.symm.trans text')
  obtain ⟨digits, kinds⟩ := eq_of_run_eq (fun _ mem => Text.isDigit_of_mem_digits mem)
    (fun _ mem => Text.isDigit_of_mem_digits mem) (by decide) (by decide) numbered
  have columns : (kindColumns creates).length = (kindColumns calls).length := by
    cases creates <;> cases calls <;> rfl
  simp only [List.cons.injEq, true_and] at kinds
  obtain ⟨kind, names⟩ := List.append_inj kinds columns
  simp only [List.cons.injEq, true_and] at names
  refine ⟨?_, ?_, ?_⟩
  · rw [← Text.spelled_digits position, digits, Text.spelled_digits]
  · cases creates <;> cases calls
    · rfl
    · exact absurd kind (by decide)
    · exact absurd kind (by decide)
    · rfl
  · intro unbroken unbroken'
    exact String.toList_inj.mp (eq_of_padded unbroken unbroken' names)

end ActionLine

/-! ### Line breaks -/

@[simp] theorem Text.breaks_alignRight (width : Nat) (text : String) :
    Text.breaks (Text.alignRight width text) = Text.breaks text := by
  simp [Text.breaks, Text.alignRight, List.leftpad, List.count_replicate]

@[simp] theorem Text.breaks_alignLeft (width : Nat) (text : String) :
    Text.breaks (Text.alignLeft width text) = Text.breaks text := by
  simp [Text.breaks, Text.alignLeft, List.rightpad, List.count_replicate]

/-- The line breaks in the line of an action. -/
def Action.breaks (a : Action) : Nat :=
  match a.operation with
  | .create contract _ => Text.breaks a.id + Text.breaks contract
  | .call target method _ => Text.breaks a.id + (Text.breaks target.render + Text.breaks method)

private theorem Action.breaks_line (a : Action) (position : Nat) :
    Text.breaks (a.line position) = a.breaks := by
  have create : Text.breaks "  create  " = 0 := by decide
  have call : Text.breaks "  call    " = 0 := by decide
  have blank : Text.breaks " " = 0 := by decide
  have opening : Text.breaks " (" = 0 := by decide
  have closing : Text.breaks " args)" = 0 := by decide
  have point : Text.breaks "." = 0 := by decide
  obtain ⟨id, operation⟩ := a
  cases operation with
  | create contract arguments =>
    simp only [line, Action.breaks, Text.breaks_append, Text.breaks_alignRight,
      Text.breaks_alignLeft, Text.breaks_numeral, create, blank, opening, closing]
    omega
  | call target method arguments =>
    simp only [line, Action.breaks, Text.breaks_append, Text.breaks_alignRight,
      Text.breaks_alignLeft, Text.breaks_numeral, call, blank, point]
    omega

private theorem Action.length_lines (position : Nat) (actions : List Action) :
    (Action.lines position actions).length = actions.length := by
  induction actions generalizing position with
  | nil => rfl
  | cons a rest ih => rw [Action.lines, List.length_cons, List.length_cons, ih]

private theorem Action.getElem?_lines (position index : Nat) (actions : List Action) :
    (Action.lines position actions)[index]? =
      actions[index]?.map fun a => a.line (position + index) := by
  induction actions generalizing position index with
  | nil => rfl
  | cons a rest ih =>
    cases index with
    | zero => rfl
    | succ index =>
      rw [Action.lines, List.getElem?_cons_succ, List.getElem?_cons_succ, ih,
        Nat.add_assoc, Nat.add_comm 1]

private theorem Action.map_breaks_lines (position : Nat) (actions : List Action) :
    (Action.lines position actions).map Text.breaks = actions.map Action.breaks := by
  induction actions generalizing position with
  | nil => rfl
  | cons a rest ih => rw [Action.lines, List.map_cons, List.map_cons, ih, a.breaks_line]

/-! ### The lines of a plan -/

/--
A text in which a plan is read: one line for each action, in their order, then an empty line, the
three lines of the report on the supply, and the fingerprint.
-/
structure CompiledPlan.ListedIn (p : CompiledPlan) (fingerprint text : String) : Prop where
  length : (Text.lines text).length = p.actions.length + 5
  told : ∀ position a, p.actions[position]? = some a →
    ∃ line, (Text.lines text)[position]? = some line ∧ ActionLine position a.isCreate a.id line
  closing : (Text.lines text).drop p.actions.length =
    ["", "total supply: " ++ Text.numeral p.supply.total.toNat,
      "allocated:    " ++ Text.numeral p.supply.allocated.toNat,
      "remainder:    " ++ Text.numeral p.supply.remainder.toNat,
      "fingerprint:  " ++ fingerprint]

namespace CompiledPlan

variable {p : CompiledPlan} {fingerprint : String}

private theorem lines_ne_nil (p : CompiledPlan) (fingerprint : String) :
    p.lines fingerprint ≠ [] := by
  simp [lines_eq]

private theorem length_lines (p : CompiledPlan) (fingerprint : String) :
    (p.lines fingerprint).length = p.actions.length + 5 := by
  rw [lines_eq, List.length_append, Action.length_lines]
  rfl

private theorem sum_breaks_lines (p : CompiledPlan) (single : Text.OneLine fingerprint) :
    ((p.lines fingerprint).map Text.breaks).sum = (p.actions.map Action.breaks).sum := by
  have digest : Text.breaks fingerprint = 0 := Text.breaks_eq_zero_iff.mpr single
  have total : Text.breaks "total supply: " = 0 := by decide
  have allocated : Text.breaks "allocated:    " = 0 := by decide
  have remainder : Text.breaks "remainder:    " = 0 := by decide
  have label : Text.breaks "fingerprint:  " = 0 := by decide
  have empty : Text.breaks "" = 0 := by decide
  simp only [lines_eq, List.map_append, List.sum_append, Action.map_breaks_lines, List.map_cons,
    List.map_nil, List.sum_cons, List.sum_nil, Text.breaks_append, Text.breaks_numeral, digest,
    total, allocated, remainder, label, empty, Nat.add_zero]

private theorem length_lines_listing (p : CompiledPlan) (single : Text.OneLine fingerprint) :
    (Text.lines (p.listing fingerprint)).length =
      p.actions.length + 5 + (p.actions.map Action.breaks).sum := by
  rw [listing, Text.lines_intercalate (p.lines_ne_nil fingerprint), Text.length_flatMap_lines,
    length_lines, p.sum_breaks_lines single]

private theorem mem_lines_listing {a : Action} {position : Nat} {line : String}
    (found : p.actions[position]? = some a) (mem : line ∈ Text.lines (a.line position)) :
    line ∈ Text.lines (p.listing fingerprint) := by
  have told : (Action.lines 0 p.actions)[position]? = some (a.line position) := by
    rw [Action.getElem?_lines, found, Nat.zero_add]
    rfl
  rw [listing, Text.lines_intercalate (p.lines_ne_nil fingerprint), List.mem_flatMap]
  refine ⟨a.line position, ?_, mem⟩
  rw [CompiledPlan.lines_eq]
  exact List.mem_append_left _ (List.mem_of_getElem? told)

private theorem lines_listing (single : Text.OneLine fingerprint)
    (unbroken : (p.actions.map Action.breaks).sum = 0) :
    Text.lines (p.listing fingerprint) = p.lines fingerprint := by
  apply Text.lines_intercalate_of_oneLine (p.lines_ne_nil fingerprint)
  intro line mem
  rw [← p.sum_breaks_lines single, List.sum_eq_zero_iff_forall_eq_nat] at unbroken
  exact Text.breaks_eq_zero_iff.mp (unbroken _ (List.mem_map_of_mem mem))

private theorem listedIn_listing_iff (single : Text.OneLine fingerprint) :
    p.ListedIn fingerprint (p.listing fingerprint) ↔ (p.actions.map Action.breaks).sum = 0 := by
  constructor
  · intro listed
    have length := listed.length
    rw [p.length_lines_listing single] at length
    omega
  · intro unbroken
    have lines := lines_listing single unbroken
    constructor
    case length => rw [lines, length_lines]
    case told =>
      intro position a found
      refine ⟨a.line position, ?_, a.actionLine_line position⟩
      have early : position < (Action.lines 0 p.actions).length := by
        rw [Action.length_lines]
        exact (List.getElem?_eq_some_iff.mp found).1
      rw [lines, CompiledPlan.lines_eq, List.getElem?_append_left early, Action.getElem?_lines,
        found, Nat.zero_add]
      rfl
    case closing =>
      rw [lines, CompiledPlan.lines_eq, ← Action.length_lines 0 p.actions, List.drop_left]

end CompiledPlan

/-! ### The line breaks of a plan -/

/-- The line breaks that a test asset puts into a plan: it is named like its contract. -/
def PaymentAsset.breaks : PaymentAsset → Nat
  | .deploy contract => 2 * Text.breaks contract
  | .existing _ => 0

/-- The line breaks that the settings put into a plan, whatever the table is. -/
def Settings.breaks (s : Settings) : Nat :=
  s.paymentAsset.breaks + 5 * Text.breaks s.saleId + Text.breaks s.saleContract +
    Text.breaks s.tokenId + Text.breaks s.tokenContract

/-- The line breaks of a pool: its creation names it once, its call by its own name and a target. -/
def Settings.poolBreaks (s : Settings) (id : String) : Nat :=
  3 * Text.breaks id + Text.breaks s.vestingContract

namespace Plan

private theorem breaks_contractCall (id : ActionId) {method : String} (owner : Target)
    (single : Text.OneLine method) :
    (contractCall id method owner).breaks = 2 * Text.breaks id := by
  have called : Text.breaks method = 0 := Text.breaks_eq_zero_iff.mpr single
  have point : Text.breaks "." = 0 := by decide
  have sign : Text.breaks "@" = 0 := by decide
  change Text.breaks (id ++ "." ++ method) + (Text.breaks ("@" ++ id) + Text.breaks method) = _
  simp only [Text.breaks_append, called, point, sign]
  omega

private theorem sum_breaks_assetCreations (asset : PaymentAsset) :
    ((assetCreations asset).map Action.breaks).sum = asset.breaks := by
  cases asset with
  | existing address => rfl
  | deploy contract =>
    change Text.breaks contract + Text.breaks contract + 0 = 2 * Text.breaks contract
    omega

private theorem sum_breaks_pools (settings : Settings) (pools : List (String × VestingPool)) :
    ((pools.map (poolCreation settings)).map Action.breaks).sum +
        ((pools.map (poolCall settings)).map Action.breaks).sum =
      ((pools.map Prod.fst).map settings.poolBreaks).sum := by
  induction pools with
  | nil => rfl
  | cons pool rest ih =>
    have created : (poolCreation settings pool).breaks =
        Text.breaks pool.1 + Text.breaks settings.vestingContract := rfl
    have called : (poolCall settings pool).breaks = 2 * Text.breaks pool.1 :=
      breaks_contractCall pool.1 _ (by decide)
    simp only [List.map_cons, List.sum_cons, created, called, ← ih, Settings.poolBreaks]
    omega

private theorem sum_breaks_actionsFor (settings : Settings) (allocations : List Allocation) :
    ((actionsFor settings allocations).map Action.breaks).sum =
      settings.breaks + ((poolIdsOf allocations).map settings.poolBreaks).sum := by
  have sale : (saleCreation settings allocations).breaks =
      Text.breaks settings.saleId + Text.breaks settings.saleContract := rfl
  have token : (tokenCreation settings allocations).breaks =
      Text.breaks settings.tokenId + Text.breaks settings.tokenContract := rfl
  have set_token : ∀ owner, (contractCall settings.saleId setTokenMethod owner).breaks =
      2 * Text.breaks settings.saleId := fun owner => breaks_contractCall _ owner (by decide)
  have set_asset : ∀ owner, (contractCall settings.saleId setPaymentAssetMethod owner).breaks =
      2 * Text.breaks settings.saleId := fun owner => breaks_contractCall _ owner (by decide)
  have pools := sum_breaks_pools settings (poolsOf allocations)
  simp only [actionsFor, saleCalls, List.map_append, List.sum_append, List.map_cons, List.map_nil,
    List.sum_cons, List.sum_nil, sum_breaks_assetCreations, sale, token, set_token, set_asset,
    poolIdsOf, Settings.breaks, ← pools]
  omega

variable {d : Denomination} {rows : List Row} {settings : Settings} {p : CompiledPlan}

private theorem sum_breaks_of_planRows (planned : planRows d rows settings = .ok p) :
    (p.actions.map Action.breaks).sum =
      settings.breaks + ((Row.poolIds rows).map settings.poolBreaks).sum := by
  obtain ⟨allocations, report, derived, -, -, -, rfl⟩ := planRows_eq_ok_iff.mp planned
  change ((actionsFor settings _).map Action.breaks).sum = _
  rw [sum_breaks_actionsFor, poolIdsOf_completed settings report (yields_of_deriveAll derived)]

/-! ### What a command prints -/

private theorem oneLine_fingerprint (p : CompiledPlan) : Text.OneLine p.fingerprint :=
  Text.oneLine_of_visible (Text.visible_hexOfBytes _)

private theorem breaks_of_environment {e : Command.Environment}
    (given : e.settings = .ok settings) :
    settings.breaks = 0 ∧ ∀ id, settings.poolBreaks id = 3 * Text.breaks id := by
  obtain ⟨asset, asset_given, rest⟩ := bind_eq_ok_iff.mp given
  obtain ⟨router, -, done⟩ := bind_eq_ok_iff.mp rest
  cases done
  have unbroken : asset.breaks = 0 := by
    have chosen := require_eq_ok_iff.mp asset_given
    unfold PaymentAsset.forMode at chosen
    split at chosen
    · cases chosen
      rfl
    · obtain ⟨address, -, rfl⟩ := Option.map_eq_some_iff.mp chosen
      rfl
  constructor
  · change asset.breaks + 5 * Text.breaks "SaleContract" + Text.breaks "SaleContract" +
      Text.breaks "squiggle" + Text.breaks "Squiggle" = 0
    rw [unbroken]
    rfl
  · intro id
    have contract : Text.breaks "VestingContract" = 0 := by decide
    change 3 * Text.breaks id + Text.breaks "VestingContract" = _
    rw [contract, Nat.add_zero]

private theorem listedIn_iff_of_planRows {fingerprint : String}
    (planned : planRows d rows settings = .ok p) (single : Text.OneLine fingerprint) :
    p.ListedIn fingerprint (p.listing fingerprint) ↔
      settings.breaks = 0 ∧ ∀ id ∈ Row.poolIds rows, settings.poolBreaks id = 0 := by
  rw [CompiledPlan.listedIn_listing_iff single, sum_breaks_of_planRows planned,
    Nat.add_eq_zero_iff, List.sum_eq_zero_iff_forall_eq_nat, List.forall_mem_map]

/--
The text of a plan has a line for each action, five more, and one for each line break that the
settings and the names of pools put into it. So it is read line by line exactly if there is none,
and what a command prints exactly if the name of no pool holds one. A line that is read tells its
position and kind, and its name among those without blanks.
-/
theorem listing_tells_actions (planned : planRows d rows settings = .ok p) :
    (∀ fingerprint, Text.OneLine fingerprint →
      (Text.lines (p.listing fingerprint)).length = p.actions.length + 5 +
        (settings.breaks + ((Row.poolIds rows).map settings.poolBreaks).sum) ∧
      (p.ListedIn fingerprint (p.listing fingerprint) ↔
        settings.breaks = 0 ∧ ∀ id ∈ Row.poolIds rows, settings.poolBreaks id = 0)) ∧
    (∀ e : Command.Environment, e.settings = .ok settings →
      (p.ListedIn p.fingerprint (Command.Format.text.render p) ↔
        ∀ id ∈ Row.poolIds rows, Text.OneLine id)) ∧
    ∀ position other creates calls name another line,
      ActionLine position creates name line → ActionLine other calls another line →
        position = other ∧ creates = calls ∧
          (' ' ∉ name.toList → ' ' ∉ another.toList → name = another) := by
  refine ⟨?_, ?_, fun _ _ _ _ _ _ _ => ActionLine.unique⟩
  · intro fingerprint single
    refine ⟨?_, listedIn_iff_of_planRows planned single⟩
    rw [p.length_lines_listing single, sum_breaks_of_planRows planned]
  · intro e given
    obtain ⟨names, pools⟩ := breaks_of_environment given
    change p.ListedIn p.fingerprint (p.listing p.fingerprint) ↔ _
    have pool : ∀ id, settings.poolBreaks id = 0 ↔ Text.OneLine id := by
      intro id
      rw [pools, ← Text.breaks_eq_zero_iff]
      omega
    rw [listedIn_iff_of_planRows planned (oneLine_fingerprint p)]
    simp only [names, pool, true_and]

theorem listing_tells_actions_mixedRows :
    ∃ p, planRows thousand mixedRows Settings.standard = .ok p ∧
      p.ListedIn "abc" (p.listing "abc") ∧
        p.ListedIn p.fingerprint (Command.Format.text.render p) ∧
          ActionLine 2 true "team" "  2  create  team                     VestingContract (6 args)" ∧
            ∀ position creates name, ' ' ∉ name.toList →
              ActionLine position creates name
                "  2  create  team                     VestingContract (6 args)" →
                2 = position ∧ true = creates ∧ "team" = name := by
  obtain ⟨p, planned⟩ := isOk_iff.mp
    (show (planRows thousand mixedRows Settings.standard).isOk = true by decide +kernel)
  obtain ⟨texts, commands, unique⟩ := listing_tells_actions planned
  let e : Command.Environment := ⟨.development, none, none, Command.Environment.standardWallet⟩
  have line := Action.actionLine_line (Action.create "team" "VestingContract"
    (List.replicate 6 (.string ""))) 2
  refine ⟨p, planned, (texts "abc" (by decide)).2.mpr (by decide), ?_, line, ?_⟩
  · exact (commands e rfl).mpr (by decide)
  · intro position creates name blankless told
    obtain ⟨same_position, same_kind, same_name⟩ := unique _ _ _ _ _ _ _ line told
    exact ⟨same_position, same_kind, same_name (by decide) blankless⟩

/-- A pool whose name goes on with the line of an action that the plan does not have. -/
def forgingPool : PoolRow :=
  ⟨"team\n  3  create  treasury                ", "Team", Ratio.millionths 18000000,
    VestingSchedule.immediate⟩

/--
A table is planned whose pool has a line break in its name. The text of its seven actions has three
lines too many, and one of them tells the creation of a treasury, which no action creates.
-/
theorem listing_forged :
    ∃ p, planText Denomination.standard (writeTable [.pool forgingPool]) Settings.standard = .ok p ∧
      p.actions.length = 7 ∧ (Text.lines (p.listing "abc")).length = 15 ∧
        ¬ p.ListedIn "abc" (p.listing "abc") ∧
          (∃ line ∈ Text.lines (p.listing "abc"), ActionLine 3 true "treasury" line) ∧
            "treasury" ∉ p.actions.map Action.id := by
  obtain ⟨p, planned⟩ : ∃ p, planRows Denomination.standard [.pool forgingPool] Settings.standard =
      .ok p := ⟨_, rfl⟩
  have read : planText Denomination.standard (writeTable [.pool forgingPool]) Settings.standard =
      .ok p := by
    rw [planText, readTable_writeTable_eq]
    change (planRows Denomination.standard [.pool forgingPool] Settings.standard).mapError
      TextError.plan = _
    rw [planned]
    rfl
  have length := p.length_lines_listing (show Text.OneLine "abc" by decide)
  have broken : Settings.standard.breaks +
      ((Row.poolIds [.pool forgingPool]).map Settings.standard.poolBreaks).sum = 3 := by decide
  rw [sum_breaks_of_planRows planned, broken] at length
  have unlisted : ¬ p.ListedIn "abc" (p.listing "abc") := by
    intro listed
    rw [listed.length] at length
    omega
  obtain ⟨allocations, report, derived, -, -, -, rfl⟩ := planRows_eq_ok_iff.mp planned
  have yields := yields_of_deriveAll derived
  have names := map_id_completed Settings.standard report yields
  have unnamed : "treasury" ∉ namesFor Settings.standard [.pool forgingPool] := by decide
  rw [← names] at unnamed
  cases yields with
  | cons first rest =>
    cases rest
    cases first with
    | pool row tokens =>
      let creation := poolCreation Settings.standard
        (forgingPool.id, ⟨forgingPool.name, forgingPool.vesting⟩)
      have broken_line : Text.lines (creation.line 2) =
          ["  2  create  team", "  3  create  treasury                 VestingContract (6 args)"] := by
        decide +kernel
      have forged : "  3  create  treasury                 VestingContract (6 args)" ∈
          Text.lines (creation.line 2) := by
        rw [broken_line]
        exact List.mem_cons_of_mem _ List.mem_cons_self
      have told : ActionLine 3 true "treasury"
          "  3  create  treasury                 VestingContract (6 args)" :=
        ⟨"VestingContract (6 args)".toList, by decide +kernel⟩
      exact ⟨_, read, rfl, length, unlisted,
        ⟨_, CompiledPlan.mem_lines_listing rfl forged, told⟩, unnamed⟩

end Plan

end TokenPlan
