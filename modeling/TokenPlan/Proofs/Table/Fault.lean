import TokenPlan.Proofs.Table.RoundTrip
import TokenPlan.Proofs.Table.Written

/-!
Which fault of a table is told. The fields of a row are checked one by one, for being there and for
being readable, and the first check that fails is reported under the name of the row; the order is
that of the completion and not that of the fields. A row in which every check passes is completed.
A table is refused for its first row with a fault.
-/

set_option autoImplicit false
set_option relaxedAutoImplicit false

namespace TokenPlan

/-- The error of a result, if it is one. -/
def fault? {ε α : Type} : Except ε α → Option ε
  | .ok _ => none
  | .error e => some e

/-- The first of the checks that fails, if there is one. -/
def firstFault (checks : List (Option TableError)) : Option TableError :=
  checks.findSome? id

/-- The result fails with the first of the checks that does, and succeeds if they all pass. -/
def Reports {α : Type} (result : Except TableError α) (checks : List (Option TableError)) : Prop :=
  fault? result = firstFault checks

/-! ### Checks -/

/-- A field that is needed has to be there. -/
def absent {α : Type} (id field : String) : Option α → Option TableError
  | some _ => none
  | none => some (.mismatch id (.missing field))

/-- A field that is there has to be readable. -/
def unreadable {α : Type} (id : String) (read : String → Except UnitError α)
    (text? : Option String) : Option TableError :=
  text?.bind fun text => (fault? (read text)).map (.unit id)

def VestingDraft.checks (v : VestingDraft) (id : String) : List (Option TableError) :=
  [absent id "tgePercent" v.launchShare, absent id "cliffDuration" v.cliffDuration,
    absent id "cliffPercent" v.cliffShare, absent id "linearDuration" v.linearDuration]

def SaleDraft.checks (s : SaleDraft) : List (Option TableError) :=
  unreadable s.id Instant.ofText s.start ::
  absent s.id "salePrice" s.price :: unreadable s.id Ratio.ofText s.price ::
  absent s.id "targetPercent" s.target :: unreadable s.id Ratio.ofText s.target ::
  absent s.id "name" s.name ::
  absent s.id "cooldownDuration" s.cooldown ::
  absent s.id "saleMinPerWallet" s.minimum ::
  absent s.id "affiliatePercent" s.affiliateRate ::
  s.vesting.checks s.id

def PoolDraft.checks (p : PoolDraft) : List (Option TableError) :=
  absent p.id "percent" p.percent :: unreadable p.id Ratio.ofText p.percent ::
  absent p.id "name" p.name ::
  p.vesting.checks p.id

/-- A share has to be written, and in one of its forms. -/
def AccountDraft.unshared (a : AccountDraft) : Option TableError :=
  match a.percent, a.withheld, a.tokens with
  | some _, _, none => none
  | none, none, some _ => none
  | none, none, none => some (.mismatch a.id (.missing "percent or tokens"))
  | _, _, _ => some (.mismatch a.id .conflictingShares)

def AccountDraft.checks (a : AccountDraft) : List (Option TableError) :=
  [absent a.id "address" a.address, unreadable a.id Address.ofText a.address, a.unshared,
    unreadable a.id Ratio.ofText a.percent, unreadable a.id Ratio.ofText a.withheld,
    unreadable a.id Amount.ofText a.tokens]

namespace Draft

def id : Draft → String
  | .sale draft => draft.id
  | .pool draft => draft.id
  | .account draft => draft.id

/-- The checks of a row, in the order in which they are made. -/
def checks : Draft → List (Option TableError)
  | .sale draft => draft.checks
  | .pool draft => draft.checks
  | .account draft => draft.checks

/-- The drafts that a text is read as. -/
def ofTable? (text : String) : Option (List Draft) :=
  Json.readWithinLimits? text >>= listOfJson?

end Draft

/-- The row under whose name an error is reported. -/
def TableError.row : TableError → String
  | .mismatch id _ => id
  | .duplicateId id => id
  | .unit id _ => id

/-- Why a text is not read as a table: it is none, or one of its rows is the first with a fault. -/
inductive TableFault (text : String) : TableError → Prop
  | noTable (unread : Draft.ofTable? text = none) :
      TableFault text (.mismatch TableError.wholeTable .notATable)
  | row {before after : List Draft} {draft : Draft} {e : TableError}
      (read : Draft.ofTable? text = some (before ++ draft :: after))
      (earlier : ∀ passed ∈ before, firstFault passed.checks = none)
      (fault : firstFault draft.checks = some e) : TableFault text e

/-! ### Reports -/

variable {ε α β : Type} {id field : String} {here behind checks : List (Option TableError)}

private theorem fault?_eq_some_iff {result : Except ε α} {e : ε} :
    fault? result = some e ↔ result = .error e := by
  cases result <;> simp [fault?]

private theorem fault?_eq_none_iff {result : Except ε α} :
    fault? result = none ↔ ∃ value, result = .ok value := by
  cases result <;> simp [fault?]

private theorem firstFault_append :
    firstFault (here ++ behind) = (firstFault here).or (firstFault behind) :=
  List.findSome?_append

private theorem firstFault_eq_none_iff :
    firstFault checks = none ↔ ∀ check ∈ checks, check = none :=
  List.findSome?_eq_none_iff

private theorem fault?_mapM {f : α → Except ε β} {xs : List α} :
    fault? (xs.mapM f) = xs.findSome? fun x => fault? (f x) := by
  induction xs with
  | nil => rfl
  | cons x rest ih =>
    rw [List.mapM_cons, List.findSome?_cons]
    cases f x with
    | error e => rfl
    | ok y =>
      rw [ok_bind]
      change _ = rest.findSome? fun x => fault? (f x)
      rw [← ih]
      cases rest.mapM f <;> rfl

namespace Reports

variable {first : Except TableError α} {next : α → Except TableError β} {e : TableError}

private theorem eq_error_iff (reports : Reports first checks) :
    first = .error e ↔ firstFault checks = some e := by
  rw [← fault?_eq_some_iff, reports]

private theorem exists_ok_iff (reports : Reports first checks) :
    (∃ value, first = .ok value) ↔ ∀ check ∈ checks, check = none := by
  rw [← fault?_eq_none_iff, reports, firstFault_eq_none_iff]

/-- The checks of a sequence are those of its first step, and then those of the next one. -/
private theorem bind (reports : Reports first here)
    (next_reports : ∀ value, first = .ok value → Reports (next value) behind) :
    Reports (first >>= next) (here ++ behind) := by
  rw [Reports, firstFault_append, ← reports]
  cases given : first with
  | error e => rfl
  | ok value => exact next_reports value given

private theorem map (reports : Reports first checks) (f : α → β) :
    Reports (f <$> first) checks := by
  rw [Reports, ← reports]
  cases first <;> rfl

private theorem bindOne {check : Option TableError} (reports : Reports first [check])
    (next_reports : ∀ value, Reports (next value) behind) :
    Reports (first >>= next) (check :: behind) :=
  bind reports fun value _ => next_reports value

private theorem ofField {value? : Option α} :
    Reports (needField id field value?) [absent id field value?] := by
  cases value? <;> rfl

private theorem ofText (read : String → Except UnitError α) (text : String) :
    Reports (inRow id (read text)) [unreadable id read (some text)] := by
  rw [Reports, unreadable, Option.bind_some]
  cases read text <;> rfl

private theorem ofNeededText {read : String → Except UnitError α} {text? : Option String} :
    Reports (needField id field text? >>= fun text => inRow id (read text))
      [absent id field text?, unreadable id read text?] := by
  refine bind ofField ?_
  intro text written
  rw [needField_eq_ok_iff.mp written]
  exact ofText read text

private theorem bindRatio {text? : Option String} {next : Ratio → Except TableError β}
    (next_reports : ∀ value, Reports (next value) behind) :
    Reports (needRatio id field text? >>= next)
      (absent id field text? :: unreadable id Ratio.ofText text? :: behind) :=
  bind ofNeededText fun value _ => next_reports value

end Reports

/-! ### Rows -/

private theorem VestingDraft.reports (v : VestingDraft) (id : String) :
    Reports (v.complete id) (v.checks id) := by
  refine .bindOne .ofField fun launchShare => ?_
  refine .bindOne .ofField fun cliffDuration => ?_
  refine .bindOne .ofField fun cliffShare => ?_
  refine .bindOne .ofField fun linearDuration => ?_
  rfl

private theorem SaleDraft.reports_startTime (s : SaleDraft) :
    Reports s.startTime [unreadable s.id Instant.ofText s.start] := by
  unfold startTime
  split
  · rename_i unwritten
    rw [unwritten]
    rfl
  · rename_i text written
    rw [written]
    exact (Reports.ofText Instant.ofText text).map SaleStart.instant

private theorem SaleDraft.reports (s : SaleDraft) : Reports s.complete s.checks := by
  refine .bindOne s.reports_startTime fun start => ?_
  refine .bindRatio fun price => ?_
  refine .bindRatio fun target => ?_
  refine .bindOne .ofField fun name => ?_
  refine .bindOne .ofField fun cooldown => ?_
  refine .bindOne .ofField fun minimum => ?_
  refine .bindOne .ofField fun affiliateRate => ?_
  exact (s.vesting.reports s.id).map
    (SaleRow.mk s.id name cooldown start price target minimum affiliateRate)

private theorem PoolDraft.reports (p : PoolDraft) : Reports p.complete p.checks := by
  refine .bindRatio fun percent => ?_
  refine .bindOne .ofField fun name => ?_
  exact (p.vesting.reports p.id).map (PoolRow.mk p.id name percent)

private theorem AccountDraft.reports_readShare (a : AccountDraft) :
    Reports a.readShare [a.unshared, unreadable a.id Ratio.ofText a.percent,
      unreadable a.id Ratio.ofText a.withheld, unreadable a.id Amount.ofText a.tokens] := by
  obtain ⟨id, address, percent, withheld, tokens⟩ := a
  match percent, withheld, tokens with
  | some percent, none, none => exact (Reports.ofText Ratio.ofText percent).map Share.percent
  | some gross, some withheld, none =>
    have both : Reports (readShare ⟨id, address, some gross, some withheld, none⟩)
        [unreadable id Ratio.ofText (some gross), unreadable id Ratio.ofText (some withheld)] :=
      .bindOne (.ofText Ratio.ofText gross) fun gross =>
        (Reports.ofText Ratio.ofText withheld).map (Share.net gross)
    exact both
  | none, none, some tokens => exact (Reports.ofText Amount.ofText tokens).map Share.exact
  | none, none, none => rfl
  | none, some _, none => rfl
  | none, some _, some _ => rfl
  | some _, none, some _ => rfl
  | some _, some _, some _ => rfl

private theorem AccountDraft.reports (a : AccountDraft) : Reports a.complete a.checks := by
  have flat : a.complete = (needField a.id "address" a.address >>= fun address =>
      inRow a.id (Address.ofText address)) >>= fun address =>
        AccountRow.mk a.id address <$> a.readShare := by
    rw [bind_assoc]
    rfl
  rw [flat]
  exact .bind .ofNeededText fun address _ => a.reports_readShare.map (AccountRow.mk a.id address)

private theorem Draft.reports (draft : Draft) : Reports draft.complete draft.checks := by
  cases draft with
  | sale draft => exact draft.reports.map Row.sale
  | pool draft => exact draft.reports.map Row.pool
  | account draft => exact draft.reports.map Row.account

/-! ### The row that is told -/

/-- Every check reports under the name of the row. -/
def Tells (id : String) (checks : List (Option TableError)) : Prop :=
  ∀ check ∈ checks, ∀ e, check = some e → e.row = id

private theorem tells_nil : Tells id [] := nofun

private theorem tells_cons {check : Option TableError} :
    Tells id (check :: checks) ↔ (∀ e, check = some e → e.row = id) ∧ Tells id checks :=
  List.forall_mem_cons

private theorem row_of_absent {value? : Option α} {e : TableError}
    (fault : absent id field value? = some e) : e.row = id := by
  cases value? with
  | some value => cases fault
  | none =>
    cases fault
    rfl

private theorem row_of_unreadable {read : String → Except UnitError α} {text? : Option String}
    {e : TableError} (fault : unreadable id read text? = some e) : e.row = id := by
  simp only [unreadable, Option.bind_eq_some_iff, Option.map_eq_some_iff] at fault
  obtain ⟨text, -, cause, -, rfl⟩ := fault
  rfl

private theorem AccountDraft.row_of_unshared {a : AccountDraft} {e : TableError}
    (fault : a.unshared = some e) : e.row = a.id := by
  unfold unshared at fault
  split at fault <;> cases fault <;> rfl

private theorem VestingDraft.tells (v : VestingDraft) (id : String) : Tells id (v.checks id) := by
  simp only [checks, tells_cons]
  exact ⟨fun _ => row_of_absent, fun _ => row_of_absent, fun _ => row_of_absent,
    fun _ => row_of_absent, tells_nil⟩

private theorem Draft.tells (draft : Draft) : Tells draft.id draft.checks := by
  cases draft with
  | sale draft =>
    simp only [Draft.checks, SaleDraft.checks, tells_cons]
    exact ⟨fun _ => row_of_unreadable, fun _ => row_of_absent, fun _ => row_of_unreadable,
      fun _ => row_of_absent, fun _ => row_of_unreadable, fun _ => row_of_absent,
      fun _ => row_of_absent, fun _ => row_of_absent, fun _ => row_of_absent,
      draft.vesting.tells draft.id⟩
  | pool draft =>
    simp only [Draft.checks, PoolDraft.checks, tells_cons]
    exact ⟨fun _ => row_of_absent, fun _ => row_of_unreadable, fun _ => row_of_absent,
      draft.vesting.tells draft.id⟩
  | account draft =>
    simp only [Draft.checks, AccountDraft.checks, tells_cons]
    exact ⟨fun _ => row_of_absent, fun _ => row_of_unreadable,
      fun _ => AccountDraft.row_of_unshared, fun _ => row_of_unreadable,
      fun _ => row_of_unreadable, fun _ => row_of_unreadable, tells_nil⟩

private theorem Tells.row_eq {e : TableError} (tells : Tells id checks)
    (fault : firstFault checks = some e) : e.row = id := by
  obtain ⟨check, mem, fails⟩ := List.exists_of_findSome?_eq_some fault
  exact tells check mem e fails

/-! ### Tables -/

private theorem readTable_eq (text : String) :
    readTable text = require (.mismatch TableError.wholeTable .notATable) (Draft.ofTable? text) >>=
      List.mapM Draft.complete := rfl

private theorem readTable_eq_ok_iff {text : String} {rows : List Row} :
    readTable text = .ok rows ↔
      ∃ drafts, Draft.ofTable? text = some drafts ∧ List.Forall₂ Draft.Writes drafts rows := by
  simp only [readTable_eq, bind_eq_ok_iff, require_eq_ok_iff, mapM_eq_ok_iff,
    Draft.complete_eq_ok_iff]

private theorem Draft.mapM_complete_eq_error_iff {drafts : List Draft} {e : TableError} :
    drafts.mapM complete = .error e ↔
      ∃ before draft after, drafts = before ++ draft :: after ∧
        firstFault draft.checks = some e ∧ ∀ passed ∈ before, firstFault passed.checks = none := by
  have each : (fun draft => fault? (complete draft)) = fun draft => firstFault draft.checks :=
    funext reports
  rw [← fault?_eq_some_iff, fault?_mapM, each, List.findSome?_eq_some_iff]

private theorem readTable_eq_error_iff {text : String} {e : TableError} :
    readTable text = .error e ↔ TableFault text e := by
  simp only [readTable_eq, bind_eq_error_iff, require_eq_error_iff, require_eq_ok_iff,
    Draft.mapM_complete_eq_error_iff]
  constructor
  · rintro (⟨unread, rfl⟩ | ⟨drafts, read, before, draft, after, rfl, fault, earlier⟩)
    · exact .noTable unread
    · exact .row read earlier fault
  · intro fault
    cases fault with
    | noTable unread => exact .inl ⟨unread, rfl⟩
    | row read earlier fault => exact .inr ⟨_, read, _, _, _, rfl, fault, earlier⟩

/--
A row is what is written in its draft, and it is there exactly if every check of the draft passes;
otherwise the first check that fails is told, under the name of the row. A text is a table exactly
if it is read as drafts which are all such, and then its rows stand in their order; otherwise the
first of its drafts with a fault is told. Blank texts alone are taken for amounts that they do not
spell.
-/
theorem readTable_tells_first_fault (draft : Draft) (text : String) :
    (∀ row, draft.complete = .ok row ↔ draft.Writes row) ∧
    ((∃ row, draft.complete = .ok row) ↔ ∀ check ∈ draft.checks, check = none) ∧
    (∀ e, draft.complete = .error e ↔ firstFault draft.checks = some e) ∧
    (∀ e, draft.complete = .error e → e.row = draft.id) ∧
    (∀ id address amount, draft.complete = .ok (.account ⟨id, address, .exact amount⟩) →
      ∃ tokens, draft.tokens? = some tokens ∧
        ((∃ digits, Amount.Numeral tokens digits amount.toNat) ↔ ¬ Text.Blank tokens.toList)) ∧
    (∀ rows, readTable text = .ok rows ↔
      ∃ drafts, Draft.ofTable? text = some drafts ∧ List.Forall₂ Draft.Writes drafts rows) ∧
    ∀ e, readTable text = .error e ↔ TableFault text e := by
  refine ⟨fun _ => Draft.complete_eq_ok_iff, draft.reports.exists_ok_iff,
    fun _ => draft.reports.eq_error_iff, ?_, ?_, fun _ => readTable_eq_ok_iff,
    fun _ => readTable_eq_error_iff⟩
  · intro e refused
    exact draft.tells.row_eq (draft.reports.eq_error_iff.mp refused)
  · intro id address amount completed
    exact (Draft.complete_eq_ok_iff.mp completed).exists_tokens

theorem readTable_tells_first_fault_accounts :
    let odd : Draft := .account ⟨"tre", some "0x", some "1", none, some "1"⟩
    let even : Draft :=
      .account (.ofTokens "tre" "0x0707070707070707070707070707070707070707" "12")
    (odd.complete = .error (.unit "tre" (.invalidAddress "0x")) ∧
      TableError.row (.unit "tre" (.invalidAddress "0x")) = odd.id ∧
      odd.checks.filterMap (fun check => check) =
        [.unit "tre" (.invalidAddress "0x"), .mismatch "tre" .conflictingShares]) ∧
    even.complete = .ok (.account ⟨"tre", ⟨List.replicate 20 7, rfl⟩, .exact ⟨12, by decide⟩⟩) ∧
      ∃ tokens, even.tokens? = some tokens ∧
        ((∃ digits, Amount.Numeral tokens digits 12) ↔ ¬ Text.Blank tokens.toList) := by
  intro odd even
  have refused : odd.complete = .error (.unit "tre" (.invalidAddress "0x")) := rfl
  have completed : even.complete =
      .ok (.account ⟨"tre", ⟨List.replicate 20 7, rfl⟩, .exact ⟨12, by decide⟩⟩) := rfl
  obtain ⟨-, -, -, row, -⟩ := readTable_tells_first_fault odd ""
  obtain ⟨-, -, -, -, spelled, -⟩ := readTable_tells_first_fault even ""
  exact ⟨⟨refused, row _ refused, rfl⟩, completed, spelled _ _ _ completed⟩

/-- A table is read in which a field that is needed holds white space alone. -/
theorem readTable_blankTokens :
    (∀ digits n, ¬ Amount.Numeral " " digits n) ∧
      readTable (Json.Value.array ([Draft.account (.ofTokens "tre"
        "0x0707070707070707070707070707070707070707" " ")].map Draft.toJson)).pretty =
        .ok [.account ⟨"tre", ⟨List.replicate 20 7, rfl⟩, .exact Amount.zero⟩] := by
  constructor
  · intro digits n
    exact Amount.not_numeral_of_blank (Text.trim_eq_nil_iff.mp rfl)
  · exact (readTable_pretty _).trans rfl

end TokenPlan
