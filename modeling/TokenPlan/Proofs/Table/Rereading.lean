import TokenPlan.Proofs.Table.RoundTrip
import TokenPlan.Proofs.Table.Written

/-!
Tables that were read and are written again. Every start that is read has a text, so nothing of such
a table is lost in writing; but a start after the year 9999, to which an offset or a long year may
lead, has a text that is not read any more. The table is then refused for its first such tier.
-/

set_option autoImplicit false
set_option relaxedAutoImplicit false

namespace TokenPlan

/-- A start that can be written, if it is an instant. -/
def SaleStart.Told : SaleStart → Prop
  | .instant second => second.toNat ≤ Instant.lastSecond
  | .afterPrevious => True

def Row.Told : Row → Prop
  | .sale row => row.start.Told
  | _ => True

/-- The text of a start that is written and not read any more. -/
def SaleStart.lateText? : SaleStart → Option String
  | .instant second =>
    if second.toNat ≤ Instant.lastShortSecond then none else Instant.render? second
  | .afterPrevious => none

/-- Why a row is refused that was written and is read again. -/
def Row.refusal? : Row → Option TableError
  | .sale row => row.start.lateText?.map fun text => .unit row.id (.invalidDate text)
  | _ => none

/-! ### What is read can be written -/

private theorem SaleDraft.Opens.told {s : SaleDraft} {start : SaleStart} (opens : s.Opens start) :
    start.Told := by
  cases opens with
  | instant given =>
    obtain ⟨text, -, read⟩ := given
    exact Instant.le_of_ofText read
  | afterPrevious unwritten => trivial

private theorem Draft.told_of_complete {draft : Draft} {row : Row}
    (completed : draft.complete = .ok row) :
    row.Told := by
  cases Draft.complete_eq_ok_iff.mp completed with
  | sale writes => exact writes.start.told
  | pool writes => trivial
  | account writes => trivial

private theorem told_of_readTable {text : String} {rows : List Row}
    (read : readTable text = .ok rows) :
    ∀ row ∈ rows, row.Told := by
  obtain ⟨drafts, -, completed⟩ := bind_eq_ok_iff.mp read
  have each : List.Forall₂ (fun row draft => row.Told ∧ Draft.complete draft = .ok row) rows
      drafts :=
    (List.Forall₂.flip (mapM_eq_ok_iff.mp completed)).imp fun _ _ single =>
      ⟨Draft.told_of_complete single, single⟩
  exact ((List.forall₂_and_left _ _).mp each).1

/-! ### What is written is read or refused -/

private theorem SaleRow.startTime_toDraft_of_told {s : SaleRow} (told : s.start.Told) :
    s.toDraft.startTime =
      (s.start.lateText?.map fun text => TableError.unit s.id (.invalidDate text)).elim
        (.ok s.start) .error := by
  by_cases short : s.start.Short
  · have none_late : s.start.lateText? = none := by
      cases start : s.start with
      | afterPrevious => rfl
      | instant second =>
        rw [start] at short
        exact if_pos short
    rw [none_late]
    exact (SaleRow.startTime_toDraft s).mpr short
  · cases start : s.start with
    | afterPrevious =>
      rw [start] at short
      exact absurd trivial short
    | instant second =>
      rw [start] at short told
      have written : Instant.render? second = some (String.ofList (Instant.write second.toNat)) :=
        if_pos told
      have late : (SaleStart.instant second).lateText? =
          some (String.ofList (Instant.write second.toNat)) := (if_neg short).trans written
      have text : s.toDraft.start = some (String.ofList (Instant.write second.toNat)) := by
        change s.start.render? = _
        rw [start]
        exact written
      rw [late, SaleDraft.startTime, text]
      change (inRow s.id (Instant.ofText _) >>= fun _ => _) = _
      rw [Instant.ofText_of_long (Nat.lt_of_not_le short)]
      rfl

private theorem Row.complete_toDraft_of_told {row : Row} (told : row.Told) :
    row.toDraft.complete = row.refusal?.elim (.ok row) .error := by
  cases row with
  | sale row =>
    change Row.sale <$> row.toDraft.complete = _
    rw [SaleRow.complete_toDraft_eq, SaleRow.startTime_toDraft_of_told told, Row.refusal?]
    cases row.start.lateText? <;> rfl
  | pool row => exact (Row.complete_toDraft (.pool row)).mpr trivial
  | account row => exact (Row.complete_toDraft (.account row)).mpr trivial

private theorem mapM_eq_findSome? {ε α : Type} {complete : α → Except ε α} {refusal? : α → Option ε}
    {xs : List α} (single : ∀ x ∈ xs, complete x = (refusal? x).elim (.ok x) .error) :
    xs.mapM complete = (xs.findSome? refusal?).elim (.ok xs) .error := by
  induction xs with
  | nil => rfl
  | cons x rest ih =>
    obtain ⟨first, others⟩ := List.forall_mem_cons.mp single
    rw [List.mapM_cons, first, List.findSome?_cons]
    cases refusal? x with
    | some e => rfl
    | none =>
      simp only [Option.elim_none, ok_bind, ih others]
      cases rest.findSome? refusal? <;> rfl

/--
A start that is read has a text, which is read as the same start while its year has four digits; and
a table that is read and written again is read as the same table while all its starts are such. It is
refused for its first other tier, and never read as another table.
-/
theorem reread_of_read (text : String) :
    (∀ second, Instant.ofText text = .ok second →
      ∀ row : SaleRow, row.start = .instant second →
        ∃ written, row.toDraft.start = some written ∧
          (Instant.ofText written = .ok second ↔ second.toNat ≤ Instant.lastShortSecond)) ∧
    (∀ rows, readTable text = .ok rows →
      readTable (writeTable rows) = (rows.findSome? Row.refusal?).elim (.ok rows) .error ∧
        (readTable (writeTable rows) = .ok rows ↔ ∀ row ∈ rows, row.Short)) := by
  constructor
  · intro second read row start
    obtain ⟨written, told, again⟩ := Instant.exists_render?_of_ofText read
    refine ⟨written, ?_, ?_⟩
    · change row.start.render? = _
      rw [start]
      exact told
    · rw [again]
      by_cases short : second.toNat ≤ Instant.lastShortSecond <;> simp [short]
  · intro rows read
    have told := told_of_readTable read
    rw [readTable_writeTable_eq]
    refine ⟨mapM_eq_findSome? fun row mem => Row.complete_toDraft_of_told (told row mem), ?_⟩
    rw [mapM_eq_ok_self_iff]
    exact forall₂_congr fun row _ => Row.complete_toDraft row

/-- A table of one tier that opens at the given time. -/
def tableOf (start : String) : String :=
  let tier : SaleDraft :=
    { id := "seed"
      name := some "Seed"
      cooldown := some 0
      start := some start
      price := some "0.000034"
      target := some "0.5"
      minimum := some 0
      affiliateRate := some 100000
      vesting := VestingSchedule.immediate.toDraft }
  (Json.Value.array ([Draft.sale tier].map Draft.toJson)).pretty

theorem reread_of_read_lastMinute :
    Instant.ofText "9999-12-31T23:59:59+00:01" = .ok 253402300739 ∧
    (∀ row : SaleRow, row.start = .instant 253402300739 →
      ∃ written, row.toDraft.start = some written ∧
        Instant.ofText written = .ok 253402300739) ∧
    ∃ rows, readTable (tableOf "9999-12-31T23:59:59+00:01") = .ok rows ∧
      readTable (writeTable rows) = .ok rows := by
  have read : Instant.ofText "9999-12-31T23:59:59+00:01" = .ok 253402300739 := rfl
  obtain ⟨rows, read_table, short⟩ :
      ∃ rows, readTable (tableOf "9999-12-31T23:59:59+00:01") = .ok rows ∧
        ∀ row ∈ rows, row.Short :=
    ⟨_, (readTable_pretty _).trans rfl, by decide⟩
  refine ⟨read, ?_, rows, read_table, ((reread_of_read _).2 rows read_table).2.mpr short⟩
  intro row start
  obtain ⟨written, told, again⟩ := (reread_of_read _).1 _ read row start
  exact ⟨written, told, again.mpr (by decide)⟩

/-- A minute after the end of the year 9999, told by an offset, is written and not read again. -/
theorem refused_of_nextMinute :
    Instant.ofText "9999-12-31T23:59:59-00:01" = .ok 253402300859 ∧
    Instant.render? 253402300859 = some "+10000-01-01T00:00:59Z" ∧
    Instant.ofText "+10000-01-01T00:00:59Z" = .error (.invalidDate "+10000-01-01T00:00:59Z") ∧
    ∃ rows, readTable (tableOf "9999-12-31T23:59:59-00:01") = .ok rows ∧
      readTable (writeTable rows) =
        .error (.unit "seed" (.invalidDate "+10000-01-01T00:00:59Z")) := by
  refine ⟨rfl, rfl, rfl, _, (readTable_pretty _).trans rfl, ?_⟩
  rw [readTable_writeTable_eq]
  rfl

end TokenPlan
