import TokenPlan.Proofs.Allocation.Derivation
import TokenPlan.Proofs.Text.Digits

/-!
Which tables are derived, and what is wrong with the others. The rows are checked with nothing but
the rows before them in view: their names, and whether one of them is a tier. So a table is derived
if its names can be seen and told apart, its tiers open in turn and each row is derived by itself;
and where it is not, the fault is the first fault of the first row that has one.
-/

set_option autoImplicit false
set_option relaxedAutoImplicit false

namespace TokenPlan

/-- Some character of the name can be seen. -/
def Row.Named (row : Row) : Prop :=
  ∃ c ∈ row.id.toList, Text.isBlank c = false

/-- The account that owns the tokens of a row before any action has run, if there is one. -/
def Row.owner? : Row → Option Target
  | .account row => some (.account row.address)
  | _ => none

/-- The first tier opens at an instant, and every later one after the tier before it. -/
def TiersInTurn : List SaleRow → Prop
  | [] => True
  | first :: later =>
    (∃ second, first.start = .instant second) ∧ ∀ tier ∈ later, tier.start = .afterPrevious

/-- The start of a row, if it has one, is that of its place behind the rows `before`. -/
def Row.StartsBehind (before : List Row) (row : Row) : Prop :=
  ∀ tier, row = .sale tier → tier.start.Follows (before.any Row.isSale)

/-- What is wrong with a row behind the rows `before`: of several faults the one that is told. -/
inductive Row.Fault (d : Denomination) (before : List Row) : Row → TableError → Prop
  | unnamed {row : Row} (unseen : ¬ row.Named) :
      Fault d before row (.mismatch TableError.unnamedRow .blankId)
  | repeated {row : Row} (named : row.Named) (again : row.id ∈ before.map Row.id) :
      Fault d before row (.duplicateId row.id)
  | startMissing {tier : SaleRow} (named : (Row.sale tier).Named)
      (fresh : tier.id ∉ before.map Row.id) (first : before.any Row.isSale = false)
      (start : tier.start = .afterPrevious) :
      Fault d before (.sale tier) (.mismatch tier.id .firstStartMissing)
  | startGiven {tier : SaleRow} {second : UInt64} (named : (Row.sale tier).Named)
      (fresh : tier.id ∉ before.map Row.id) (later : before.any Row.isSale = true)
      (start : tier.start = .instant second) :
      Fault d before (.sale tier) (.mismatch tier.id (.laterStart second))
  | underived {row : Row} {e : TableError} (named : row.Named)
      (fresh : row.id ∉ before.map Row.id) (starts : row.StartsBehind before)
      (failed : row.derive d = .error e) :
      Fault d before row e

variable {d : Denomination}

/-! ### One row -/

private theorem Row.checkStart_eq_ok_iff {before : List Row} {row : Row} :
    row.checkStart (before.any Row.isSale) = .ok () ↔ row.StartsBehind before := by
  cases row with
  | sale tier =>
    rw [SaleRow.checkStart_eq_ok_iff]
    constructor
    · rintro follows _ ⟨⟩
      exact follows
    · exact fun starts => starts tier rfl
  | pool row => exact ⟨fun _ => nofun, fun _ => rfl⟩
  | account row => exact ⟨fun _ => nofun, fun _ => rfl⟩

private theorem Row.checkStart_eq_error_iff {opened : Bool} {row : Row} {e : TableError} :
    row.checkStart opened = .error e ↔
      ∃ tier, row = .sale tier ∧
        ((opened = false ∧ tier.start = .afterPrevious ∧
          e = .mismatch tier.id .firstStartMissing) ∨
        ∃ second, opened = true ∧ tier.start = .instant second ∧
          e = .mismatch tier.id (.laterStart second)) := by
  cases row with
  | sale tier =>
    cases opened <;> cases start : tier.start <;>
      simp [Row.checkStart, start, eq_comm]
  | pool row => simp [Row.checkStart]
  | account row => simp [Row.checkStart]

private theorem Row.named_iff {row : Row} : Text.trim row.id.toList ≠ [] ↔ row.Named :=
  Text.trim_ne_nil_iff

private theorem Row.check_eq_error_iff {row : Row} {seen : List String} {opened : Bool}
    {e : TableError} :
    row.check seen opened = .error e ↔
      (¬ row.Named ∧ e = .mismatch TableError.unnamedRow .blankId) ∨
      (row.Named ∧ row.id ∈ seen ∧ e = .duplicateId row.id) ∨
      (row.Named ∧ row.id ∉ seen ∧ row.checkStart opened = .error e) := by
  rw [← Row.named_iff]
  unfold Row.check
  by_cases blank : Text.trim row.id.toList = []
  · simp [blank, eq_comm]
  · by_cases again : row.id ∈ seen
    · simp [blank, again, eq_comm]
    · simp [blank, again]

/-- The checks of a row behind the rows `before`. -/
def Row.checkBehind (before : List Row) (row : Row) : Except TableError Unit :=
  row.check (before.map Row.id).reverse (before.any Row.isSale)

private theorem Row.checkBehind_eq_ok_iff {before : List Row} {row : Row} :
    row.checkBehind before = .ok () ↔
      row.Named ∧ row.id ∉ before.map Row.id ∧ row.StartsBehind before := by
  rw [Row.checkBehind, Row.check_eq_ok_iff, Row.named_iff, List.mem_reverse,
    Row.checkStart_eq_ok_iff]

private theorem Row.checkBehind_eq_error_iff {before : List Row} {row : Row} {e : TableError} :
    row.checkBehind before = .error e ↔
      (¬ row.Named ∧ e = .mismatch TableError.unnamedRow .blankId) ∨
      (row.Named ∧ row.id ∈ before.map Row.id ∧ e = .duplicateId row.id) ∨
      (row.Named ∧ row.id ∉ before.map Row.id ∧
        row.checkStart (before.any Row.isSale) = .error e) := by
  rw [Row.checkBehind, Row.check_eq_error_iff, List.mem_reverse]

/-- What the row comes to behind the rows `before`. -/
def Row.deriveBehind (d : Denomination) (before : List Row) (row : Row) :
    Except TableError Allocation :=
  row.checkBehind before >>= fun _ => row.derive d

private theorem Row.deriveBehind_eq_error_iff {before : List Row} {row : Row} {e : TableError} :
    row.deriveBehind d before = .error e ↔ row.Fault d before e := by
  rw [Row.deriveBehind, bind_eq_error_iff, Row.checkBehind_eq_error_iff]
  constructor
  · rintro ((⟨unseen, rfl⟩ | ⟨named, again, rfl⟩ | ⟨named, fresh, refused⟩) |
      ⟨_, checked, failed⟩)
    · exact .unnamed unseen
    · exact .repeated named again
    · obtain ⟨tier, rfl, ⟨first, start, rfl⟩ | ⟨second, later, start, rfl⟩⟩ :=
        Row.checkStart_eq_error_iff.mp refused
      · exact .startMissing named fresh first start
      · exact .startGiven named fresh later start
    · obtain ⟨named, fresh, starts⟩ := Row.checkBehind_eq_ok_iff.mp checked
      exact .underived named fresh starts failed
  · intro fault
    cases fault with
    | unnamed unseen => exact Or.inl (Or.inl ⟨unseen, rfl⟩)
    | repeated named again => exact Or.inl (Or.inr (Or.inl ⟨named, again, rfl⟩))
    | @startMissing tier named fresh first start =>
      have refused := Row.checkStart_eq_error_iff.mpr ⟨tier, rfl, Or.inl ⟨first, start, rfl⟩⟩
      exact Or.inl (Or.inr (Or.inr ⟨named, fresh, refused⟩))
    | @startGiven tier second named fresh later start =>
      have refused := Row.checkStart_eq_error_iff.mpr
        ⟨tier, rfl, Or.inr ⟨second, later, start, rfl⟩⟩
      exact Or.inl (Or.inr (Or.inr ⟨named, fresh, refused⟩))
    | underived named fresh starts failed =>
      exact Or.inr ⟨(), Row.checkBehind_eq_ok_iff.mpr ⟨named, fresh, starts⟩, failed⟩

/-! ### All rows -/

/-- What the rows come to behind the rows `before`. -/
def derivedBehind (d : Denomination) (before rows : List Row) :
    Except TableError (List Allocation) :=
  deriveAfter d (before.map Row.id).reverse (before.any Row.isSale) rows

private theorem derivedBehind_cons {before rows : List Row} {row : Row} :
    derivedBehind d before (row :: rows) =
      row.deriveBehind d before >>= fun a =>
        derivedBehind d (before ++ [row]) rows >>= fun allocations => .ok (a :: allocations) := by
  have names : ((before ++ [row]).map Row.id).reverse = row.id :: (before.map Row.id).reverse := by
    simp
  have opened : (before ++ [row]).any Row.isSale = (before.any Row.isSale || row.isSale) := by
    simp
  rw [derivedBehind, derivedBehind, names, opened, Row.deriveBehind, bind_assoc]
  rfl

private theorem derivedBehind_eq_error_iff {passed rows : List Row} {e : TableError} :
    derivedBehind d passed rows = .error e ↔
      ∃ before row after, rows = before ++ row :: after ∧
        (∃ allocations, derivedBehind d passed before = .ok allocations) ∧
          row.Fault d (passed ++ before) e := by
  -- Behind any rows, as each row stands in front of those that follow it.
  induction rows generalizing passed with
  | nil =>
    constructor
    · intro refused
      cases refused
    · rintro ⟨before, row, after, split, -⟩
      simp at split
  | cons row rows ih =>
    rw [derivedBehind_cons, bind_eq_error_iff]
    constructor
    · rintro (refused | ⟨a, single, refused⟩)
      · have fault := Row.deriveBehind_eq_error_iff.mp refused
        rw [← List.append_nil passed] at fault
        exact ⟨[], row, rows, rfl, ⟨[], rfl⟩, fault⟩
      · have behind : derivedBehind d (passed ++ [row]) rows = .error e := by
          rcases bind_eq_error_iff.mp refused with refused | ⟨_, _, done⟩
          · exact refused
          · cases done
        obtain ⟨before, other, after, rfl, ⟨allocations, derived⟩, fault⟩ := ih.mp behind
        rw [List.append_assoc] at fault
        refine ⟨row :: before, other, after, rfl, ⟨a :: allocations, ?_⟩, fault⟩
        rw [derivedBehind_cons, single, ok_bind, derived, ok_bind]
    · rintro ⟨before, other, after, split, ⟨allocations, derived⟩, fault⟩
      cases before with
      | nil =>
        obtain ⟨rfl, rfl⟩ := List.cons.inj split
        rw [List.append_nil] at fault
        exact Or.inl (Row.deriveBehind_eq_error_iff.mpr fault)
      | cons first before =>
        obtain ⟨rfl, rfl⟩ := List.cons.inj split
        rw [derivedBehind_cons] at derived
        obtain ⟨a, single, others⟩ := bind_eq_ok_iff.mp derived
        obtain ⟨rest, derived, -⟩ := bind_eq_ok_iff.mp others
        have closer : other.Fault d (passed ++ [row] ++ before) e := by
          rwa [List.append_assoc]
        have behind := ih.mpr ⟨before, other, after, rfl, ⟨rest, derived⟩, closer⟩
        refine Or.inr ⟨a, single, ?_⟩
        rw [behind, error_bind]

private theorem tiersInTurn_iff {tiers : List SaleRow} :
    StartsInOrder false tiers ↔ TiersInTurn tiers := by
  cases tiers with
  | nil => exact Iff.rfl
  | cons first later =>
    rw [StartsInOrder, TiersInTurn, SaleStart.follows_false_iff, startsInOrder_true_iff]

private theorem Row.Yields.target_eq {row : Row} {a : Allocation} (yields : row.Yields a) :
    a.target = row.owner? := by
  cases yields <;> rfl

/--
A table is derived exactly if all its names can be seen and differ, its tiers open in turn and each
row is derived by itself; the allocations are then those of the rows in their order, and only the
accounts among them have owners. A table that is not derived is refused for the fault of the first
row that has one behind the rows before it.
-/
theorem deriveAll_decides_faults (d : Denomination) (rows : List Row) :
    (∀ allocations, deriveAll d rows = .ok allocations ↔
      (∀ row ∈ rows, row.Named) ∧ (rows.map Row.id).Nodup ∧ TiersInTurn (Row.sales rows) ∧
        List.Forall₂ (fun row a => Row.derive row d = .ok a ∧ a.target = row.owner?) rows
          allocations) ∧
    ∀ e, deriveAll d rows = .error e ↔
      ∃ before row after, rows = before ++ row :: after ∧
        (∃ allocations, deriveAll d before = .ok allocations) ∧ row.Fault d before e := by
  constructor
  · intro allocations
    rw [deriveAll, deriveAfter_eq_ok_iff]
    constructor
    · rintro ⟨named, distinct, -, starts, derived⟩
      refine ⟨fun row mem => Row.named_iff.mp (named row mem), distinct,
        tiersInTurn_iff.mp starts, derived.imp ?_⟩
      intro row a single
      exact ⟨single, (Row.yields_of_derive single).target_eq⟩
    · rintro ⟨named, distinct, turns, derived⟩
      constructor
      case named => exact fun row mem => Row.named_iff.mpr (named row mem)
      case distinct => exact distinct
      case fresh => simp
      case starts => exact tiersInTurn_iff.mpr turns
      case derived => exact derived.imp fun _ _ single => single.1
  · intro e
    exact @derivedBehind_eq_error_iff d [] rows e

end TokenPlan
