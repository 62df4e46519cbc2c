import Mathlib.Data.List.Forall2
import TokenPlan.Proofs.Allocation.Tier

/-!
What rows become, whatever the amounts are: a row keeps its name, a tier and a pool have no owner
yet, an account owns its tokens by its address, and no row becomes a liquidity reserve.
-/

set_option autoImplicit false
set_option relaxedAutoImplicit false

namespace TokenPlan

/-- The shape of the allocation of a row. -/
inductive Row.Yields : Row → Allocation → Prop
  | sale (row : SaleRow) (tokens : Amount) (tier : SaleTier) :
      Yields (.sale row) (Allocation.sale row.id tokens tier)
  | pool (row : PoolRow) (tokens : Amount) :
      Yields (.pool row) (Allocation.vesting row.id tokens ⟨row.name, row.vesting⟩)
  | account (row : AccountRow) (tokens : Amount) :
      Yields (.account row) (Allocation.account row.id tokens row.address)

def Row.poolId? : Row → Option String
  | .pool row => some row.id
  | _ => none

def Row.poolIds (rows : List Row) : List String :=
  rows.filterMap Row.poolId?

def Row.saleRow? : Row → Option SaleRow
  | .sale row => some row
  | _ => none

/-- The tiers of a table in its order. -/
def Row.sales (rows : List Row) : List SaleRow :=
  rows.filterMap Row.saleRow?

variable {d : Denomination} {a : Allocation}

private theorem SaleRow.yields_of_derive {row : SaleRow} (derived : row.derive d = .ok a) :
    Row.Yields (.sale row) a := by
  obtain ⟨tokens, tier, -, rfl⟩ := SaleRow.derive_eq_ok_iff.mp derived
  exact Row.Yields.sale row tokens tier

private theorem PoolRow.yields_of_derive {row : PoolRow} (derived : row.derive d = .ok a) :
    Row.Yields (.pool row) a := by
  simp only [PoolRow.derive, bind_eq_ok_iff] at derived
  obtain ⟨-, -, tokens, -, done⟩ := derived
  cases done
  exact Row.Yields.pool row tokens

private theorem AccountRow.yields_of_derive {row : AccountRow} (derived : row.derive d = .ok a) :
    Row.Yields (.account row) a := by
  simp only [AccountRow.derive, bind_eq_ok_iff] at derived
  obtain ⟨tokens, -, done⟩ := derived
  cases done
  exact Row.Yields.account row tokens

theorem Row.yields_of_derive {row : Row} (derived : row.derive d = .ok a) : row.Yields a := by
  cases row with
  | sale row => exact SaleRow.yields_of_derive derived
  | pool row => exact PoolRow.yields_of_derive derived
  | account row => exact AccountRow.yields_of_derive derived

/-! ### The starts of a table -/

/-- A tier opens at an instant where no tier came before, and after the one before it elsewhere. -/
def SaleStart.Follows (opened : Bool) : SaleStart → Prop
  | .instant _ => opened = false
  | .afterPrevious => opened = true

/-- Every tier opens as its place asks for; `opened` tells whether a tier came before them all. -/
def StartsInOrder : Bool → List SaleRow → Prop
  | _, [] => True
  | opened, tier :: later => tier.start.Follows opened ∧ StartsInOrder true later

theorem SaleRow.checkStart_eq_ok_iff {tier : SaleRow} {opened : Bool} :
    (Row.sale tier).checkStart opened = .ok () ↔ tier.start.Follows opened := by
  unfold Row.checkStart
  cases opened <;> cases start : tier.start <;> simp [SaleStart.Follows, start]

private theorem startsInOrder_sales_cons {opened : Bool} {row : Row} {rows : List Row} :
    StartsInOrder opened (Row.sales (row :: rows)) ↔
      row.checkStart opened = .ok () ∧
        StartsInOrder (opened || row.isSale) (Row.sales rows) := by
  cases row with
  | sale tier =>
    have closed : (opened || (Row.sale tier).isSale) = true := Bool.or_true opened
    rw [SaleRow.checkStart_eq_ok_iff, closed]
    exact Iff.rfl
  | pool row =>
    have same : (opened || (Row.pool row).isSale) = opened := Bool.or_false opened
    rw [same]
    exact (and_iff_right rfl).symm
  | account row =>
    have same : (opened || (Row.account row).isSale) = opened := Bool.or_false opened
    rw [same]
    exact (and_iff_right rfl).symm

theorem SaleStart.follows_false_iff {start : SaleStart} :
    start.Follows false ↔ ∃ second, start = .instant second := by
  cases start <;> simp [Follows]

private theorem SaleStart.follows_true_iff {start : SaleStart} :
    start.Follows true ↔ start = .afterPrevious := by
  cases start <;> simp [Follows]

theorem StartsInOrder.exists_instant {first : SaleRow} {later : List SaleRow}
    (starts : StartsInOrder false (first :: later)) :
    ∃ second, first.start = .instant second :=
  SaleStart.follows_false_iff.mp starts.1

theorem startsInOrder_true_iff {tiers : List SaleRow} :
    StartsInOrder true tiers ↔ ∀ tier ∈ tiers, tier.start = .afterPrevious := by
  induction tiers with
  | nil => simp [StartsInOrder]
  | cons tier later ih =>
    rw [StartsInOrder, List.forall_mem_cons, ih, SaleStart.follows_true_iff]

theorem StartsInOrder.afterPrevious {tiers : List SaleRow} (starts : StartsInOrder true tiers) :
    ∀ tier ∈ tiers, tier.start = .afterPrevious :=
  startsInOrder_true_iff.mp starts

/-! ### Tables -/

theorem Row.check_eq_ok_iff {row : Row} {seen : List String} {opened : Bool} :
    row.check seen opened = .ok () ↔
      Text.trim row.id.toList ≠ [] ∧ row.id ∉ seen ∧ row.checkStart opened = .ok () := by
  unfold Row.check
  by_cases blank : Text.trim row.id.toList = []
  · simp [blank]
  · by_cases repeated : row.id ∈ seen
    · simp [blank, repeated]
    · simp [blank, repeated]

/-- What it takes to derive rows behind others, and what they then come to, row by row. -/
structure DerivesTo (d : Denomination) (seen : List String) (opened : Bool) (rows : List Row)
    (allocations : List Allocation) : Prop where
  named : ∀ row ∈ rows, Text.trim row.id.toList ≠ []
  distinct : (rows.map Row.id).Nodup
  fresh : ∀ id ∈ rows.map Row.id, id ∉ seen
  starts : StartsInOrder opened (Row.sales rows)
  derived : List.Forall₂ (fun row a => Row.derive row d = .ok a) rows allocations

/-- A table is derived exactly where each of its rows is, and no check of a row fails. -/
theorem deriveAfter_eq_ok_iff {seen : List String} {opened : Bool} {rows : List Row}
    {allocations : List Allocation} :
    deriveAfter d seen opened rows = .ok allocations ↔
      DerivesTo d seen opened rows allocations := by
  -- Behind any names, as each row adds its own, and a tier opens the sale for those behind it.
  induction rows generalizing seen opened allocations with
  | nil =>
    constructor
    · intro derived
      cases derived
      exact ⟨by simp, List.nodup_nil, by simp, trivial, List.Forall₂.nil⟩
    · intro whole
      cases whole.derived
      rfl
  | cons row rows ih =>
    simp only [deriveAfter, bind_eq_ok_iff, ih]
    constructor
    · rintro ⟨_, checked, a, single, rest, others, done⟩
      cases done
      obtain ⟨named, fresh, start⟩ := Row.check_eq_ok_iff.mp checked
      constructor
      case named => exact List.forall_mem_cons.mpr ⟨named, others.named⟩
      case distinct =>
        refine List.nodup_cons.mpr ⟨?_, others.distinct⟩
        intro again
        exact others.fresh row.id again List.mem_cons_self
      case fresh =>
        refine List.forall_mem_cons.mpr ⟨fresh, ?_⟩
        intro id mem before
        exact others.fresh id mem (List.mem_cons_of_mem row.id before)
      case starts => exact startsInOrder_sales_cons.mpr ⟨start, others.starts⟩
      case derived => exact List.Forall₂.cons single others.derived
    · intro whole
      obtain ⟨start, starts⟩ := startsInOrder_sales_cons.mp whole.starts
      obtain ⟨named, others_named⟩ := List.forall_mem_cons.mp whole.named
      obtain ⟨single_id, distinct⟩ := List.nodup_cons.mp whole.distinct
      obtain ⟨fresh, others_fresh⟩ := List.forall_mem_cons.mp whole.fresh
      cases whole.derived with
      | @cons _ a _ rest single others =>
        have checked := Row.check_eq_ok_iff.mpr ⟨named, fresh, start⟩
        refine ⟨(), checked, a, single, rest, ?_, rfl⟩
        refine ⟨others_named, distinct, ?_, starts, others⟩
        intro id mem seen
        rcases List.mem_cons.mp seen with rfl | before
        · exact single_id mem
        · exact others_fresh id mem before

theorem forall₂_of_deriveAfter {seen : List String} {opened : Bool} {rows : List Row}
    {allocations : List Allocation} (derived : deriveAfter d seen opened rows = .ok allocations) :
    List.Forall₂ (fun row a => Row.derive row d = .ok a) rows allocations :=
  (deriveAfter_eq_ok_iff.mp derived).derived

theorem yields_of_deriveAll {rows : List Row} {allocations : List Allocation}
    (derived : deriveAll d rows = .ok allocations) :
    List.Forall₂ Row.Yields rows allocations :=
  List.Forall₂.imp (fun _ _ single => Row.yields_of_derive single)
    (forall₂_of_deriveAfter derived)

theorem nodup_of_deriveAll {rows : List Row} {allocations : List Allocation}
    (derived : deriveAll d rows = .ok allocations) : (rows.map Row.id).Nodup :=
  (deriveAfter_eq_ok_iff.mp derived).distinct

theorem startsInOrder_of_deriveAfter {seen : List String} {opened : Bool} {rows : List Row}
    {allocations : List Allocation} (derived : deriveAfter d seen opened rows = .ok allocations) :
    StartsInOrder opened (Row.sales rows) :=
  (deriveAfter_eq_ok_iff.mp derived).starts

namespace Row.Yields

private theorem id_eq {row : Row} (yields : row.Yields a) : a.id = row.id := by
  cases yields <;> rfl

theorem isReserve {row : Row} (yields : row.Yields a) : a.isReserve = false := by
  cases yields <;> rfl

theorem unbound {row : Row} (yields : row.Yields a) (indirect : a.kind ≠ .directAccount) :
    a.target = none := by
  cases yields with
  | sale row tokens tier => rfl
  | pool row tokens => rfl
  | account row tokens => exact absurd rfl indirect

theorem literal {row : Row} (yields : row.Yields a) (direct : a.kind = .directAccount) :
    ∃ address, a.target = some (.account address) := by
  cases yields with
  | sale row tokens tier => cases direct
  | pool row tokens => cases direct
  | account row tokens => exact ⟨row.address, rfl⟩

theorem map_id {rows : List Row} {allocations : List Allocation}
    (yields : List.Forall₂ Row.Yields rows allocations) :
    allocations.map Allocation.id = rows.map Row.id := by
  induction yields with
  | nil => rfl
  | cons first rest ih => rw [List.map_cons, List.map_cons, first.id_eq, ih]

theorem forall_mem {P : Allocation → Prop} {rows : List Row} {allocations : List Allocation}
    (yields : List.Forall₂ Row.Yields rows allocations)
    (single : ∀ row a, Row.Yields row a → P a) : ∀ a ∈ allocations, P a := by
  induction yields with
  | nil => simp
  | cons first rest ih =>
    intro b mem
    rcases List.mem_cons.mp mem with rfl | mem
    · exact single _ _ first
    · exact ih b mem

end Row.Yields

end TokenPlan
