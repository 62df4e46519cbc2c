import Mathlib.Data.List.Forall2
import TokenPlan.Plan.Planning
import TokenPlan.Proofs.Table.Completion
import TokenPlan.Proofs.Table.Document
import TokenPlan.Table.Standard

/-!
A table that is written is read as the same table, and planned like it, exactly if no tier starts
after the year 9999.
-/

set_option autoImplicit false
set_option relaxedAutoImplicit false

namespace TokenPlan

theorem mapM_eq_ok_iff {ε α β : Type} {f : α → Except ε β} {xs : List α} {ys : List β} :
    xs.mapM f = .ok ys ↔ List.Forall₂ (fun x y => f x = .ok y) xs ys := by
  induction xs generalizing ys with
  | nil =>
    rw [List.forall₂_nil_left_iff]
    exact ⟨fun same => (Except.ok.inj same).symm, fun same => same ▸ rfl⟩
  | cons x rest ih =>
    simp only [List.mapM_cons, bind_eq_ok_iff, ih, List.forall₂_cons_left_iff]
    constructor
    · rintro ⟨first, single, others, behind, done⟩
      cases done
      exact ⟨first, others, single, behind, rfl⟩
    · rintro ⟨first, others, single, behind, rfl⟩
      exact ⟨first, single, others, behind, rfl⟩

theorem mapM_eq_ok_self_iff {ε α : Type} {complete : α → Except ε α} {xs : List α} :
    xs.mapM complete = .ok xs ↔ ∀ x ∈ xs, complete x = .ok x := by
  rw [mapM_eq_ok_iff, List.forall₂_same]

theorem readTable_pretty (drafts : List Draft) :
    readTable (Json.Value.array (drafts.map Draft.toJson)).pretty =
      drafts.mapM Draft.complete := by
  rw [readTable, Json.Value.pretty, Draft.listOfJson?_render]
  rfl

theorem readTable_writeTable_eq (rows : List Row) :
    readTable (writeTable rows) = rows.mapM fun row => row.toDraft.complete := by
  have drafts : (rows.map fun row => row.toDraft.toJson) =
      (rows.map Row.toDraft).map Draft.toJson := by
    rw [List.map_map]
    rfl
  rw [writeTable, drafts, readTable_pretty, List.mapM_map]
  rfl

/-- A written table is read back, and planned like its rows, where no tier starts too late. -/
theorem readTable_writeTable (rows : List Row) :
    (readTable (writeTable rows) = .ok rows ↔ ∀ row ∈ rows, row.Short) ∧
      ((∀ row ∈ rows, row.Short) → ∀ (d : Denomination) (settings : Settings),
        planText d (writeTable rows) settings = (planRows d rows settings).mapError .plan) := by
  have recovered : readTable (writeTable rows) = .ok rows ↔ ∀ row ∈ rows, row.Short := by
    rw [readTable_writeTable_eq, mapM_eq_ok_self_iff]
    exact forall₂_congr fun row _ => Row.complete_toDraft row
  refine ⟨recovered, ?_⟩
  intro short d settings
  rw [planText, recovered.mpr short]
  rfl

theorem readTable_writeTable_standard :
    readTable (writeTable (Standard.rows Address.zero)) = .ok (Standard.rows Address.zero) ∧
      planText Denomination.standard (writeTable (Standard.rows Address.zero)) Settings.standard =
        (planRows Denomination.standard (Standard.rows Address.zero) Settings.standard).mapError
          .plan := by
  have short : ∀ row ∈ Standard.rows Address.zero, row.Short := by decide
  obtain ⟨recovered, planned⟩ := readTable_writeTable (Standard.rows Address.zero)
  exact ⟨recovered.mpr short, planned short _ _⟩

end TokenPlan
