import TokenPlan.Proofs.Address
import TokenPlan.Proofs.Unit.Instant
import TokenPlan.Proofs.Unit.Literal
import TokenPlan.Table.Draft

/-!
The draft of a row describes the row: addresses, fractions and amounts are read back from their
texts, and so is the start of a tier as long as its year has four digits.
-/

set_option autoImplicit false
set_option relaxedAutoImplicit false

namespace TokenPlan

/-! ### Amounts -/

theorem Amount.ofDigits?_trim_render (a : Amount) :
    Amount.ofDigits? (Text.trim a.render.toList) = some a := by
  have visible : Text.Visible a.render.toList := by
    rw [Amount.render, Text.numeral, String.toList_ofList]
    exact Text.visible_digits a.toNat
  rw [Text.trim_of_visible visible, Amount.ofDigits?_render]

/-! ### Rows -/

/-- A start that is read back from its text. -/
def SaleStart.Short : SaleStart → Prop
  | .instant second => second.toNat ≤ Instant.lastShortSecond
  | .afterPrevious => True

instance (start : SaleStart) : Decidable start.Short :=
  match start with
  | .instant second => inferInstanceAs (Decidable (second.toNat ≤ Instant.lastShortSecond))
  | .afterPrevious => inferInstanceAs (Decidable True)

private theorem needRatio_render (id field : String) (x : Ratio) :
    needRatio id field (some x.render) = .ok x := by
  change inRow id (Ratio.ofText x.render) = .ok x
  rw [Ratio.ofText_render]
  rfl

/-- A late start is refused, or it is left out and taken for no start at all. -/
theorem SaleRow.startTime_toDraft (s : SaleRow) :
    s.toDraft.startTime = .ok s.start ↔ s.start.Short := by
  cases start : s.start with
  | afterPrevious =>
    have none_written : s.toDraft.start = none := by
      change s.start.render? = none
      rw [start]
      rfl
    rw [SaleDraft.startTime, none_written]
    exact ⟨fun _ => trivial, fun _ => rfl⟩
  | instant second =>
    have written : s.toDraft.start = Instant.render? second := by
      change s.start.render? = _
      rw [start]
      rfl
    change _ ↔ second.toNat ≤ Instant.lastShortSecond
    rw [SaleDraft.startTime, written, Instant.render?]
    by_cases told : second.toNat ≤ Instant.lastSecond
    · simp only [told, if_true]
      by_cases short : second.toNat ≤ Instant.lastShortSecond
      · rw [Instant.ofText_write short]
        exact ⟨fun _ => short, fun _ => rfl⟩
      · rw [Instant.ofText_of_long (Nat.lt_of_not_le short)]
        exact ⟨nofun, fun early => absurd early short⟩
    · have long : ¬ second.toNat ≤ Instant.lastShortSecond := by
        unfold Instant.lastShortSecond
        unfold Instant.lastSecond at told
        omega
      simp only [told, if_false]
      exact ⟨nofun, fun early => absurd early long⟩

theorem SaleRow.complete_toDraft_eq (s : SaleRow) :
    s.toDraft.complete = s.toDraft.startTime >>= fun start => .ok { s with start := start } := by
  have price : needRatio s.toDraft.id "salePrice" s.toDraft.price = .ok s.price :=
    needRatio_render _ _ s.price
  have target : needRatio s.toDraft.id "targetPercent" s.toDraft.target = .ok s.target :=
    needRatio_render _ _ s.target
  rw [SaleDraft.complete, price, target]
  rfl

private theorem SaleRow.complete_toDraft (s : SaleRow) :
    s.toDraft.complete = .ok s ↔ s.start.Short := by
  rw [SaleRow.complete_toDraft_eq, ← SaleRow.startTime_toDraft]
  cases s.toDraft.startTime with
  | error e => simp
  | ok start =>
    simp only [ok_bind, Except.ok.injEq]
    constructor
    · intro same
      exact congrArg SaleRow.start same
    · rintro rfl
      rfl

private theorem PoolRow.complete_toDraft (p : PoolRow) : p.toDraft.complete = .ok p := by
  have percent : needRatio p.toDraft.id "percent" p.toDraft.percent = .ok p.percent :=
    needRatio_render _ _ p.percent
  rw [PoolDraft.complete, percent]
  rfl

private theorem AccountRow.readShare_toDraft (a : AccountRow) :
    a.toDraft.readShare = .ok a.share := by
  obtain ⟨id, address, share⟩ := a
  cases share with
  | percent percent =>
    simp only [toDraft, AccountDraft.readShare, Ratio.ofText_render]
    rfl
  | net gross withheld =>
    simp only [toDraft, AccountDraft.readShare, Ratio.ofText_render]
    rfl
  | exact amount =>
    simp only [toDraft, AccountDraft.readShare, Amount.ofDigits?_trim_render]
    rfl

private theorem AccountRow.complete_toDraft (a : AccountRow) : a.toDraft.complete = .ok a := by
  have id : a.toDraft.id = a.id := by
    unfold AccountRow.toDraft
    cases a.share <;> rfl
  have written : a.toDraft.address = some a.address.render := by
    unfold AccountRow.toDraft
    cases a.share <;> rfl
  have address : inRow a.id (Address.ofText a.address.render) = .ok a.address := by
    rw [Address.ofText_render]
    rfl
  rw [AccountDraft.complete, written, id]
  change (inRow a.id (Address.ofText a.address.render) >>= fun address => _) = _
  rw [address, ok_bind, AccountRow.readShare_toDraft]
  rfl

/-- A row whose start, if it is a tier, is read back from its text. -/
def Row.Short : Row → Prop
  | .sale row => row.start.Short
  | _ => True

instance (row : Row) : Decidable row.Short :=
  match row with
  | .sale row => inferInstanceAs (Decidable row.start.Short)
  | .pool _ => inferInstanceAs (Decidable True)
  | .account _ => inferInstanceAs (Decidable True)

/-- The draft of a row is completed to the row itself, late tiers apart. -/
theorem Row.complete_toDraft (row : Row) : row.toDraft.complete = .ok row ↔ row.Short := by
  cases row with
  | sale row =>
    change Row.sale <$> row.toDraft.complete = .ok (.sale row) ↔ row.start.Short
    rw [← SaleRow.complete_toDraft]
    cases row.toDraft.complete with
    | error e => exact ⟨nofun, nofun⟩
    | ok other =>
      constructor
      · intro same
        cases same
        rfl
      · intro same
        cases same
        rfl
  | pool row =>
    change Row.pool <$> row.toDraft.complete = .ok (.pool row) ↔ True
    rw [PoolRow.complete_toDraft]
    exact ⟨fun _ => trivial, fun _ => rfl⟩
  | account row =>
    change Row.account <$> row.toDraft.complete = .ok (.account row) ↔ True
    rw [AccountRow.complete_toDraft]
    exact ⟨fun _ => trivial, fun _ => rfl⟩

end TokenPlan
