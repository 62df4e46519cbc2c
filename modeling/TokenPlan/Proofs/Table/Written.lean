import TokenPlan.Proofs.Table.Tokens

/-!
What the draft of a row says. A row is made of the fields that are written in its draft and of
nothing else: every field that its kind needs is there and can be read, and the row has the value
that was read. A tier alone may go without its start, and then opens after the tier before it; an
account has its share in one of three forms.
-/

set_option autoImplicit false
set_option relaxedAutoImplicit false

namespace TokenPlan

/-- A text is written, and it is read as the value. -/
def Gives {α : Type} (read : String → Except UnitError α) (text? : Option String) (value : α) :
    Prop :=
  ∃ text, text? = some text ∧ read text = .ok value

/-- When a tier opens by what is written of its start. -/
inductive SaleDraft.Opens (s : SaleDraft) : SaleStart → Prop
  | instant {second : UInt64} (given : Gives Instant.ofText s.start second) :
      Opens s (.instant second)
  | afterPrevious (unwritten : s.start = none) : Opens s .afterPrevious

structure SaleDraft.Writes (s : SaleDraft) (row : SaleRow) : Prop where
  id : s.id = row.id
  name : s.name = some row.name
  cooldown : s.cooldown = some row.cooldown
  start : s.Opens row.start
  price : Gives Ratio.ofText s.price row.price
  target : Gives Ratio.ofText s.target row.target
  minimum : s.minimum = some row.minimum
  affiliateRate : s.affiliateRate = some row.affiliateRate
  vesting : s.vesting = row.vesting.toDraft

structure PoolDraft.Writes (p : PoolDraft) (row : PoolRow) : Prop where
  id : p.id = row.id
  name : p.name = some row.name
  percent : Gives Ratio.ofText p.percent row.percent
  vesting : p.vesting = row.vesting.toDraft

/-- The three forms of a share; what does not belong to the form is not written. -/
inductive AccountDraft.Shares (a : AccountDraft) : Share → Prop
  | percent {percent : Ratio} (given : Gives Ratio.ofText a.percent percent)
      (no_withheld : a.withheld = none) (no_tokens : a.tokens = none) : Shares a (.percent percent)
  | net {gross withheld : Ratio} (given : Gives Ratio.ofText a.percent gross)
      (less : Gives Ratio.ofText a.withheld withheld) (no_tokens : a.tokens = none) :
      Shares a (.net gross withheld)
  | exact {amount : Amount} (given : Gives Amount.ofText a.tokens amount)
      (no_percent : a.percent = none) (no_withheld : a.withheld = none) : Shares a (.exact amount)

structure AccountDraft.Writes (a : AccountDraft) (row : AccountRow) : Prop where
  id : a.id = row.id
  address : Gives Address.ofText a.address row.address
  share : a.Shares row.share

/-- The draft is of the kind of the row, and the row is what is written in it. -/
inductive Draft.Writes : Draft → Row → Prop
  | sale {draft : SaleDraft} {row : SaleRow} (writes : draft.Writes row) :
      Writes (.sale draft) (.sale row)
  | pool {draft : PoolDraft} {row : PoolRow} (writes : draft.Writes row) :
      Writes (.pool draft) (.pool row)
  | account {draft : AccountDraft} {row : AccountRow} (writes : draft.Writes row) :
      Writes (.account draft) (.account row)

/-- The text of an amount, where the draft has one. -/
def Draft.tokens? : Draft → Option String
  | .account draft => draft.tokens
  | _ => none

/-! ### Fields -/

variable {α : Type} {id field : String}

@[simp] theorem not_gives_none {read : String → Except UnitError α} {value : α} :
    ¬ Gives read none value := by
  rintro ⟨text, written, -⟩
  cases written

@[simp] theorem gives_some {read : String → Except UnitError α} {text : String} {value : α} :
    Gives read (some text) value ↔ read text = .ok value := by
  simp [Gives]

private theorem inRow_eq_ok_iff {result : Except UnitError α} {value : α} :
    inRow id result = .ok value ↔ result = .ok value :=
  mapError_eq_ok_iff

theorem needField_eq_ok_iff {value? : Option α} {value : α} :
    needField id field value? = .ok value ↔ value? = some value :=
  require_eq_ok_iff

private theorem needRatio_eq_ok_iff {text? : Option String} {value : Ratio} :
    needRatio id field text? = .ok value ↔ Gives Ratio.ofText text? value := by
  simp only [needRatio, bind_eq_ok_iff, needField_eq_ok_iff, inRow_eq_ok_iff, Gives]

private theorem VestingDraft.complete_eq_ok_iff {v : VestingDraft} {schedule : VestingSchedule} :
    v.complete id = .ok schedule ↔ v = schedule.toDraft := by
  simp only [complete, bind_eq_ok_iff, needField_eq_ok_iff]
  constructor
  · rintro ⟨launchShare, first, cliffDuration, second, cliffShare, third, linearDuration, last,
      done⟩
    cases done
    cases v
    cases first
    cases second
    cases third
    cases last
    rfl
  · rintro rfl
    exact ⟨_, rfl, _, rfl, _, rfl, _, rfl, rfl⟩

private theorem SaleDraft.opens_instant_iff {s : SaleDraft} {second : UInt64} :
    s.Opens (.instant second) ↔ Gives Instant.ofText s.start second := by
  constructor
  · intro opens
    cases opens with
    | instant given => exact given
  · exact .instant

private theorem SaleDraft.opens_afterPrevious_iff {s : SaleDraft} :
    s.Opens .afterPrevious ↔ s.start = none := by
  constructor
  · intro opens
    cases opens with
    | afterPrevious unwritten => exact unwritten
  · exact .afterPrevious

private theorem SaleDraft.startTime_eq_ok_iff {s : SaleDraft} {start : SaleStart} :
    s.startTime = .ok start ↔ s.Opens start := by
  unfold startTime
  cases written : s.start with
  | none =>
    cases start with
    | instant second => simp [opens_instant_iff, written]
    | afterPrevious => simp [opens_afterPrevious_iff, written]
  | some text =>
    cases start with
    | instant second =>
      simp [bind_eq_ok_iff, inRow_eq_ok_iff, pure, Except.pure, opens_instant_iff, written]
    | afterPrevious =>
      simp [bind_eq_ok_iff, pure, Except.pure, opens_afterPrevious_iff, written]

/-! ### Rows -/

private theorem SaleDraft.complete_eq_ok_iff {s : SaleDraft} {row : SaleRow} :
    s.complete = .ok row ↔ s.Writes row := by
  simp only [complete, bind_eq_ok_iff, startTime_eq_ok_iff, needRatio_eq_ok_iff,
    needField_eq_ok_iff, VestingDraft.complete_eq_ok_iff]
  constructor
  · rintro ⟨start, opens, price, price_given, target, target_given, name, named, cooldown, cooled,
      minimum, least, affiliateRate, rate, vesting, vested, done⟩
    cases done
    exact ⟨rfl, named, cooled, opens, price_given, target_given, least, rate, vested⟩
  · intro writes
    refine ⟨_, writes.start, _, writes.price, _, writes.target, _, writes.name, _, writes.cooldown,
      _, writes.minimum, _, writes.affiliateRate, _, writes.vesting, ?_⟩
    rw [writes.id]
    rfl

private theorem PoolDraft.complete_eq_ok_iff {p : PoolDraft} {row : PoolRow} :
    p.complete = .ok row ↔ p.Writes row := by
  simp only [complete, bind_eq_ok_iff, needRatio_eq_ok_iff, needField_eq_ok_iff,
    VestingDraft.complete_eq_ok_iff]
  constructor
  · rintro ⟨percent, given, name, named, vesting, vested, done⟩
    cases done
    exact ⟨rfl, named, given, vested⟩
  · intro writes
    refine ⟨_, writes.percent, _, writes.name, _, writes.vesting, ?_⟩
    rw [writes.id]
    rfl

private theorem AccountDraft.readShare_eq_ok_iff {a : AccountDraft} {share : Share} :
    a.readShare = .ok share ↔ a.Shares share := by
  constructor
  · intro read
    unfold readShare at read
    split at read
    · rename_i written no_withheld no_tokens
      simp only [bind_eq_ok_iff, inRow_eq_ok_iff] at read
      obtain ⟨percent, given, done⟩ := read
      cases done
      exact .percent ⟨_, written, given⟩ no_withheld no_tokens
    · rename_i gross_written withheld_written no_tokens
      simp only [bind_eq_ok_iff, inRow_eq_ok_iff] at read
      obtain ⟨gross, given, withheld, less, done⟩ := read
      cases done
      exact .net ⟨_, gross_written, given⟩ ⟨_, withheld_written, less⟩ no_tokens
    · rename_i no_percent no_withheld written
      simp only [bind_eq_ok_iff, inRow_eq_ok_iff] at read
      obtain ⟨amount, given, done⟩ := read
      cases done
      exact .exact ⟨_, written, given⟩ no_percent no_withheld
    · cases read
    · cases read
  · intro shares
    unfold readShare
    cases shares with
    | percent given no_withheld no_tokens =>
      obtain ⟨text, written, given⟩ := given
      simp only [written, no_withheld, no_tokens, given]
      rfl
    | net given less no_tokens =>
      obtain ⟨text, written, given⟩ := given
      obtain ⟨other, withheld_written, less⟩ := less
      simp only [written, withheld_written, no_tokens, given, less]
      rfl
    | exact given no_percent no_withheld =>
      obtain ⟨text, written, given⟩ := given
      rw [no_percent, no_withheld, written]
      change (inRow a.id (Amount.ofText text) >>= fun amount => .ok (Share.exact amount)) = _
      rw [given]
      rfl

private theorem AccountDraft.complete_eq_ok_iff {a : AccountDraft} {row : AccountRow} :
    a.complete = .ok row ↔ a.Writes row := by
  simp only [complete, bind_eq_ok_iff, readShare_eq_ok_iff, needField_eq_ok_iff, inRow_eq_ok_iff]
  constructor
  · rintro ⟨text, written, address, read, share, shares, done⟩
    cases done
    exact ⟨rfl, ⟨text, written, read⟩, shares⟩
  · intro writes
    obtain ⟨text, written, read⟩ := writes.address
    refine ⟨text, written, _, read, _, writes.share, ?_⟩
    rw [writes.id]
    rfl

/-- A draft is completed to a row exactly if the row is what is written in it. -/
theorem Draft.complete_eq_ok_iff {draft : Draft} {row : Row} :
    draft.complete = .ok row ↔ draft.Writes row := by
  cases draft with
  | sale draft =>
    simp only [complete, map_eq_ok_iff, SaleDraft.complete_eq_ok_iff]
    constructor
    · rintro ⟨row, writes, rfl⟩
      exact .sale writes
    · intro writes
      cases writes with
      | sale writes => exact ⟨_, writes, rfl⟩
  | pool draft =>
    simp only [complete, map_eq_ok_iff, PoolDraft.complete_eq_ok_iff]
    constructor
    · rintro ⟨row, writes, rfl⟩
      exact .pool writes
    · intro writes
      cases writes with
      | pool writes => exact ⟨_, writes, rfl⟩
  | account draft =>
    simp only [complete, map_eq_ok_iff, AccountDraft.complete_eq_ok_iff]
    constructor
    · rintro ⟨row, writes, rfl⟩
      exact .account writes
    · intro writes
      cases writes with
      | account writes => exact ⟨_, writes, rfl⟩

theorem Draft.Writes.exists_tokens {draft : Draft} {id : String} {address : Address}
    {amount : Amount} (writes : draft.Writes (.account ⟨id, address, .exact amount⟩)) :
    ∃ tokens, draft.tokens? = some tokens ∧
      ((∃ digits, Amount.Numeral tokens digits amount.toNat) ↔ ¬ Text.Blank tokens.toList) := by
  cases writes with
  | account writes =>
    cases writes.share with
    | exact given no_percent no_withheld =>
      obtain ⟨tokens, written, read⟩ := given
      exact ⟨tokens, written, (Amount.ofText_eq_iff.mp read).spells_iff⟩

end TokenPlan
