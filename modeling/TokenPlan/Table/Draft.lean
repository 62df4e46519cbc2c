import TokenPlan.Table.Row
import TokenPlan.Unit.Instant
import TokenPlan.Unit.Literal

/-!
Rows as they stand in a table file, where any field but the name of the row may be absent, and
their completion to rows of the table. A field that a kind of row needs is never made up.
-/

set_option autoImplicit false
set_option relaxedAutoImplicit false

namespace TokenPlan

structure VestingDraft where
  launchShare : Option UInt64
  cliffDuration : Option UInt64
  cliffShare : Option UInt64
  linearDuration : Option UInt64
deriving DecidableEq

structure SaleDraft where
  id : String
  name : Option String
  cooldown : Option UInt64
  start : Option String
  price : Option String
  target : Option String
  minimum : Option UInt64
  affiliateRate : Option UInt64
  vesting : VestingDraft
deriving DecidableEq

structure PoolDraft where
  id : String
  name : Option String
  percent : Option String
  vesting : VestingDraft
deriving DecidableEq

structure AccountDraft where
  id : String
  address : Option String
  percent : Option String
  withheld : Option String
  tokens : Option String
deriving DecidableEq

/-- A row as it stands in a table file. -/
inductive Draft where
  | sale (draft : SaleDraft)
  | pool (draft : PoolDraft)
  | account (draft : AccountDraft)
deriving DecidableEq

def needField {α : Type} (id field : String) (value? : Option α) : Except TableError α :=
  require (.mismatch id (.missing field)) value?

/-! ### Completion -/

def VestingDraft.complete (v : VestingDraft) (id : String) : Except TableError VestingSchedule := do
  let launchShare ← needField id "tgePercent" v.launchShare
  let cliffDuration ← needField id "cliffDuration" v.cliffDuration
  let cliffShare ← needField id "cliffPercent" v.cliffShare
  let linearDuration ← needField id "linearDuration" v.linearDuration
  return ⟨launchShare, cliffDuration, cliffShare, linearDuration⟩

/-- A tier without a start opens after the one before it. -/
def SaleDraft.startTime (s : SaleDraft) : Except TableError SaleStart :=
  match s.start with
  | none => .ok .afterPrevious
  | some text => do
    let second ← inRow s.id (Instant.ofText text)
    return .instant second

/-- Reads the fraction in a field that the kind of row needs. -/
def needRatio (id field : String) (text? : Option String) : Except TableError Ratio := do
  let text ← needField id field text?
  inRow id (Ratio.ofText text)

def SaleDraft.complete (s : SaleDraft) : Except TableError SaleRow := do
  let start ← s.startTime
  let price ← needRatio s.id "salePrice" s.price
  let target ← needRatio s.id "targetPercent" s.target
  let name ← needField s.id "name" s.name
  let cooldown ← needField s.id "cooldownDuration" s.cooldown
  let minimum ← needField s.id "saleMinPerWallet" s.minimum
  let affiliateRate ← needField s.id "affiliatePercent" s.affiliateRate
  let vesting ← s.vesting.complete s.id
  return ⟨s.id, name, cooldown, start, price, target, minimum, affiliateRate, vesting⟩

def PoolDraft.complete (p : PoolDraft) : Except TableError PoolRow := do
  let percent ← needRatio p.id "percent" p.percent
  let name ← needField p.id "name" p.name
  let vesting ← p.vesting.complete p.id
  return ⟨p.id, name, percent, vesting⟩

/-- The share is a percentage, a percentage less another, or a number of base units. -/
def AccountDraft.readShare (a : AccountDraft) : Except TableError Share :=
  match a.percent, a.withheld, a.tokens with
  | some percent, none, none => do
    let percent ← inRow a.id (Ratio.ofText percent)
    return .percent percent
  | some gross, some withheld, none => do
    let gross ← inRow a.id (Ratio.ofText gross)
    let withheld ← inRow a.id (Ratio.ofText withheld)
    return .net gross withheld
  | none, none, some tokens => do
    let amount ← inRow a.id <|
      require (.invalidDecimal tokens) (Amount.ofDigits? (Text.trim tokens.toList))
    return .exact amount
  | none, none, none => .error (.mismatch a.id (.missing "percent or tokens"))
  | _, _, _ => .error (.mismatch a.id .conflictingShares)

def AccountDraft.complete (a : AccountDraft) : Except TableError AccountRow := do
  let address ← needField a.id "address" a.address
  let address ← inRow a.id (Address.ofText address)
  let share ← a.readShare
  return ⟨a.id, address, share⟩

namespace Draft

def complete : Draft → Except TableError Row
  | .sale draft => Row.sale <$> draft.complete
  | .pool draft => Row.pool <$> draft.complete
  | .account draft => Row.account <$> draft.complete

end Draft

/-! ### Drafts of rows -/

def VestingSchedule.toDraft (v : VestingSchedule) : VestingDraft :=
  ⟨some v.launchShare, some v.cliffDuration, some v.cliffShare, some v.linearDuration⟩

/-- The text of a start; a tier that opens after the one before it has none. -/
def SaleStart.render? : SaleStart → Option String
  | .instant second => Instant.render? second
  | .afterPrevious => none

def SaleRow.toDraft (s : SaleRow) : SaleDraft :=
  { id := s.id
    name := some s.name
    cooldown := some s.cooldown
    start := s.start.render?
    price := some s.price.render
    target := some s.target.render
    minimum := some s.minimum
    affiliateRate := some s.affiliateRate
    vesting := s.vesting.toDraft }

def PoolRow.toDraft (p : PoolRow) : PoolDraft :=
  { id := p.id
    name := some p.name
    percent := some p.percent.render
    vesting := p.vesting.toDraft }

def AccountRow.toDraft (a : AccountRow) : AccountDraft :=
  match a.share with
  | .percent percent => ⟨a.id, some a.address.render, some percent.render, none, none⟩
  | .net gross withheld =>
    ⟨a.id, some a.address.render, some gross.render, some withheld.render, none⟩
  | .exact amount => ⟨a.id, some a.address.render, none, none, some amount.render⟩

/-- The draft that describes a row. -/
def Row.toDraft : Row → Draft
  | .sale row => .sale row.toDraft
  | .pool row => .pool row.toDraft
  | .account row => .account row.toDraft

end TokenPlan
