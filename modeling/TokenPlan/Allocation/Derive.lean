import TokenPlan.Allocation.Basic
import TokenPlan.Text.Blank

/-!
Derivation of allocations from the rows of a table: tokens, affiliate reserves, prices and limits.
Whether the amounts stay within the supply is not asked here.
-/

set_option autoImplicit false
set_option relaxedAutoImplicit false

namespace TokenPlan

/-- No more may be unlocked at the end of the cliff than there is. -/
def VestingSchedule.check (v : VestingSchedule) (id : String) : Except TableError Unit :=
  if partsPerMillion < v.unlockedAtCliff.toNat then
    .error (.mismatch id (.unlockedShare v.unlockedAtCliff))
  else .ok ()

/-- The rebate has to stay below the price. -/
def SaleRow.checkRate (s : SaleRow) : Except TableError Unit :=
  if partsPerMillion ≤ s.affiliateRate.toNat then
    .error (.mismatch s.id (.affiliateRate s.affiliateRate))
  else .ok ()

/-- The price of a whole token, which may not round to nothing. -/
def SaleRow.derivePrice (s : SaleRow) (d : Denomination) : Except TableError Amount := do
  let price ← inRow s.id (d.fiatAmount s.price)
  if price = Amount.zero then .error (.mismatch s.id .priceIsZero) else .ok price

/-- The least purchase in base units, which may not lie above all that the tier holds. -/
def SaleRow.deriveMinimum (s : SaleRow) (d : Denomination) (target : Amount) :
    Except TableError Amount := do
  let minimum ← inRow s.id (d.wholeTokens s.minimum.toNat)
  if target < minimum then .error (.mismatch s.id (.minimumAboveTarget minimum target))
  else .ok minimum

/--
Derives a tier. Its target covers the tokens sold and the affiliate pool paid on top of them, so the
reserve is what the tokens sold leave of it and the tier takes exactly its target of the supply.
-/
def SaleRow.derive (s : SaleRow) (d : Denomination) : Except TableError Allocation := do
  s.checkRate
  s.vesting.check s.id
  let price ← s.derivePrice d
  let target ← inRow s.id (d.percentOfSupply s.target)
  let sold ← inRow s.id (netOfAffiliate s.target s.affiliateRate)
  let tokens ← inRow s.id (d.percentOfSupply sold)
  let reserve ← inRow s.id (require .underflow (target.sub? tokens))
  let minimum ← s.deriveMinimum d target
  return Allocation.sale s.id tokens
    { name := s.name
      cooldown := s.cooldown
      start := s.start
      price := price
      minimum := minimum
      maximum := target
      affiliateReserve := reserve
      affiliateRate := s.affiliateRate
      vesting := s.vesting }

def PoolRow.derive (p : PoolRow) (d : Denomination) : Except TableError Allocation := do
  p.vesting.check p.id
  let tokens ← inRow p.id (d.percentOfSupply p.percent)
  return Allocation.vesting p.id tokens ⟨p.name, p.vesting⟩

/-- The tokens of a share; of two percentages each is rounded on its own. -/
def Share.tokens (share : Share) (d : Denomination) : Except UnitError Amount :=
  match share with
  | .percent share => d.percentOfSupply share
  | .net gross withheld => do
    let gross ← d.percentOfSupply gross
    let withheld ← d.percentOfSupply withheld
    require .underflow (gross.sub? withheld)
  | .exact amount => .ok amount

def AccountRow.derive (a : AccountRow) (d : Denomination) : Except TableError Allocation := do
  let tokens ← inRow a.id (a.share.tokens d)
  return Allocation.account a.id tokens a.address

namespace Row

def derive (row : Row) (d : Denomination) : Except TableError Allocation :=
  match row with
  | .sale row => row.derive d
  | .pool row => row.derive d
  | .account row => row.derive d

/-- The first tier opens at an instant, and every later one after the tier before it. -/
def checkStart (row : Row) (opened : Bool) : Except TableError Unit :=
  match row with
  | .sale row =>
    match opened, row.start with
    | false, .afterPrevious => .error (.mismatch row.id .firstStartMissing)
    | true, .instant second => .error (.mismatch row.id (.laterStart second))
    | _, _ => .ok ()
  | _ => .ok ()

/-- Checks a row against the names before it and whether a tier came before it. -/
def check (row : Row) (seen : List String) (opened : Bool) : Except TableError Unit :=
  if Text.trim row.id.toList = [] then .error (.mismatch TableError.unnamedRow .blankId)
  else if row.id ∈ seen then .error (.duplicateId row.id)
  else row.checkStart opened

end Row

/-- Derives the allocations of rows after those with the names `seen`. -/
def deriveAfter (d : Denomination) :
    List String → Bool → List Row → Except TableError (List Allocation)
  | _, _, [] => .ok []
  | seen, opened, row :: rows => do
    row.check seen opened
    let allocation ← row.derive d
    let allocations ← deriveAfter d (row.id :: seen) (opened || row.isSale) rows
    return allocation :: allocations

/-- Derives the allocations of a table in the order of its rows; the first fault is reported. -/
def deriveAll (d : Denomination) (rows : List Row) : Except TableError (List Allocation) :=
  deriveAfter d [] false rows

end TokenPlan
