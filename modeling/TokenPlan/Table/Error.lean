import TokenPlan.Unit.Amount
import TokenPlan.Unit.Denomination
import TokenPlan.Unit.Error

/-!
What can be wrong with a table of allocations, and the words in which it is reported.
-/

set_option autoImplicit false
set_option relaxedAutoImplicit false

namespace TokenPlan

/-- How a row departs from what its kind asks for. -/
inductive Mismatch where
  | notATable
  | missing (field : String)
  | conflictingShares
  | blankId
  | affiliateRate (rate : UInt64)
  | unlockedShare (share : UInt64)
  | priceIsZero
  | minimumAboveTarget (minimum target : Amount)
  | firstStartMissing
  | laterStart (second : UInt64)
deriving DecidableEq

namespace Mismatch

def expected : Mismatch → String
  | .notATable => "array of allocation entries"
  | .missing field => "field " ++ field
  | .conflictingShares => "percent [withheldPercent] or tokens"
  | .blankId => "non-empty id"
  | .affiliateRate _ => "affiliatePercent < " ++ Text.numeral partsPerMillion
  | .unlockedShare _ => "tgePercent + cliffPercent <= " ++ Text.numeral partsPerMillion
  | .priceIsZero => "salePrice > 0"
  | .minimumAboveTarget _ target => "saleMinPerWallet <= " ++ target.render
  | .firstStartMissing => "absolute saleStart on first tier"
  | .laterStart _ => "saleStart 0 after first tier"

def actual : Mismatch → String
  | .notATable => "another text"
  | .missing _ => "missing"
  | .conflictingShares => "conflicting share fields"
  | .blankId => "empty"
  | .affiliateRate rate => Text.numeral rate.toNat
  | .unlockedShare share => Text.numeral share.toNat
  | .priceIsZero => "0"
  | .minimumAboveTarget minimum _ => minimum.render
  | .firstStartMissing => "missing"
  | .laterStart second => Text.numeral second.toNat

end Mismatch

/-- The words in which a departure from an expectation is reported. -/
def mismatchMessage (id expected actual : String) : String :=
  "schema mismatch in " ++ id ++ ": expected " ++ expected ++ ", got " ++ actual

/-- What is wrong with a table, with the row in which it was found. -/
inductive TableError where
  | mismatch (id : String) (cause : Mismatch)
  | duplicateId (id : String)
  | unit (id : String) (cause : UnitError)
deriving DecidableEq

namespace TableError

def message : TableError → String
  | .mismatch id cause => mismatchMessage id cause.expected cause.actual
  | .duplicateId id => "duplicate allocation id: " ++ id
  | .unit id cause => "unit conversion in " ++ id ++ ": " ++ cause.message

def chain : TableError → List String
  | .unit id cause => [message (.unit id cause), cause.message]
  | error => [error.message]

/-- The name under which a text that is no table at all is reported. -/
def wholeTable : String := "<table>"

/-- The name under which a row without a name is reported. -/
def unnamedRow : String := "<unnamed>"

end TableError

/-- Reports a failed conversion together with the row it happened in. -/
def inRow {α : Type} (id : String) (result : Except UnitError α) : Except TableError α :=
  result.mapError (.unit id)

end TokenPlan
