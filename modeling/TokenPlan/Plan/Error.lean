import TokenPlan.Table.Error

/-!
Why a table cannot be planned, and the words in which it is reported.
-/

set_option autoImplicit false
set_option relaxedAutoImplicit false

namespace TokenPlan

/-- How allocations or actions depart from what a plan needs. -/
inductive Inconsistency where
  | explicitReserve
  | unbalanced (total sum : Amount)
  | reserveMissing
  | duplicateAction
  | lengths (owners amounts : Nat)
  | misaligned (owner amount : String) (index : Nat)
deriving DecidableEq

namespace Inconsistency

def expected : Inconsistency → String
  | .explicitReserve => "no explicit liquidity reserve"
  | .unbalanced total _ => total.render
  | .reserveMissing => "liquidity reserve"
  | .duplicateAction => "unique action id"
  | .lengths owners _ => Text.numeral owners ++ " amounts"
  | .misaligned owner _ index => "amount for " ++ owner ++ " at index " ++ Text.numeral index

def actual : Inconsistency → String
  | .explicitReserve => "liquidity"
  | .unbalanced _ sum => sum.render
  | .reserveMissing => "missing"
  | .duplicateAction => "duplicate"
  | .lengths _ amounts => Text.numeral amounts ++ " amounts"
  | .misaligned _ amount _ => "amount for " ++ amount

end Inconsistency

/-- Why a table cannot be planned; errors of the table are passed on as they are. -/
inductive PlanError where
  | supplyExceeded (total allocated : Amount)
  | unresolved (id : String)
  | mismatch (id : String) (cause : Inconsistency)
  | alreadyBound (id : String)
  | table (error : TableError)
deriving DecidableEq

namespace PlanError

def message : PlanError → String
  | .supplyExceeded total allocated =>
    "supply exceeded: allocations must stay below " ++ total.render ++ " but sum to " ++
      allocated.render
  | .unresolved id => "unresolved reference from " ++ id
  | .mismatch id cause => mismatchMessage id cause.expected cause.actual
  | .alreadyBound id => "target already bound: " ++ id
  | .table error => error.message

/-- The error and what caused it, outermost first. -/
def chain : PlanError → List String
  | .table error => error.chain
  | error => [error.message]

/-- The name under which obligations that miss the total supply are reported. -/
def wholeSupply : String := "<supply>"

end PlanError

end TokenPlan
