import TokenPlan.Allocation.Derive
import TokenPlan.Plan.Compiled
import TokenPlan.Table.Document

/-!
From a table to a plan: allocations are derived, held against the supply, completed by the reserve
and compiled.
-/

set_option autoImplicit false
set_option relaxedAutoImplicit false

namespace TokenPlan

/-- Passes an error of the table on. -/
def ofTable {α : Type} (result : Except TableError α) : Except PlanError α :=
  result.mapError .table

/-- The report on the supply that a table leaves. -/
def checkSupply (d : Denomination) (rows : List Row) : Except PlanError SupplyReport := do
  let allocations ← ofTable (deriveAll d rows)
  reportSupply allocations d.supply

def planRows (d : Denomination) (rows : List Row) (settings : Settings) :
    Except PlanError CompiledPlan := do
  let allocations ← ofTable (deriveAll d rows)
  let report ← reportSupply allocations d.supply
  let distribution ← Distribution.withReserve allocations report settings.reserveId
  Plan.compile distribution settings

/-- Why a text cannot be planned: it is no table, or its rows cannot be planned. -/
inductive TextError where
  | table (error : TableError)
  | plan (error : PlanError)
deriving DecidableEq

namespace TextError

def message : TextError → String
  | .table error => error.message
  | .plan error => error.message

def chain : TextError → List String
  | .table error => error.chain
  | .plan error => error.chain

end TextError

def planText (d : Denomination) (text : String) (settings : Settings) :
    Except TextError CompiledPlan := do
  let rows ← (readTable text).mapError .table
  (planRows d rows settings).mapError .plan

end TokenPlan
