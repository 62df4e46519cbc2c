import TokenPlan.Plan.Action
import TokenPlan.Plan.Error

/-!
The order of actions: no name stands twice, and whatever an action depends on is created before it.
-/

set_option autoImplicit false
set_option relaxedAutoImplicit false

namespace TokenPlan.Plan

def created (actions : List Action) : List ActionId :=
  (actions.filter Action.isCreate).map Action.id

/-- The first action whose name an earlier one has, where `seen` are the names before the list. -/
def firstRepeated? : List ActionId → List Action → Option Action
  | _, [] => none
  | seen, a :: rest => if a.id ∈ seen then some a else firstRepeated? (a.id :: seen) rest

/-- The first action that depends on something not in `made` or created before it. -/
def firstUnresolved? : List ActionId → List Action → Option Action
  | _, [] => none
  | made, a :: rest =>
    if a.dependencies.all fun id => id ∈ made then
      firstUnresolved? (if a.isCreate then a.id :: made else made) rest
    else some a

/-- Checks the order of actions; a repeated name is reported before anything else. -/
def checkOrder (actions : List Action) : Except PlanError Unit :=
  match firstRepeated? [] actions with
  | some a => .error (.mismatch a.id .duplicateAction)
  | none =>
    match firstUnresolved? [] actions with
    | some a => .error (.unresolved a.id)
    | none => .ok ()

end TokenPlan.Plan
