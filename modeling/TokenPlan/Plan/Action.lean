import TokenPlan.Plan.Argument

/-!
Actions of a plan: the creation of a contract, or the call of a method.
-/

set_option autoImplicit false
set_option relaxedAutoImplicit false

namespace TokenPlan

inductive Operation where
  | create (contract : String) (arguments : List Argument)
  | call (target : Target) (method : String) (arguments : List Argument)

/-- A named step of a plan. -/
structure Action where
  id : ActionId
  operation : Operation

namespace Action

def create (id : ActionId) (contract : String) (arguments : List Argument) : Action :=
  ⟨id, .create contract arguments⟩

def call (id : ActionId) (target : Target) (method : String) (arguments : List Argument) : Action :=
  ⟨id, .call target method arguments⟩

def isCreate (a : Action) : Bool :=
  match a.operation with
  | .create .. => true
  | .call .. => false

/-- The contract that the action creates. -/
def contract? (a : Action) : Option String :=
  match a.operation with
  | .create contract _ => some contract
  | .call .. => none

def arguments (a : Action) : List Argument :=
  match a.operation with
  | .create _ arguments => arguments
  | .call _ _ arguments => arguments

def calledAction? (a : Action) : Option ActionId :=
  match a.operation with
  | .create .. => none
  | .call target _ _ => target.action?

@[simp] theorem calledAction?_create (id : ActionId) (contract : String)
    (arguments : List Argument) : (create id contract arguments).calledAction? = none := rfl

@[simp] theorem calledAction?_call (id : ActionId) (target : Target) (method : String)
    (arguments : List Argument) :
    (call id target method arguments).calledAction? = target.action? := rfl

/-- The actions that have to run before: the one that is called, then those referred to. -/
def dependencies (a : Action) : List ActionId :=
  a.calledAction?.toList ++ Argument.referencesOfItems a.arguments

def toJson (a : Action) : Json.Value :=
  match a.operation with
  | .create contract arguments =>
    .object
      [("id", .string a.id), ("kind", .string "create"), ("contract", .string contract),
        ("args", Argument.listToJson arguments)]
  | .call target method arguments =>
    .object
      [("id", .string a.id), ("kind", .string "call"), ("target", target.toJson),
        ("method", .string method), ("args", Argument.listToJson arguments)]

end Action

end TokenPlan
