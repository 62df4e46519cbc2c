import TokenPlan.Plan.Compiled

/-!
Plans and supply reports as lines of text for an operator.
-/

set_option autoImplicit false
set_option relaxedAutoImplicit false

namespace TokenPlan

namespace Text

def alignRight (width : Nat) (text : String) : String :=
  String.ofList (List.leftpad width ' ' text.toList)

def alignLeft (width : Nat) (text : String) : String :=
  String.ofList (List.rightpad width ' ' text.toList)

end Text

/-- The total supply, what is allocated of it, and the rest. -/
def SupplyReport.lines (r : SupplyReport) : List String :=
  ["total supply: " ++ r.total.render, "allocated:    " ++ r.allocated.render,
    "remainder:    " ++ r.remainder.render]

def SupplyReport.listing (r : SupplyReport) : String :=
  "\n".intercalate r.lines

/-- The line of an action: its position, kind and name, and what it does. -/
def Action.line (position : Nat) (a : Action) : String :=
  let start := Text.alignRight 3 (Text.numeral position)
  let name := Text.alignLeft 24 a.id
  match a.operation with
  | .create contract arguments =>
    start ++ "  create  " ++ name ++ " " ++ contract ++ " (" ++ Text.numeral arguments.length ++
      " args)"
  | .call target method _ =>
    start ++ "  call    " ++ name ++ " " ++ target.render ++ "." ++ method

def Action.lines : Nat → List Action → List String
  | _, [] => []
  | position, a :: rest => a.line position :: Action.lines (position + 1) rest

/-- The lines of a plan: its actions, the report on the supply, and the fingerprint. -/
def CompiledPlan.lines (p : CompiledPlan) (fingerprint : String) : List String :=
  Action.lines 0 p.actions ++ [""] ++ p.supply.lines ++ ["fingerprint:  " ++ fingerprint]

theorem CompiledPlan.lines_eq (p : CompiledPlan) (fingerprint : String) :
    p.lines fingerprint = Action.lines 0 p.actions ++
      ["", "total supply: " ++ Text.numeral p.supply.total.toNat,
        "allocated:    " ++ Text.numeral p.supply.allocated.toNat,
        "remainder:    " ++ Text.numeral p.supply.remainder.toNat,
        "fingerprint:  " ++ fingerprint] := by
  rw [lines, List.append_assoc, List.append_assoc]
  rfl

def CompiledPlan.listing (p : CompiledPlan) (fingerprint : String) : String :=
  "\n".intercalate (p.lines fingerprint)

end TokenPlan
