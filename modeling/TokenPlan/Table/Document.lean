import TokenPlan.Json.Printer
import TokenPlan.Json.Reader
import TokenPlan.Table.Draft

/-!
Tables as JSON texts: an array of rows, each of which names its kind in the field `type`. Fields
that a kind does not know are passed over.
-/

set_option autoImplicit false
set_option relaxedAutoImplicit false

namespace TokenPlan

open Json (Value Members field? optional optionalField requiredField orNull orOmitted ofWord)

namespace VestingDraft

def members (v : VestingDraft) : Members :=
  [("tgePercent", orNull ofWord v.launchShare),
    ("cliffDuration", orNull ofWord v.cliffDuration),
    ("cliffPercent", orNull ofWord v.cliffShare),
    ("linearDuration", orNull ofWord v.linearDuration)]

def ofMembers? (members : Members) : Option VestingDraft := do
  let launchShare ← optionalField Value.word? "tgePercent" members
  let cliffDuration ← optionalField Value.word? "cliffDuration" members
  let cliffShare ← optionalField Value.word? "cliffPercent" members
  let linearDuration ← optionalField Value.word? "linearDuration" members
  some ⟨launchShare, cliffDuration, cliffShare, linearDuration⟩

end VestingDraft

namespace SaleDraft

def members (s : SaleDraft) : Members :=
  [("id", .string s.id), ("name", orNull .string s.name),
    ("cooldownDuration", orNull ofWord s.cooldown)] ++
  orOmitted "saleStart" .string s.start ++
  [("salePrice", orNull .string s.price), ("targetPercent", orNull .string s.target),
    ("saleMinPerWallet", orNull ofWord s.minimum),
    ("affiliatePercent", orNull ofWord s.affiliateRate)] ++
  s.vesting.members

def ofMembers? (members : Members) : Option SaleDraft := do
  let id ← requiredField Value.text? "id" members
  let name ← optionalField Value.text? "name" members
  let cooldown ← optionalField Value.word? "cooldownDuration" members
  let start ← optionalField Value.text? "saleStart" members
  let price ← optionalField Value.text? "salePrice" members
  let target ← optionalField Value.text? "targetPercent" members
  let minimum ← optionalField Value.word? "saleMinPerWallet" members
  let affiliateRate ← optionalField Value.word? "affiliatePercent" members
  let vesting ← VestingDraft.ofMembers? members
  some ⟨id, name, cooldown, start, price, target, minimum, affiliateRate, vesting⟩

end SaleDraft

namespace PoolDraft

def members (p : PoolDraft) : Members :=
  [("id", .string p.id), ("name", orNull .string p.name), ("percent", orNull .string p.percent)] ++
  p.vesting.members

def ofMembers? (members : Members) : Option PoolDraft := do
  let id ← requiredField Value.text? "id" members
  let name ← optionalField Value.text? "name" members
  let percent ← optionalField Value.text? "percent" members
  let vesting ← VestingDraft.ofMembers? members
  some ⟨id, name, percent, vesting⟩

end PoolDraft

namespace AccountDraft

def members (a : AccountDraft) : Members :=
  [("id", .string a.id), ("address", orNull .string a.address)] ++
  orOmitted "percent" .string a.percent ++
  orOmitted "withheldPercent" .string a.withheld ++
  orOmitted "tokens" .string a.tokens

def ofMembers? (members : Members) : Option AccountDraft := do
  let id ← requiredField Value.text? "id" members
  let address ← optionalField Value.text? "address" members
  let percent ← optionalField Value.text? "percent" members
  let withheld ← optionalField Value.text? "withheldPercent" members
  let tokens ← optionalField Value.text? "tokens" members
  some ⟨id, address, percent, withheld, tokens⟩

/-- Reads the fields in their order; only the shares at the end may be left out. -/
def ofItems? : List Value → Option AccountDraft
  | id :: address :: shares => do
    let id ← id.text?
    let address ← optional Value.text? (some address)
    let percent ← optional Value.text? shares[0]?
    let withheld ← optional Value.text? shares[1]?
    let tokens ← optional Value.text? shares[2]?
    if shares.length ≤ 3 then some ⟨id, address, percent, withheld, tokens⟩ else none
  | _ => none

end AccountDraft

namespace Draft

def toJson : Draft → Value
  | .sale draft => .object (("type", .string "sale") :: draft.members)
  | .pool draft => .object (("type", .string "vesting") :: draft.members)
  | .account draft => .object (("type", .string "account") :: draft.members)

def ofMembers? (kind : String) (members : Members) : Option Draft :=
  if kind = "sale" then Draft.sale <$> SaleDraft.ofMembers? members
  else if kind = "vesting" then Draft.pool <$> PoolDraft.ofMembers? members
  else if kind = "account" then Draft.account <$> AccountDraft.ofMembers? members
  else none

/-- Reads a row: an object, or for an account also the array of its kind and fields. -/
def ofJson? : Value → Option Draft
  | .object members => do
    let kind ← requiredField Value.text? "type" members
    ofMembers? kind members
  | .array (kind :: items) => do
    let kind ← kind.text?
    if kind = "account" then Draft.account <$> AccountDraft.ofItems? items else none
  | _ => none

def listOfJson? : Value → Option (List Draft)
  | .array items => items.mapM ofJson?
  | _ => none

end Draft

/-- Reads a table; the first row that cannot be completed is reported. -/
def readTable (text : String) : Except TableError (List Row) := do
  let drafts ← require (.mismatch TableError.wholeTable .notATable) <|
    Json.readWithinLimits? text >>= Draft.listOfJson?
  drafts.mapM Draft.complete

def writeTable (rows : List Row) : String :=
  (Value.array (rows.map fun row => row.toDraft.toJson)).pretty

end TokenPlan
