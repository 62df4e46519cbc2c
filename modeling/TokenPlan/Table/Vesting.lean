import TokenPlan.Json.Member
import TokenPlan.Json.Reader
import TokenPlan.Table.Error

/-!
Vesting schedules: how the tokens of an allocation unlock over time.
-/

set_option autoImplicit false
set_option relaxedAutoImplicit false

namespace TokenPlan

/-- Shares are parts per million of the allocation, durations are seconds. -/
structure VestingSchedule where
  /-- What unlocks when the token is generated. -/
  launchShare : UInt64
  cliffDuration : UInt64
  /-- What unlocks when the cliff ends. -/
  cliffShare : UInt64
  /-- The time over which the rest is released after the cliff. -/
  linearDuration : UInt64
deriving DecidableEq

namespace VestingSchedule

/-- Nothing unlocks early and nothing takes time. -/
def immediate : VestingSchedule := ⟨0, 0, 0, 0⟩

/-- What is unlocked when the cliff ends; a share that does not fit is held at the largest one. -/
def unlockedAtCliff (v : VestingSchedule) : UInt64 :=
  Word.saturate (v.launchShare.toNat + v.cliffShare.toNat)

def members (v : VestingSchedule) : Json.Members :=
  [("tgePercent", Json.ofWord v.launchShare),
    ("cliffDuration", Json.ofWord v.cliffDuration),
    ("cliffPercent", Json.ofWord v.cliffShare),
    ("linearDuration", Json.ofWord v.linearDuration)]

def toJson (v : VestingSchedule) : Json.Value :=
  .object v.members

/-- Reads a schedule written as an object, or as an array of its four numbers. -/
def ofJson? : Json.Value → Option VestingSchedule
  | .object members => do
    let launchShare ← Json.requiredField Json.Value.word? "tgePercent" members
    let cliffDuration ← Json.requiredField Json.Value.word? "cliffDuration" members
    let cliffShare ← Json.requiredField Json.Value.word? "cliffPercent" members
    let linearDuration ← Json.requiredField Json.Value.word? "linearDuration" members
    some ⟨launchShare, cliffDuration, cliffShare, linearDuration⟩
  | .array [launchShare, cliffDuration, cliffShare, linearDuration] => do
    let launchShare ← launchShare.word?
    let cliffDuration ← cliffDuration.word?
    let cliffShare ← cliffShare.word?
    let linearDuration ← linearDuration.word?
    some ⟨launchShare, cliffDuration, cliffShare, linearDuration⟩
  | _ => none

def ofText? (text : String) : Option VestingSchedule :=
  Json.readFields? text >>= ofJson?

end VestingSchedule

end TokenPlan
