import TokenPlan.Json.Codec
import TokenPlan.Proofs.Table.Completion
import TokenPlan.Proofs.Table.Document

/-!
What is written as a JSON text is read back, in either layout: addresses, names of actions, owners,
amounts, vesting schedules, and the drafts of rows with whatever fields they leave out.
-/

set_option autoImplicit false
set_option relaxedAutoImplicit false

namespace TokenPlan

open Json (Value Members Layout)

namespace Json

/-- What is written of a value is read as that value, in either layout. -/
def ReadsBack {α : Type} (read : String → Option α) (write : α → Value) : Prop :=
  ∀ (layout : Layout) (x : α), read ((write x).render layout) = some x

/-- Reads a whole text as a value of a type. -/
def readAs {α : Type} (decode : Value → Option α) (text : String) : Option α :=
  read? text >>= decode

def Value.members? : Value → Option Members
  | .object members => some members
  | _ => none

/-- Reads a whole text as the fields of a record, within the limits of a table. -/
def readRecord {α : Type} (decode : Members → Option α) (text : String) : Option α :=
  readWithinLimits? text >>= Value.members? >>= decode

variable {α : Type} {decode : Value → Option α} {write : α → Value}

private theorem readsBack_readAs (undone : ∀ x, decode (write x) = some x) :
    ReadsBack (readAs decode) write := by
  intro layout x
  rw [readAs, read?_render]
  exact undone x

private theorem readsBack_readRecord {decode : Members → Option α} {members : α → Members}
    (undone : ∀ x, decode (members x) = some x)
    (flat : ∀ x, ∀ member ∈ members x, member.2.Flat) :
    ReadsBack (readRecord decode) fun x => .object (members x) := by
  intro layout x
  obtain ⟨depth, finite⟩ := limits_object (flat x)
  have within := withinLimits_of_shallow (Nat.le_trans (Nat.le_of_eq depth) (by decide)) finite
  rw [readRecord, readWithinLimits?_render layout within]
  exact undone x

end Json

/-! ### Leaves -/

private theorem undoes_amount : Json.Undoes Amount.ofJson? Amount.toJson :=
  ⟨Amount.ofDigits?_trim_render, nofun⟩

private theorem undoes_address : Json.Undoes Address.ofJson? Address.toJson := by
  refine ⟨?_, nofun⟩
  intro a
  rw [Address.toJson, Address.ofJson?, Address.ofText_render]
  rfl

private theorem Target.ofJson?_toJson (owner : Target) :
    Target.ofJson? owner.toJson = some owner := by
  cases owner with
  | action id => rfl
  | account address =>
    change Target.account <$> Address.ofJson? address.toJson = _
    rw [undoes_address.read_write]
    rfl

private theorem Amount.optional_orNull (amount? : Option Amount) :
    Json.optional Amount.ofJson? (some (Json.orNull Amount.toJson amount?)) = some amount? := by
  cases amount? with
  | none => rfl
  | some amount => exact Json.optional_write undoes_amount amount

/-! ### Records -/

namespace VestingSchedule

private theorem nodup_keys (v : VestingSchedule) : (v.members.map Prod.fst).Nodup := by
  simp [members]

private theorem ofJson?_toJson (v : VestingSchedule) : ofJson? v.toJson = some v := by
  have word : ∀ key x, (key, Json.ofWord x) ∈ v.members →
      Json.requiredField Value.word? key v.members = some x := by
    intro key x mem
    rw [Json.requiredField_of_mem _ key _ v.nodup_keys mem]
    exact Json.undoes_word.read_write x
  have launchShare := word "tgePercent" v.launchShare (by simp [members])
  have cliffDuration := word "cliffDuration" v.cliffDuration (by simp [members])
  have cliffShare := word "cliffPercent" v.cliffShare (by simp [members])
  have linearDuration := word "linearDuration" v.linearDuration (by simp [members])
  rw [toJson, ofJson?, launchShare, cliffDuration, cliffShare, linearDuration]
  rfl

private theorem readsBack : Json.ReadsBack ofText? toJson := by
  intro layout v
  rw [ofText?, Json.readFields?, Json.readText_render]
  exact ofJson?_toJson v

end VestingSchedule

private theorem VestingDraft.ofMembers?_members (v : VestingDraft) :
    VestingDraft.ofMembers? v.members = some v := by
  apply v.ofMembers?_of_mem
  · simp [VestingDraft.members]
  · exact fun _ mem => mem

/-! The kind of a row is no field of its record, which is therefore read without it as well. -/

variable (kind : String) (members : Members)

private theorem SaleDraft.ofMembers?_ofKind :
    SaleDraft.ofMembers? (ofKind kind members) = SaleDraft.ofMembers? members := by
  simp [SaleDraft.ofMembers?, VestingDraft.ofMembers?, Json.requiredField, Json.optionalField,
    ofKind, Json.field?_cons_of_ne]

private theorem PoolDraft.ofMembers?_ofKind :
    PoolDraft.ofMembers? (ofKind kind members) = PoolDraft.ofMembers? members := by
  simp [PoolDraft.ofMembers?, VestingDraft.ofMembers?, Json.requiredField, Json.optionalField,
    ofKind, Json.field?_cons_of_ne]

private theorem AccountDraft.ofMembers?_ofKind :
    AccountDraft.ofMembers? (ofKind kind members) = AccountDraft.ofMembers? members := by
  simp [AccountDraft.ofMembers?, Json.requiredField, Json.optionalField, ofKind,
    Json.field?_cons_of_ne]

/-! ### Rows -/

/-- Reads a whole text as a value of a type, within the limits of a table. -/
def Json.readWithin {α : Type} (decode : Value → Option α) (text : String) : Option α :=
  Json.readWithinLimits? text >>= decode

private theorem Draft.readsBack : Json.ReadsBack (Json.readWithin Draft.ofJson?) Draft.toJson := by
  intro layout draft
  obtain ⟨depth, finite⟩ := Draft.limits_toJson draft
  have within := Json.withinLimits_of_shallow (Nat.le_trans depth (by decide)) finite
  rw [Json.readWithin, Json.readWithinLimits?_render layout within]
  exact Draft.ofJson?_toJson draft

/--
Every value that has a form in JSON is read back from its text: the leaves, the records with any of
their optional fields left out, on their own and as rows of their kind, and whole tables of rows.
-/
theorem readsBack_values :
    Json.ReadsBack (Json.readAs Address.ofJson?) Address.toJson ∧
    Json.ReadsBack (Json.readAs Value.text?) (Value.string : ActionId → Value) ∧
    Json.ReadsBack (Json.readAs Target.ofJson?) Target.toJson ∧
    Json.ReadsBack (Json.readAs Amount.ofJson?) Amount.toJson ∧
    Json.ReadsBack (Json.readAs fun value => Json.optional Amount.ofJson? (some value))
      (Json.orNull Amount.toJson) ∧
    Json.ReadsBack VestingSchedule.ofText? VestingSchedule.toJson ∧
    Json.ReadsBack (Json.readRecord VestingDraft.ofMembers?) (fun v => .object v.members) ∧
    Json.ReadsBack (Json.readRecord SaleDraft.ofMembers?) (fun s => .object s.members) ∧
    Json.ReadsBack (Json.readRecord PoolDraft.ofMembers?) (fun p => .object p.members) ∧
    Json.ReadsBack (Json.readRecord AccountDraft.ofMembers?) (fun a => .object a.members) ∧
    Json.ReadsBack (Json.readWithin Draft.ofJson?) Draft.toJson ∧
    Json.ReadsBack (Json.readWithin Draft.listOfJson?)
      (fun drafts => .array (drafts.map Draft.toJson)) := by
  have sale : ∀ s : SaleDraft, SaleDraft.ofMembers? s.members = some s := by
    intro s
    rw [← SaleDraft.ofMembers?_ofKind "sale"]
    exact s.ofMembers?_members
  have pool : ∀ p : PoolDraft, PoolDraft.ofMembers? p.members = some p := by
    intro p
    rw [← PoolDraft.ofMembers?_ofKind "vesting"]
    exact p.ofMembers?_members
  have account : ∀ a : AccountDraft, AccountDraft.ofMembers? a.members = some a := by
    intro a
    rw [← AccountDraft.ofMembers?_ofKind "account"]
    exact a.ofMembers?_members
  refine ⟨Json.readsBack_readAs undoes_address.read_write,
    Json.readsBack_readAs Json.undoes_text.read_write, Json.readsBack_readAs Target.ofJson?_toJson,
    Json.readsBack_readAs undoes_amount.read_write, Json.readsBack_readAs Amount.optional_orNull,
    VestingSchedule.readsBack, ?_, ?_, ?_, ?_, Draft.readsBack, Draft.listOfJson?_render⟩
  · apply Json.readsBack_readRecord VestingDraft.ofMembers?_members
    exact fun _ _ mem => Draft.flat_of_mem_vesting mem
  · apply Json.readsBack_readRecord sale
    exact fun _ _ mem => Draft.flat_of_mem_sale mem
  · apply Json.readsBack_readRecord pool
    exact fun _ _ mem => Draft.flat_of_mem_pool mem
  · apply Json.readsBack_readRecord account
    exact fun _ _ mem => Draft.flat_of_mem_account mem

end TokenPlan
