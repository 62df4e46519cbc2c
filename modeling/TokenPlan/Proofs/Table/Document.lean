import TokenPlan.Proofs.Json.Member
import TokenPlan.Proofs.Json.RoundTrip
import TokenPlan.Table.Document

/-!
Drafts are read back from the text of their table with every field as it was, whether it was there
or not: the keys of a row differ, so each field is found, and rows stay within the limits of a
table.
-/

set_option autoImplicit false
set_option relaxedAutoImplicit false

namespace TokenPlan

open Json (Value Members undoes_text undoes_word)

/-! ### Drafts -/

variable {members : Members}

theorem VestingDraft.ofMembers?_of_mem (v : VestingDraft)
    (distinct : (members.map Prod.fst).Nodup) (mem : ∀ member ∈ v.members, member ∈ members) :
    VestingDraft.ofMembers? members = some v := by
  have launchShare := Json.optionalField_orNull undoes_word "tgePercent" v.launchShare distinct
    (mem _ (by simp [VestingDraft.members]))
  have cliffDuration := Json.optionalField_orNull undoes_word "cliffDuration" v.cliffDuration
    distinct (mem _ (by simp [VestingDraft.members]))
  have cliffShare := Json.optionalField_orNull undoes_word "cliffPercent" v.cliffShare distinct
    (mem _ (by simp [VestingDraft.members]))
  have linearDuration := Json.optionalField_orNull undoes_word "linearDuration" v.linearDuration
    distinct (mem _ (by simp [VestingDraft.members]))
  rw [VestingDraft.ofMembers?, launchShare, cliffDuration, cliffShare, linearDuration]
  rfl

/-- The members of a row, with that of its kind in front. -/
def ofKind (kind : String) (members : Members) : Members :=
  ("type", .string kind) :: members

private theorem SaleDraft.nodup_keys (s : SaleDraft) :
    ((ofKind "sale" s.members).map Prod.fst).Nodup := by
  cases start : s.start <;>
    simp [ofKind, SaleDraft.members, VestingDraft.members, Json.orOmitted, start]

theorem SaleDraft.ofMembers?_members (s : SaleDraft) :
    SaleDraft.ofMembers? (ofKind "sale" s.members) = some s := by
  have distinct := s.nodup_keys
  have id := Json.requiredField_of_mem Value.text? "id" (.string s.id) distinct
    (by simp [ofKind, SaleDraft.members])
  have name := Json.optionalField_orNull undoes_text "name" s.name distinct
    (by simp [ofKind, SaleDraft.members])
  have cooldown := Json.optionalField_orNull undoes_word "cooldownDuration" s.cooldown distinct
    (by simp [ofKind, SaleDraft.members])
  have start := Json.optionalField_orOmitted undoes_text "saleStart" s.start distinct
    (fun text given => by simp [ofKind, SaleDraft.members, Json.orOmitted, given])
    (fun none => by simp [ofKind, SaleDraft.members, VestingDraft.members, Json.orOmitted, none])
  have price := Json.optionalField_orNull undoes_text "salePrice" s.price distinct
    (by simp [ofKind, SaleDraft.members])
  have target := Json.optionalField_orNull undoes_text "targetPercent" s.target distinct
    (by simp [ofKind, SaleDraft.members])
  have minimum := Json.optionalField_orNull undoes_word "saleMinPerWallet" s.minimum distinct
    (by simp [ofKind, SaleDraft.members])
  have affiliateRate := Json.optionalField_orNull undoes_word "affiliatePercent" s.affiliateRate
    distinct (by simp [ofKind, SaleDraft.members])
  have vesting := s.vesting.ofMembers?_of_mem distinct fun member mem => by
    simp [ofKind, SaleDraft.members, mem]
  rw [SaleDraft.ofMembers?, id, name, cooldown, start, price, target, minimum, affiliateRate,
    vesting]
  rfl

private theorem PoolDraft.nodup_keys (p : PoolDraft) :
    ((ofKind "vesting" p.members).map Prod.fst).Nodup := by
  simp [ofKind, PoolDraft.members, VestingDraft.members]

theorem PoolDraft.ofMembers?_members (p : PoolDraft) :
    PoolDraft.ofMembers? (ofKind "vesting" p.members) = some p := by
  have distinct := p.nodup_keys
  have id := Json.requiredField_of_mem Value.text? "id" (.string p.id) distinct
    (by simp [ofKind, PoolDraft.members])
  have name := Json.optionalField_orNull undoes_text "name" p.name distinct
    (by simp [ofKind, PoolDraft.members])
  have percent := Json.optionalField_orNull undoes_text "percent" p.percent distinct
    (by simp [ofKind, PoolDraft.members])
  have vesting := p.vesting.ofMembers?_of_mem distinct fun member mem => by
    simp [ofKind, PoolDraft.members, mem]
  rw [PoolDraft.ofMembers?, id, name, percent, vesting]
  rfl

private theorem AccountDraft.nodup_keys (a : AccountDraft) :
    ((ofKind "account" a.members).map Prod.fst).Nodup := by
  cases percent : a.percent <;> cases withheld : a.withheld <;> cases tokens : a.tokens <;>
    simp [ofKind, AccountDraft.members, Json.orOmitted, percent, withheld, tokens]

theorem AccountDraft.ofMembers?_members (a : AccountDraft) :
    AccountDraft.ofMembers? (ofKind "account" a.members) = some a := by
  have distinct := a.nodup_keys
  have id := Json.requiredField_of_mem Value.text? "id" (.string a.id) distinct
    (by simp [ofKind, AccountDraft.members])
  have address := Json.optionalField_orNull undoes_text "address" a.address distinct
    (by simp [ofKind, AccountDraft.members])
  have percent := Json.optionalField_orOmitted undoes_text "percent" a.percent distinct
    (fun text given => by simp [ofKind, AccountDraft.members, Json.orOmitted, given])
    (fun none => by
      cases withheld : a.withheld <;> cases tokens : a.tokens <;>
        simp [ofKind, AccountDraft.members, Json.orOmitted, none, withheld, tokens])
  have withheld := Json.optionalField_orOmitted undoes_text "withheldPercent" a.withheld distinct
    (fun text given => by simp [ofKind, AccountDraft.members, Json.orOmitted, given])
    (fun none => by
      cases percent : a.percent <;> cases tokens : a.tokens <;>
        simp [ofKind, AccountDraft.members, Json.orOmitted, none, percent, tokens])
  have tokens := Json.optionalField_orOmitted undoes_text "tokens" a.tokens distinct
    (fun text given => by simp [ofKind, AccountDraft.members, Json.orOmitted, given])
    (fun none => by
      cases percent : a.percent <;> cases withheld : a.withheld <;>
        simp [ofKind, AccountDraft.members, Json.orOmitted, none, percent, withheld])
  rw [AccountDraft.ofMembers?, id, address, percent, withheld, tokens]
  rfl

namespace Draft

private theorem ofJson?_ofKind {kind : String} {members : Members}
    (distinct : ((ofKind kind members).map Prod.fst).Nodup) :
    ofJson? (.object (ofKind kind members)) = ofMembers? kind (ofKind kind members) := by
  have named := Json.requiredField_of_mem Value.text? "type" (.string kind) distinct
    List.mem_cons_self
  change (Json.requiredField Value.text? "type" (ofKind kind members) >>= fun kind =>
    ofMembers? kind _) = _
  rw [named]
  rfl

/-- A draft is read back from its members, in whatever fields it leaves out. -/
theorem ofJson?_toJson (draft : Draft) : ofJson? draft.toJson = some draft := by
  cases draft with
  | sale draft =>
    refine (ofJson?_ofKind draft.nodup_keys).trans ?_
    change Draft.sale <$> SaleDraft.ofMembers? (ofKind "sale" draft.members) = _
    rw [SaleDraft.ofMembers?_members]
    rfl
  | pool draft =>
    refine (ofJson?_ofKind draft.nodup_keys).trans ?_
    change Draft.pool <$> PoolDraft.ofMembers? (ofKind "vesting" draft.members) = _
    rw [PoolDraft.ofMembers?_members]
    rfl
  | account draft =>
    refine (ofJson?_ofKind draft.nodup_keys).trans ?_
    change Draft.account <$> AccountDraft.ofMembers? (ofKind "account" draft.members) = _
    rw [AccountDraft.ofMembers?_members]
    rfl

private theorem listOfJson?_map_toJson (drafts : List Draft) :
    listOfJson? (.array (drafts.map toJson)) = some drafts := by
  change (drafts.map toJson).mapM ofJson? = some drafts
  induction drafts with
  | nil => rfl
  | cons draft rest ih =>
    rw [List.map_cons, List.mapM_cons, ofJson?_toJson, ih]
    rfl

/-! ### Limits -/

theorem flat_of_mem_vesting {v : VestingDraft} {member : String × Value}
    (mem : member ∈ v.members) : member.2.Flat := by
  simp only [VestingDraft.members, List.mem_cons, List.not_mem_nil, or_false] at mem
  rcases mem with rfl | rfl | rfl | rfl <;> exact Json.flat_orNull Json.flat_ofWord _

theorem flat_of_mem_sale {s : SaleDraft} {member : String × Value} (mem : member ∈ s.members) :
    member.2.Flat := by
  simp only [SaleDraft.members, List.mem_append, List.mem_cons, List.not_mem_nil, or_false] at mem
  rcases mem with ((((rfl | rfl | rfl) | start) | rfl | rfl | rfl | rfl) | vesting)
  · exact Json.flat_string s.id
  · exact Json.flat_orNull Json.flat_string s.name
  · exact Json.flat_orNull Json.flat_ofWord s.cooldown
  · exact Json.flat_of_mem_orOmitted Json.flat_string start
  · exact Json.flat_orNull Json.flat_string s.price
  · exact Json.flat_orNull Json.flat_string s.target
  · exact Json.flat_orNull Json.flat_ofWord s.minimum
  · exact Json.flat_orNull Json.flat_ofWord s.affiliateRate
  · exact flat_of_mem_vesting vesting

theorem flat_of_mem_pool {p : PoolDraft} {member : String × Value} (mem : member ∈ p.members) :
    member.2.Flat := by
  simp only [PoolDraft.members, List.mem_append, List.mem_cons, List.not_mem_nil, or_false] at mem
  rcases mem with (rfl | rfl | rfl) | vesting
  · exact Json.flat_string p.id
  · exact Json.flat_orNull Json.flat_string p.name
  · exact Json.flat_orNull Json.flat_string p.percent
  · exact flat_of_mem_vesting vesting

theorem flat_of_mem_account {a : AccountDraft} {member : String × Value}
    (mem : member ∈ a.members) : member.2.Flat := by
  simp only [AccountDraft.members, List.mem_append, List.mem_cons, List.not_mem_nil, or_false]
    at mem
  rcases mem with (((rfl | rfl) | percent) | withheld) | tokens
  · exact Json.flat_string a.id
  · exact Json.flat_orNull Json.flat_string a.address
  · exact Json.flat_of_mem_orOmitted Json.flat_string percent
  · exact Json.flat_of_mem_orOmitted Json.flat_string withheld
  · exact Json.flat_of_mem_orOmitted Json.flat_string tokens

theorem limits_toJson (draft : Draft) :
    draft.toJson.depth ≤ 1 ∧ draft.toJson.isFinite = true := by
  have of_members : ∀ (kind : String) (members : Members),
      (∀ member ∈ members, member.2.Flat) →
        (Value.object (ofKind kind members)).depth ≤ 1 ∧
          (Value.object (ofKind kind members)).isFinite = true := by
    intro kind members flat
    have all_flat : ∀ member ∈ ofKind kind members, member.2.Flat :=
      List.forall_mem_cons.mpr ⟨Json.flat_string kind, flat⟩
    obtain ⟨depth, finite⟩ := Json.limits_object all_flat
    exact ⟨Nat.le_of_eq depth, finite⟩
  cases draft with
  | sale draft => exact of_members "sale" draft.members fun _ mem => flat_of_mem_sale mem
  | pool draft => exact of_members "vesting" draft.members fun _ mem => flat_of_mem_pool mem
  | account draft => exact of_members "account" draft.members fun _ mem => flat_of_mem_account mem

theorem listOfJson?_render (layout : Json.Layout) (drafts : List Draft) :
    (Json.readWithinLimits? ((Value.array (drafts.map toJson)).render layout) >>= listOfJson?) =
      some drafts := by
  have items : ∀ item ∈ drafts.map toJson, item.depth ≤ 1 ∧ item.isFinite = true := by
    intro item mem
    obtain ⟨draft, -, rfl⟩ := List.mem_map.mp mem
    exact limits_toJson draft
  obtain ⟨depth, finite⟩ := Json.limits_array items
  have within := Json.withinLimits_of_shallow (Nat.le_trans depth (by decide)) finite
  rw [Json.readWithinLimits?_render layout within]
  exact listOfJson?_map_toJson drafts

end Draft

end TokenPlan
