import TokenPlan.Plan.Compiled
import TokenPlan.Proofs.Address
import TokenPlan.Proofs.Json.RoundTrip

/-!
The text of a plan is unambiguous: what is written differs wherever the plans differ, from amounts
and addresses through arguments, which may nest, up to the whole plan.
-/

set_option autoImplicit false
set_option relaxedAutoImplicit false

namespace TokenPlan

/-! ### Leaves -/

theorem Json.Value.render_inj {layout : Json.Layout} {v w : Json.Value} :
    v.render layout = w.render layout ↔ v = w := by
  constructor
  · intro same
    have read := Json.read?_render layout v
    rw [same, Json.read?_render] at read
    exact (Option.some.inj read).symm
  · rintro rfl
    rfl

private theorem Json.ofWord_inj {x y : UInt64} : Json.ofWord x = Json.ofWord y ↔ x = y := by
  constructor
  · intro same
    exact UInt64.toNat_inj.mp (Json.Value.natural.inj same)
  · rintro rfl
    rfl

theorem Argument.ofWord_inj {x y : UInt64} : Argument.ofWord x = Argument.ofWord y ↔ x = y := by
  constructor
  · intro same
    have amount : Amount.ofWord x = Amount.ofWord y := Argument.uint.inj same
    exact UInt64.toNat_inj.mp (congrArg Amount.toNat amount)
  · rintro rfl
    rfl

private theorem Amount.toJson_inj {a b : Amount} : a.toJson = b.toJson ↔ a = b := by
  constructor
  · intro same
    have read := Amount.ofDigits?_render a
    rw [Json.Value.string.inj same, Amount.ofDigits?_render] at read
    exact (Option.some.inj read).symm
  · rintro rfl
    rfl

private theorem Address.toJson_inj {a b : Address} : a.toJson = b.toJson ↔ a = b := by
  constructor
  · exact fun same => Address.eq_of_render_eq (Json.Value.string.inj same)
  · rintro rfl
    rfl

private theorem Target.toJson_inj {s t : Target} : s.toJson = t.toJson ↔ s = t := by
  cases s <;> cases t <;> simp [Target.toJson, Address.toJson_inj]

private theorem SaleStart.toJson_inj {s t : SaleStart} : s.toJson = t.toJson ↔ s = t := by
  cases s <;> cases t <;> simp [SaleStart.toJson, Json.ofWord_inj]

private theorem VestingSchedule.toJson_inj {v w : VestingSchedule} :
    v.toJson = w.toJson ↔ v = w := by
  cases v
  cases w
  simp [VestingSchedule.toJson, VestingSchedule.members, Json.ofWord_inj]

/-! ### Allocations -/

private theorem AllocationKind.eq_of_members {k l : AllocationKind} (same : k.members = l.members) :
    k = l := by
  cases k with
  | saleTier tier =>
    cases l with
    | saleTier other =>
      cases tier
      cases other
      simpa [AllocationKind.members, Json.ofWord_inj, Amount.toJson_inj, SaleStart.toJson_inj,
        VestingSchedule.toJson_inj] using same
    | _ => simp [AllocationKind.members] at same
  | vestingPool pool =>
    cases l with
    | vestingPool other =>
      cases pool
      cases other
      simpa [AllocationKind.members, VestingSchedule.toJson_inj] using same
    | _ => simp [AllocationKind.members] at same
  | liquidityReserve =>
    cases l with
    | liquidityReserve => rfl
    | _ => simp [AllocationKind.members] at same
  | directAccount =>
    cases l with
    | directAccount => rfl
    | _ => simp [AllocationKind.members] at same

private theorem Target.orNull_toJson_inj {s t : Option Target} :
    Json.orNull Target.toJson s = Json.orNull Target.toJson t ↔ s = t := by
  have visible : ∀ target : Target, target.toJson ≠ .null := by
    intro target
    cases target <;> exact nofun
  cases s with
  | none =>
    cases t with
    | none => simp
    | some t => simpa [Json.orNull] using (visible t).symm
  | some s =>
    cases t with
    | none => simpa [Json.orNull] using visible s
    | some t => simp [Json.orNull, Target.toJson_inj]

private theorem Allocation.toJson_inj {a b : Allocation} : a.toJson = b.toJson ↔ a = b := by
  constructor
  · intro same
    obtain ⟨front, behind⟩ := List.append_inj' (Json.Value.object.inj same) rfl
    have target : a.target = b.target := by
      simpa [Target.orNull_toJson_inj] using behind
    have id_tokens : a.id = b.id ∧ a.tokens = b.tokens ∧ a.kind.members = b.kind.members := by
      simpa [Amount.toJson_inj] using front
    obtain ⟨id, tokens, members⟩ := id_tokens
    have kind := AllocationKind.eq_of_members members
    cases a
    cases b
    simp_all
  · rintro rfl
    rfl

/-! ### Actions -/

mutual

/-- An argument is known by its text at any depth: by its kind, and then part by part. -/
theorem Argument.eq_of_toJson : ∀ {x y : Argument}, x.toJson = y.toJson → x = y
  | .uint x, y, same => by
    cases y <;> simp_all [Argument.toJson, Amount.toJson_inj]
  | .address x, y, same => by
    cases y <;> simp_all [Argument.toJson, Address.toJson_inj]
  | .string x, y, same => by
    cases y <;> simp_all [Argument.toJson]
  | .ref x, y, same => by
    cases y <;> simp_all [Argument.toJson]
  | .array xs, y, same => by
    cases y with
    | array ys =>
      have items : jsonOfItems xs = jsonOfItems ys := by
        simpa [Argument.toJson] using same
      rw [Argument.eq_of_jsonOfItems items]
    | _ => simp [Argument.toJson] at same
  | .tuple xs, y, same => by
    cases y with
    | tuple ys =>
      have fields : jsonOfFields xs = jsonOfFields ys := by
        simpa [Argument.toJson] using same
      rw [Argument.eq_of_jsonOfFields fields]
    | _ => simp [Argument.toJson] at same

private theorem Argument.eq_of_jsonOfItems :
    ∀ {xs ys : List Argument}, jsonOfItems xs = jsonOfItems ys → xs = ys
  | [], [], _ => rfl
  | [], _ :: _, same => by cases same
  | _ :: _, [], same => by cases same
  | x :: xs, y :: ys, same => by
    obtain ⟨first, rest⟩ := List.cons.inj same
    rw [Argument.eq_of_toJson first, Argument.eq_of_jsonOfItems rest]

private theorem Argument.eq_of_jsonOfFields :
    ∀ {xs ys : List (String × Argument)}, jsonOfFields xs = jsonOfFields ys → xs = ys
  | [], [], _ => rfl
  | [], _ :: _, same => by cases same
  | _ :: _, [], same => by cases same
  | (name, x) :: xs, (name', y) :: ys, same => by
    obtain ⟨first, rest⟩ := List.cons.inj same
    obtain ⟨rfl, value⟩ := Prod.mk.inj first
    rw [Argument.eq_of_toJson value, Argument.eq_of_jsonOfFields rest]

end

private theorem Argument.listToJson_inj {xs ys : List Argument} :
    listToJson xs = listToJson ys ↔ xs = ys := by
  constructor
  · intro same
    exact Argument.eq_of_jsonOfItems (Json.Value.array.inj same)
  · rintro rfl
    rfl

private theorem Action.toJson_inj {a b : Action} : a.toJson = b.toJson ↔ a = b := by
  obtain ⟨id, operation⟩ := a
  obtain ⟨id', operation'⟩ := b
  cases operation <;> cases operation' <;>
    simp [Action.toJson, Argument.listToJson_inj, Target.toJson_inj]

/-! ### Plans -/

private theorem SupplyReport.toJson_inj {r s : SupplyReport} : r.toJson = s.toJson ↔ r = s := by
  cases r
  cases s
  simp [SupplyReport.toJson, Amount.toJson_inj]

private theorem Deployment.toJson_inj {d e : Deployment} : d.toJson = e.toJson ↔ d = e := by
  have entries : ∀ xs ys : List (String × Target),
      xs.map (fun entry => (entry.1, entry.2.toJson)) =
        ys.map (fun entry => (entry.1, entry.2.toJson)) ↔ xs = ys := by
    intro xs ys
    apply List.map_inj_right
    rintro ⟨id, target⟩ ⟨id', target'⟩ same
    simpa [Target.toJson_inj] using same
  cases d
  cases e
  simp [Deployment.toJson, Target.toJson_inj, entries]

theorem CompiledPlan.toJson_inj {p q : CompiledPlan} : p.toJson = q.toJson ↔ p = q := by
  have actions : ∀ xs ys : List Action, xs.map Action.toJson = ys.map Action.toJson ↔ xs = ys :=
    fun _ _ => List.map_inj_right fun _ _ same => Action.toJson_inj.mp same
  have allocations : ∀ xs ys : List Allocation,
      xs.map Allocation.toJson = ys.map Allocation.toJson ↔ xs = ys :=
    fun _ _ => List.map_inj_right fun _ _ same => Allocation.toJson_inj.mp same
  cases p
  cases q
  simp [CompiledPlan.toJson, actions, allocations, Deployment.toJson_inj, SupplyReport.toJson_inj]

end TokenPlan
