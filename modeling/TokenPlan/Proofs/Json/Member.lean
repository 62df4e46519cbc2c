import TokenPlan.Json.Member

/-!
Fields are found by their keys wherever they stand, as long as no key is repeated, and flat members
keep an object within the limits of a table.
-/

set_option autoImplicit false
set_option relaxedAutoImplicit false

namespace TokenPlan.Json

/-! ### Fields -/

variable {key : String} {value : Value} {members : Members}

private theorem field?_of_not_mem (absent : key ∉ members.map Prod.fst) :
    field? key members = some none := by
  have none_found : members.filter (fun member => member.1 = key) = [] := by
    rw [List.filter_eq_nil_iff]
    intro member mem same
    exact absent (List.mem_map.mpr ⟨member, mem, of_decide_eq_true same⟩)
  rw [field?, none_found]

theorem field?_cons_of_ne {name : String} (other : name ≠ key) (value : Value)
    (members : Members) : field? key ((name, value) :: members) = field? key members := by
  rw [field?, field?, List.filter_cons_of_neg (by simp [other])]

private theorem field?_of_mem (distinct : (members.map Prod.fst).Nodup)
    (mem : (key, value) ∈ members) :
    field? key members = some (some value) := by
  have found : members.filter (fun member => member.1 = key) = [(key, value)] := by
    induction members with
    | nil => cases mem
    | cons first rest ih =>
      obtain ⟨alone, distinct_rest⟩ := List.nodup_cons.mp distinct
      rcases List.mem_cons.mp mem with rfl | mem
      · rw [List.filter_cons_of_pos (by simp)]
        congr 1
        rw [List.filter_eq_nil_iff]
        intro member member_mem same
        exact alone (List.mem_map.mpr ⟨member, member_mem, of_decide_eq_true same⟩)
      · have other : first.1 ≠ key := by
          rintro rfl
          exact alone (List.mem_map.mpr ⟨_, mem, rfl⟩)
        rw [List.filter_cons_of_neg (by simp [other])]
        exact ih distinct_rest mem
  rw [field?, found]

theorem requiredField_of_mem {α : Type} (read : Value → Option α) (key : String) (value : Value)
    (distinct : (members.map Prod.fst).Nodup) (mem : (key, value) ∈ members) :
    requiredField read key members = read value := by
  rw [requiredField, field?_of_mem distinct mem]
  rfl

/-- A reader that undoes a writer, which never writes null. -/
structure Undoes {α : Type} (read : Value → Option α) (write : α → Value) : Prop where
  read_write : ∀ x, read (write x) = some x
  write_ne_null : ∀ x, write x ≠ .null

theorem undoes_text : Undoes Value.text? Value.string :=
  ⟨fun _ => rfl, nofun⟩

theorem undoes_word : Undoes Value.word? ofWord :=
  ⟨fun word => Word.ofNat?_toNat word, nofun⟩

variable {α : Type} {read : Value → Option α} {write : α → Value}

theorem optional_write (undoes : Undoes read write) (x : α) :
    optional read (some (write x)) = some (some x) := by
  have read_write := undoes.read_write x
  unfold optional
  split
  · contradiction
  · rename_i null
    exact absurd (Option.some.inj null) (undoes.write_ne_null x)
  · rename_i written
    obtain rfl := Option.some.inj written
    rw [read_write]
    rfl

theorem optionalField_orNull (undoes : Undoes read write) (key : String) (value? : Option α)
    (distinct : (members.map Prod.fst).Nodup) (mem : (key, orNull write value?) ∈ members) :
    optionalField read key members = some value? := by
  rw [optionalField, field?_of_mem distinct mem]
  cases value? with
  | none => rfl
  | some x => exact optional_write undoes x

theorem optionalField_orOmitted (undoes : Undoes read write) (key : String) (value? : Option α)
    (distinct : (members.map Prod.fst).Nodup)
    (present : ∀ x, value? = some x → (key, write x) ∈ members)
    (absent : value? = none → key ∉ members.map Prod.fst) :
    optionalField read key members = some value? := by
  rw [optionalField]
  cases value? with
  | none =>
    rw [field?_of_not_mem (absent rfl)]
    rfl
  | some x =>
    rw [field?_of_mem distinct (present x rfl)]
    exact optional_write undoes x

/-! ### Limits -/

private theorem nearestDouble_le {n : Nat} (positive : 0 < n) : nearestDouble n ≤ 2 * n := by
  have unit_le : 2 ^ (n.log2 - 52) ≤ n :=
    Nat.le_trans (Nat.pow_le_pow_right (by decide) (Nat.sub_le _ _))
      (Nat.log2_self_le (Nat.ne_of_gt positive))
  unfold nearestDouble
  generalize 2 ^ (n.log2 - 52) = unit at unit_le
  have whole : n / unit * unit ≤ n := Nat.div_mul_le_self n unit
  have next : (n / unit + 1) * unit = n / unit * unit + unit := Nat.succ_mul _ _
  simp only [next]
  split <;> omega

private theorem isFinite_of_lt {n : Nat} (fits : n < 2 ^ 64) : isFinite n 0 = true := by
  have leading : leadingDigits 0 n = (n, 0) := by
    rw [leadingDigits, if_pos fits]
  have scale : (0 : Int) + (0 : Nat) = 0 := rfl
  have unsigned : ¬ (0 : Int) < 0 := by decide
  have near : ¬ maxScale < 0 := by decide
  have one : nearestDouble (10 ^ (0 : Int).toNat) = 1 := rfl
  -- Rounding reaches no further than the doubled number, which is still far below the bound.
  have wide : 2 ^ 65 ≤ overflowBound := by decide +kernel
  simp only [isFinite, leading, scale, unsigned, or_false, near, if_false, one, Nat.mul_one]
  by_cases zero : n = 0
  · rw [if_pos zero]
  · have rounded := nearestDouble_le (Nat.pos_of_ne_zero zero)
    have small : nearestDouble n < overflowBound := by omega
    rw [if_neg zero, decide_eq_true small]

/-- A value without nesting whose numbers are finite. -/
structure Value.Flat (value : Value) : Prop where
  depth_eq : value.depth = 0
  finite : value.isFinite = true

private theorem flat_null : Value.Flat .null := ⟨rfl, rfl⟩

theorem flat_string (text : String) : Value.Flat (.string text) := ⟨rfl, rfl⟩

theorem flat_ofWord (word : UInt64) : (ofWord word).Flat :=
  ⟨rfl, isFinite_of_lt word.toNat_lt⟩

theorem flat_orNull (flat : ∀ x, (write x).Flat) (value? : Option α) :
    (orNull write value?).Flat := by
  cases value? with
  | none => exact flat_null
  | some x => exact flat x

theorem flat_of_mem_orOmitted (flat : ∀ x, (write x).Flat) {value? : Option α}
    {member : String × Value} (mem : member ∈ orOmitted key write value?) : member.2.Flat := by
  cases value? with
  | none => cases mem
  | some x =>
    obtain rfl := List.mem_singleton.mp mem
    exact flat x

theorem limits_object (flat : ∀ member ∈ members, member.2.Flat) :
    (Value.object members).depth = 1 ∧ (Value.object members).isFinite = true := by
  have limits : depthOfMembers members = 0 ∧ membersAreFinite members = true := by
    induction members with
    | nil => exact ⟨rfl, rfl⟩
    | cons member rest ih =>
      obtain ⟨name, value⟩ := member
      have first := flat (name, value) List.mem_cons_self
      obtain ⟨depth, finite⟩ := ih fun other mem => flat other (List.mem_cons_of_mem _ mem)
      simp [depthOfMembers, membersAreFinite, first.depth_eq, first.finite, depth, finite]
  simp [Value.depth, Value.isFinite, limits]

theorem limits_array {items : List Value} {depth : Nat}
    (limits : ∀ item ∈ items, item.depth ≤ depth ∧ item.isFinite = true) :
    (Value.array items).depth ≤ depth + 1 ∧ (Value.array items).isFinite = true := by
  have inner : depthOfItems items ≤ depth ∧ itemsAreFinite items = true := by
    induction items with
    | nil => exact ⟨Nat.zero_le _, rfl⟩
    | cons item rest ih =>
      obtain ⟨first_depth, first_finite⟩ := limits item List.mem_cons_self
      obtain ⟨rest_depth, rest_finite⟩ :=
        ih fun other mem => limits other (List.mem_cons_of_mem _ mem)
      refine ⟨Nat.max_le.mpr ⟨first_depth, rest_depth⟩, ?_⟩
      rw [itemsAreFinite, first_finite, rest_finite]
      rfl
  simp only [Value.depth, Value.isFinite]
  exact ⟨by omega, inner.2⟩

theorem withinLimits_of_shallow {value : Value} (shallow : value.depth ≤ maxDepth)
    (finite : value.isFinite = true) : value.withinLimits = true := by
  simp [Value.withinLimits, shallow, finite]

end TokenPlan.Json
