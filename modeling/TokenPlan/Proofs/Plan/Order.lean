import TokenPlan.Plan.Compiled

/-!
What the check of an order says: the names of actions differ, and each action comes after the
creations that it depends on. Adding actions one by one refuses exactly the repeated names.
-/

set_option autoImplicit false
set_option relaxedAutoImplicit false

namespace TokenPlan.Plan

theorem firstRepeated?_eq_none_iff {seen : List ActionId} {actions : List Action} :
    firstRepeated? seen actions = none ↔
      (actions.map Action.id).Nodup ∧ ∀ a ∈ actions, a.id ∉ seen := by
  induction actions generalizing seen with
  | nil => simp [firstRepeated?]
  | cons a rest ih =>
    by_cases old : a.id ∈ seen
    · simp [firstRepeated?, old]
    · simp only [firstRepeated?, old, if_false, ih, List.map_cons, List.nodup_cons,
        List.mem_cons, List.mem_map, not_or, forall_eq_or_imp, not_false_eq_true, true_and]
      constructor
      · rintro ⟨nodup, fresh⟩
        refine ⟨⟨?_, nodup⟩, fun b mem => (fresh b mem).2⟩
        rintro ⟨b, mem, same⟩
        exact (fresh b mem).1 same
      · rintro ⟨⟨alone, nodup⟩, fresh⟩
        exact ⟨nodup, fun b mem => ⟨fun same => alone ⟨b, mem, same⟩, fresh b mem⟩⟩

/-- The name that is reported as repeated is the first one that is not new. -/
theorem firstRepeated?_id_eq_some_iff {seen : List ActionId} {actions : List Action}
    {id : ActionId} :
    (firstRepeated? seen actions).map Action.id = some id ↔
      ∃ before after, actions.map Action.id = before ++ id :: after ∧ before.Nodup ∧
        (∀ other ∈ before, other ∉ seen) ∧ (id ∈ seen ∨ id ∈ before) := by
  induction actions generalizing seen with
  | nil => simp [firstRepeated?]
  | cons first rest ih =>
    -- An old first name is the one that is told; a new one is old for those behind it.
    by_cases old : first.id ∈ seen
    · simp only [firstRepeated?, old, if_true, Option.map_some, Option.some.injEq, List.map_cons]
      constructor
      · rintro rfl
        exact ⟨[], rest.map Action.id, rfl, List.nodup_nil, by simp, Or.inl old⟩
      · rintro ⟨before, after, split, -, fresh, -⟩
        cases before with
        | nil => exact (List.cons.inj split).1
        | cons other before =>
          obtain rfl := (List.cons.inj split).1
          exact absurd old (fresh _ List.mem_cons_self)
    · simp only [firstRepeated?, old, if_false, ih, List.map_cons]
      constructor
      · rintro ⟨before, after, split, nodup, fresh, again⟩
        have new : ∀ other ∈ before, other ≠ first.id ∧ other ∉ seen := by
          simpa using fresh
        refine ⟨first.id :: before, after, by rw [split, List.cons_append], ?_, ?_, ?_⟩
        · exact List.nodup_cons.mpr ⟨fun mem => (new _ mem).1 rfl, nodup⟩
        · intro other mem
          rcases List.mem_cons.mp mem with rfl | mem
          · exact old
          · exact (new other mem).2
        · rw [List.mem_cons] at again ⊢
          rcases again with (same | again) | again
          · exact Or.inr (Or.inl same)
          · exact Or.inl again
          · exact Or.inr (Or.inr again)
      · rintro ⟨before, after, split, nodup, fresh, again⟩
        cases before with
        | nil =>
          obtain rfl := (List.cons.inj split).1
          simp [old] at again
        | cons other before =>
          obtain ⟨rfl, rest_split⟩ := List.cons.inj split
          obtain ⟨alone, nodup⟩ := List.nodup_cons.mp nodup
          refine ⟨before, after, rest_split, nodup, ?_, ?_⟩
          · intro b mem
            rw [List.mem_cons, not_or]
            exact ⟨fun same => alone (same ▸ mem), fresh b (List.mem_cons_of_mem _ mem)⟩
          · rw [List.mem_cons] at again ⊢
            rcases again with again | same | again
            · exact Or.inl (Or.inr again)
            · exact Or.inl (Or.inl same)
            · exact Or.inr again

theorem exists_names_of_firstRepeated? {actions : List Action} {a : Action}
    (repeated : firstRepeated? [] actions = some a) :
    ∃ before after, actions.map Action.id = before ++ a.id :: after ∧ before.Nodup ∧
      a.id ∈ before := by
  have named : (firstRepeated? [] actions).map Action.id = some a.id := by
    rw [repeated]
    rfl
  obtain ⟨before, after, split, distinct, -, again⟩ := firstRepeated?_id_eq_some_iff.mp named
  refine ⟨before, after, split, distinct, ?_⟩
  simpa using again

/-! ### Dependencies -/

theorem created_append (first second : List Action) :
    created (first ++ second) = created first ++ created second := by
  simp [created]

theorem created_cons (a : Action) (rest : List Action) :
    created (a :: rest) = created [a] ++ created rest :=
  created_append [a] rest

theorem mem_made_iff {made : List ActionId} {a : Action} {id : ActionId} :
    (id ∈ if a.isCreate then a.id :: made else made) ↔ id ∈ made ∨ id ∈ created [a] := by
  cases creates : a.isCreate <;> simp [created, creates, or_comm]

theorem firstUnresolved?_append {made : List ActionId} {first second : List Action}
    (resolved : firstUnresolved? made first = none) :
    firstUnresolved? made (first ++ second) =
      firstUnresolved? ((created first).reverse ++ made) second := by
  induction first generalizing made with
  | nil => rfl
  | cons a rest ih =>
    by_cases ready : a.dependencies.all fun id => id ∈ made
    · simp only [firstUnresolved?, ready, if_true] at resolved
      simp only [List.cons_append, firstUnresolved?, ready, if_true, ih resolved]
      cases creates : a.isCreate <;> simp [created, creates]
    · simp [firstUnresolved?, ready] at resolved

theorem firstUnresolved?_append_eq_none {made : List ActionId} {first second : List Action}
    (earlier : firstUnresolved? made first = none)
    (later : firstUnresolved? ((created first).reverse ++ made) second = none) :
    firstUnresolved? made (first ++ second) = none := by
  rw [firstUnresolved?_append earlier, later]

theorem firstUnresolved?_eq_none_of_made {made : List ActionId} {actions : List Action}
    (known : ∀ a ∈ actions, ∀ id ∈ a.dependencies, id ∈ made) :
    firstUnresolved? made actions = none := by
  induction actions generalizing made with
  | nil => rfl
  | cons a rest ih =>
    have ready : (a.dependencies.all fun id => id ∈ made) = true := by
      simpa using known a List.mem_cons_self
    simp only [firstUnresolved?, ready, if_true]
    apply ih
    intro b mem id dependency
    have here := known b (List.mem_cons_of_mem a mem) id dependency
    cases a.isCreate with
    | true => exact List.mem_cons_of_mem a.id here
    | false => exact here

/-- Every dependency of every action is created before it, or is among `made`. -/
theorem firstUnresolved?_eq_none_iff {made : List ActionId} {actions : List Action} :
    firstUnresolved? made actions = none ↔
      ∀ before a after, actions = before ++ a :: after →
        ∀ id ∈ a.dependencies, id ∈ made ∨ id ∈ created before := by
  induction actions generalizing made with
  | nil => simp [firstUnresolved?]
  | cons first rest ih =>
    by_cases ready : first.dependencies.all fun id => id ∈ made
    · simp only [firstUnresolved?, ready, if_true, ih]
      constructor
      · intro later before a after split id dependency
        cases before with
        | nil =>
          cases split
          exact Or.inl (by simpa using List.all_eq_true.mp ready id dependency)
        | cons other before =>
          cases split
          have known := later before a after rfl id dependency
          rw [mem_made_iff] at known
          rw [created_cons, List.mem_append]
          exact or_assoc.mp known
      · intro all before a after split id dependency
        have known := all (first :: before) a after (by rw [split, List.cons_append]) id dependency
        rw [created_cons, List.mem_append] at known
        rw [mem_made_iff]
        exact or_assoc.mpr known
    · simp only [firstUnresolved?, ready, if_false, reduceCtorEq, false_iff]
      intro all
      apply ready
      rw [List.all_eq_true]
      intro id dependency
      have known := all [] first rest rfl id dependency
      simpa [created] using known

/-- An order passes if no name stands twice and each dependency is created earlier. -/
theorem checkOrder_eq_ok_iff {actions : List Action} :
    checkOrder actions = .ok () ↔
      (actions.map Action.id).Nodup ∧
        ∀ before a after, actions = before ++ a :: after →
          ∀ id ∈ a.dependencies, id ∈ created before := by
  unfold checkOrder
  cases repeated : firstRepeated? [] actions with
  | some a =>
    simp only [reduceCtorEq, false_iff]
    rintro ⟨nodup, -⟩
    have fresh : firstRepeated? [] actions = none :=
      firstRepeated?_eq_none_iff.mpr ⟨nodup, by simp⟩
    rw [fresh] at repeated
    cases repeated
  | none =>
    have nodup : (actions.map Action.id).Nodup := (firstRepeated?_eq_none_iff.mp repeated).1
    simp only [nodup, true_and]
    have resolved := @firstUnresolved?_eq_none_iff [] actions
    simp only [List.not_mem_nil, false_or] at resolved
    rw [← resolved]
    cases firstUnresolved? [] actions <;> simp

theorem filter_key_eq_singleton {α : Type} {key : α → String} {l : List α} {a : α}
    (distinct : (l.map key).Nodup) (mem : a ∈ l) : (l.filter fun b => key b = key a) = [a] := by
  induction l with
  | nil => cases mem
  | cons first rest ih =>
    rw [List.map_cons, List.nodup_cons] at distinct
    obtain ⟨alone, distinct⟩ := distinct
    rcases List.mem_cons.mp mem with rfl | mem
    · have others : ∀ b ∈ rest, ¬ key b = key a :=
        fun b mem same => alone (List.mem_map.mpr ⟨b, mem, same⟩)
      rw [List.filter_cons_of_pos (by simp), List.filter_eq_nil_iff.mpr (by simpa using others)]
    · have other : ¬ key first = key a :=
        fun same => alone (List.mem_map.mpr ⟨a, mem, same.symm⟩)
      rw [List.filter_cons_of_neg (by simpa using other), ih distinct mem]

theorem find?_id_eq_some {actions : List Action} {a : Action}
    (nodup : (actions.map Action.id).Nodup) (mem : a ∈ actions) :
    (actions.find? fun other => other.id = a.id) = some a := by
  rw [← List.head?_filter, filter_key_eq_singleton nodup mem]
  rfl

/-! ### Adding several actions -/

/-- Adds actions one after the other. -/
def pushAll (actions : List Action) : List Action → Except PlanError (List Action)
  | [] => .ok actions
  | a :: rest => do
    let actions ← push actions a
    pushAll actions rest

@[simp] theorem pushAll_nil (actions : List Action) : pushAll actions [] = .ok actions := rfl

theorem pushAll_singleton (actions : List Action) (a : Action) :
    pushAll actions [a] = push actions a := by
  simp only [pushAll]
  exact bind_pure (push actions a)

theorem pushAll_append (actions first second : List Action) :
    pushAll actions (first ++ second) =
      pushAll actions first >>= fun actions => pushAll actions second := by
  induction first generalizing actions with
  | nil => rfl
  | cons a rest ih => simp only [List.cons_append, pushAll, ih, bind_assoc]

/-- Adding several actions reports the first repeated name, or puts them at the end. -/
theorem pushAll_eq {actions : List Action} (seen : List ActionId) (new : List Action)
    (names : ∀ id, id ∈ seen ↔ id ∈ actions.map Action.id) :
    pushAll actions new =
      match firstRepeated? seen new with
      | some a => .error (.mismatch a.id .duplicateAction)
      | none => .ok (actions ++ new) := by
  induction new generalizing actions seen with
  | nil => simp [firstRepeated?]
  | cons a rest ih =>
    have old : (actions.any fun other => other.id = a.id) = true ↔ a.id ∈ seen := by
      rw [names, List.any_eq_true, List.mem_map]
      simp
    by_cases mem : a.id ∈ seen
    · simp [pushAll, push, old.mpr mem, firstRepeated?, mem]
    · have fresh : (actions.any fun other => other.id = a.id) = false := by
        simpa using mt old.mp mem
      have names' : ∀ id, id ∈ a.id :: seen ↔ id ∈ (actions ++ [a]).map Action.id := by
        intro id
        simp only [List.mem_cons, List.map_append, List.map_cons, List.map_nil, List.mem_append,
          List.not_mem_nil, or_false, names id]
        exact or_comm
      have pushed : push actions a = .ok (actions ++ [a]) := by simp [push, fresh]
      have rest_eq := ih (a.id :: seen) names'
      simp only [pushAll, pushed, ok_bind, firstRepeated?, mem, if_false]
      simpa using rest_eq

/-- What is added one by one to nothing needs no check of its names but that of the order. -/
theorem pushAll_then_checkOrder {α : Type} (new : List Action)
    (next : List Action → Except PlanError α) :
    (pushAll [] new >>= fun actions => checkOrder actions >>= fun _ => next actions) =
      checkOrder new >>= fun _ => next new := by
  rw [pushAll_eq [] new (by simp)]
  cases repeated : firstRepeated? [] new with
  | some a => simp only [checkOrder, repeated, error_bind]
  | none => rfl

end TokenPlan.Plan
