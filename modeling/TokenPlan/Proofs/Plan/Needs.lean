import TokenPlan.Plan.Action
import Mathlib.Data.List.Basic

/-!
What an action needs: the contract that it calls, and those to which its arguments refer, however
deep. The dependencies that are collected from an action are all that it needs and nothing else.
-/

set_option autoImplicit false
set_option relaxedAutoImplicit false

namespace TokenPlan

/-- The argument refers to the action, or a part of it does. -/
inductive Argument.Mentions (id : ActionId) : Argument → Prop
  | ref : Mentions id (.ref id)
  | item (item : Argument) (items : List Argument) (mem : item ∈ items)
      (inside : Mentions id item) : Mentions id (.array items)
  | field (name : String) (value : Argument) (fields : List (String × Argument))
      (mem : (name, value) ∈ fields) (inside : Mentions id value) : Mentions id (.tuple fields)

namespace Argument

mutual

private theorem mem_references_iff {id : ActionId} :
    ∀ {argument : Argument}, id ∈ argument.references ↔ argument.Mentions id
  | .uint _ => ⟨nofun, nofun⟩
  | .address _ => ⟨nofun, nofun⟩
  | .string _ => ⟨nofun, nofun⟩
  | .ref other => by
    rw [references, List.mem_singleton]
    constructor
    · rintro rfl
      exact .ref
    · rintro ⟨⟩
      rfl
  | .array items => by
    rw [references, mem_referencesOfItems_iff]
    constructor
    · rintro ⟨item, mem, inside⟩
      exact .item item items mem inside
    · rintro (_ | ⟨item, _, mem, inside⟩)
      exact ⟨item, mem, inside⟩
  | .tuple fields => by
    rw [references, mem_referencesOfFields_iff]
    constructor
    · rintro ⟨⟨name, value⟩, mem, inside⟩
      exact .field name value fields mem inside
    · rintro (_ | _ | ⟨name, value, _, mem, inside⟩)
      exact ⟨(name, value), mem, inside⟩

private theorem mem_referencesOfItems_iff {id : ActionId} : ∀ {items : List Argument},
    id ∈ referencesOfItems items ↔ ∃ item ∈ items, item.Mentions id
  | [] => by simp [referencesOfItems]
  | item :: items => by
    rw [referencesOfItems, List.mem_append, mem_references_iff, mem_referencesOfItems_iff,
      List.exists_mem_cons_iff]

private theorem mem_referencesOfFields_iff {id : ActionId} : ∀ {fields : List (String × Argument)},
    id ∈ referencesOfFields fields ↔ ∃ field ∈ fields, field.2.Mentions id
  | [] => by simp [referencesOfFields]
  | (name, value) :: fields => by
    rw [referencesOfFields, List.mem_append, mem_references_iff, mem_referencesOfFields_iff,
      List.exists_mem_cons_iff]

end

end Argument

namespace Action

/-- The action calls the contract that `id` creates, or refers to it in an argument. -/
inductive Needs (id : ActionId) (a : Action) : Prop
  | callee (method : String) (arguments : List Argument)
      (calls : a.operation = .call (.action id) method arguments)
  | argument (argument : Argument) (mem : argument ∈ a.arguments) (mentions : argument.Mentions id)

private theorem calledAction?_eq_some_iff {id : ActionId} {a : Action} :
    a.calledAction? = some id ↔
      ∃ method arguments, a.operation = .call (.action id) method arguments := by
  obtain ⟨name, operation⟩ := a
  cases operation with
  | create contract arguments => simp [calledAction?]
  | call target method arguments => cases target <;> simp [calledAction?, Target.action?]

theorem mem_dependencies_iff {id : ActionId} {a : Action} : id ∈ a.dependencies ↔ a.Needs id := by
  rw [dependencies, List.mem_append, Option.mem_toList, calledAction?_eq_some_iff,
    Argument.mem_referencesOfItems_iff]
  constructor
  · rintro (⟨method, arguments, calls⟩ | ⟨argument, mem, mentions⟩)
    · exact .callee method arguments calls
    · exact .argument argument mem mentions
  · rintro (⟨method, arguments, calls⟩ | ⟨argument, mem, mentions⟩)
    · exact Or.inl ⟨method, arguments, calls⟩
    · exact Or.inr ⟨argument, mem, mentions⟩

end Action

end TokenPlan
