import TokenPlan.Proofs.Plan.Compile

/-!
What the actions of a plan depend on. Each needs only contracts that an action before it creates, so
the order of the actions can be refused for a repeated name and for nothing else.
-/

set_option autoImplicit false
set_option relaxedAutoImplicit false

namespace TokenPlan

namespace Argument

private theorem referencesOfItems_map_ofTarget (owners : List Target) :
    referencesOfItems (owners.map ofTarget) = owners.filterMap Target.action? := by
  induction owners with
  | nil => rfl
  | cons owner rest ih =>
    rw [List.map_cons, referencesOfItems, ih]
    cases owner <;> rfl

private theorem referencesOfItems_map_uint (amounts : List Amount) :
    referencesOfItems (amounts.map uint) = [] := by
  induction amounts with
  | nil => rfl
  | cons amount rest ih =>
    rw [List.map_cons, referencesOfItems, ih]
    rfl

end Argument

namespace Plan

def poolIdsOf (allocations : List Allocation) : List ActionId :=
  (poolsOf allocations).map Prod.fst

/-- Accounts are owned by addresses, so no action has to run before their owners are known. -/
def Literal (allocations : List Allocation) : Prop :=
  ∀ a ∈ allocations, a.kind = .directAccount → ∃ address, a.target = some (.account address)

private theorem referencesOfItems_tierArguments (allocations : List Allocation) :
    Argument.referencesOfItems (tierArguments allocations) = [] := by
  unfold tierArguments
  induction allocations with
  | nil => rfl
  | cons a rest ih =>
    cases kind : a.saleTier? with
    | none => simpa [kind] using ih
    | some tier =>
      have single : (tierArgument tier a.tokens).references = [] := rfl
      simpa [kind, Argument.referencesOfItems, single] using ih

private theorem dependencies_assetCreations {asset : PaymentAsset} {a : Action}
    (mem : a ∈ assetCreations asset) : a.dependencies = [] := by
  cases asset with
  | existing address => cases mem
  | deploy contract =>
    obtain rfl := List.mem_singleton.mp mem
    rfl

private theorem dependencies_saleCreation (settings : Settings) (allocations : List Allocation) :
    (saleCreation settings allocations).dependencies = [] := by
  change Argument.referencesOfItems (tierArguments allocations) ++ [] = []
  rw [referencesOfItems_tierArguments, List.append_nil]

private theorem dependencies_poolCreation (settings : Settings) (pool : String × VestingPool) :
    (poolCreation settings pool).dependencies = [settings.saleId] := rfl

private theorem dependencies_contractCall (id : ActionId) (method : String) (owner : Target) :
    (contractCall id method owner).dependencies = id :: owner.action?.toList := by
  cases owner <;> rfl

private theorem mintedOwners_filterMap_action? (saleId : ActionId) {allocations : List Allocation}
    (literal : Literal allocations) :
    (mintedOwners saleId allocations).filterMap Target.action? =
      poolIdsOf allocations ++ [saleId] := by
  unfold mintedOwners
  rw [List.filterMap_append]
  congr 1
  induction allocations with
  | nil => rfl
  | cons a rest ih =>
    have literal_rest : Literal rest := fun b mem => literal b (List.mem_cons_of_mem a mem)
    have literal_first := literal a List.mem_cons_self
    obtain ⟨id, tokens, kind, target⟩ := a
    cases kind with
    | saleTier tier => exact ih literal_rest
    | liquidityReserve => exact ih literal_rest
    | vestingPool pool => exact congrArg (List.cons id) (ih literal_rest)
    | directAccount =>
      obtain ⟨address, rfl⟩ := literal_first rfl
      exact ih literal_rest

private theorem dependencies_tokenCreation (settings : Settings) {allocations : List Allocation}
    (literal : Literal allocations) :
    (tokenCreation settings allocations).dependencies =
      poolIdsOf allocations ++ [settings.saleId] := by
  change Argument.referencesOfItems ((mintedOwners settings.saleId allocations).map .ofTarget) ++
    (Argument.referencesOfItems ((mintedAmounts allocations).map .uint) ++ []) = _
  rw [Argument.referencesOfItems_map_ofTarget, Argument.referencesOfItems_map_uint,
    List.append_nil, List.append_nil, mintedOwners_filterMap_action? settings.saleId literal]

/-! ### What the actions of a plan create -/

theorem created_assetCreations (asset : PaymentAsset) :
    created (assetCreations asset) = asset.owner.action?.toList := by
  cases asset <;> rfl

theorem created_saleCreation (settings : Settings) (allocations : List Allocation) :
    created [saleCreation settings allocations] = [settings.saleId] := rfl

theorem created_tokenCreation (settings : Settings) (allocations : List Allocation) :
    created [tokenCreation settings allocations] = [settings.tokenId] := rfl

theorem created_map_poolCreation (settings : Settings) (allocations : List Allocation) :
    created ((poolsOf allocations).map (poolCreation settings)) = poolIdsOf allocations := by
  unfold poolIdsOf
  induction poolsOf allocations with
  | nil => rfl
  | cons pool rest ih => exact congrArg (List.cons pool.1) ih

private theorem dependencies_calls {settings : Settings} {allocations : List Allocation}
    {a : Action}
    {id : ActionId}
    (mem : a ∈ (poolsOf allocations).map (poolCall settings) ++ saleCalls settings)
    (dependency : id ∈ a.dependencies) :
    id ∈ poolIdsOf allocations ∨ id = settings.saleId ∨ id = settings.tokenId ∨
      id ∈ settings.paymentAsset.owner.action?.toList := by
  rcases List.mem_append.mp mem with pool_call | sale_call
  · obtain ⟨pool, pool_mem, rfl⟩ := List.mem_map.mp pool_call
    have pool_id : pool.1 ∈ poolIdsOf allocations := List.mem_map.mpr ⟨pool, pool_mem, rfl⟩
    rw [poolCall, dependencies_contractCall, List.mem_cons] at dependency
    rcases dependency with rfl | token
    · exact Or.inl pool_id
    · exact Or.inr (Or.inr (Or.inl (List.mem_singleton.mp token)))
  · simp only [saleCalls, List.mem_cons, List.not_mem_nil, or_false] at sale_call
    rcases sale_call with rfl | rfl
    · rw [dependencies_contractCall, List.mem_cons] at dependency
      rcases dependency with rfl | token
      · exact Or.inr (Or.inl rfl)
      · exact Or.inr (Or.inr (Or.inl (List.mem_singleton.mp token)))
    · rw [dependencies_contractCall, List.mem_cons] at dependency
      rcases dependency with rfl | asset
      · exact Or.inr (Or.inl rfl)
      · exact Or.inr (Or.inr (Or.inr asset))

private theorem firstUnresolved?_actionsFor (settings : Settings) {allocations : List Allocation}
    (literal : Literal allocations) :
    firstUnresolved? [] (actionsFor settings allocations) = none := by
  -- Block by block: no action needs another one of its own block, and each block finds what the
  -- blocks before it have created.
  apply firstUnresolved?_append_eq_none
  · apply firstUnresolved?_eq_none_of_made
    intro a mem id dependency
    rw [dependencies_assetCreations mem] at dependency
    cases dependency
  rw [created_assetCreations]
  apply firstUnresolved?_append_eq_none
  · apply firstUnresolved?_eq_none_of_made
    intro a mem id dependency
    obtain rfl := List.mem_singleton.mp mem
    rw [dependencies_saleCreation] at dependency
    cases dependency
  rw [created_saleCreation]
  apply firstUnresolved?_append_eq_none
  · apply firstUnresolved?_eq_none_of_made
    intro a mem id dependency
    obtain ⟨pool, -, rfl⟩ := List.mem_map.mp mem
    rw [dependencies_poolCreation, List.mem_singleton] at dependency
    simp [dependency]
  rw [created_map_poolCreation]
  apply firstUnresolved?_append_eq_none
  · apply firstUnresolved?_eq_none_of_made
    intro a mem id dependency
    obtain rfl := List.mem_singleton.mp mem
    rw [dependencies_tokenCreation settings literal, List.mem_append, List.mem_singleton]
      at dependency
    rcases dependency with pool | rfl
    · simp [pool]
    · simp
  rw [created_tokenCreation]
  apply firstUnresolved?_eq_none_of_made
  intro a mem id dependency
  rcases dependencies_calls mem dependency with pool | rfl | rfl | asset
  · simp [pool]
  · simp
  · simp
  · simp [asset]

/-- The order of the actions of a plan is refused for the first repeated name or not at all. -/
theorem checkOrder_actionsFor (settings : Settings) {allocations : List Allocation}
    (literal : Literal allocations) :
    checkOrder (actionsFor settings allocations) =
      match firstRepeated? [] (actionsFor settings allocations) with
      | some a => .error (.mismatch a.id .duplicateAction)
      | none => .ok () := by
  have resolved := firstUnresolved?_actionsFor settings literal
  cases repeated : firstRepeated? [] (actionsFor settings allocations) with
  | some a => simp only [checkOrder, repeated]
  | none => simp only [checkOrder, repeated, resolved]

end Plan

end TokenPlan
