import TokenPlan.Proofs.Allocation.Binding
import TokenPlan.Proofs.Plan.Outcome
import TokenPlan.Proofs.Supply.Balance

/-!
What a binding that came too early does to a plan. Compiling binds tiers and pools in the order of
the table and adds the creation of each pool before it binds the pool; so it stops at the first tier
or pool that has an owner already, unless two of the names added up to there are the same.
-/

set_option autoImplicit false
set_option relaxedAutoImplicit false

namespace TokenPlan

/-- A tier or a pool that has an owner before a plan gives it one. -/
def Allocation.Prebound (a : Allocation) : Prop :=
  (a.saleTier?.isSome ∨ a.vestingPool?.isSome) ∧ a.target.isSome

instance (a : Allocation) : Decidable a.Prebound :=
  inferInstanceAs (Decidable ((_ ∨ _) ∧ _))

private theorem exists_first_prebound {allocations : List Allocation}
    (prebound : ∃ a ∈ allocations, a.Prebound) :
    ∃ before a after, allocations = before ++ a :: after ∧ (∀ b ∈ before, ¬ b.Prebound) ∧
      a.Prebound := by
  have found : (allocations.find? fun a => decide a.Prebound).isSome :=
    List.find?_isSome.mpr (by simpa using prebound)
  obtain ⟨a, first⟩ := Option.isSome_iff_exists.mp found
  obtain ⟨here, before, after, split, none_before⟩ := List.find?_eq_some_iff_append.mp first
  exact ⟨before, a, after, split, by simpa using none_before, by simpa using here⟩

private theorem Distribution.unbound_of_not_prebound {allocations : List Allocation}
    {report : SupplyReport} {reserveId : String} {d : Distribution}
    (made : Distribution.withReserve allocations report reserveId = .ok d) {b : Allocation}
    (mem : b ∈ d.allocations) (free : ¬ b.Prebound) (indirect : b.kind ≠ .directAccount) :
    b.target = none := by
  obtain ⟨explicit, -, -, rfl⟩ := Distribution.withReserve_eq_ok_iff.mp made
  rcases List.mem_append.mp mem with given | reserve
  · have no_reserve := explicit b given
    cases owner : b.target with
    | none => rfl
    | some target =>
      exfalso
      apply free
      refine ⟨?_, by rw [owner]; rfl⟩
      cases kind : b.kind with
      | saleTier tier => simp [Allocation.saleTier?, kind]
      | vestingPool pool => simp [Allocation.vestingPool?, kind]
      | liquidityReserve => simp [Allocation.isReserve, kind] at no_reserve
      | directAccount => exact absurd kind indirect
  · obtain rfl := List.mem_singleton.mp reserve
    rfl

namespace Plan

/-- The names of the actions that are added before `a` is bound, behind the allocations `before`. -/
def namesUpTo (settings : Settings) (before : List Allocation) (a : Allocation) : List ActionId :=
  assetNames settings.paymentAsset ++ settings.saleId :: poolIdsOf (before ++ [a])

/-- Why compiling stops at `a`, which has an owner already, behind the allocations `before`. -/
inductive Stops (settings : Settings) (before : List Allocation) (a : Allocation) :
    PlanError → Prop
  | alreadyBound (distinct : (namesUpTo settings before a).Nodup) :
      Stops settings before a (.alreadyBound a.id)
  | nameRepeated {front back : List ActionId} {id : ActionId}
      (names : namesUpTo settings before a = front ++ id :: back) (distinct : front.Nodup)
      (again : id ∈ front) : Stops settings before a (.mismatch id .duplicateAction)

variable {settings : Settings} {before after : List Allocation} {a : Allocation}

/-! ### Binding up to the allocation -/

private theorem bindOwner_of_prebound (actions : List Action) (prebound : a.Prebound) :
    bindOwner settings (.action settings.saleId) actions a =
      pushAll actions ((poolsOf [a]).map (poolCreation settings)) >>= fun _ =>
        .error (.alreadyBound a.id) := by
  obtain ⟨id, tokens, kind, target⟩ := a
  obtain ⟨bindable, bound⟩ := prebound
  obtain ⟨owner, rfl⟩ := Option.isSome_iff_exists.mp bound
  cases kind with
  | saleTier tier => rfl
  | vestingPool pool =>
    change (pushCreate actions id settings.vestingContract _ >>= fun _ => _) =
      pushAll actions [poolCreation settings (id, pool)] >>= fun _ => _
    rw [pushCreate_eq, bind_assoc]
    rfl
  | liquidityReserve => simp [Allocation.saleTier?, Allocation.vestingPool?] at bindable
  | directAccount => simp [Allocation.saleTier?, Allocation.vestingPool?] at bindable

private theorem bindOwners_of_prebound (actions : List Action)
    (unbound : ∀ b ∈ before, b.kind ≠ .directAccount → b.target = none)
    (prebound : a.Prebound) :
    bindOwners settings (.action settings.saleId) actions (before ++ a :: after) =
      pushAll actions ((poolsOf (before ++ [a])).map (poolCreation settings)) >>= fun _ =>
        .error (.alreadyBound a.id) := by
  induction before generalizing actions with
  | nil =>
    rw [List.nil_append, List.nil_append, bindOwners, bindOwner_of_prebound actions prebound,
      bind_assoc]
    rfl
  | cons b rest ih =>
    obtain ⟨first, unbound_rest⟩ := List.forall_mem_cons.mp unbound
    rw [List.cons_append, List.cons_append, bindOwners, bindOwner_eq settings actions first,
      poolsOf_cons b (rest ++ [a]), List.map_append, pushAll_append]
    simp only [bind_assoc, pure_bind, ih _ unbound_rest, error_bind]

/-! ### Compiling up to the allocation -/

/-- The actions that are added before `a` is bound. -/
def actionsUpTo (settings : Settings) (d : Distribution) (before : List Allocation)
    (a : Allocation) : List Action :=
  assetCreations settings.paymentAsset ++ ([saleCreation settings d.allocations] ++
    (poolsOf (before ++ [a])).map (poolCreation settings))

private theorem map_id_actionsUpTo (d : Distribution) :
    (actionsUpTo settings d before a).map Action.id = namesUpTo settings before a := by
  simp only [actionsUpTo, List.map_append, map_id_assetCreations, map_id_poolCreation]
  rfl

private theorem compile_of_prebound {d : Distribution} (checked : d.check = .ok ())
    (reserved : ∃ b ∈ d.allocations, b.isReserve = true)
    (split : d.allocations = before ++ a :: after)
    (unbound : ∀ b ∈ before, b.kind ≠ .directAccount → b.target = none)
    (prebound : a.Prebound) :
    compile d settings =
      pushAll [] (actionsUpTo settings d before a) >>= fun _ => .error (.alreadyBound a.id) := by
  have stopped := fun actions =>
    @bindOwners_of_prebound settings before after a actions unbound prebound
  rw [← split] at stopped
  simp only [compile, checked, ok_bind, pushPaymentAsset_eq, pushSale_eq settings _ reserved,
    stopped, bind_assoc, pure_bind, error_bind, actionsUpTo, pushAll_append]

private theorem stops_of_prebound {d : Distribution} (checked : d.check = .ok ())
    (reserved : ∃ b ∈ d.allocations, b.isReserve = true)
    (split : d.allocations = before ++ a :: after)
    (unbound : ∀ b ∈ before, b.kind ≠ .directAccount → b.target = none)
    (prebound : a.Prebound) :
    ∃ e, compile d settings = .error e ∧ Stops settings before a e := by
  have names := @map_id_actionsUpTo settings before a d
  -- The actions up to the early binding are added first, and a repeated name among them is told.
  rw [compile_of_prebound checked reserved split unbound prebound, pushAll_eq [] _ (by simp)]
  cases repeated : firstRepeated? [] (actionsUpTo settings d before a) with
  | some b =>
    obtain ⟨front, back, split, distinct, again⟩ := exists_names_of_firstRepeated? repeated
    exact ⟨_, rfl, .nameRepeated (names.symm.trans split) distinct again⟩
  | none =>
    have distinct := (firstRepeated?_eq_none_iff.mp repeated).1
    rw [names] at distinct
    exact ⟨_, rfl, .alreadyBound distinct⟩

/--
Whatever is called, an allocation is bound at most once, a direct account never again, and only its
owner changes. So no plan is compiled from a tier or pool that was bound before: the first of them
is reported, or the first repeated name among the actions that are added up to its binding.
-/
theorem owners_bind_once :
    (∀ (a : Allocation) (targets : List Target), a.BindsOnce targets) ∧
    (∀ (id : String) (tokens : Amount) (address : Address) (targets : List Target),
      (Allocation.account id tokens address).calls targets =
        targets.map fun _ => (.error (.alreadyBound id), Allocation.account id tokens address)) ∧
    ∀ (allocations : List Allocation) (report : SupplyReport) (reserveId : String)
      (d : Distribution), Distribution.withReserve allocations report reserveId = .ok d →
        (∃ a ∈ d.allocations, a.Prebound) → ∀ settings : Settings, ∃ before a after,
          d.allocations = before ++ a :: after ∧ (∀ b ∈ before, ¬ b.Prebound) ∧ a.Prebound ∧
            ∃ e, compile d settings = .error e ∧ Stops settings before a e := by
  refine ⟨Allocation.bindsOnce, ?_, ?_⟩
  · intro id tokens address targets
    exact Allocation.calls_of_bound rfl
  · intro allocations report reserveId d made prebound settings
    obtain ⟨before, a, after, split, free, here⟩ := exists_first_prebound prebound
    have completed := Distribution.completes_of_withReserve made
    have reserved : ∃ b ∈ d.allocations, b.isReserve = true := by
      refine ⟨Allocation.liquidity reserveId report.remainder, ?_, rfl⟩
      rw [completed.listed]
      exact List.mem_append_right allocations List.mem_cons_self
    have unbound : ∀ b ∈ before, b.kind ≠ .directAccount → b.target = none := by
      intro b mem indirect
      have given : b ∈ d.allocations := by
        rw [split]
        exact List.mem_append_left _ mem
      exact Distribution.unbound_of_not_prebound made given (free b mem) indirect
    exact ⟨before, a, after, split, free, here,
      stops_of_prebound completed.checked reserved split unbound here⟩

/-- A pool under the name of the sale contract, and a tier, each bound before the plan is made. -/
def boundEarly : List Allocation :=
  [(Allocation.vesting "SaleContract" (Amount.ofWord 180)
      ⟨"Team", VestingSchedule.immediate⟩).ownedBy (.account Address.zero),
    (Allocation.sale "tier" (Amount.ofWord 9)
      { name := "Tier"
        cooldown := 0
        start := .instant 1717170214
        price := Amount.ofWord 34
        minimum := Amount.zero
        maximum := Amount.ofWord 10
        affiliateReserve := Amount.ofWord 1
        affiliateRate := 100000
        vesting := VestingSchedule.immediate }).ownedBy (.action "sale")]

theorem owners_bind_once_boundEarly : ∃ d,
    Distribution.withReserve boundEarly ⟨Amount.ofWord 1000, Amount.ofWord 190, Amount.ofWord 810⟩
      "liquidity_dex" = .ok d ∧ (∃ a ∈ d.allocations, a.Prebound) ∧
      (∃ before a after, d.allocations = before ++ a :: after ∧ (∀ b ∈ before, ¬ b.Prebound) ∧
        a.Prebound ∧ ∃ e, compile d Settings.standard = .error e ∧
          Stops Settings.standard before a e) ∧
      compile d Settings.standard = .error (.mismatch "SaleContract" .duplicateAction) := by
  let report : SupplyReport := ⟨Amount.ofWord 1000, Amount.ofWord 190, Amount.ofWord 810⟩
  let d : Distribution :=
    ⟨boundEarly ++ [Allocation.liquidity "liquidity_dex" report.remainder], report⟩
  have made : Distribution.withReserve boundEarly report "liquidity_dex" = .ok d := rfl
  have prebound : ∃ a ∈ d.allocations, a.Prebound := by decide
  exact ⟨d, made, prebound, owners_bind_once.2.2 _ _ _ _ made prebound Settings.standard, rfl⟩

end Plan

end TokenPlan
