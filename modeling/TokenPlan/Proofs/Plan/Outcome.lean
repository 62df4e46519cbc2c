import TokenPlan.Plan.Planning
import TokenPlan.Proofs.Allocation.Derivation
import TokenPlan.Proofs.Plan.Dependency
import TokenPlan.Proofs.Supply.Reserve

/-!
What planning a table comes to. Once the supply is accepted only names can be refused: that of the
reserve, and those of the actions, which are known from the table and the settings alone.
-/

set_option autoImplicit false
set_option relaxedAutoImplicit false

namespace TokenPlan

namespace Plan

/-- The creation of the payment asset, where the plan creates one, is named like the contract. -/
def assetNames : PaymentAsset → List ActionId
  | .deploy contract => [contract]
  | .existing _ => []

def namesFor (settings : Settings) (rows : List Row) : List ActionId :=
  assetNames settings.paymentAsset ++ ([settings.saleId] ++ (Row.poolIds rows ++
    ([settings.tokenId] ++ ((Row.poolIds rows).map (fun id => id ++ ".setToken") ++
      [settings.saleId ++ ".setToken", settings.saleId ++ ".setUSDT"]))))

/-- What planning comes to, with the circumstances in which it does. -/
inductive Outcome (d : Denomination) (rows : List Row) (settings : Settings) :
    Except PlanError CompiledPlan → Prop
  | unsupplied {e : PlanError} (refused : checkSupply d rows = .error e) :
      Outcome d rows settings (.error e)
  | reserveTaken {report : SupplyReport} (supplied : checkSupply d rows = .ok report)
      (taken : settings.reserveId ∈ rows.map Row.id) :
      Outcome d rows settings (.error (.table (.duplicateId settings.reserveId)))
  | nameRepeated {report : SupplyReport} {before after : List ActionId} {id : ActionId}
      (supplied : checkSupply d rows = .ok report) (free : settings.reserveId ∉ rows.map Row.id)
      (names : namesFor settings rows = before ++ id :: after) (distinct : before.Nodup)
      (again : id ∈ before) :
      Outcome d rows settings (.error (.mismatch id .duplicateAction))
  | planned {report : SupplyReport} {p : CompiledPlan} (supplied : checkSupply d rows = .ok report)
      (free : settings.reserveId ∉ rows.map Row.id) (distinct : (namesFor settings rows).Nodup)
      (named : p.actions.map Action.id = namesFor settings rows) (supply : p.supply = report) :
      Outcome d rows settings (.ok p)

/-! ### The distribution of a table -/

private theorem poolIdsOf_append (first second : List Allocation) :
    poolIdsOf (first ++ second) = poolIdsOf first ++ poolIdsOf second := by
  simp [poolIdsOf, poolsOf]

private theorem poolIdsOf_of_yields {rows : List Row} {allocations : List Allocation}
    (yields : List.Forall₂ Row.Yields rows allocations) :
    poolIdsOf allocations = Row.poolIds rows := by
  induction yields with
  | nil => rfl
  | cons first rest ih =>
    cases first with
    | sale row tokens tier => exact ih
    | pool row tokens => exact congrArg (List.cons row.id) ih
    | account row tokens => exact ih

/-- The distribution that a table comes to, with the reserve in the last place. -/
def completed (allocations : List Allocation) (report : SupplyReport) (settings : Settings) :
    Distribution :=
  ⟨allocations ++ [Allocation.liquidity settings.reserveId report.remainder], report⟩

variable {rows : List Row} {allocations : List Allocation} {report : SupplyReport}
variable {total : Amount}

theorem allocations_planOf_completed (settings : Settings) (allocations : List Allocation)
    (report : SupplyReport) :
    (planOf settings (completed allocations report settings)).allocations =
      allocations.map (Allocation.bound settings.saleId) ++
        [(Allocation.liquidity settings.reserveId report.remainder).bound settings.saleId] :=
  List.map_append

theorem nodup_completed {d : Denomination} {settings : Settings} (report : SupplyReport)
    (derived : deriveAll d rows = .ok allocations) (free : settings.reserveId ∉ rows.map Row.id) :
    ((completed allocations report settings).allocations.map Allocation.id).Nodup := by
  rw [completed, List.map_append, Row.Yields.map_id (yields_of_deriveAll derived),
    List.map_singleton, (List.perm_append_singleton _ _).nodup_iff]
  exact List.nodup_cons.mpr ⟨free, nodup_of_deriveAll derived⟩

theorem literal_completed (settings : Settings)
    (yields : List.Forall₂ Row.Yields rows allocations) :
    Literal (completed allocations report settings).allocations := by
  intro a mem direct
  rcases List.mem_append.mp mem with mem | reserve
  · exact Row.Yields.forall_mem yields (fun _ _ single => single.literal) a mem direct
  · obtain rfl := List.mem_singleton.mp reserve
    cases direct

theorem ready_completed (settings : Settings)
    (yields : List.Forall₂ Row.Yields rows allocations)
    (reported : reportSupply allocations total = .ok report) :
    (completed allocations report settings).Ready := by
  constructor
  case conserved => exact owedBy_append_liquidity settings.reserveId reported
  case reserved =>
    exact ⟨Allocation.liquidity settings.reserveId report.remainder, by simp [completed], rfl⟩
  case unbound =>
    intro a mem indirect
    rcases List.mem_append.mp mem with mem | reserve
    · exact Row.Yields.forall_mem yields (fun _ _ single => single.unbound) a mem indirect
    · obtain rfl := List.mem_singleton.mp reserve
      rfl
  case owned =>
    intro a mem direct
    obtain ⟨address, owner⟩ := literal_completed settings yields a mem direct
    rw [owner]
    rfl

theorem map_id_assetCreations (asset : PaymentAsset) :
    (assetCreations asset).map Action.id = assetNames asset := by
  cases asset <;> rfl

theorem map_id_poolCreation (settings : Settings) (allocations : List Allocation) :
    ((poolsOf allocations).map (poolCreation settings)).map Action.id = poolIdsOf allocations := by
  rw [List.map_map]
  rfl

theorem map_id_actionsFor (settings : Settings) (allocations : List Allocation) :
    (actionsFor settings allocations).map Action.id =
      assetNames settings.paymentAsset ++ ([settings.saleId] ++ (poolIdsOf allocations ++
        ([settings.tokenId] ++ ((poolIdsOf allocations).map (fun id => id ++ ".setToken") ++
          [settings.saleId ++ ".setToken", settings.saleId ++ ".setUSDT"])))) := by
  have call_name : ∀ id method owner,
      (contractCall id method owner).id = id ++ ("." ++ method) := by
    intro id method owner
    exact String.append_assoc
  have pool_calls : ((poolsOf allocations).map (poolCall settings)).map Action.id =
      (poolIdsOf allocations).map fun id => id ++ ".setToken" := by
    rw [List.map_map, poolIdsOf, List.map_map]
    apply List.map_congr_left
    intro pool _
    exact call_name pool.1 setTokenMethod _
  simp only [actionsFor, List.map_append, map_id_assetCreations, map_id_poolCreation, pool_calls,
    saleCalls, List.map_cons, List.map_nil, call_name]
  rfl

theorem poolIdsOf_completed (settings : Settings) (report : SupplyReport)
    (yields : List.Forall₂ Row.Yields rows allocations) :
    poolIdsOf (completed allocations report settings).allocations = Row.poolIds rows := by
  rw [completed, poolIdsOf_append, poolIdsOf_of_yields yields]
  exact List.append_nil _

theorem map_id_completed (settings : Settings) (report : SupplyReport)
    (yields : List.Forall₂ Row.Yields rows allocations) :
    (actionsFor settings (completed allocations report settings).allocations).map Action.id =
      namesFor settings rows := by
  rw [map_id_actionsFor, poolIdsOf_completed settings report yields]
  rfl

private theorem planRows_eq {d : Denomination} (settings : Settings)
    (derived : deriveAll d rows = .ok allocations)
    (reported : reportSupply allocations d.supply = .ok report) :
    planRows d rows settings =
      if settings.reserveId ∈ rows.map Row.id then
        .error (.table (.duplicateId settings.reserveId))
      else
        checkOrder (actionsFor settings (completed allocations report settings).allocations) >>=
          fun _ => pure (planOf settings (completed allocations report settings)) := by
  have yields := yields_of_deriveAll derived
  have explicit : ∀ a ∈ allocations, a.isReserve = false :=
    Row.Yields.forall_mem yields fun _ _ single => single.isReserve
  have ready := ready_completed settings yields reported
  simp only [planRows, derived, ofTable, mapError_ok, ok_bind, reported,
    Distribution.withReserve_eq settings.reserveId explicit reported, Row.Yields.map_id yields]
  by_cases taken : settings.reserveId ∈ rows.map Row.id
  · rw [if_pos taken, if_pos taken, error_bind]
  · rw [if_neg taken, if_neg taken, ok_bind]
    exact compile_eq settings ready

theorem checkSupply_eq_ok_iff {d : Denomination} :
    checkSupply d rows = .ok report ↔
      ∃ allocations, deriveAll d rows = .ok allocations ∧
        reportSupply allocations d.supply = .ok report := by
  simp [checkSupply, bind_eq_ok_iff, ofTable]

private theorem planRows_of_checkSupply_error {d : Denomination} {e : PlanError}
    (settings : Settings)
    (refused : checkSupply d rows = .error e) : planRows d rows settings = .error e := by
  unfold checkSupply at refused
  unfold planRows
  cases derived : ofTable (deriveAll d rows) with
  | error tableError =>
    rw [derived] at refused
    cases refused
    rfl
  | ok allocations =>
    rw [derived, ok_bind] at refused
    rw [ok_bind, refused]
    rfl

/-- Planning succeeds with the plan that is written down for the completed distribution. -/
theorem planRows_eq_ok_iff {d : Denomination} {settings : Settings} {p : CompiledPlan} :
    planRows d rows settings = .ok p ↔
      ∃ allocations report, deriveAll d rows = .ok allocations ∧
        reportSupply allocations d.supply = .ok report ∧
          settings.reserveId ∉ rows.map Row.id ∧
            checkOrder (actionsFor settings (completed allocations report settings).allocations) =
              .ok () ∧ p = planOf settings (completed allocations report settings) := by
  constructor
  · intro planned
    cases supplied : checkSupply d rows with
    | error e =>
      rw [planRows_of_checkSupply_error settings supplied] at planned
      cases planned
    | ok report =>
      obtain ⟨allocations, derived, reported⟩ := checkSupply_eq_ok_iff.mp supplied
      rw [planRows_eq settings derived reported] at planned
      by_cases taken : settings.reserveId ∈ rows.map Row.id
      · rw [if_pos taken] at planned
        cases planned
      · rw [if_neg taken] at planned
        obtain ⟨_, ordered, done⟩ := bind_eq_ok_iff.mp planned
        cases done
        exact ⟨allocations, report, derived, reported, taken, ordered, rfl⟩
  · rintro ⟨allocations, report, derived, reported, free, ordered, rfl⟩
    rw [planRows_eq settings derived reported, if_neg free, ordered]
    rfl

/--
Planning a table is refused for its supply, for the name of the reserve, or for the first repeated
name of an action, in this order, and for nothing else.
-/
theorem planRows_outcome (d : Denomination) (rows : List Row) (settings : Settings) :
    Outcome d rows settings (planRows d rows settings) := by
  cases supplied : checkSupply d rows with
  | error e =>
    rw [planRows_of_checkSupply_error settings supplied]
    exact Outcome.unsupplied supplied
  | ok report =>
    obtain ⟨allocations, derived, reported⟩ := checkSupply_eq_ok_iff.mp supplied
    have yields := yields_of_deriveAll derived
    have names := map_id_completed settings report yields
    rw [planRows_eq settings derived reported,
      checkOrder_actionsFor settings (literal_completed settings yields)]
    by_cases taken : settings.reserveId ∈ rows.map Row.id
    · rw [if_pos taken]
      exact Outcome.reserveTaken supplied taken
    · rw [if_neg taken]
      cases repeated : firstRepeated? []
          (actionsFor settings (completed allocations report settings).allocations) with
      | some a =>
        have first : (firstRepeated? [] (actionsFor settings
            (completed allocations report settings).allocations)).map Action.id = some a.id := by
          rw [repeated, Option.map_some]
        obtain ⟨before, after, split, distinct, -, again⟩ := firstRepeated?_id_eq_some_iff.mp first
        rw [names] at split
        refine Outcome.nameRepeated supplied taken split distinct ?_
        simpa using again
      | none =>
        have distinct := (firstRepeated?_eq_none_iff.mp repeated).1
        rw [names] at distinct
        exact Outcome.planned supplied taken distinct names rfl

example : planRows Denomination.standard
    [.pool ⟨"squiggle", "Team", Ratio.millionths 18000000, VestingSchedule.immediate⟩]
    Settings.standard = .error (.mismatch "squiggle" .duplicateAction) := by
  rfl

end Plan

end TokenPlan
