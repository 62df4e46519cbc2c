import TokenPlan.Proofs.Plan.Journal

/-!
What is left of a plan and what its deployment resolves to, told from the steps of a journal alone.
The actions are gone through in one order and the deployment in another, and both agree on what is
missing: a deployment resolves exactly where no contract is left to create.
-/

set_option autoImplicit false
set_option relaxedAutoImplicit false

namespace TokenPlan

def Target.account? : Target → Option Address
  | .account address => some address
  | .action _ => none

/-- The address of an owner, going by the steps. -/
def Target.settled? (steps : List Step) : Target → Option Address
  | .account address => some address
  | .action id => recorded? steps id

/-- Where an allocation ends up: at the sale contract, at its own contract or at an account. -/
def Allocation.settled? (steps : List Step) (saleId : ActionId) (a : Allocation) :
    Option Address :=
  match a.kind with
  | .saleTier _ => recorded? steps saleId
  | .liquidityReserve => recorded? steps saleId
  | .vestingPool _ => recorded? steps a.id
  | .directAccount => a.target.bind Target.account?

/-- Where the allocation of a row ends up. -/
def Row.settled? (steps : List Step) (saleId : ActionId) : Row → Option Address
  | .sale _ => recorded? steps saleId
  | .pool row => recorded? steps row.id
  | .account row => some row.address

private theorem Target.address?_replay {ρ : Type} [Journal ρ] (steps : List Step)
    (target : Target) :
    target.address? (Journal.replay ρ steps) = target.settled? steps := by
  cases target with
  | account address => rfl
  | action id => exact Journal.addressOf_replay steps id

namespace Plan

/-- The contracts that a plan creates, in the order in which a deployment asks for them. -/
def creationOrder (settings : Settings) (rows : List Row) : List ActionId :=
  settings.tokenId :: settings.saleId :: (assetNames settings.paymentAsset ++ Row.poolIds rows)

/-! ### The owners of allocations -/

theorem targetsOf_eq (saleId : ActionId) {allocations : List Allocation}
    (distinct : (allocations.map Allocation.id).Nodup) :
    targetsOf saleId allocations = allocations.map fun a => (a.id, a.owner saleId) := by
  -- After any entries with other names, as every allocation adds one.
  have folded : ∀ (before : List (String × Target)) (rest : List Allocation),
      (before.map Prod.fst ++ rest.map Allocation.id).Nodup →
        rest.foldl (fun targets a => Entries.set a.id (a.owner saleId) targets) before =
          before ++ rest.map fun a => (a.id, a.owner saleId) := by
    intro before rest
    induction rest generalizing before with
    | nil => simp
    | cons a rest ih =>
      intro names
      have fresh : a.id ∉ before.map Prod.fst :=
        fun mem => (List.nodup_append.mp names).2.2 a.id mem a.id List.mem_cons_self rfl
      rw [List.foldl_cons, Entries.set_of_not_mem _ fresh, ih]
      · simp
      · simpa using names
  exact folded [] allocations distinct

private theorem settled?_owner {saleId : ActionId} (steps : List Step) {a : Allocation}
    (literal : a.kind = .directAccount → ∃ address, a.target = some (.account address)) :
    (a.owner saleId).settled? steps = (a.bound saleId).settled? steps saleId := by
  obtain ⟨id, tokens, kind, target⟩ := a
  cases kind with
  | saleTier tier => rfl
  | liquidityReserve => rfl
  | vestingPool pool => rfl
  | directAccount =>
    obtain ⟨address, rfl⟩ := literal rfl
    rfl

private theorem settled?_of_yields {saleId : ActionId} (steps : List Step) {rows : List Row}
    {allocations : List Allocation} (yields : List.Forall₂ Row.Yields rows allocations) :
    allocations.map (fun a => (a.id, (a.bound saleId).settled? steps saleId)) =
      rows.map fun row => (row.id, row.settled? steps saleId) := by
  induction yields with
  | nil => rfl
  | cons first rest ih =>
    rw [List.map_cons, List.map_cons, ih]
    cases first <;> rfl

/-! ### The first that is missing -/

section Missing

variable {ρ : Type} [Progress ρ] {results : ρ}

private theorem firstUnknown?_action {id : ActionId} {rest : List (String × Target)}
    {ids : List ActionId}
    (others : Progress.isComplete results id = true →
      Deployment.firstUnknown? results rest = ids.find? fun id => !Progress.isComplete results id) :
    Deployment.firstUnknown? results ((id, .action id) :: rest) =
      (id :: ids).find? fun id => !Progress.isComplete results id := by
  rw [Deployment.firstUnknown?_cons, Target.address?, List.find?_cons, ← Option.not_isSome]
  change (if (!Progress.isComplete results id) = true then _ else _) = _
  cases complete : Progress.isComplete results id with
  | false => rfl
  | true => exact others complete

private theorem firstUnknown?_owners {saleId : ActionId} {allocations : List Allocation}
    (literal : Literal allocations) (sold : Progress.isComplete results saleId = true) :
    Deployment.firstUnknown? results (allocations.map fun a => (a.id, a.owner saleId)) =
      (poolIdsOf allocations).find? fun id => !Progress.isComplete results id := by
  have sale_known : ¬ ((Target.action saleId).address? results).isNone = true := by
    rw [Bool.not_eq_true, Option.isNone_eq_false_iff]
    exact sold
  induction allocations with
  | nil => rfl
  | cons a rest ih =>
    have literal_first := literal a List.mem_cons_self
    have others := ih fun b mem => literal b (List.mem_cons_of_mem a mem)
    obtain ⟨id, tokens, kind, target⟩ := a
    cases kind with
    | saleTier tier =>
      rw [List.map_cons, Deployment.firstUnknown?_cons, others]
      exact if_neg sale_known
    | liquidityReserve =>
      rw [List.map_cons, Deployment.firstUnknown?_cons, others]
      exact if_neg sale_known
    | vestingPool pool => exact firstUnknown?_action fun _ => others
    | directAccount =>
      obtain ⟨address, rfl⟩ := literal_first rfl
      rw [List.map_cons, Deployment.firstUnknown?_cons, others]
      rfl

private theorem firstUnknown?_references (results : ρ) {rows : List Row} (settings : Settings)
    {d : Distribution} (literal : Literal d.allocations)
    (distinct : (d.allocations.map Allocation.id).Nodup)
    (pools : poolIdsOf d.allocations = Row.poolIds rows) :
    Deployment.firstUnknown? results (planOf settings d).deployment.references =
      (creationOrder settings rows).find? fun id => !Progress.isComplete results id := by
  change Deployment.firstUnknown? results ((settings.tokenId, .action settings.tokenId) ::
    (settings.saleId, .action settings.saleId) ::
      (settings.paymentAsset.owner.label, settings.paymentAsset.owner) ::
        targetsOf settings.saleId d.allocations) = _
  rw [targetsOf_eq settings.saleId distinct, creationOrder, ← pools]
  apply firstUnknown?_action
  intro _
  apply firstUnknown?_action
  -- Allocations are asked for last: what is missing to a tier has been reported by now.
  intro sold
  have owners := firstUnknown?_owners literal sold
  cases settings.paymentAsset with
  | deploy contract => exact firstUnknown?_action fun _ => owners
  | existing address => exact owners

end Missing

private theorem creationOrder_perm {rows : List Row} (settings : Settings)
    {allocations : List Allocation}
    (pools : poolIdsOf allocations = Row.poolIds rows) :
    (creationOrder settings rows).Perm (created (actionsFor settings allocations)) := by
  have asset : assetNames settings.paymentAsset = settings.paymentAsset.owner.action?.toList := by
    cases settings.paymentAsset <;> rfl
  rw [created_actionsFor, ← asset, pools, creationOrder]
  generalize assetNames settings.paymentAsset = assets
  have sale : (settings.saleId :: (assets ++ Row.poolIds rows)).Perm
      (assets ++ settings.saleId :: Row.poolIds rows) := List.perm_middle.symm
  have token : (settings.tokenId :: (assets ++ settings.saleId :: Row.poolIds rows)).Perm
      (assets ++ settings.saleId :: Row.poolIds rows ++ [settings.tokenId]) :=
    (List.perm_append_singleton _ _).symm
  simpa using (sale.cons settings.tokenId).trans token

private theorem pending_isCreate_iff {ρ : Type} [Progress ρ] {results : ρ} {actions : List Action} :
    (∀ a ∈ Progress.pending results actions, a.isCreate = false) ↔
      ∀ id ∈ created actions, Progress.isComplete results id = true := by
  simp only [Progress.pending, created, List.mem_filter, List.forall_mem_map]
  constructor
  · rintro called a ⟨mem, creates⟩
    by_contra incomplete
    have call := called a ⟨mem, by simpa using incomplete⟩
    rw [creates] at call
    cases call
  · rintro complete a ⟨mem, incomplete⟩
    by_contra creates
    have done := complete a ⟨mem, by simpa using creates⟩
    rw [done] at incomplete
    cases incomplete

end Plan

/--
After steps of a journal, with `results` the record that they leave: what is pending, whether the
deployment resolves, what is reported where it does not, and all addresses where it does.
-/
structure CompiledPlan.Settles {ρ : Type} [Progress ρ] (p : CompiledPlan) (rows : List Row)
    (settings : Settings) (steps : List Step) (results : ρ) : Prop where
  pending : p.pending results = p.actions.filter fun a => (recorded? steps a.id).isNone
  creations : (Plan.creationOrder settings rows).Perm (Plan.created p.actions)
  resolves : (∃ r, p.deployment.resolve results = .ok r) ↔
    ∀ a ∈ p.pending results, a.isCreate = false
  refused : ∀ e, p.deployment.resolve results = .error e ↔
    ∃ id, (Plan.creationOrder settings rows).find? (fun id => (recorded? steps id).isNone) =
      some id ∧ e = .unresolved id
  contracts : ∀ r, p.deployment.resolve results = .ok r →
    recorded? steps settings.tokenId = some r.token ∧
      recorded? steps settings.saleId = some r.sale ∧
        settings.paymentAsset.owner.settled? steps = some r.paymentAsset
  allocations : ∀ r, p.deployment.resolve results = .ok r →
    r.allocations.map (fun entry => (entry.1, some entry.2)) =
      p.allocations.map fun a => (a.id, a.settled? steps settings.saleId)
  declared : p.allocations.map (fun a => (a.id, a.settled? steps settings.saleId)) =
    rows.map (fun row => (row.id, row.settled? steps settings.saleId)) ++
      [(settings.reserveId, recorded? steps settings.saleId)]

namespace Plan

private theorem settles_replay (ρ : Type) [Journal ρ] {d : Denomination} {rows : List Row}
    {settings : Settings} {p : CompiledPlan} (planned : planRows d rows settings = .ok p)
    (steps : List Step) : p.Settles rows settings steps (Journal.replay ρ steps) := by
  obtain ⟨allocations, report, derived, -, free, -, rfl⟩ := planRows_eq_ok_iff.mp planned
  have yields := yields_of_deriveAll derived
  have literal : Literal (completed allocations report settings).allocations :=
    literal_completed settings yields
  have distinct := nodup_completed report derived free
  have pools := poolIdsOf_completed settings report yields
  have missing := firstUnknown?_references (Journal.replay ρ steps) settings literal distinct pools
  have same : (fun id => !Progress.isComplete (Journal.replay ρ steps) id) =
      fun id => (recorded? steps id).isNone := by
    funext id
    rw [Journal.isComplete_replay, Option.not_isSome]
  constructor
  case pending =>
    apply List.filter_congr
    intro a _
    exact congrFun same a.id
  case creations => exact creationOrder_perm settings pools
  case resolves =>
    have asked : ∀ id, id ∈ created (actionsFor settings _) ↔ id ∈ creationOrder settings rows :=
      fun id => (creationOrder_perm settings pools).mem_iff.symm
    rw [Deployment.exists_resolve_iff_firstUnknown?, missing, List.find?_eq_none]
    refine Iff.trans ?_ pending_isCreate_iff.symm
    simp only [planOf, asked, Bool.not_eq_true, Bool.not_eq_false']
  case refused =>
    intro e
    rw [Deployment.resolve_eq_error_iff, missing, same]
  case contracts =>
    intro r resolved
    obtain ⟨token, sale, asset, -⟩ := Deployment.resolve_eq_ok_iff.mp resolved
    rw [Target.address?_replay] at token sale asset
    exact ⟨token, sale, asset⟩
  case allocations =>
    intro r resolved
    obtain ⟨-, -, -, owners⟩ := Deployment.resolve_eq_ok_iff.mp resolved
    rw [owners, planOf, targetsOf_eq settings.saleId distinct, List.map_map, List.map_map]
    apply List.map_congr_left
    intro a mem
    simp only [Function.comp_apply, Target.address?_replay, Allocation.bound_id,
      settled?_owner steps (literal a mem)]
  case declared =>
    rw [allocations_planOf_completed, List.map_append, List.map_map,
      ← settled?_of_yields steps yields]
    simp only [Function.comp_def, Allocation.bound_id]
    rfl

/--
A plan and its deployment answer by the last step about each action, and a hash map and a tree map
of results that went through the same steps give the same answers.
-/
theorem settles_of_planRows {d : Denomination} {rows : List Row} {settings : Settings}
    {p : CompiledPlan} (planned : planRows d rows settings = .ok p) (steps : List Step) :
    let hashed := Journal.replay (Std.HashMap ActionId Address) steps
    let sorted := Journal.replay (Std.TreeMap ActionId Address) steps
    p.Settles rows settings steps hashed ∧ p.Settles rows settings steps sorted ∧
      p.pending hashed = p.pending sorted ∧
        p.deployment.resolve hashed = p.deployment.resolve sorted := by
  intro hashed sorted
  have hashed_settles := settles_replay (Std.HashMap ActionId Address) planned steps
  have sorted_settles := settles_replay (Std.TreeMap ActionId Address) planned steps
  refine ⟨hashed_settles, sorted_settles, ?_, ?_⟩
  · rw [hashed_settles.pending, sorted_settles.pending]
  · apply Deployment.resolve_congr
    intro id
    rw [Journal.addressOf_replay, Journal.addressOf_replay]

theorem settles_poolAndAccount :
    ∃ p, planRows Denomination.standard poolAndAccount Settings.standard = .ok p ∧
      let steps : List Step := [.record "SaleContract" Address.zero, .record "team" Address.zero,
        .record "squiggle" Address.zero, .forget "team", .record "USDT" Address.zero,
          .record "team" Address.zero]
      let hashed := Journal.replay (Std.HashMap ActionId Address) steps
      let sorted := Journal.replay (Std.TreeMap ActionId Address) steps
      (p.Settles poolAndAccount Settings.standard steps hashed ∧
        p.Settles poolAndAccount Settings.standard steps sorted ∧
          p.pending hashed = p.pending sorted ∧
            p.deployment.resolve hashed = p.deployment.resolve sorted) ∧
        ∃ r, p.deployment.resolve hashed = .ok r := by
  obtain ⟨p, planned⟩ : ∃ p, planRows Denomination.standard poolAndAccount Settings.standard =
      .ok p := ⟨_, rfl⟩
  refine ⟨p, planned, ?_⟩
  intro steps hashed sorted
  have settles := settles_of_planRows planned steps
  refine ⟨settles, ?_⟩
  cases resolved : p.deployment.resolve hashed with
  | ok r => exact ⟨r, rfl⟩
  | error e =>
    obtain ⟨id, missing, -⟩ := (settles.1.refused e).mp resolved
    have none_missing : (creationOrder Settings.standard poolAndAccount).find?
        (fun id => (recorded? steps id).isNone) = none := by decide +kernel
    rw [none_missing] at missing
    cases missing

end Plan

end TokenPlan
