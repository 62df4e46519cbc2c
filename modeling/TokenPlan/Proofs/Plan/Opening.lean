import TokenPlan.Proofs.Plan.Solvency
import TokenPlan.Proofs.Table.Rereading

/-!
When the tiers of a sale open, as the sale contract is told. The first tier of a table opens at an
instant and every later one after the tier before it; the contract is told the seconds of the instant
for the one and zero for the others. At the epoch the two are the same: a first tier that opens then
is told to open after a tier that there is not.
-/

set_option autoImplicit false
set_option relaxedAutoImplicit false

namespace TokenPlan

/-- The value of a field of a structure, if it is an amount. -/
def Argument.uintAt? (field : String) : Argument → Option Amount
  | .tuple fields =>
    match Entries.get? field fields with
    | some (.uint value) => some value
    | _ => none
  | _ => none

namespace CompiledPlan

/-- What the creation of the sale contract is told about the tiers. -/
def offers? (p : CompiledPlan) : Option (List Argument) := do
  let saleId ← p.deployment.sale.action?
  let creation ← p.action? saleId
  match creation.operation with
  | .create _ [_, _, _, .array offers] => some offers
  | _ => none

/-- The times at which the tiers open, as the sale contract reads them. -/
def startTimes? (p : CompiledPlan) : Option (List Amount) := do
  let offers ← p.offers?
  offers.mapM (Argument.uintAt? "saleStartTime")

/-- The sale contract reads a time for the first tier and for no other. -/
def OpensInOrder (p : CompiledPlan) : Prop :=
  ∃ first later, p.startTimes? = some (first :: later) ∧ first ≠ Amount.zero ∧
    ∀ time ∈ later, time = Amount.zero

private theorem opensInOrder_iff {p : CompiledPlan} {first : Amount} {later : List Amount}
    (times : p.startTimes? = some (first :: later)) :
    p.OpensInOrder ↔ first ≠ Amount.zero ∧ ∀ time ∈ later, time = Amount.zero := by
  constructor
  · rintro ⟨first', later', times', opens⟩
    rw [times] at times'
    obtain ⟨rfl, rfl⟩ := List.cons.inj (Option.some.inj times')
    exact opens
  · exact fun opens => ⟨first, later, times, opens⟩

end CompiledPlan

private theorem Amount.ofWord_eq_zero_iff {word : UInt64} :
    Amount.ofWord word = Amount.zero ↔ word = 0 := by
  constructor
  · intro eq
    exact UInt64.toNat_inj.mp (congrArg Amount.toNat eq)
  · rintro rfl
    rfl

/-! ### What the sale contract reads -/

namespace Plan

theorem exists_offers? {d : Denomination} {rows : List Row} {settings : Settings}
    {allocations : List Allocation} (report : SupplyReport)
    (derived : deriveAll d rows = .ok allocations)
    (ordered : checkOrder (actionsFor settings (completed allocations report settings).allocations) =
      .ok ()) :
    ∃ offers, Offered d settings.saleId rows allocations offers ∧
      (planOf settings (completed allocations report settings)).offers? =
        some (offers.map Offer.argument) := by
  obtain ⟨offers, offered⟩ := exists_offered settings.saleId (forall₂_of_deriveAfter derived)
  refine ⟨offers, offered, ?_⟩
  have created : (planOf settings (completed allocations report settings)).action? settings.saleId =
      some (saleCreation settings (completed allocations report settings).allocations) :=
    action?_planOf settings ordered (saleCreation_mem settings _)
  have tiers : tierArguments (completed allocations report settings).allocations =
      offers.map Offer.argument :=
    (tierArguments_append_liquidity ..).trans offered.told
  change (CompiledPlan.action? _ settings.saleId >>= fun creation => _) = _
  rw [created, saleCreation, tiers]
  rfl

private theorem startTimes?_eq {d : Denomination} {rows : List Row} {settings : Settings}
    {allocations : List Allocation} {report : SupplyReport}
    (derived : deriveAll d rows = .ok allocations)
    (ordered : checkOrder (actionsFor settings (completed allocations report settings).allocations) =
      .ok ()) :
    (planOf settings (completed allocations report settings)).startTimes? =
      some ((Row.sales rows).map fun tier => Amount.ofWord tier.start.encoded) := by
  obtain ⟨offers, offered, told⟩ := exists_offers? report derived ordered
  rw [CompiledPlan.startTimes?, told, ← offered.declared, List.map_map]
  exact (List.mapM_map ..).trans (List.mapM_pure ..)

/--
The sale contract reads the instant of the first tier, and zero for every later tier; so it takes
the first tier for one that opens after another exactly where that instant is the epoch.
-/
theorem startTimes_of_planRows {d : Denomination} {rows : List Row} {settings : Settings}
    {p : CompiledPlan} {first : SaleRow} {later : List SaleRow}
    (planned : planRows d rows settings = .ok p) (tiers : Row.sales rows = first :: later) :
    ∃ second, first.start = .instant second ∧
      p.startTimes? = some (Amount.ofWord second :: later.map fun _ => Amount.zero) ∧
        (p.OpensInOrder ↔ second ≠ 0) := by
  obtain ⟨allocations, report, derived, -, -, ordered, rfl⟩ := planRows_eq_ok_iff.mp planned
  have starts := startsInOrder_of_deriveAfter derived
  have times := startTimes?_eq derived ordered
  rw [tiers] at starts times
  obtain ⟨second, start⟩ := starts.exists_instant
  have zeros : (later.map fun tier => Amount.ofWord tier.start.encoded) =
      later.map fun _ => Amount.zero := by
    apply List.map_congr_left
    intro tier mem
    rw [starts.2.afterPrevious tier mem]
    rfl
  rw [List.map_cons, start, zeros] at times
  refine ⟨second, start, times, ?_⟩
  rw [CompiledPlan.opensInOrder_iff times]
  simp [SaleStart.encoded, Amount.ofWord_eq_zero_iff]

theorem startTimes_mixedRows :
    ∃ p, planRows thousand mixedRows Settings.standard = .ok p ∧
      p.startTimes? = some [Amount.ofWord 1717170214, Amount.zero] ∧ p.OpensInOrder := by
  obtain ⟨p, planned⟩ := isOk_iff.mp
    (show (planRows thousand mixedRows Settings.standard).isOk = true by decide +kernel)
  obtain ⟨second, start, times, opens⟩ := startTimes_of_planRows planned rfl
  cases start
  exact ⟨p, planned, times, opens.mpr (by decide)⟩

/-- A first tier that opens at the epoch is told to open after the tier before it. -/
theorem not_opensInOrder_of_epoch :
    ∃ p, planText thousand (tableOf "1970-01-01") Settings.standard = .ok p ∧
      p.startTimes? = some [Amount.zero] ∧ ¬ p.OpensInOrder := by
  obtain ⟨rows, read, sales, accepted⟩ :
      ∃ rows, readTable (tableOf "1970-01-01") = .ok rows ∧
        (Row.sales rows).map (fun tier => Amount.ofWord tier.start.encoded) = [Amount.zero] ∧
          (planRows thousand rows Settings.standard).isOk = true :=
    ⟨_, (readTable_pretty _).trans rfl, by decide +kernel, by decide +kernel⟩
  obtain ⟨p, planned⟩ := isOk_iff.mp accepted
  refine ⟨p, ?_, ?_⟩
  · rw [planText, read]
    change (planRows thousand rows Settings.standard).mapError TextError.plan = .ok p
    rw [planned]
    rfl
  · obtain ⟨allocations, report, derived, -, -, ordered, rfl⟩ := planRows_eq_ok_iff.mp planned
    have times := startTimes?_eq derived ordered
    rw [sales] at times
    refine ⟨times, ?_⟩
    rw [CompiledPlan.opensInOrder_iff times]
    exact fun opens => opens.1 rfl

end Plan

end TokenPlan
