import TokenPlan.Plan.Planning
import TokenPlan.Proofs.Allocation.Derivation
import TokenPlan.Proofs.Supply.Obligation

/-!
What rounding costs. Each percentage of a table is rounded down to base units on its own, so that
the rows together miss their percentages by less than a base unit each. A row that withholds one
percentage of another may also gain a base unit, since the withheld part is rounded down too.
-/

set_option autoImplicit false
set_option relaxedAutoImplicit false

namespace TokenPlan

/-- The steps of a percentage that make up a whole supply. -/
def wholeSteps : Nat := 100 * percentSteps

/-- The steps of the supply that a share asks for; those that are withheld count against it. -/
def Share.steps : Share → Except UnitError Int
  | .percent share => do
    let steps ← share.quantize percentSteps
    return (steps : Int)
  | .net gross withheld => do
    let gross ← gross.quantize percentSteps
    let withheld ← withheld.quantize percentSteps
    return (gross : Int) - withheld
  | .exact _ => .ok 0

/-- The base units that a share asks for by their number. -/
def Share.exactTokens : Share → Nat
  | .exact amount => amount.toNat
  | _ => 0

/-- The share is a percentage or a difference of two. -/
def Share.isRounded : Share → Bool
  | .exact _ => false
  | _ => true

def Share.isNet : Share → Bool
  | .net _ _ => true
  | _ => false

/-- What a row takes of the supply: a tier its target, a pool its percentage. -/
def Row.share : Row → Share
  | .sale row => .percent row.target
  | .pool row => .percent row.percent
  | .account row => row.share

/-- The steps of the supply that all rows of a table ask for. -/
def stepsOf : List Row → Except UnitError Int
  | [] => .ok 0
  | row :: rows => do
    let first ← row.share.steps
    let others ← stepsOf rows
    return first + others

def exactOf (rows : List Row) : Nat :=
  (rows.map fun row => row.share.exactTokens).sum

def roundedRows (rows : List Row) : Nat :=
  rows.countP fun row => row.share.isRounded

def netRows (rows : List Row) : Nat :=
  rows.countP fun row => row.share.isNet

/-! ### One row -/

/-- A percentage of a total is its quantized steps of it, less what is rounded off. -/
theorem Amount.percentOf_eq_ok_iff {total amount : Amount} {percent : Ratio} :
    total.percentOf percent = .ok amount ↔
      ∃ steps, percent.quantize percentSteps = .ok steps ∧ total.toNat * steps < 2 ^ 256 ∧
        total.toNat * steps / wholeSteps = amount.toNat := by
  simp only [Amount.percentOf, bind_eq_ok_iff, require_eq_ok_iff, Amount.ofNat?_eq_some_iff]
  constructor
  · rintro ⟨steps, quantized, scaled, product, done⟩
    cases done
    refine ⟨steps, quantized, product ▸ scaled.isLt, ?_⟩
    rw [product]
    rfl
  · rintro ⟨steps, quantized, fits, quotient⟩
    refine ⟨steps, quantized, ⟨total.toNat * steps, fits⟩, rfl, ?_⟩
    exact congrArg Except.ok (Amount.ext quotient)

/--
What is owed, counted in steps, lies at most `lost` base units below what is asked for and at most
`won` base units above it.
-/
structure Rounds (supply : Nat) (steps : Int) (exact lost won owed : Nat) : Prop where
  below : supply * steps + exact * wholeSteps - lost * wholeSteps ≤ (owed * wholeSteps : Int)
  above : (owed * wholeSteps : Int) ≤ supply * steps + exact * wholeSteps + won * wholeSteps

private theorem Rounds.zero (supply : Nat) : Rounds supply 0 0 0 0 0 := by
  constructor <;> simp

private theorem Rounds.add {supply : Nat} {steps steps' : Int}
    {exact exact' lost lost' won won' owed owed' : Nat}
    (first : Rounds supply steps exact lost won owed)
    (rest : Rounds supply steps' exact' lost' won' owed') :
    Rounds supply (steps + steps') (exact + exact') (lost + lost') (won + won') (owed + owed') := by
  obtain ⟨below, above⟩ := first
  obtain ⟨below', above'⟩ := rest
  constructor
  · simp only [Int.natCast_add, Int.add_mul, Int.mul_add]
    omega
  · simp only [Int.natCast_add, Int.add_mul, Int.mul_add]
    omega

theorem quotient_bounds {scaled quotient : Nat} (given : scaled / wholeSteps = quotient) :
    quotient * wholeSteps ≤ scaled ∧ scaled < quotient * wholeSteps + wholeSteps := by
  rw [← given]
  exact ⟨Nat.div_mul_le_self scaled wholeSteps, Nat.lt_div_mul_add (by decide)⟩

private theorem Share.rounds_of_tokens {d : Denomination} {share : Share} {amount : Amount}
    (given : share.tokens d = .ok amount) :
    ∃ steps, share.steps = .ok steps ∧
      Rounds d.supply.toNat steps share.exactTokens share.isRounded.toNat share.isNet.toNat
        amount.toNat := by
  cases share with
  | percent share =>
    obtain ⟨steps, quantized, -, quotient⟩ := Amount.percentOf_eq_ok_iff.mp given
    obtain ⟨low, high⟩ := quotient_bounds quotient
    refine ⟨steps, ?_, ?_⟩
    · rw [Share.steps, quantized]
      rfl
    · have product : (d.supply.toNat : Int) * (steps : Int) = (d.supply.toNat * steps : Nat) :=
        (Int.natCast_mul _ _).symm
      constructor <;> simp only [exactTokens, isRounded, isNet, Bool.toNat_true, Bool.toNat_false,
        product] <;> omega
  | net gross withheld =>
    obtain ⟨paid, paid_given, rest⟩ := bind_eq_ok_iff.mp given
    obtain ⟨kept, kept_given, difference⟩ := bind_eq_ok_iff.mp rest
    obtain ⟨steps, quantized, -, quotient⟩ := Amount.percentOf_eq_ok_iff.mp paid_given
    obtain ⟨steps', quantized', -, quotient'⟩ := Amount.percentOf_eq_ok_iff.mp kept_given
    obtain ⟨low, high⟩ := quotient_bounds quotient
    obtain ⟨low', high'⟩ := quotient_bounds quotient'
    have apart : kept.toNat + amount.toNat = paid.toNat := by
      rwa [require_eq_ok_iff, Amount.sub?_eq_some_iff] at difference
    have scaled : kept.toNat * wholeSteps + amount.toNat * wholeSteps =
        paid.toNat * wholeSteps := by
      rw [← Nat.add_mul, apart]
    refine ⟨(steps : Int) - steps', ?_, ?_⟩
    · rw [Share.steps, quantized, quantized']
      rfl
    · have product : (d.supply.toNat : Int) * ((steps : Int) - steps') =
          (d.supply.toNat * steps : Nat) - (d.supply.toNat * steps' : Nat) := by
        rw [Int.mul_sub, Int.natCast_mul, Int.natCast_mul]
      constructor <;> simp only [exactTokens, isRounded, isNet, Bool.toNat_true, product] <;> omega
  | exact amount =>
    cases given
    refine ⟨0, rfl, ?_⟩
    constructor <;> simp [exactTokens, isRounded, isNet]

private theorem Row.tokens_of_derive {d : Denomination} {row : Row} {a : Allocation}
    (derived : row.derive d = .ok a) :
    ∃ amount, row.share.tokens d = .ok amount ∧ amount.toNat = a.owed := by
  cases row with
  | sale row =>
    obtain ⟨tokens, tier, comes, rfl⟩ := SaleRow.derive_eq_ok_iff.mp derived
    exact ⟨tier.maximum, comes.maximum, comes.exhausted.symm⟩
  | pool row =>
    simp only [Row.derive, PoolRow.derive, bind_eq_ok_iff, inRow, mapError_eq_ok_iff] at derived
    obtain ⟨-, -, tokens, given, done⟩ := derived
    cases done
    exact ⟨tokens, given, rfl⟩
  | account row =>
    simp only [Row.derive, AccountRow.derive, bind_eq_ok_iff, inRow, mapError_eq_ok_iff] at derived
    obtain ⟨tokens, given, done⟩ := derived
    cases done
    exact ⟨tokens, given, rfl⟩

/-! ### All rows -/

private theorem exactOf_cons (row : Row) (rows : List Row) :
    exactOf (row :: rows) = row.share.exactTokens + exactOf rows := by
  simp [exactOf]

private theorem roundedRows_cons (row : Row) (rows : List Row) :
    roundedRows (row :: rows) = row.share.isRounded.toNat + roundedRows rows := by
  cases rounded : row.share.isRounded <;> simp [roundedRows, rounded, Nat.add_comm]

private theorem netRows_cons (row : Row) (rows : List Row) :
    netRows (row :: rows) = row.share.isNet.toNat + netRows rows := by
  cases net : row.share.isNet <;> simp [netRows, net, Nat.add_comm]

private theorem rounds_of_forall₂ {d : Denomination} {rows : List Row}
    {allocations : List Allocation}
    (derived : List.Forall₂ (fun row a => Row.derive row d = .ok a) rows allocations) :
    ∃ steps, stepsOf rows = .ok steps ∧
      Rounds d.supply.toNat steps (exactOf rows) (roundedRows rows) (netRows rows)
        (owedBy allocations) := by
  induction derived with
  | nil => exact ⟨0, rfl, Rounds.zero _⟩
  | cons single _ ih =>
    obtain ⟨others, others_asked, others_near⟩ := ih
    obtain ⟨amount, given, owed⟩ := Row.tokens_of_derive single
    obtain ⟨first, first_asked, first_near⟩ := Share.rounds_of_tokens given
    refine ⟨first + others, ?_, ?_⟩
    · rw [stepsOf, first_asked, others_asked]
      rfl
    · rw [exactOf_cons, roundedRows_cons, netRows_cons, owedBy_cons, ← owed]
      exact first_near.add others_near

/--
The obligations of a table miss what its rows ask for by at most a base unit for each percentage,
and exceed it by at most one for each row that withholds a part. So percentages below the whole
leave something of a supply, and those that reach it with a base unit to spare for each row do not.
-/
theorem rounds_of_deriveAll {d : Denomination} {rows : List Row} {allocations : List Allocation}
    (derived : deriveAll d rows = .ok allocations) :
    ∃ steps, stepsOf rows = .ok steps ∧
      Rounds d.supply.toNat steps (exactOf rows) (roundedRows rows) (netRows rows)
        (owedBy allocations) ∧
      (netRows rows = 0 → exactOf rows = 0 → 0 < d.supply.toNat → steps < wholeSteps →
        ∃ report, checkSupply d rows = .ok report) ∧
      (((d.supply.toNat + roundedRows rows) * wholeSteps : Int) ≤
          d.supply.toNat * steps + exactOf rows * wholeSteps →
        checkSupply d rows = .error (.supplyExceeded d.supply
          ((Amount.ofNat? (owedBy allocations)).getD Amount.largest))) := by
  obtain ⟨steps, asked, near⟩ := rounds_of_forall₂ (forall₂_of_deriveAfter derived)
  have checked : checkSupply d rows = reportSupply allocations d.supply := by
    simp [checkSupply, derived, ofTable]
  have whole_pos : (0 : Int) < wholeSteps := by decide
  refine ⟨steps, asked, near, ?_, ?_⟩
  · intro no_net no_exact positive partial_steps
    rw [checked]
    apply exists_reportSupply
    have below : (owedBy allocations * wholeSteps : Int) ≤ d.supply.toNat * steps := by
      simpa [no_net, no_exact] using near.above
    have product : (d.supply.toNat * steps : Int) < d.supply.toNat * wholeSteps :=
      Int.mul_lt_mul_of_pos_left partial_steps (by omega)
    have scaled : (owedBy allocations : Int) < d.supply.toNat :=
      Int.lt_of_mul_lt_mul_right (by omega) (Int.le_of_lt whole_pos)
    exact Int.ofNat_lt.mp scaled
  · intro reached
    rw [checked]
    apply reportSupply_of_le
    have above := near.below
    rw [Int.add_mul] at reached
    have scaled : (d.supply.toNat : Int) ≤ owedBy allocations :=
      Int.le_of_mul_le_mul_right (by omega) whole_pos
    exact Int.ofNat_le.mp scaled

/-- A supply of a thousand base units. -/
def thousand : Denomination :=
  { Denomination.standard with supply := Amount.ofWord 1000 }

/-- A pool that takes so many millionths of a percent of the supply. -/
def poolOf (millionths : UInt32) : Row :=
  .pool ⟨"team", "Team", Ratio.millionths millionths, VestingSchedule.immediate⟩

/-- A tier that takes so many millionths of a percent and pays a tenth of what is sold back. -/
def tierOf (id : String) (start : SaleStart) (millionths : UInt32) : Row :=
  .sale
    { id := id
      name := "Tier"
      cooldown := 0
      start := start
      price := Ratio.millionths 34
      target := Ratio.millionths millionths
      minimum := 0
      affiliateRate := 100000
      vesting := VestingSchedule.immediate }

/-- Two tiers, a pool and an account of each kind; the one that withholds gains half a unit. -/
def mixedRows : List Row :=
  [tierOf "first" (.instant 1717170214) 1000000, poolOf 18000000,
    .account ⟨"cex", Address.zero, .percent (Ratio.millionths 500000)⟩,
    tierOf "second" .afterPrevious 2000000,
    .account ⟨"market", Address.zero, .net (Ratio.millionths 6000000) (Ratio.millionths 750000)⟩,
    .account ⟨"treasury", Address.zero, .exact (Amount.ofWord 7)⟩]

theorem rounds_thousand :
    (∃ allocations, deriveAll thousand mixedRows = .ok allocations ∧
      Rounds 1000 2675000000 7 5 1 (owedBy allocations)) ∧
    (∃ report, checkSupply thousand [poolOf 99999999] = .ok report) ∧
    checkSupply thousand [poolOf 100100000] =
      .error (.supplyExceeded thousand.supply (Amount.ofWord 1001)) := by
  refine ⟨?_, ?_, ?_⟩
  · have derived : ∃ allocations, deriveAll thousand mixedRows = .ok allocations := ⟨_, rfl⟩
    obtain ⟨allocations, derived⟩ := derived
    obtain ⟨steps, asked, near, -⟩ := rounds_of_deriveAll derived
    have exactly : stepsOf mixedRows = .ok 2675000000 := by decide +kernel
    obtain rfl := Except.ok.inj (exactly.symm.trans asked)
    exact ⟨allocations, derived, near⟩
  · have derived : ∃ allocations, deriveAll thousand [poolOf 99999999] = .ok allocations := ⟨_, rfl⟩
    obtain ⟨allocations, derived⟩ := derived
    obtain ⟨steps, asked, -, reported, -⟩ := rounds_of_deriveAll derived
    have exactly : stepsOf [poolOf 99999999] = .ok 9999999900 := by decide +kernel
    obtain rfl := Except.ok.inj (exactly.symm.trans asked)
    exact reported rfl rfl (by decide) (by decide)
  · obtain ⟨steps, asked, -, -, refused⟩ :=
      rounds_of_deriveAll (rfl : deriveAll thousand [poolOf 100100000] = .ok _)
    have exactly : stepsOf [poolOf 100100000] = .ok 10010000000 := by decide +kernel
    obtain rfl := Except.ok.inj (exactly.symm.trans asked)
    exact refused (by decide)

end TokenPlan
