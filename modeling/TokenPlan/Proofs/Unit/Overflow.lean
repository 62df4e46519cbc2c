import TokenPlan.Unit.Denomination

/-!
What can go wrong in a conversion: a number on the way is too large, and nothing else.
-/

set_option autoImplicit false
set_option relaxedAutoImplicit false

namespace TokenPlan

/-- If a conversion fails, then because a number is too large. -/
def OnlyOverflows {α : Type} (result : Except UnitError α) : Prop :=
  ∀ e, result = .error e → e = .overflow

namespace OnlyOverflows

private theorem ok {α : Type} (value : α) : OnlyOverflows (.ok value) :=
  nofun

private theorem require {α : Type} (value? : Option α) :
    OnlyOverflows (TokenPlan.require .overflow value?) := by
  intro e failed
  exact (require_eq_error_iff.mp failed).2.symm

private theorem bind {α β : Type} {first : Except UnitError α} {next : α → Except UnitError β}
    (first_only : OnlyOverflows first) (next_only : ∀ value, OnlyOverflows (next value)) :
    OnlyOverflows (first >>= next) := by
  intro e failed
  rcases bind_eq_error_iff.mp failed with failed | ⟨value, -, failed⟩
  · exact first_only e failed
  · exact next_only value e failed

theorem eq_overflow {α : Type} {result : Except UnitError α} (only : OnlyOverflows result)
    (refused : ∀ value, result ≠ .ok value) : result = .error .overflow := by
  cases result with
  | error e => rw [only e rfl]
  | ok value => exact absurd rfl (refused value)

theorem quantize (x : Ratio) (scale : Nat) : OnlyOverflows (x.quantize scale) :=
  (require _).bind fun _ => (require _).bind fun _ => (require _).bind fun _ =>
    (require _).bind fun _ => ok _

theorem percentOf (total : Amount) (percent : Ratio) : OnlyOverflows (total.percentOf percent) :=
  (quantize percent percentSteps).bind fun _ => (require _).bind fun _ => ok _

theorem ofDollars (dollars : Ratio) (decimals : Nat) :
    OnlyOverflows (Amount.ofDollars dollars decimals) :=
  (quantize dollars dollarSteps).bind fun _ => (require _).bind fun _ =>
    (require _).bind fun _ => ok _

theorem wholeTokens (d : Denomination) (count : Nat) : OnlyOverflows (d.wholeTokens count) :=
  (require _).bind fun _ => require _

theorem netOfAffiliate (target : Ratio) (rate : UInt64) :
    OnlyOverflows (TokenPlan.netOfAffiliate target rate) :=
  require _

end OnlyOverflows

end TokenPlan
