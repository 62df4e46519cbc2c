/-!
Why a literal or an amount cannot be converted.
-/

set_option autoImplicit false
set_option relaxedAutoImplicit false

namespace TokenPlan

/-- The causes for which a conversion fails; a text that cannot be read is kept as it was given. -/
inductive UnitError where
  | invalidDate (text : String)
  | invalidDecimal (text : String)
  | invalidAddress (text : String)
  | overflow
  | underflow
  | divisionByZero
deriving DecidableEq, Repr

def UnitError.message : UnitError → String
  | .invalidDate text => "invalid date: " ++ text
  | .invalidDecimal text => "invalid decimal literal: " ++ text
  | .invalidAddress text => "invalid address: " ++ text
  | .overflow => "arithmetic overflow"
  | .underflow => "arithmetic underflow"
  | .divisionByZero => "division by zero"

/-- The value, or the given error where there is none. -/
def require {ε α : Type} (error : ε) : Option α → Except ε α
  | some value => .ok value
  | none => .error error

@[simp] theorem require_eq_ok_iff {ε α : Type} {error : ε} {value? : Option α} {value : α} :
    require error value? = .ok value ↔ value? = some value := by
  cases value? <;> simp [require]

@[simp] theorem require_eq_error_iff {ε α : Type} {error other : ε} {value? : Option α} :
    require error value? = .error other ↔ value? = none ∧ error = other := by
  cases value? <;> simp [require]

@[simp] theorem ok_bind {ε α β : Type} (value : α) (next : α → Except ε β) :
    (Except.ok value >>= next) = next value := rfl

@[simp] theorem error_bind {ε α β : Type} (error : ε) (next : α → Except ε β) :
    (Except.error error >>= next) = .error error := rfl

theorem bind_eq_ok_iff {ε α β : Type} {first : Except ε α} {next : α → Except ε β} {result : β} :
    first >>= next = .ok result ↔ ∃ value, first = .ok value ∧ next value = .ok result := by
  cases first <;> simp

theorem bind_eq_error_iff {ε α β : Type} {first : Except ε α} {next : α → Except ε β} {error : ε} :
    first >>= next = .error error ↔
      first = .error error ∨ ∃ value, first = .ok value ∧ next value = .error error := by
  cases first <;> simp

theorem map_eq_ok_iff {ε α β : Type} {f : α → β} {first : Except ε α} {result : β} :
    f <$> first = .ok result ↔ ∃ value, first = .ok value ∧ f value = result := by
  cases first <;> simp [Functor.map, Except.map]

theorem map_eq_error_iff {ε α β : Type} {f : α → β} {first : Except ε α} {error : ε} :
    f <$> first = .error error ↔ first = .error error := by
  cases first <;> simp [Functor.map, Except.map]

@[simp] theorem mapError_ok {ε δ α : Type} (wrap : ε → δ) (value : α) :
    (Except.ok value).mapError wrap = .ok value := rfl

@[simp] theorem mapError_error {ε δ α : Type} (wrap : ε → δ) (error : ε) :
    (Except.error error : Except ε α).mapError wrap = .error (wrap error) := rfl

@[simp] theorem mapError_eq_ok_iff {ε δ α : Type} {wrap : ε → δ} {result : Except ε α} {value : α} :
    result.mapError wrap = .ok value ↔ result = .ok value := by
  cases result <;> simp

theorem mapError_eq_error_iff {ε δ α : Type} {wrap : ε → δ} {result : Except ε α} {error : δ} :
    result.mapError wrap = .error error ↔ ∃ cause, result = .error cause ∧ wrap cause = error := by
  cases result <;> simp

theorem isOk_iff {ε α : Type} {result : Except ε α} :
    result.isOk = true ↔ ∃ value, result = .ok value := by
  cases result <;> simp [Except.isOk, Except.toBool]

end TokenPlan
