/-!
Powers and sums of natural numbers are those of core, whatever else a module imports: libraries of
algebra bring instances of their own for both, and the same text would not mean the same term.
-/

set_option autoImplicit false
set_option relaxedAutoImplicit false

namespace TokenPlan

attribute [scoped instance (2000)] instPowNat Zero.ofOfNat0

-- The exponent of a power like `2 ^ 64` has no type until a default instance gives it one.
attribute [default_instance 20000] instPowNat

end TokenPlan
