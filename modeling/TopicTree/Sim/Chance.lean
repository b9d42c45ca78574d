/-!
# Chance

Chance is drawn from a generator: each draw gives a result and the generator after it. What results
it gives is left open. Promised is only that nothing happens that has no chance to, that a number
drawn below a bound is below it, and that a flip changes a byte.
-/

namespace TopicTree

/-- How often something happens. -/
inductive Rate
  | always
  /-- For that many of 2 ^ 64 equally likely draws. -/
  | below (bound : UInt64)
  deriving DecidableEq, Repr

/-- The rate nearest to a number. -/
def Rate.ofFloat (rate : Float) : Rate :=
  if 1.0 ≤ rate then .always
  else if rate ≤ 0.0 then .below 0
  else .below (rate * 18446744073709551616.0).toUInt64

/-- What can be drawn from a generator, whose states are `G`. -/
class Chance (G : Type) where
  /-- Whether something of a given rate happens this time. -/
  happens : Rate → G → Bool × G
  /-- A number below a bound, which is not 0. -/
  below : Nat → G → Nat × G
  /-- A byte that is not 0. -/
  flip : G → UInt8 × G
  happens_never : ∀ draws, (happens (.below 0) draws).1 = false
  below_lt : ∀ {bound} draws, 0 < bound → (below bound draws).1 < bound
  flip_ne_zero : ∀ draws, (flip draws).1 ≠ 0

end TopicTree
