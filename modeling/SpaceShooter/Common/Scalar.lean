/-
# Scalars and plane vectors

The code computes with `double`. The model computes with any scalar type that
offers the same operations and comparisons, without assuming a single law: what
is proved at this generality holds for rounded, exact and extended arithmetic
alike. Results that need exact arithmetic are stated at an ordered field.
-/

import Mathlib.Data.Rat.Floor
import SpaceShooter.Common.Types

namespace SpaceShooter

/-- The operations the code performs on `double`. -/
class Scalar (K : Type) extends Add K, Sub K, Mul K, Div K, Neg K, LT K, LE K where
  decidableLT : DecidableLT K
  decidableLE : DecidableLE K
  /-- `==`, which need not be reflexive. -/
  eq : K → K → Bool
  /-- The value of a source literal, or of a correctly rounded decimal text. -/
  lit : ℚ → K
  infinity : K
  nan : K
  isfinite : K → Bool
  /-- `std::strtod` reports `ERANGE` for a text of this exact value. -/
  outOfRange : ℚ → Bool
  /-- `std::numeric_limits<double>::max()`. -/
  max : K
  /-- `std::numbers::pi`. -/
  pi : K
  sqrt : K → K
  cos : K → K
  sin : K → K
  fabs : K → K
  remainder : K → K → K
  copysign : K → K → K
  /-- `static_cast<std::uint16_t>`. -/
  toUInt16 : K → UInt16
  /-- A count of microseconds divided by `1'000'000.0f` in single precision. -/
  secondsOfMicros : ℕ → K
  /-- A bound on how often a positive value can be doubled before it exceeds half
  of `max`. -/
  doublings : K → ℕ

attribute [reducible, instance] Scalar.decidableLT Scalar.decidableLE

namespace Scalar

variable {K : Type} [Scalar K]

/-- `std::min`: the first argument unless the second is smaller. -/
def min (a b : K) : K := if b < a then b else a

/-- `std::max`: the first argument unless it is smaller. -/
def maxOf (a b : K) : K := if a < b then b else a

/-- `std::clamp`. -/
def clamp (v lo hi : K) : K := if v < lo then lo else if hi < v then hi else v

end Scalar

namespace Math

open Scalar

/-- The margin subtracted from a free circle's radius. -/
def kFreeCircleMargin {K : Type} [Scalar K] : K := lit 1e-6

def kEps {K : Type} [Scalar K] : K := lit 1e-12

structure Vector2D (K : Type) where
  x : K
  y : K
  deriving DecidableEq, Repr

namespace Vector2D

variable {K : Type} [Scalar K]

/-- The default vector. -/
def zero : Vector2D K := ⟨lit 0, lit 0⟩

instance : Add (Vector2D K) := ⟨fun lhs rhs => ⟨lhs.x + rhs.x, lhs.y + rhs.y⟩⟩

instance : Sub (Vector2D K) := ⟨fun lhs rhs => ⟨lhs.x - rhs.x, lhs.y - rhs.y⟩⟩

/-- `operator*` with the scalar on the right. -/
instance : HMul (Vector2D K) K (Vector2D K) := ⟨fun v s => ⟨v.x * s, v.y * s⟩⟩

def lengthSquared (v : Vector2D K) : K := v.x * v.x + v.y * v.y

def length (v : Vector2D K) : K := sqrt v.lengthSquared

def dot (v other : Vector2D K) : K := v.x * other.x + v.y * other.y

end Vector2D

structure Circle (K : Type) where
  center : Vector2D K
  radius : K
  deriving DecidableEq, Repr

end Math

/-! ### Rational arithmetic

An executable instance: exact field operations, a rational square root that is
exact on squares, and polynomial approximations of cosine and sine that are exact
at zero. -/

namespace RationalScalar

/-- A rational square root to six places, exact on squares of rationals. -/
def sqrt (q : ℚ) : ℚ :=
  (Nat.sqrt (q.num.toNat * q.den * 10 ^ 12) : ℚ) / (q.den * 10 ^ 6)

/-- The quotient rounded to the nearest integer, ties to even. -/
def roundHalfEven (q : ℚ) : ℤ :=
  let low := ⌊q⌋
  let fraction := q - low
  if fraction < 1 / 2 then low
  else if 1 / 2 < fraction then low + 1
  else if low % 2 = 0 then low else low + 1

/-- The largest finite `double`. -/
def max : ℚ := (2 ^ 53 - 1) * 2 ^ 971

/-- Double `q` as long as it stays below half of `max`, counting the steps. -/
def doublings (q : ℚ) : ℕ :=
  (max.num.toNat * q.den / q.num.toNat).log2 + 1

@[reducible]
def rational : Scalar ℚ where
  decidableLT := inferInstance
  decidableLE := inferInstance
  eq a b := decide (a = b)
  lit q := q
  infinity := 0
  nan := 0
  isfinite _ := true
  outOfRange _ := false
  max := max
  pi := 884279719003555 / 281474976710656
  sqrt := sqrt
  cos a := 1 - a * a / 2
  sin a := a
  fabs a := |a|
  remainder a b := a - roundHalfEven (a / b) * b
  copysign a b := if b < 0 then -|a| else |a|
  toUInt16 a := UInt16.ofNat ⌊a⌋.toNat
  secondsOfMicros n := n / 1000000
  doublings := doublings

end RationalScalar

end SpaceShooter
