/-
# Scalars with non-finite values

Exact numbers extended with the infinities and `nan`, as scalars. The functions of the
standard library are given on the exact numbers; on values that are not finite they
return what the standard says.
-/

import SpaceShooter.Common.Scalar
import SpaceShooter.Library.Extended

namespace SpaceShooter

open Library

/-- The standard library's functions on exact numbers. -/
class StdMath (F : Type) [Field F] [LinearOrder F] where
  sqrt : F → F
  /-- The root of a positive number is not rounded to zero. -/
  sqrt_pos : ∀ {a}, 0 < a → 0 < sqrt a
  cos : F → F
  sin : F → F
  pi : F
  max : F
  remainder : F → F → F
  toUInt16 : F → UInt16
  doublings : F → ℕ

namespace Math

/-- The square root is exact on what is not negative. -/
structure ExactRoots (F : Type) [Field F] [LinearOrder F] [StdMath F] : Prop where
  sqrt_nonneg : ∀ {a : F}, 0 ≤ a → 0 ≤ StdMath.sqrt a
  sqrt_mul_self : ∀ {a : F}, 0 ≤ a → StdMath.sqrt a * StdMath.sqrt a = a

end Math

namespace ExtendedScalar

variable {F : Type} [Field F] [LinearOrder F]

def isfinite : Extended F → Bool
  | .finite _ => true
  | _ => false

/-- Apply a function that has no value on what is not finite. -/
def onFinite (f : F → F) : Extended F → Extended F
  | .finite a => .finite (f a)
  | _ => .nan

def sqrt [StdMath F] : Extended F → Extended F
  | .finite a => if a < 0 then .nan else .finite (StdMath.sqrt a)
  | .infinite s => if s then .nan else .infinite false
  | .nan => .nan

def fabs : Extended F → Extended F
  | .finite a => .finite |a|
  | .infinite _ => .infinite false
  | .nan => .nan

def remainder [StdMath F] : Extended F → Extended F → Extended F
  | .finite a, .finite b => if b = 0 then .nan else .finite (StdMath.remainder a b)
  | .finite a, .infinite _ => .finite a
  | _, _ => .nan

/-- The sign of `nan` is read as positive. -/
def copysign (x y : Extended F) : Extended F := if y < .finite 0 then -fabs x else fabs x

/-- `==`: only `nan` differs from itself. -/
def eq : Extended F → Extended F → Bool
  | .finite a, .finite b => decide (a = b)
  | .infinite s, .infinite t => s == t
  | _, _ => false

instance scalar [StdMath F] : Scalar (Extended F) where
  decidableLT := inferInstance
  decidableLE := inferInstance
  eq := eq
  lit q := .finite q
  infinity := .infinite false
  nan := .nan
  isfinite := isfinite
  outOfRange _ := false
  max := .finite StdMath.max
  pi := .finite StdMath.pi
  sqrt := sqrt
  cos := onFinite StdMath.cos
  sin := onFinite StdMath.sin
  fabs := fabs
  remainder := remainder
  copysign := copysign
  toUInt16
    | .finite a => StdMath.toUInt16 a
    | _ => 0
  secondsOfMicros n := .finite (n / 1000000)
  doublings
    | .finite a => StdMath.doublings a
    | _ => 0

end ExtendedScalar

/-! ### Extended rationals -/

namespace RationalScalar

theorem sqrt_pos {a : ℚ} (ha : 0 < a) : 0 < sqrt a := by
  have hnum : 0 < a.num.toNat := by
    have hpos := Rat.num_pos.mpr ha
    omega
  have hroot : 0 < Nat.sqrt (a.num.toNat * a.den * 10 ^ 12) :=
    Nat.sqrt_pos.mpr (Nat.mul_pos (Nat.mul_pos hnum a.den_pos) (by norm_num))
  have hden : (0 : ℚ) < a.den := Nat.cast_pos.mpr a.den_pos
  unfold sqrt
  exact div_pos (Nat.cast_pos.mpr hroot) (mul_pos hden (by norm_num))

theorem max_eq : max = (((2 ^ 53 - 1) * 2 ^ 971 : ℕ) : ℚ) := by
  have hfactor : ((2 ^ 53 - 1 : ℕ) : ℚ) = 2 ^ 53 - 1 := by norm_num
  rw [Nat.cast_mul, hfactor, Nat.cast_pow, Nat.cast_ofNat, max]

/-- The count of the doublings reaches half of the largest value. -/
theorem half_max_lt_doublings {a : ℚ} (ha : 0 < a) : max / 2 < a * 2 ^ doublings a := by
  have hnum : 0 < a.num.toNat := by
    have hpos := Rat.num_pos.mpr ha
    omega
  have hden : (0 : ℚ) < a.den := Nat.cast_pos.mpr a.den_pos
  have hmax : (max.num.toNat : ℚ) = max := by
    rw [max_eq, Rat.num_natCast, Int.toNat_natCast]
  have hpos : (0 : ℚ) < max := by
    unfold max
    exact mul_pos (by norm_num) (pow_pos two_pos 971)
  -- The quotient is below the power of two that its logarithm gives.
  have hlt : max.num.toNat * a.den < a.num.toNat * 2 ^ doublings a :=
    (Nat.lt_mul_div_succ _ hnum).trans_le (Nat.mul_le_mul_left _ Nat.lt_log2_self)
  have hlt' : max * a.den < a.num.toNat * 2 ^ doublings a := by
    rw [← hmax]
    exact_mod_cast hlt
  have hvalue : a * a.den = a.num.toNat := by
    rw [Rat.mul_den_eq_num]
    have hnonneg := (Rat.num_pos.mpr ha).le
    exact_mod_cast (Int.toNat_of_nonneg hnonneg).symm
  rw [← hvalue, mul_right_comm] at hlt'
  exact (half_lt_self hpos).trans (lt_of_mul_lt_mul_right hlt' hden.le)

theorem ten_pow_le_max : 10 ^ 37 ≤ max := by
  have hfactor : (1 : ℚ) ≤ 2 ^ 53 - 1 := by norm_num
  calc (10 : ℚ) ^ 37 ≤ 16 ^ 37 := pow_le_pow_left₀ (by norm_num) (by norm_num) 37
    _ = 2 ^ 148 := by rw [show (16 : ℚ) = 2 ^ 4 by norm_num, ← pow_mul]
    _ ≤ 2 ^ 971 := pow_le_pow_right₀ one_le_two (by omega)
    _ ≤ max := le_mul_of_one_le_left (by positivity) hfactor

@[reducible]
def stdMath : StdMath ℚ where
  sqrt := sqrt
  sqrt_pos := sqrt_pos
  cos a := 1 - a * a / 2
  sin a := a
  pi := 884279719003555 / 281474976710656
  max := max
  remainder a b := a - roundHalfEven (a / b) * b
  toUInt16 a := UInt16.ofNat ⌊a⌋.toNat
  doublings := doublings

end RationalScalar

end SpaceShooter
