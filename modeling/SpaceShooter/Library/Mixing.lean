/-
# Mixing the bits of a word

The two moves of a multiply and shift finalizer: a word is combined with a right shift of
itself, or multiplied by an odd constant. Neither loses a bit.
-/

import Mathlib.Data.BitVec
import Mathlib.Data.Nat.ModEq
import Mathlib.Data.Nat.Prime.Basic

namespace SpaceShooter.Library

variable {w : ℕ}

/-- Fold the bits from position `k` on into the lowest ones. -/
def xorShift (k : ℕ) (x : BitVec w) : BitVec w := x ^^^ (x >>> k)

theorem getLsbD_xorShift (k : ℕ) (x : BitVec w) (i : ℕ) :
    (xorShift k x).getLsbD i = (x.getLsbD i ^^ x.getLsbD (k + i)) := by
  simp only [xorShift, BitVec.getLsbD_xor, BitVec.getLsbD_ushiftRight]

/-- The words agree from the top down: each bit is the sum of the folded one and of a bit
further up. -/
theorem getLsbD_eq_of_xorShift_eq {k : ℕ} (hk : 0 < k) {x y : BitVec w}
    (h : xorShift k x = xorShift k y) (n i : ℕ) (hi : w ≤ n + i) :
    x.getLsbD i = y.getLsbD i := by
  induction n using Nat.strong_induction_on generalizing i with
  | _ n ih =>
    cases n with
    | zero =>
      rw [BitVec.getLsbD_of_ge x i (by omega), BitVec.getLsbD_of_ge y i (by omega)]
    | succ n =>
      have above : x.getLsbD (k + i) = y.getLsbD (k + i) :=
        ih n (Nat.lt_succ_self n) (k + i) (by omega)
      have folded : (xorShift k x).getLsbD i = (xorShift k y).getLsbD i := by rw [h]
      rw [getLsbD_xorShift, getLsbD_xorShift, above] at folded
      exact Bool.xor_left_inj.mp folded

theorem xorShift_injective {k : ℕ} (hk : 0 < k) :
    Function.Injective (xorShift k : BitVec w → BitVec w) := by
  intro x y h
  apply BitVec.eq_of_getLsbD_eq
  intro i _
  exact getLsbD_eq_of_xorShift_eq hk h w i (by omega)

/-- An odd factor is invertible modulo a power of two. -/
theorem mul_odd_injective {c : BitVec w} (hc : c.toNat % 2 = 1) :
    Function.Injective (fun x : BitVec w => x * c) := by
  intro x y h
  have coprime : Nat.gcd (2 ^ w) c.toNat = 1 :=
    Nat.Coprime.pow_left w (Nat.coprime_two_left.mpr (Nat.odd_iff.mpr hc))
  have congruent : x.toNat * c.toNat ≡ y.toNat * c.toNat [MOD 2 ^ w] := by
    have products := congrArg BitVec.toNat h
    simp only [BitVec.toNat_mul] at products
    exact products
  have reduced : x.toNat % 2 ^ w = y.toNat % 2 ^ w :=
    Nat.ModEq.cancel_right_of_coprime coprime congruent
  apply BitVec.eq_of_toNat_eq
  rwa [Nat.mod_eq_of_lt x.isLt, Nat.mod_eq_of_lt y.isLt] at reduced

/-- On words of one width nothing but a permutation is injective. -/
theorem bijective_of_injective {f : BitVec w → BitVec w} (hf : Function.Injective f) :
    Function.Bijective f := by
  have finite : Function.Injective (BitVec.toFin ∘ f ∘ BitVec.ofFin) := by
    intro a b h
    have := hf (BitVec.toFin_inj.mp h)
    exact BitVec.ofFin.inj this
  refine ⟨hf, fun y => ?_⟩
  obtain ⟨a, ha⟩ := (Finite.injective_iff_surjective.mp finite) y.toFin
  exact ⟨BitVec.ofFin a, BitVec.toFin_inj.mp ha⟩

end SpaceShooter.Library
