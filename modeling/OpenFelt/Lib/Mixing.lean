/-
  OpenFelt.Lib.Mixing — the steps of a mixing function on words, and what each keeps apart.

  A word xored with itself shifted right, and a word times an odd constant, can be told
  from what they are mixed to (`xorShift_injective`, `mul_odd_injective`). Where one number
  is put above the low `k` bits and another spread over the word by an odd constant, the low
  bits alone tell the second from any below `2 ^ k` (`mul_odd_low`), and then the high bits
  the first (`shiftLeft_xor`).
-/

import Mathlib.Data.Nat.ModEq
import Mathlib.Data.Nat.Prime.Basic

namespace OpenFelt

namespace Mixing

variable {w k : Nat} {a b c x y : BitVec w}

/-- A word xored with itself shifted right is read back from its highest bit down. -/
theorem xorShift_injective (hk : 0 < k) : Function.Injective fun x : BitVec w => x ^^^ x >>> k := by
  intro x y h
  have hbit : ∀ i, (x.getLsbD i ^^ x.getLsbD (k + i)) = (y.getLsbD i ^^ y.getLsbD (k + i)) := by
    intro i
    have hi := congrArg (fun z => z.getLsbD i) h
    simpa using hi
  -- induction on the number of bits above the one read
  have hall : ∀ n i, w ≤ i + n → x.getLsbD i = y.getLsbD i := by
    intro n
    induction n with
    | zero =>
      intro i hi
      rw [BitVec.getLsbD_of_ge x i hi, BitVec.getLsbD_of_ge y i hi]
    | succ n ih =>
      intro i hi
      have habove := ih (k + i) (by omega)
      have hhere := hbit i
      rw [habove] at hhere
      exact Bool.xor_left_inj.mp hhere
  exact BitVec.eq_of_getLsbD_eq fun i _ => hall w i (by omega)

theorem coprime_odd (hc : c.toNat % 2 = 1) (k : Nat) : Nat.gcd (2 ^ k) c.toNat = 1 :=
  Nat.Coprime.pow_left k (Nat.coprime_two_left.mpr (Nat.odd_iff.mpr hc))

/-- The low `k` bits of a multiple by an odd word tell which number below `2 ^ k` was multiplied. -/
theorem mul_odd_low (hc : c.toNat % 2 = 1) (hk : k ≤ w) (hx : x.toNat < 2 ^ k) (hy : y.toNat < 2 ^ k)
    (h : (x * c).toNat % 2 ^ k = (y * c).toNat % 2 ^ k) : x = y := by
  have hdvd : 2 ^ k ∣ 2 ^ w := Nat.pow_dvd_pow 2 hk
  have hmod : x.toNat * c.toNat ≡ y.toNat * c.toNat [MOD 2 ^ k] := by
    rw [BitVec.toNat_mul, BitVec.toNat_mul, Nat.mod_mod_of_dvd _ hdvd, Nat.mod_mod_of_dvd _ hdvd] at h
    exact h
  have hcancel := Nat.ModEq.cancel_right_of_coprime (coprime_odd hc k) hmod
  exact BitVec.eq_of_toNat_eq (Nat.ModEq.eq_of_lt_of_lt hcancel hx hy)

/-- Multiplying by an odd word loses nothing. -/
theorem mul_odd_injective (hc : c.toNat % 2 = 1) : Function.Injective fun x : BitVec w => x * c := by
  intro x y h
  have hsame : x * c = y * c := h
  exact mul_odd_low hc (Nat.le_refl w) x.isLt y.isLt (by rw [hsame])

/-- What is put above the low `k` bits leaves them as they were. -/
theorem shiftLeft_xor (h : a <<< k ^^^ x = b <<< k ^^^ y) (hk : k ≤ w) : x.toNat % 2 ^ k = y.toNat % 2 ^ k := by
  have hlow : x.setWidth k = y.setWidth k := by
    refine BitVec.eq_of_getLsbD_eq ?_
    intro i hi
    have hbit := congrArg (fun z => z.getLsbD i) h
    have hin : i < w := by omega
    simp only [BitVec.getLsbD_xor, BitVec.getLsbD_shiftLeft, hi, decide_true, Bool.not_true, Bool.and_false, Bool.false_and,
      Bool.false_bne] at hbit
    simpa [hi] using hbit
  have hval := congrArg BitVec.toNat hlow
  simpa [BitVec.toNat_setWidth] using hval

/-- A number that fits above the low `k` bits is read back from there. -/
theorem shiftLeft_inj (ha : a.toNat * 2 ^ k < 2 ^ w) (hb : b.toNat * 2 ^ k < 2 ^ w) (h : a <<< k = b <<< k) : a = b := by
  have hval := congrArg BitVec.toNat h
  rw [BitVec.toNat_shiftLeft, BitVec.toNat_shiftLeft, Nat.shiftLeft_eq, Nat.shiftLeft_eq, Nat.mod_eq_of_lt ha,
    Nat.mod_eq_of_lt hb] at hval
  exact BitVec.eq_of_toNat_eq (Nat.eq_of_mul_eq_mul_right (Nat.two_pow_pos k) hval)

end Mixing

end OpenFelt
