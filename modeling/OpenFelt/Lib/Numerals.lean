/-
  OpenFelt.Lib.Numerals — the decimal numeral of a number.

  A numeral names its number (`repr_injective`), is made of digits, and takes as many
  bytes as digits (`utf8ByteSize_repr_le`). `parseUnsigned` reads an unsigned number of at
  most `max`; it reads a numeral back (`parseUnsigned_repr`), and other spellings too.
-/

import Mathlib.Algebra.GroupWithZero.Nat
import Mathlib.Algebra.Ring.Int.Defs
import Mathlib.Data.String.Basic

namespace OpenFelt

namespace Numerals

theorem repr_injective : Function.Injective Nat.repr := by
  intro m n h
  have hdigits : Nat.toDigits 10 m = Nat.toDigits 10 n := by
    rw [← Nat.toList_repr, ← Nat.toList_repr, h]
  simpa using congrArg (Nat.ofDigitChars 10 · 0) hdigits

theorem isDigit_of_mem {n : Nat} {c : Char} (h : c ∈ n.repr.toList) : c.isDigit = true := by
  rw [Nat.toList_repr] at h
  exact Nat.isDigit_of_mem_toDigits (by decide) (by decide) h

theorem utf8Size_digit {c : Char} (h : c.isDigit = true) : c.utf8Size = 1 := by
  rw [Char.utf8Size_eq_one_iff]
  simp only [Char.isDigit, Bool.and_eq_true, decide_eq_true_eq] at h
  exact UInt32.le_trans h.2 (by decide)

theorem utf8ByteSize_ofList (l : List Char) : (String.ofList l).utf8ByteSize = (l.map Char.utf8Size).sum := by
  induction l with
  | nil => rfl
  | cons c l ih =>
    have hcons : String.ofList (c :: l) = String.singleton c ++ String.ofList l := by simp
    rw [hcons, String.utf8ByteSize_append, String.utf8ByteSize_singleton, ih, List.map_cons, List.sum_cons]

theorem utf8ByteSize_repr_le {n k : Nat} (hk : 0 < k) (h : n < 10 ^ k) : n.repr.utf8ByteSize ≤ k := by
  have hlen := (Nat.length_repr_le_iff hk).mpr h
  have hones : n.repr.toList.map Char.utf8Size = n.repr.toList.map fun _ => 1 :=
    List.map_congr_left fun c hc => utf8Size_digit (isDigit_of_mem hc)
  rw [← String.ofList_toList (s := n.repr), utf8ByteSize_ofList, hones, List.map_const', List.sum_replicate_nat, mul_one]
  exact hlen

/-! ## Reading -/

/-- The digits after those that make `acc`; a value past `max` overflows. -/
def digitsValue (max : Nat) : List Char → Nat → Option Nat
  | [], acc => some acc
  | c :: rest, acc =>
    if c.isDigit then
      if 10 * acc + (c.toNat - '0'.toNat) ≤ max then digitsValue max rest (10 * acc + (c.toNat - '0'.toNat)) else none
    else
      none

/-- A sign `+` and leading zeros are allowed, a sign alone is not. -/
def parseUnsigned (max : Nat) : List Char → Option Nat
  | [] => none
  | '+' :: [] => none
  | '+' :: digits => digitsValue max digits 0
  | digits => digitsValue max digits 0

theorem le_ofDigitChars (l : List Char) (acc : Nat) : acc ≤ Nat.ofDigitChars 10 l acc := by
  rw [Nat.ofDigitChars_eq_ofDigitChars_zero]
  have hpow : 1 * acc ≤ 10 ^ l.length * acc := Nat.mul_le_mul_right acc (Nat.one_le_pow _ _ (by decide))
  omega

theorem digitsValue_digits {max : Nat} {l : List Char} {acc : Nat} (hdigits : ∀ c ∈ l, c.isDigit = true)
    (hmax : Nat.ofDigitChars 10 l acc ≤ max) : digitsValue max l acc = some (Nat.ofDigitChars 10 l acc) := by
  induction l generalizing acc with
  | nil => rw [digitsValue, Nat.ofDigitChars_nil]
  | cons c rest ih =>
    rw [Nat.ofDigitChars_cons] at hmax ⊢
    have hstep : 10 * acc + (c.toNat - '0'.toNat) ≤ max := Nat.le_trans (le_ofDigitChars rest _) hmax
    rw [digitsValue, if_pos (hdigits c List.mem_cons_self), if_pos hstep]
    exact ih (fun d hd => hdigits d (List.mem_cons_of_mem _ hd)) hmax

theorem digitsValue_le {max : Nat} {l : List Char} {acc n : Nat} (hacc : acc ≤ max)
    (h : digitsValue max l acc = some n) : n ≤ max := by
  induction l generalizing acc with
  | nil =>
    rw [digitsValue, Option.some.injEq] at h
    omega
  | cons c rest ih =>
    rw [digitsValue] at h
    split at h
    · split at h
      · rename_i hle
        exact ih hle h
      · cases h
    · cases h

theorem parseUnsigned_le {max : Nat} {l : List Char} {n : Nat} (h : parseUnsigned max l = some n) : n ≤ max := by
  unfold parseUnsigned at h
  split at h
  · cases h
  · cases h
  · exact digitsValue_le (Nat.zero_le max) h
  · exact digitsValue_le (Nat.zero_le max) h

theorem parseUnsigned_digits {max : Nat} {l : List Char} (hne : l ≠ []) (hdigits : ∀ c ∈ l, c.isDigit = true) :
    parseUnsigned max l = digitsValue max l 0 := by
  unfold parseUnsigned
  split
  · exact absurd rfl hne
  · exact absurd (hdigits '+' List.mem_cons_self) (by decide)
  · exact absurd (hdigits '+' List.mem_cons_self) (by decide)
  · rfl

theorem parseUnsigned_repr {max n : Nat} (h : n ≤ max) : parseUnsigned max n.repr.toList = some n := by
  have hvalue : Nat.ofDigitChars 10 n.repr.toList 0 = n := by
    rw [Nat.toList_repr, Nat.ofDigitChars_ten_toDigits]
  have hne : n.repr.toList ≠ [] := by
    rw [Nat.toList_repr]
    exact Nat.toDigits_ne_nil
  rw [parseUnsigned_digits hne fun c hc => isDigit_of_mem hc,
    digitsValue_digits (fun c hc => isDigit_of_mem hc) (by rwa [hvalue]), hvalue]

end Numerals

end OpenFelt
