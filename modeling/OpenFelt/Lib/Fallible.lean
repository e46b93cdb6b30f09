/-
  OpenFelt.Lib.Fallible — computations that finish, are refused, or panic.

  `Meets post refusal` is total correctness with both ends: the computation does not
  panic, what it finishes with satisfies `post`, and what it is refused with satisfies
  `refusal`. One rule for each way to build a computation.
-/

import Mathlib.Data.List.Basic

inductive Fallible (ε α : Type) where
  | done (value : α)
  | refused (error : ε)
  | panics
  deriving DecidableEq, Repr

namespace Fallible

variable {ε α β : Type}

def bind (x : Fallible ε α) (next : α → Fallible ε β) : Fallible ε β :=
  match x with
  | .done value => next value
  | .refused error => .refused error
  | .panics => .panics

instance : Monad (Fallible ε) where
  pure := .done
  bind := bind

def lift : Except ε α → Fallible ε α
  | .ok value => .done value
  | .error error => .refused error

/-- A guard that is refused where `bad` holds. -/
def refuseIf (bad : Prop) [Decidable bad] (error : ε) : Fallible ε Unit := if bad then .refused error else .done ()

def unwrap : Option α → Fallible ε α
  | some value => .done value
  | none => .panics

/-- Subtraction of naturals that a machine does not have below zero. -/
def sub (a b : Nat) : Fallible ε Nat := if a < b then .panics else .done (a - b)

def Meets (post : α → Prop) (refusal : ε → Prop) : Fallible ε α → Prop
  | .done value => post value
  | .refused error => refusal error
  | .panics => False

section rules
variable {post : α → Prop} {then' : β → Prop} {refusal : ε → Prop} {x : Fallible ε α} {next : α → Fallible ε β}

theorem Meets.bind (hx : x.Meets post refusal) (hnext : ∀ value, post value → (next value).Meets then' refusal) :
    (x >>= next).Meets then' refusal := by
  cases x with
  | done value => exact hnext value hx
  | refused error => exact hx
  | panics => exact hx.elim

theorem meets_pure {value : α} (h : post value) : (pure value : Fallible ε α).Meets post refusal := h

theorem meets_lift {result : Except ε α} (hok : ∀ value, result = .ok value → post value)
    (herror : ∀ error, result = .error error → refusal error) : (lift result).Meets post refusal := by
  cases result with
  | ok value => exact hok value rfl
  | error error => exact herror error rfl

theorem meets_refuseIf {bad : Prop} [Decidable bad] {error : ε} (h : bad → refusal error) :
    (refuseIf bad error).Meets (fun _ => ¬ bad) refusal := by
  unfold refuseIf
  by_cases hbad : bad
  · rw [if_pos hbad]
    exact h hbad
  · rw [if_neg hbad]
    exact hbad

theorem meets_unwrap {result : Option α} (hsome : result.isSome = true) (h : ∀ value, result = some value → post value) :
    (unwrap result : Fallible ε α).Meets post refusal := by
  cases result with
  | none => cases hsome
  | some value => exact h value rfl

theorem meets_sub {a b : Nat} (hle : b ≤ a) : (sub a b : Fallible ε Nat).Meets (· = a - b) refusal := by
  rw [sub, if_neg (Nat.not_lt.mpr hle)]
  rfl

theorem Meets.mono {post' : α → Prop} {refusal' : ε → Prop} (h : x.Meets post refusal) (hpost : ∀ value, post value → post' value)
    (hrefusal : ∀ error, refusal error → refusal' error) : x.Meets post' refusal' := by
  cases x with
  | done value => exact hpost value h
  | refused error => exact hrefusal error h
  | panics => exact h

end rules

end Fallible
