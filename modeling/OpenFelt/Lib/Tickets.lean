/-
  OpenFelt.Lib.Tickets — a desk that makes out tickets, one to a holder.

  A book says what each ticket in it is good for. A turn at the desk makes out at most
  one ticket, which is then the only one of its holder; the others stay, are cut short or
  are struck out. Over any run of turns:
  - `Run.sole`: no holder has two tickets.
  - `Run.origin`: a ticket in the book was there before or was made out, and is good for
    no more than it was then.
  - `Run.gone`: a ticket that was struck out and is not made out again stays out.
-/

import Mathlib.Data.List.Nodup
import Mathlib.Order.Basic

namespace OpenFelt.Tickets

variable {κ α π : Type*} [Preorder α] {holder : α → π} {book book' book'' : κ → Option α} {made : List (κ × α)}

/-- No holder has two tickets. -/
def Sole (holder : α → π) (book : κ → Option α) : Prop :=
  ∀ k a k' a', book k = some a → book k' = some a' → holder a = holder a' → k = k'

/-- What a ticket is cut to keeps its holder. -/
def Personal (holder : α → π) : Prop := ∀ a a' : α, a' ≤ a → holder a' = holder a

structure Turn (holder : α → π) (book : κ → Option α) (new : Option (κ × α)) (book' : κ → Option α) : Prop where
  kept : ∀ k a', book' k = some a' → new = some (k, a') ∨ ∃ a, book k = some a ∧ a' ≤ a
  sole : ∀ k a, new = some (k, a) → Sole holder book → ∀ k' a', book' k' = some a' → holder a' = holder a → k' = k

/-- Turns from `book` on, with what they made out. -/
inductive Run (holder : α → π) (book : κ → Option α) : List (κ × α) → (κ → Option α) → Prop
  | nil : Run holder book [] book
  | snoc {book' book'' : κ → Option α} {made : List (κ × α)} {new : Option (κ × α)} :
      Run holder book made book' → Turn holder book' new book'' → Run holder book (made ++ new.toList) book''

/-- A turn that makes out nothing. -/
theorem Turn.of_le (h : ∀ k a', book' k = some a' → ∃ a, book k = some a ∧ a' ≤ a) : Turn holder book none book' :=
  ⟨fun k a' hk => Or.inr (h k a' hk), fun _ _ hnew => by cases hnew⟩

theorem Turn.sole_kept (ht : Turn holder book new book') (hp : Personal holder) (hs : Sole holder book) : Sole holder book' := by
  intro k a k' a' hk hk' hsame
  rcases ht.kept k a hk with hnew | ⟨b, hb, hle⟩
  · exact (ht.sole k a hnew hs k' a' hk' hsame.symm).symm
  rcases ht.kept k' a' hk' with hnew | ⟨b', hb', hle'⟩
  · exact ht.sole k' a' hnew hs k a hk hsame
  · refine hs k b k' b' hb hb' ?_
    rw [← hp b a hle, ← hp b' a' hle', hsame]

theorem Run.sole (hr : Run holder book made book') (hp : Personal holder) (hs : Sole holder book) : Sole holder book' := by
  induction hr with
  | nil => exact hs
  | snoc _ ht ih => exact ht.sole_kept hp ih

theorem Run.origin (hr : Run holder book made book') {k : κ} {a' : α} (hk : book' k = some a') :
    ∃ a, (book k = some a ∨ (k, a) ∈ made) ∧ a' ≤ a := by
  induction hr generalizing a' with
  | nil => exact ⟨a', Or.inl hk, le_rfl⟩
  | snoc _ ht ih =>
    rcases ht.kept k a' hk with hnew | ⟨b, hb, hle⟩
    · exact ⟨a', Or.inr (List.mem_append_right _ (by rw [hnew]; exact List.mem_singleton_self _)), le_rfl⟩
    · obtain ⟨a, horigin, hle'⟩ := ih hb
      exact ⟨a, horigin.imp_right (List.mem_append_left _), hle.trans hle'⟩

theorem Run.gone (hr : Run holder book made book') {k : κ} (hgone : book k = none) (hnew : k ∉ made.map (·.1)) :
    book' k = none := by
  cases hk : book' k with
  | none => rfl
  | some a' =>
    obtain ⟨a, hbook | hmade, _⟩ := hr.origin hk
    · rw [hgone] at hbook
      cases hbook
    · exact absurd (List.mem_map_of_mem hmade) hnew

end OpenFelt.Tickets
