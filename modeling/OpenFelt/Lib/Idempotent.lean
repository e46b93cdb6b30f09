/-
  OpenFelt.Lib.Idempotent — a journal that answers each request key once.

  A `Store` is a subject under a revision, with a journal of the answers given so far.
  A request with a key already in the journal leaves the store alone; a new key is noted
  with its answer, and takes effect or not; the subject may also move by itself. Every
  effect raises the revision by one, so:
  - `Run.answer`: an answer, once given, stays.
  - `Run.applied_once`: a key takes effect at most once.
  - `Run.revision`: the revision counts the effects.
  - `Run.subject`: the same revision is the same subject.
-/

import Mathlib.Algebra.GroupWithZero.Nat
import Mathlib.Algebra.Order.Group.Nat
import Mathlib.Algebra.Ring.Int.Defs
import Mathlib.Data.List.Basic

namespace OpenFelt.Idempotent

variable {κ ν σ : Type*} [DecidableEq κ]

structure Store (κ ν σ : Type*) where
  revision : Nat
  subject : σ
  journal : List (κ × ν)

inductive Event (κ : Type*) where
  /-- A known key, or a request not worth noting. -/
  | quiet
  /-- A new key, answered without effect. -/
  | noted (key : κ)
  /-- A new key, answered with its effect. -/
  | applied (key : κ)
  /-- The subject moved on its own. -/
  | moved
  deriving DecidableEq

namespace Event

def effective : Event κ → Bool
  | quiet | noted _ => false
  | applied _ | moved => true

/-- How far the event makes the journal grow. -/
def entries : Event κ → Nat
  | quiet | moved => 0
  | noted _ | applied _ => 1

end Event

def Store.answer (s : Store κ ν σ) (key : κ) : Option ν := s.journal.lookup key

inductive Step : Store κ ν σ → Event κ → Store κ ν σ → Prop
  | quiet (s : Store κ ν σ) : Step s .quiet s
  | noted (s : Store κ ν σ) (key : κ) (v : ν) : s.answer key = none →
      Step s (.noted key) { s with journal := s.journal ++ [(key, v)] }
  | applied (s : Store κ ν σ) (key : κ) (v : ν) (subject : σ) : s.answer key = none →
      Step s (.applied key) ⟨s.revision + 1, subject, s.journal ++ [(key, v)]⟩
  | moved (s : Store κ ν σ) (subject : σ) : Step s .moved { s with revision := s.revision + 1, subject := subject }

inductive Run : Store κ ν σ → List (Event κ) → Store κ ν σ → Prop
  | nil (s : Store κ ν σ) : Run s [] s
  | cons {s t u : Store κ ν σ} {e : Event κ} {es : List (Event κ)} : Step s e t → Run t es u → Run s (e :: es) u

section steps
variable {s t : Store κ ν σ} {e : Event κ} {es : List (Event κ)} {key : κ} {v : ν}

theorem lookup_append_of_some {l m : List (κ × ν)} (hl : l.lookup key = some v) : (l ++ m).lookup key = some v := by
  rw [List.lookup_append, hl]; rfl

theorem Step.answer (hs : Step s e t) (ha : s.answer key = some v) : t.answer key = some v := by
  cases hs with
  | quiet => exact ha
  | noted _ _ _ => exact lookup_append_of_some ha
  | applied _ _ _ _ => exact lookup_append_of_some ha
  | moved _ => exact ha

theorem Step.revision (hs : Step s e t) : t.revision = s.revision + if e.effective then 1 else 0 := by
  cases hs <;> rfl

theorem Step.journal_length (hs : Step s e t) : t.journal.length = s.journal.length + e.entries := by
  cases hs <;> simp [Event.entries]

/-- What takes effect was new, and is in the journal from then on. -/
theorem Step.of_applied (hs : Step s (.applied key) t) : s.answer key = none ∧ (t.answer key).isSome = true := by
  cases hs with
  | applied _ v subject hnew =>
    refine ⟨hnew, ?_⟩
    simp only [Store.answer] at hnew ⊢
    rw [List.lookup_append, hnew]
    simp

theorem Step.subject (hs : Step s e t) (he : e.effective = false) : t.subject = s.subject := by
  cases hs with
  | quiet => rfl
  | noted _ _ _ => rfl
  | applied _ _ _ _ => cases he
  | moved _ => cases he

theorem Run.answer (hr : Run s es t) (ha : s.answer key = some v) : t.answer key = some v := by
  induction hr with
  | nil => exact ha
  | cons hs _ ih => exact ih (hs.answer ha)

theorem Run.revision (hr : Run s es t) : t.revision = s.revision + es.countP Event.effective := by
  induction hr with
  | nil => rfl
  | cons hs _ ih => rw [ih, hs.revision, List.countP_cons]; omega

theorem Run.journal_length (hr : Run s es t) : t.journal.length = s.journal.length + (es.map Event.entries).sum := by
  induction hr with
  | nil => rfl
  | cons hs _ ih => rw [ih, hs.journal_length, List.map_cons, List.sum_cons]; omega

/-- A key in the journal takes no effect any more. -/
theorem Run.applied_never (hr : Run s es t) (ha : (s.answer key).isSome = true) : es.count (.applied key) = 0 := by
  induction hr with
  | nil => rfl
  | @cons s t u e es hs _ ih =>
    obtain ⟨v, hv⟩ := Option.isSome_iff_exists.mp ha
    have hrest := ih (by rw [hs.answer hv]; rfl)
    have hne : e ≠ .applied key := fun he => by
      subst he
      rw [hs.of_applied.1] at hv; cases hv
    rw [List.count_cons_of_ne hne, hrest]

theorem Run.applied_once (hr : Run s es t) (key : κ) : es.count (.applied key) ≤ 1 := by
  induction hr with
  | nil => simp
  | @cons s t u e es hs hr ih =>
    by_cases he : e = .applied key
    · subst he
      rw [List.count_cons_self, hr.applied_never hs.of_applied.2]
    · rw [List.count_cons_of_ne he]; exact ih

theorem Run.subject (hr : Run s es t) (he : t.revision = s.revision) : t.subject = s.subject := by
  induction hr with
  | nil => rfl
  | @cons s t u e es hs hr ih =>
    have h1 := hr.revision
    have h2 := hs.revision
    by_cases hq : e.effective = true
    · rw [if_pos hq] at h2; omega
    · rw [if_neg hq] at h2
      exact (ih (by omega)).trans (hs.subject (by simpa using hq))

end steps

end OpenFelt.Idempotent
