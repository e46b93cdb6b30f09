/-
  OpenFelt.Lib.Texts — words that no text put together of pieces has.

  A text keeps some characters apart when no two neighbours of it are such a pair. A word
  with such a pair is in no text that keeps them apart (`absent`), and a text of
  fragments with labels between them keeps apart what each piece does, when a gap is at
  every seam (`Opens.slot`, `Opens.label`).
-/

import Mathlib.Data.List.Chain

namespace OpenFelt

namespace Texts

variable {α : Type*} {apart : α → α → Prop} {gap : α → Prop} {text word piece fragment : List α}

/-- The text keeps the pairs apart and ends in a gap. -/
structure Opens (apart : α → α → Prop) (gap : α → Prop) (text : List α) : Prop where
  chain : text.IsChain apart
  last : ∀ c ∈ text.getLast?, gap c
  nonempty : text ≠ []

/-- A fragment between two labels. -/
structure Bridges (apart : α → α → Prop) (gap : α → Prop) (fragment : List α) : Prop extends Opens apart gap fragment where
  first : ∀ c ∈ fragment.head?, gap c

section check
variable (apart gap) [DecidableRel apart] [DecidablePred gap]

/-- The check of a chain, one pair of neighbours at a time. -/
def chained : List α → Bool
  | c :: d :: rest => decide (apart c d) && chained (d :: rest)
  | _ => true

def opens (text : List α) : Bool := chained apart text && text.getLast?.any fun c => decide (gap c)

def bridges (fragment : List α) : Bool := opens apart gap fragment && fragment.head?.any fun c => decide (gap c)

variable {apart gap}

theorem isChain_of_chained (h : chained apart text = true) : text.IsChain apart := by
  induction text using chained.induct with
  | case1 c d rest ih =>
    simp only [chained, Bool.and_eq_true, decide_eq_true_eq] at h
    exact List.isChain_cons_cons.mpr ⟨h.1, ih h.2⟩
  | case2 text hshort =>
    match text, hshort with
    | [], _ => exact List.IsChain.nil
    | [c], _ => exact List.IsChain.singleton c
    | c :: d :: rest, hshort => exact absurd rfl (hshort c d rest)

theorem Opens.of_check (h : opens apart gap text = true) : Opens apart gap text := by
  simp only [opens, Bool.and_eq_true, Option.any_eq_true, decide_eq_true_eq] at h
  obtain ⟨hchain, c, hc, hgap⟩ := h
  refine ⟨isChain_of_chained hchain, ?_, ?_⟩
  · intro d hd
    rw [Option.mem_def] at hd
    rw [hd] at hc
    cases hc
    exact hgap
  · rintro rfl
    cases hc

theorem Bridges.of_check (h : bridges apart gap fragment = true) : Bridges apart gap fragment := by
  simp only [bridges, Bool.and_eq_true, Option.any_eq_true, decide_eq_true_eq] at h
  obtain ⟨hopens, c, hc, hgap⟩ := h
  refine ⟨.of_check hopens, ?_⟩
  intro d hd
  rw [Option.mem_def] at hd
  rw [hd] at hc
  cases hc
  exact hgap

end check

theorem absent (h : text.IsChain apart) (hword : ¬word.IsChain apart) : ¬word <:+: text :=
  fun hin => hword <| List.IsChain.infix h hin

section seams
variable (hgap : ∀ c d, gap c ∨ gap d → apart c d)
include hgap

theorem Opens.label (h : Opens apart gap text) (hpiece : piece.IsChain apart) : (text ++ piece).IsChain apart := by
  refine h.chain.append hpiece ?_
  intro c hc d hd
  exact hgap c d (Or.inl (h.last c hc))

theorem Opens.slot (h : Opens apart gap text) (hpiece : piece.IsChain apart) (hb : Bridges apart gap fragment) :
    Opens apart gap (text ++ piece ++ fragment) := by
  refine ⟨(h.label hgap hpiece).append hb.chain ?_, ?_, by simp [h.nonempty]⟩
  · intro c hc d hd
    exact hgap c d (Or.inr (hb.first d hd))
  · intro c hc
    rw [List.getLast?_append_of_ne_nil _ hb.nonempty] at hc
    exact hb.last c hc

end seams

end Texts

end OpenFelt
