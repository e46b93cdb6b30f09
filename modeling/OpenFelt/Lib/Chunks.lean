/-
  OpenFelt.Lib.Chunks — items read off the front of an input that comes in pieces.

  `front` says what an input starts with: an item and the rest, something no later input can
  mend, or too little to tell. Where later input changes neither of the first two (`Stable`),
  the items of an input do not depend on how it was cut into pieces: a reader of the first
  pieces takes the first items (`Takes.pop_early`), and meets what is bad only behind all
  items (`Takes.bad_early`).
-/

import Mathlib.Data.List.Basic

namespace OpenFelt.Chunks

inductive Front (β ρ ε : Type*)
  | more
  | bad (error : ε)
  | item (item : ρ) (rest : List β)

variable {β ρ ε : Type*}

/-- Later input mends nothing and takes nothing back. -/
structure Stable (front : List β → Front β ρ ε) : Prop where
  item : ∀ {input r rest}, front input = .item r rest → ∀ later, front (input ++ later) = .item r (rest ++ later)
  bad : ∀ {input e}, front input = .bad e → ∀ later, front (input ++ later) = .bad e

/-- The items at the front of an input, one after the other, and what follows them. -/
inductive Takes (front : List β → Front β ρ ε) : List β → List ρ → List β → Prop
  | none (input : List β) : Takes front input [] input
  | next {input : List β} {r : ρ} {rest : List β} {items : List ρ} {left : List β} : front input = .item r rest →
      Takes front rest items left → Takes front input (r :: items) left

/-- No item starts here. -/
def Stuck (front : List β → Front β ρ ε) (input : List β) : Prop := ∀ r rest, front input ≠ .item r rest

variable {front : List β → Front β ρ ε} {input left left' : List β} {items items' : List ρ}

theorem Takes.stuck_nil (h : Takes front input items left) (hs : Stuck front input) : items = [] ∧ left = input := by
  cases h with
  | none => exact ⟨rfl, rfl⟩
  | next hfront _ => exact absurd hfront (hs _ _)

/-- One item off the front leaves the others. -/
theorem Takes.pop (h : Takes front input items left) (hs : Stuck front left) {r : ρ} {rest : List β}
    (hfront : front input = .item r rest) : ∃ more, items = r :: more ∧ Takes front rest more left := by
  cases h with
  | none => exact absurd hfront (hs r rest)
  | next hfront' htail =>
    rw [hfront] at hfront'
    obtain ⟨rfl, rfl⟩ := Front.item.inj hfront'
    exact ⟨_, rfl, htail⟩

/-- A reader of the first pieces of an input takes the first items of the whole input. -/
theorem Takes.pop_early (hstable : Stable front) {later : List β} (h : Takes front (input ++ later) items left)
    (hs : Stuck front left) {r : ρ} {rest : List β} (hfront : front input = .item r rest) :
    ∃ more, items = r :: more ∧ Takes front (rest ++ later) more left := h.pop hs (hstable.item hfront later)

/-- What is bad among the first pieces is what follows every item. -/
theorem Takes.bad_early (hstable : Stable front) {later : List β} (h : Takes front (input ++ later) items left) {e : ε}
    (hfront : front input = .bad e) : items = [] ∧ front left = .bad e := by
  have hbad := hstable.bad hfront later
  obtain ⟨hitems, hleft⟩ := h.stuck_nil fun r rest he => by rw [hbad] at he; cases he
  exact ⟨hitems, hleft ▸ hbad⟩

/-- Items written one after the other are read one after the other. -/
theorem takes_written {write : ρ → List β} (hwrite : ∀ r ∈ items, ∀ later, front (write r ++ later) = .item r later)
    (later : List β) : Takes front ((items.map write).flatten ++ later) items later := by
  induction items with
  | nil => exact .none later
  | cons r items ih =>
    rw [List.map_cons, List.flatten_cons, List.append_assoc]
    exact .next (hwrite r List.mem_cons_self _) (ih fun q hq => hwrite q (List.mem_cons_of_mem r hq))

/-- An input read to its end is its items as they were written. -/
theorem Takes.written {write : ρ → List β} {good : ρ → Prop}
    (hread : ∀ {input r rest}, front input = .item r rest → good r ∧ input = write r ++ rest)
    (h : Takes front input items left) : (∀ r ∈ items, good r) ∧ input = (items.map write).flatten ++ left := by
  induction h with
  | none input => exact ⟨fun r hr => absurd hr List.not_mem_nil, rfl⟩
  | @next input r rest items left hfront _ ih =>
    obtain ⟨hgood, hinput⟩ := hread hfront
    refine ⟨fun q hq => ?_, ?_⟩
    · rcases List.mem_cons.mp hq with rfl | hq
      · exact hgood
      · exact ih.1 q hq
    · rw [hinput, ih.2, List.map_cons, List.flatten_cons, List.append_assoc]

end OpenFelt.Chunks
