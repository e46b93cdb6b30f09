/-
  OpenFelt.Lib.Mailbox — one worker that answers calls out of a bounded mailbox.

  Any number of callers put calls into one mailbox; the worker takes them out and answers
  each on a channel of its own. A request the worker stops at ends it: the calls then in
  the mailbox are dropped, and those made later are turned away. Whatever way callers and worker
  interleave:
  - `Run.order`: the worker takes the calls in the order they were put in.
  - `Run.serial`: it is where a serial run of those calls leaves it, and answered as that
    run answers.
  - `Run.replied`, `Run.replied_once`: no call is answered twice, and none is lost.
-/

import Mathlib.Algebra.GroupWithZero.Nat
import Mathlib.Algebra.Ring.Int.Defs
import Mathlib.Data.List.Nodup

namespace OpenFelt.Mailbox

variable {σ ρ α : Type*}

/-- A call; its ticket tells it from every other. -/
structure Call (ρ : Type*) where
  ticket : Nat
  request : ρ

/-- What a caller's channel brings. -/
inductive Reply (α : Type*) where
  | answered (answer : α)
  /-- The worker ended with the call unserved. -/
  | dropped
  /-- The worker had ended before the call. -/
  | turnedAway

inductive Phase where
  | running
  /-- The worker takes no more calls; its mailbox still does. -/
  | leaving
  | gone
  deriving DecidableEq

structure Actor (σ ρ α : Type*) where
  worker : σ
  phase : Phase
  mailbox : List (Call ρ)
  nextTicket : Nat
  replies : List (Nat × Reply α)

def Actor.start (worker : σ) : Actor σ ρ α := ⟨worker, .running, [], 0, []⟩

inductive Event (ρ α : Type*) where
  | sent (call : Call ρ)
  | turnedAway (call : Call ρ)
  | served (call : Call ρ) (answer : α)
  | stopped (call : Call ρ)
  | closed

/-- A caller that finds the mailbox full waits, which is no step. -/
inductive Step (serve : σ → ρ → Option (α × σ)) (capacity : Nat) :
    Actor σ ρ α → Event ρ α → Actor σ ρ α → Prop
  | send (a : Actor σ ρ α) (request : ρ) : a.phase ≠ .gone → a.mailbox.length < capacity →
      Step serve capacity a (.sent ⟨a.nextTicket, request⟩)
        { a with mailbox := a.mailbox ++ [⟨a.nextTicket, request⟩], nextTicket := a.nextTicket + 1 }
  | turnAway (a : Actor σ ρ α) (request : ρ) : a.phase = .gone →
      Step serve capacity a (.turnedAway ⟨a.nextTicket, request⟩)
        { a with nextTicket := a.nextTicket + 1, replies := a.replies ++ [(a.nextTicket, .turnedAway)] }
  | serve (a : Actor σ ρ α) (call : Call ρ) (rest : List (Call ρ)) (answer : α) (worker : σ) : a.phase = .running →
      a.mailbox = call :: rest → serve a.worker call.request = some (answer, worker) →
      Step serve capacity a (.served call answer)
        { a with worker := worker, mailbox := rest, replies := a.replies ++ [(call.ticket, .answered answer)] }
  | stop (a : Actor σ ρ α) (call : Call ρ) (rest : List (Call ρ)) : a.phase = .running →
      a.mailbox = call :: rest → serve a.worker call.request = none →
      Step serve capacity a (.stopped call) { a with phase := .leaving, mailbox := rest }
  | close (a : Actor σ ρ α) : a.phase = .leaving →
      Step serve capacity a .closed
        { a with phase := .gone, mailbox := [], replies := a.replies ++ a.mailbox.map fun c => (c.ticket, .dropped) }

inductive Run (serve : σ → ρ → Option (α × σ)) (capacity : Nat) (worker : σ) :
    List (Event ρ α) → Actor σ ρ α → Prop
  | start : Run serve capacity worker [] (.start worker)
  | step {events : List (Event ρ α)} {e : Event ρ α} {a b : Actor σ ρ α} : Run serve capacity worker events a →
      Step serve capacity a e b → Run serve capacity worker (events ++ [e]) b

/-- The calls served one after another, with no mailbox between. -/
inductive Serial (serve : σ → ρ → Option (α × σ)) : σ → List (ρ × α) → σ → Prop
  | nil (s : σ) : Serial serve s [] s
  | snoc {s t u : σ} {served : List (ρ × α)} {request : ρ} {answer : α} : Serial serve s served t →
      serve t request = some (answer, u) → Serial serve s (served ++ [(request, answer)]) u

/-! ## What a trace says -/

namespace Event

def sentCall : Event ρ α → Option (Call ρ)
  | sent call => some call
  | turnedAway _ | served _ _ | stopped _ | closed => none

def servedCall : Event ρ α → Option (Call ρ × α)
  | served call answer => some (call, answer)
  | sent _ | turnedAway _ | stopped _ | closed => none

def stoppedCall : Event ρ α → Option (Call ρ)
  | stopped call => some call
  | sent _ | turnedAway _ | served _ _ | closed => none

end Event

def sentCalls (events : List (Event ρ α)) : List (Call ρ) := events.filterMap (·.sentCall)

def servedCalls (events : List (Event ρ α)) : List (Call ρ × α) := events.filterMap (·.servedCall)

def stoppedCalls (events : List (Event ρ α)) : List (Call ρ) := events.filterMap (·.stoppedCall)

section traces
variable (events : List (Event ρ α)) (e : Event ρ α)

@[simp] theorem sentCalls_snoc : sentCalls (events ++ [e]) = sentCalls events ++ e.sentCall.toList := by
  cases h : e.sentCall <;> simp [sentCalls, h]

@[simp] theorem servedCalls_snoc : servedCalls (events ++ [e]) = servedCalls events ++ e.servedCall.toList := by
  cases h : e.servedCall <;> simp [servedCalls, h]

@[simp] theorem stoppedCalls_snoc : stoppedCalls (events ++ [e]) = stoppedCalls events ++ e.stoppedCall.toList := by
  cases h : e.stoppedCall <;> simp [stoppedCalls, h]

end traces

/-! ## Runs -/

section runs
variable {serve : σ → ρ → Option (α × σ)} {capacity : Nat} {worker : σ} {events : List (Event ρ α)} {e : Event ρ α}
  {a b : Actor σ ρ α}

/-- What was put in is what was taken out, then what a worker not yet gone has before it. -/
theorem Run.order (hr : Run serve capacity worker events a) : ∃ waiting,
    sentCalls events = (servedCalls events).map Prod.fst ++ stoppedCalls events ++ waiting ∧
      (a.phase ≠ .gone → a.mailbox = waiting) ∧ (a.phase = .running → stoppedCalls events = []) := by
  induction hr with
  | start => exact ⟨[], rfl, fun _ => rfl, fun _ => rfl⟩
  | @step _ _ a b _ hs ih =>
    obtain ⟨waiting, hsent, hbox, hnone⟩ := ih
    cases hs with
    | send request hopen _ =>
      refine ⟨waiting ++ [⟨a.nextTicket, request⟩], ?_, fun _ => ?_, fun h => ?_⟩
      · simp [hsent, Event.sentCall, Event.servedCall, Event.stoppedCall]
      · rw [hbox hopen]
      · simpa [Event.stoppedCall] using hnone h
    | turnAway request hgone =>
      refine ⟨waiting, by simp [hsent, Event.sentCall, Event.servedCall, Event.stoppedCall], hbox, fun h => ?_⟩
      simpa [Event.stoppedCall] using hnone h
    | serve call rest answer _ hrun hmail _ =>
      have hwaiting : call :: rest = waiting := hmail ▸ hbox (by simp [hrun])
      refine ⟨rest, ?_, fun _ => rfl, fun h => ?_⟩
      · simp [hsent, hnone hrun, Event.sentCall, Event.servedCall, Event.stoppedCall, ← hwaiting]
      · simpa [Event.stoppedCall] using hnone hrun
    | stop call rest hrun hmail _ =>
      have hwaiting : call :: rest = waiting := hmail ▸ hbox (by simp [hrun])
      refine ⟨rest, ?_, fun _ => rfl, fun h => by simp at h⟩
      simp [hsent, hnone hrun, Event.sentCall, Event.servedCall, Event.stoppedCall, ← hwaiting]
    | close hleaving =>
      exact ⟨waiting, by simp [hsent, Event.sentCall, Event.servedCall, Event.stoppedCall], fun h => by simp at h,
        fun h => by simp at h⟩

theorem Run.serial (hr : Run serve capacity worker events a) :
    Serial serve worker ((servedCalls events).map fun c => (c.1.request, c.2)) a.worker := by
  induction hr with
  | start => exact .nil worker
  | step _ hs ih =>
    cases hs with
    | send _ _ _ => simpa [Event.servedCall] using ih
    | turnAway _ _ => simpa [Event.servedCall] using ih
    | serve call _ answer _ _ _ hserve => simpa [Event.servedCall] using ih.snoc hserve
    | stop _ _ _ _ _ => simpa [Event.servedCall] using ih
    | close _ => simpa [Event.servedCall] using ih

theorem Run.bounded (hr : Run serve capacity worker events a) : a.mailbox.length ≤ capacity := by
  induction hr with
  | start => exact Nat.zero_le _
  | step _ hs ih =>
    cases hs with
    | send _ _ hroom => simpa using Nat.succ_le_of_lt hroom
    | turnAway _ _ => exact ih
    | serve _ _ _ _ _ hmail _ =>
      rw [hmail, List.length_cons] at ih
      exact Nat.le_of_succ_le ih
    | stop _ _ _ hmail _ =>
      rw [hmail, List.length_cons] at ih
      exact Nat.le_of_succ_le ih
    | close _ => exact Nat.zero_le _

/-- The tickets with a reply, then those waiting. -/
def Actor.tickets (a : Actor σ ρ α) : List Nat := a.replies.map Prod.fst ++ a.mailbox.map Call.ticket

theorem Run.tickets (hr : Run serve capacity worker events a) : a.tickets.Nodup ∧ ∀ t ∈ a.tickets, t < a.nextTicket := by
  induction hr with
  | start => simp [Actor.tickets, Actor.start]
  | @step _ _ a b _ hs ih =>
    obtain ⟨hnodup, hbelow⟩ := ih
    have hfresh : a.nextTicket ∉ a.tickets := fun h => Nat.lt_irrefl _ (hbelow _ h)
    cases hs with
    | send request _ _ =>
      have heq : a.tickets ++ [a.nextTicket] =
          a.replies.map Prod.fst ++ (a.mailbox ++ [(⟨a.nextTicket, request⟩ : Call ρ)]).map Call.ticket := by
        simp [Actor.tickets]
      rw [Actor.tickets, ← heq]
      refine ⟨List.nodup_append.mpr ⟨hnodup, List.nodup_singleton _, ?_⟩, fun t ht => ?_⟩
      · rintro t ht _ hnew rfl
        exact hfresh (List.mem_singleton.mp hnew ▸ ht)
      · rcases List.mem_append.mp ht with ht | ht
        · exact Nat.lt_succ_of_lt (hbelow t ht)
        · rw [List.mem_singleton.mp ht]; exact Nat.lt_succ_self _
    | turnAway _ _ =>
      have hperm : ((a.replies ++ [(a.nextTicket, Reply.turnedAway)]).map Prod.fst ++ a.mailbox.map Call.ticket).Perm
          (a.nextTicket :: a.tickets) := by
        rw [List.map_append, List.map_singleton, List.append_assoc, List.singleton_append]
        exact List.perm_middle
      refine ⟨hperm.nodup_iff.mpr (List.nodup_cons.mpr ⟨hfresh, hnodup⟩), fun t ht => ?_⟩
      rcases List.mem_cons.mp (hperm.mem_iff.mp ht) with ht | ht
      · rw [ht]; exact Nat.lt_succ_self _
      · exact Nat.lt_succ_of_lt (hbelow t ht)
    | serve call rest answer _ _ hmail _ =>
      have heq : a.tickets = (a.replies ++ [(call.ticket, Reply.answered answer)]).map Prod.fst ++ rest.map Call.ticket := by
        simp [Actor.tickets, hmail]
      rw [heq] at hnodup hbelow
      exact ⟨hnodup, hbelow⟩
    | stop call rest _ hmail _ =>
      have hsub : (a.replies.map Prod.fst ++ rest.map Call.ticket).Sublist a.tickets := by
        rw [Actor.tickets, hmail]
        exact (List.Sublist.refl _).append (List.sublist_cons_self _ _)
      exact ⟨hnodup.sublist hsub, fun t ht => hbelow t (hsub.subset ht)⟩
    | close _ =>
      have heq : a.tickets =
          (a.replies ++ a.mailbox.map fun c : Call ρ => (c.ticket, (Reply.dropped : Reply α))).map Prod.fst ++
            ([] : List (Call ρ)).map Call.ticket := by
        simp [Actor.tickets, Function.comp_def]
      rw [heq] at hnodup hbelow
      exact ⟨hnodup, hbelow⟩

/-- No channel brings two replies. -/
theorem Run.replied_once (hr : Run serve capacity worker events a) : (a.replies.map Prod.fst).Nodup :=
  (List.nodup_append.mp hr.tickets.1).1

/-- A caller has the answer it was served with, and no other. -/
theorem Run.answered (hr : Run serve capacity worker events a) (t : Nat) (answer : α) :
    (t, Reply.answered answer) ∈ a.replies ↔ ∃ call, (call, answer) ∈ servedCalls events ∧ call.ticket = t := by
  induction hr with
  | start => simp [Actor.start, servedCalls]
  | step _ hs ih =>
    cases hs with
    | send _ _ _ => simpa [Event.servedCall] using ih
    | turnAway _ _ => simpa [Event.servedCall] using ih
    | serve call _ given _ _ _ _ =>
      simp only [List.mem_append, ih, servedCalls_snoc, Event.servedCall, Option.toList_some, List.mem_singleton,
        Prod.mk.injEq, Reply.answered.injEq]
      constructor
      · rintro (⟨c, hc, ht⟩ | ⟨rfl, rfl⟩)
        · exact ⟨c, .inl hc, ht⟩
        · exact ⟨call, .inr ⟨rfl, rfl⟩, rfl⟩
      · rintro ⟨c, hc | ⟨rfl, rfl⟩, ht⟩
        · exact .inl ⟨c, hc, ht⟩
        · exact .inr ⟨ht.symm, rfl⟩
    | stop _ _ _ _ _ => simpa [Event.servedCall] using ih
    | close _ => simpa [Event.servedCall] using ih

/-- Every call made has its reply, waits, or was the one the worker stopped at. -/
theorem Run.replied (hr : Run serve capacity worker events a) {t : Nat} (ht : t < a.nextTicket) :
    t ∈ a.tickets ∨ ∃ call ∈ stoppedCalls events, call.ticket = t := by
  induction hr with
  | start => exact absurd ht (Nat.not_lt_zero _)
  | @step _ _ a b _ hs ih =>
    cases hs with
    | send _ _ _ =>
      rcases Nat.lt_succ_iff_lt_or_eq.mp ht with ht | rfl
      · rcases ih ht with h | h
        · refine .inl ?_
          simp only [Actor.tickets, List.mem_append, List.map_append] at h ⊢
          tauto
        · exact .inr (by simpa [Event.stoppedCall] using h)
      · exact .inl (by simp [Actor.tickets])
    | turnAway _ _ =>
      rcases Nat.lt_succ_iff_lt_or_eq.mp ht with ht | rfl
      · rcases ih ht with h | h
        · refine .inl ?_
          simp only [Actor.tickets, List.mem_append, List.map_append] at h ⊢
          tauto
        · exact .inr (by simpa [Event.stoppedCall] using h)
      · exact .inl (by simp [Actor.tickets])
    | serve call rest answer _ _ hmail _ =>
      rcases ih ht with h | h
      · refine .inl ?_
        simp only [Actor.tickets, hmail, List.map_cons, List.mem_append, List.mem_cons, List.map_append, List.map_nil,
          List.not_mem_nil, or_false] at h ⊢
        tauto
      · exact .inr (by simpa [Event.stoppedCall] using h)
    | stop call rest _ hmail _ =>
      rcases ih ht with h | h
      · simp only [Actor.tickets, hmail, List.map_cons, List.mem_append, List.mem_cons] at h
        rcases h with h | rfl | h
        · exact .inl (List.mem_append.mpr (.inl h))
        · exact .inr ⟨call, by simp [Event.stoppedCall], rfl⟩
        · exact .inl (List.mem_append.mpr (.inr h))
      · obtain ⟨c, hc, hct⟩ := h
        exact .inr ⟨c, by simp [hc], hct⟩
    | close _ =>
      rcases ih ht with h | h
      · refine .inl ?_
        simp only [Actor.tickets, List.map_append, List.map_map, List.mem_append] at h ⊢
        exact .inl h
      · exact .inr (by simpa [Event.stoppedCall] using h)

theorem Run.gone_empty (hr : Run serve capacity worker events a) (hgone : a.phase = .gone) : a.mailbox = [] := by
  induction hr with
  | start => rfl
  | step _ hs ih =>
    cases hs with
    | send _ hopen _ => exact absurd hgone hopen
    | turnAway _ _ => exact ih hgone
    | serve _ _ _ _ hrun _ _ => rw [hrun] at hgone; cases hgone
    | stop _ _ _ _ _ => cases hgone
    | close _ => rfl

/-- While calls wait there is a step that is not a caller's. -/
theorem takes_next (capacity : Nat) (hopen : a.phase ≠ .gone) (hmail : a.mailbox ≠ []) :
    ∃ e b, Step serve capacity a e b ∧ e.sentCall = none ∧ b.nextTicket = a.nextTicket ∧
      b.mailbox.length < a.mailbox.length := by
  obtain ⟨call, rest, hmail⟩ := List.exists_cons_of_ne_nil hmail
  have hshorter : rest.length < a.mailbox.length := by rw [hmail]; exact Nat.lt_succ_self _
  cases hphase : a.phase with
  | running =>
    cases hserve : serve a.worker call.request with
    | none => exact ⟨_, _, .stop a call rest hphase hmail hserve, rfl, rfl, hshorter⟩
    | some served => exact ⟨_, _, .serve a call rest served.1 served.2 hphase hmail hserve, rfl, rfl, hshorter⟩
  | leaving => exact ⟨_, _, .close a hphase, rfl, rfl, Nat.lt_of_le_of_lt (Nat.zero_le _) hshorter⟩
  | gone => exact absurd hphase hopen

/-- Left to itself the worker comes to the end of its mailbox. -/
theorem Run.drains (hr : Run serve capacity worker events a) :
    ∃ more b, Run serve capacity worker (events ++ more) b ∧ sentCalls more = [] ∧ b.nextTicket = a.nextTicket ∧
      b.mailbox = [] := by
  generalize hn : a.mailbox.length = n
  induction n using Nat.strong_induction_on generalizing events a with
  | _ n ih =>
    by_cases hmail : a.mailbox = []
    · exact ⟨[], a, by rwa [List.append_nil], rfl, rfl, hmail⟩
    have hopen : a.phase ≠ .gone := fun hgone => hmail (hr.gone_empty hgone)
    have hnext : ∃ e b, Step serve capacity a e b ∧ e.sentCall = none ∧ b.nextTicket = a.nextTicket ∧
        b.mailbox.length < a.mailbox.length := takes_next capacity hopen hmail
    obtain ⟨e, b, hs, hquiet, htickets, hlt⟩ := hnext
    obtain ⟨more, c, hrun, hnone, hsame, hempty⟩ := ih _ (hn ▸ hlt) (hr.step hs) rfl
    rw [List.append_assoc] at hrun
    refine ⟨[e] ++ more, c, hrun, ?_, hsame.trans htickets, hempty⟩
    rw [sentCalls, List.filterMap_append, ← sentCalls, ← sentCalls, hnone, List.append_nil]
    simp [sentCalls, hquiet]

/-- A serial run up to any one of its calls. -/
theorem Serial.at_call {s t : σ} {before after : List (ρ × α)} {request : ρ} {answer : α}
    (h : Serial serve s (before ++ (request, answer) :: after) t) :
    ∃ u v, Serial serve s before u ∧ serve u request = some (answer, v) := by
  generalize hall : before ++ (request, answer) :: after = served at h
  induction h generalizing after with
  | nil => simp at hall
  | @snoc t u served request' answer' hserial hserve ih =>
    rcases List.eq_nil_or_concat' after with rfl | ⟨front, last, rfl⟩
    · obtain ⟨rfl, hlast⟩ := List.append_inj' hall rfl
      cases hlast
      exact ⟨t, u, hserial, hserve⟩
    · rw [← List.cons_append, ← List.append_assoc] at hall
      exact ih (List.append_inj' hall rfl).1

end runs

end OpenFelt.Mailbox
