/-
  OpenFelt.Network.Frames — the framing of the loopback transport (`network_transport.rs`).

  A frame is a four-byte big-endian length and that many bytes of JSON. The decoder buffers
  what the stream hands over, however it is cut, and reads one message off the front at a
  time. However the pieces and the reads interleave, the messages come out as they went in,
  and a bad header stands behind every good frame before it (`frames_round_trip`).
-/

import Mathlib.Algebra.GroupWithZero.Nat
import Mathlib.Algebra.Ring.Int.Defs
import Mathlib.Data.List.Basic
import OpenFelt.Lib.Chunks

namespace OpenFelt

def maxWireFrameBytes : Nat := 64 * 1024
def maxWireBufferBytes : Nat := (maxWireFrameBytes + 4) * 4

/-- What the transport's calls answer with. A write that times out is not modelled. -/
inductive TransportError
  | io (error : String)
  | emptyFrame
  | frameTooLarge (length : Nat)
  | bufferLimitExceeded
  | truncatedFrame
  | malformedJson (message : String)
  deriving Repr, DecidableEq

/-- `serde_json` for one message type. -/
structure Serde (α : Type) where
  toVec : α → Except String (List UInt8)
  fromSlice : List UInt8 → Except String α

/-- What is written reads back. -/
def Serde.RoundTrips {α : Type} (serde : Serde α) : Prop :=
  ∀ message payload, serde.toVec message = .ok payload → serde.fromSlice payload = .ok message

/-- `u32::to_be_bytes`. -/
def toBeBytes (n : Nat) : List UInt8 :=
  [UInt8.ofNat (n / 2 ^ 24), UInt8.ofNat (n / 2 ^ 16), UInt8.ofNat (n / 2 ^ 8), UInt8.ofNat n]

/-- `u32::from_be_bytes`. -/
def fromBeBytes (header : List UInt8) : Nat := header.foldl (fun n byte => n * 2 ^ 8 + byte.toNat) 0

def encodeFrame {α : Type} (serde : Serde α) (message : α) : Except TransportError (List UInt8) :=
  match serde.toVec message with
  | .error text => .error (.malformedJson text)
  | .ok payload =>
    if payload = [] then .error .emptyFrame
    else if payload.length > maxWireFrameBytes then .error (.frameTooLarge payload.length)
    else .ok (toBeBytes payload.length ++ payload)

structure FrameDecoder where
  buffer : List UInt8 := []
  deriving Repr, DecidableEq

namespace FrameDecoder

def bufferedLen (d : FrameDecoder) : Nat := d.buffer.length

def validateAnnouncedLength (d : FrameDecoder) : Except TransportError Unit :=
  if d.buffer.length < 4 then .ok ()
  else
    let length := fromBeBytes (d.buffer.take 4)
    if length = 0 then .error .emptyFrame
    else if length > maxWireFrameBytes then .error (.frameTooLarge length)
    else .ok ()

def push (d : FrameDecoder) (bytes : List UInt8) : Except TransportError Unit × FrameDecoder :=
  if d.buffer.length + bytes.length > maxWireBufferBytes then (.error .bufferLimitExceeded, d)
  else
    let d' : FrameDecoder := { buffer := d.buffer ++ bytes }
    (d'.validateAnnouncedLength, d')

/-- A frame that is not JSON of the type is dropped with the error. -/
def decodeNext {α : Type} (serde : Serde α) (d : FrameDecoder) : Except TransportError (Option α) × FrameDecoder :=
  match d.validateAnnouncedLength with
  | .error e => (.error e, d)
  | .ok () =>
    if d.buffer.length < 4 then (.ok none, d)
    else
      let length := fromBeBytes (d.buffer.take 4)
      if d.buffer.length < 4 + length then (.ok none, d)
      else
        let payload := (d.buffer.drop 4).take length
        let d' : FrameDecoder := { buffer := d.buffer.drop (4 + length) }
        match serde.fromSlice payload with
        | .ok message => (.ok (some message), d')
        | .error text => (.error (.malformedJson text), d')

/-- The loop of `finish`, from `cursor` on. -/
def finishFrom (d : FrameDecoder) (cursor : Nat) : Except TransportError Unit :=
  if cursor < d.buffer.length then
    if d.buffer.length - cursor < 4 then .error .truncatedFrame
    else
      let length := fromBeBytes ((d.buffer.drop cursor).take 4)
      if length = 0 then .error .emptyFrame
      else if length > maxWireFrameBytes then .error (.frameTooLarge length)
      else if d.buffer.length - cursor - 4 < length then .error .truncatedFrame
      else d.finishFrom (cursor + 4 + length)
  else .ok ()
termination_by d.buffer.length - cursor

def finish (d : FrameDecoder) : Except TransportError Unit := d.finishFrom 0

end FrameDecoder

inductive ReadStatus
  | opened
  | closed
  deriving Repr, DecidableEq

/-- What one `read` of the stream gives; no bytes is the end of the stream. -/
inductive ReadOutcome
  | bytes (bytes : List UInt8)
  | interrupted
  | wouldBlock
  | failed (error : String)

/-- A stream that has nothing more to give blocks. -/
def readAvailable : List ReadOutcome → FrameDecoder → Except TransportError ReadStatus × FrameDecoder
  | .bytes bytes :: reads, d =>
    if bytes = [] then
      match d.finish with
      | .ok () => (.ok .closed, d)
      | .error e => (.error e, d)
    else
      match d.push bytes with
      | (.ok (), d') => readAvailable reads d'
      | (.error e, d') => (.error e, d')
  | .interrupted :: reads, d => readAvailable reads d
  | .failed error :: _, d => (.error (.io error), d)
  | .wouldBlock :: _, d => (.ok .opened, d)
  | [], d => (.ok .opened, d)

/-! ## The frame at the front -/

open Chunks

/-- What the decoder's buffer starts with. -/
def frameFront : List UInt8 → Front UInt8 (List UInt8) TransportError
  | a :: b :: c :: d :: body =>
    let length := fromBeBytes [a, b, c, d]
    if length = 0 then .bad .emptyFrame
    else if length > maxWireFrameBytes then .bad (.frameTooLarge length)
    else if body.length < length then .more
    else .item (body.take length) (body.drop length)
  | _ => .more

def frameOf (payload : List UInt8) : List UInt8 := toBeBytes payload.length ++ payload

/-- A payload that fits a frame. -/
def Framed (payload : List UInt8) : Prop := payload ≠ [] ∧ payload.length ≤ maxWireFrameBytes

/-- A whole number of well-formed frames. -/
def WholeFrames (bytes : List UInt8) : Prop :=
  ∃ payloads : List (List UInt8), (∀ payload ∈ payloads, Framed payload) ∧ bytes = (payloads.map frameOf).flatten

@[simp] theorem fromBeBytes_four (a b c d : UInt8) :
    fromBeBytes [a, b, c, d] = ((a.toNat * 2 ^ 8 + b.toNat) * 2 ^ 8 + c.toNat) * 2 ^ 8 + d.toNat := by
  simp [fromBeBytes]

theorem fromBeBytes_toBeBytes {n : Nat} (h : n < 2 ^ 32) : fromBeBytes (toBeBytes n) = n := by
  rw [toBeBytes, fromBeBytes_four]
  simp only [UInt8.toNat_ofNat']
  omega

theorem toBeBytes_fromBeBytes (a b c d : UInt8) : toBeBytes (fromBeBytes [a, b, c, d]) = [a, b, c, d] := by
  have ha := a.toNat_lt
  have hb := b.toNat_lt
  have hc := c.toNat_lt
  have hd := d.toNat_lt
  rw [fromBeBytes_four, toBeBytes]
  simp only [List.cons.injEq, and_true, ← UInt8.toNat_inj, UInt8.toNat_ofNat']
  omega

theorem frameFront_frameOf {payload : List UInt8} (h : Framed payload) (later : List UInt8) :
    frameFront (frameOf payload ++ later) = .item payload later := by
  obtain ⟨hne, hfits⟩ := h
  have hpos := List.length_pos_iff.mpr hne
  have hlength : fromBeBytes (toBeBytes payload.length) = payload.length :=
    fromBeBytes_toBeBytes (by unfold maxWireFrameBytes at hfits; omega)
  unfold toBeBytes at hlength
  rw [frameOf, toBeBytes, List.append_assoc]
  simp only [List.cons_append, List.nil_append, frameFront]
  rw [hlength, if_neg (by omega), if_neg (by omega), if_neg (by rw [List.length_append]; omega), List.take_left, List.drop_left]

/-- What is read off the front was written there. -/
theorem frameFront_item {input payload rest : List UInt8} (h : frameFront input = .item payload rest) :
    Framed payload ∧ input = frameOf payload ++ rest := by
  match input with
  | [] | [_] | [_, _] | [_, _, _] => cases h
  | a :: b :: c :: d :: body =>
    unfold frameFront at h
    dsimp only at h
    split at h
    · cases h
    split at h
    · cases h
    split at h
    · cases h
    next hpos hle hlong =>
    obtain ⟨rfl, rfl⟩ := Front.item.inj h
    have hlength : (body.take (fromBeBytes [a, b, c, d])).length = fromBeBytes [a, b, c, d] := by
      rw [List.length_take]; omega
    refine ⟨⟨fun he => ?_, by rw [hlength]; omega⟩, ?_⟩
    · rw [he] at hlength
      exact hpos hlength.symm
    · rw [frameOf, hlength, toBeBytes_fromBeBytes, List.append_assoc, List.take_append_drop]
      rfl

theorem frameFront_bad {input : List UInt8} {e : TransportError} (h : frameFront input = .bad e) (later : List UInt8) :
    frameFront (input ++ later) = .bad e := by
  match input with
  | [] | [_] | [_, _] | [_, _, _] => cases h
  | a :: b :: c :: d :: body =>
    unfold frameFront at h ⊢
    dsimp only [List.cons_append] at h ⊢
    split at h
    · rw [if_pos (by assumption)]; exact h
    split at h
    · rw [if_neg (by assumption), if_pos (by assumption)]; exact h
    split at h <;> cases h

theorem frameFront_stable : Stable frameFront where
  item h later := by
    obtain ⟨hframed, rfl⟩ := frameFront_item h
    rw [List.append_assoc]
    exact frameFront_frameOf hframed _
  bad h later := frameFront_bad h later

/-! ## The decoder's calls, by the frame at the front -/

namespace FrameDecoder

variable {α : Type} {serde : Serde α} {d : FrameDecoder}

/-- What a decoder answers once it has taken a payload off its buffer. -/
def received (serde : Serde α) (payload : List UInt8) : Except TransportError (Option α) :=
  match serde.fromSlice payload with
  | .ok message => .ok (some message)
  | .error text => .error (.malformedJson text)

theorem received_ok {payload : List UInt8} {message : α} (h : serde.fromSlice payload = .ok message) :
    received serde payload = .ok (some message) := by rw [received, h]

theorem validateAnnouncedLength_eq (d : FrameDecoder) :
    d.validateAnnouncedLength = match frameFront d.buffer with
      | .bad e => .error e
      | _ => .ok () := by
  obtain ⟨buffer⟩ := d
  match buffer with
  | [] | [_] | [_, _] | [_, _, _] => rfl
  | a :: b :: c :: d :: body =>
    simp only [validateAnnouncedLength, frameFront, List.length_cons, List.take_succ_cons, List.take_zero]
    rw [if_neg (by omega)]
    by_cases hzero : fromBeBytes [a, b, c, d] = 0
    · simp only [if_pos hzero]
      exact if_pos hzero
    by_cases hlarge : fromBeBytes [a, b, c, d] > maxWireFrameBytes
    · simp only [if_neg hzero, if_pos hlarge]
      exact (if_neg hzero).trans (if_pos hlarge)
    by_cases hshort : body.length < fromBeBytes [a, b, c, d]
    · simp only [if_neg hzero, if_neg hlarge, if_pos hshort]
      exact (if_neg hzero).trans (if_neg hlarge)
    · simp only [if_neg hzero, if_neg hlarge, if_neg hshort]
      exact (if_neg hzero).trans (if_neg hlarge)

theorem decodeNext_eq (d : FrameDecoder) :
    d.decodeNext serde = match frameFront d.buffer with
      | .more => (.ok none, d)
      | .bad e => (.error e, d)
      | .item payload rest => (received serde payload, ⟨rest⟩) := by
  rw [decodeNext, validateAnnouncedLength_eq]
  obtain ⟨buffer⟩ := d
  match buffer with
  | [] | [_] | [_, _] | [_, _, _] => rfl
  | a :: b :: c :: d :: body =>
    simp only [frameFront, List.length_cons, List.take_succ_cons, List.take_zero, List.drop_succ_cons, List.drop_zero]
    by_cases hzero : fromBeBytes [a, b, c, d] = 0
    · simp only [if_pos hzero]
    by_cases hlarge : fromBeBytes [a, b, c, d] > maxWireFrameBytes
    · simp only [if_neg hzero, if_pos hlarge]
    by_cases hshort : body.length < fromBeBytes [a, b, c, d]
    · simp only [if_neg hzero, if_neg hlarge, if_pos hshort]
      rw [if_neg (by omega), if_pos (by omega)]
    · simp only [if_neg hzero, if_neg hlarge, if_neg hshort]
      rw [if_neg (by omega), if_neg (by omega), Nat.add_comm 4, List.drop_succ_cons, List.drop_succ_cons,
        List.drop_succ_cons, List.drop_succ_cons, received]
      split <;> rfl

theorem push_eq {bytes : List UInt8} (hfits : d.buffer.length + bytes.length ≤ maxWireBufferBytes) :
    d.push bytes = (match frameFront (d.buffer ++ bytes) with
      | .bad e => .error e
      | _ => .ok (), ⟨d.buffer ++ bytes⟩) := by
  rw [push, if_neg (by omega)]
  exact congrArg (·, _) (validateAnnouncedLength_eq _)

/-- `finish` looks at the frames one after the other, as `decode_next` would. -/
theorem finishFrom_eq {cursor : Nat} (hcursor : cursor < d.buffer.length) :
    d.finishFrom cursor = match frameFront (d.buffer.drop cursor) with
      | .more => .error .truncatedFrame
      | .bad e => .error e
      | .item payload _ => d.finishFrom (cursor + (frameOf payload).length) := by
  rw [finishFrom, if_pos hcursor]
  have hlength : (d.buffer.drop cursor).length = d.buffer.length - cursor := List.length_drop
  match hfront : d.buffer.drop cursor with
  | [] | [_] | [_, _] | [_, _, _] =>
    rw [hfront] at hlength
    simp only [List.length_cons, List.length_nil] at hlength
    exact if_pos (by omega)
  | a :: b :: c :: e :: body =>
    rw [hfront] at hlength
    simp only [List.length_cons] at hlength
    simp only [frameFront, List.take_succ_cons, List.take_zero]
    rw [if_neg (by omega)]
    by_cases hzero : fromBeBytes [a, b, c, e] = 0
    · simp only [if_pos hzero]
      exact if_pos hzero
    by_cases hlarge : fromBeBytes [a, b, c, e] > maxWireFrameBytes
    · simp only [if_neg hzero, if_pos hlarge]
      exact (if_neg hzero).trans (if_pos hlarge)
    by_cases hshort : body.length < fromBeBytes [a, b, c, e]
    · have hleft : d.buffer.length - cursor - 4 < fromBeBytes [a, b, c, e] := by omega
      simp only [if_neg hzero, if_neg hlarge, if_pos hshort]
      exact (if_neg hzero).trans ((if_neg hlarge).trans (if_pos hleft))
    · have hleft : ¬ d.buffer.length - cursor - 4 < fromBeBytes [a, b, c, e] := by omega
      have hframe : cursor + 4 + fromBeBytes [a, b, c, e] =
          cursor + (frameOf (body.take (fromBeBytes [a, b, c, e]))).length := by
        rw [frameOf, List.length_append, List.length_take, toBeBytes]
        simp only [List.length_cons, List.length_nil]
        omega
      simp only [if_neg hzero, if_neg hlarge, if_neg hshort]
      exact (if_neg hzero).trans ((if_neg hlarge).trans ((if_neg hleft).trans (congrArg d.finishFrom hframe)))

theorem finishFrom_end {cursor : Nat} (hcursor : d.buffer.length ≤ cursor) : d.finishFrom cursor = .ok () := by
  rw [finishFrom, if_neg (by omega)]

/-! ## What `finish` accepts -/

theorem wholeFrames_iff {input : List UInt8} : WholeFrames input ↔ ∃ payloads, Takes frameFront input payloads [] := by
  constructor
  · intro ⟨payloads, hframed, hinput⟩
    have htakes := takes_written (fun payload hp later => frameFront_frameOf (hframed payload hp) later) []
    rw [List.append_nil, ← hinput] at htakes
    exact ⟨payloads, htakes⟩
  · intro ⟨payloads, htakes⟩
    obtain ⟨hframed, hinput⟩ := htakes.written frameFront_item
    exact ⟨payloads, hframed, by rw [hinput, List.append_nil]⟩

theorem finishFrom_iff (cursor : Nat) : d.finishFrom cursor = .ok () ↔ WholeFrames (d.buffer.drop cursor) := by
  rw [wholeFrames_iff]
  induction hn : d.buffer.length - cursor using Nat.strongRecOn generalizing cursor with
  | ind n ih =>
    rcases Nat.lt_or_ge cursor d.buffer.length with hcursor | hcursor
    · rw [finishFrom_eq hcursor]
      have hne : d.buffer.drop cursor ≠ [] := fun he => by rw [List.drop_eq_nil_iff] at he; omega
      have hstuck : ∀ payloads, Takes frameFront (d.buffer.drop cursor) payloads [] →
          ¬ Stuck frameFront (d.buffer.drop cursor) := fun payloads htakes hs => hne (htakes.stuck_nil hs).2.symm
      cases hfront : frameFront (d.buffer.drop cursor) with
      | more =>
        refine iff_of_false (fun he => by cases he) fun ⟨payloads, htakes⟩ => hstuck payloads htakes ?_
        exact fun r rest he => by rw [hfront] at he; cases he
      | bad e =>
        refine iff_of_false (fun he => by cases he) fun ⟨payloads, htakes⟩ => hstuck payloads htakes ?_
        exact fun r rest he => by rw [hfront] at he; cases he
      | item payload rest =>
        obtain ⟨_, hinput⟩ := frameFront_item hfront
        have hrest : d.buffer.drop (cursor + (frameOf payload).length) = rest := by
          rw [← List.drop_drop, hinput, List.drop_left]
        have hpos : 0 < (frameOf payload).length := by
          rw [frameOf, List.length_append]
          exact Nat.lt_add_right _ (Nat.zero_lt_succ 3)
        have hnext := ih _ (by omega) (cursor + (frameOf payload).length) rfl
        rw [hrest] at hnext
        refine hnext.trans ⟨fun ⟨payloads, htakes⟩ => ⟨_, .next hfront htakes⟩, fun ⟨payloads, htakes⟩ => ?_⟩
        have hend : Stuck frameFront [] := fun r rest he => by cases he
        obtain ⟨more, _, hmore⟩ := htakes.pop hend hfront
        exact ⟨more, hmore⟩
    · rw [finishFrom_end hcursor, List.drop_eq_nil_iff.mpr hcursor]
      exact iff_of_true rfl ⟨[], .none []⟩

/-- `finish` accepts a whole number of well-formed frames, and nothing else. -/
theorem finish_iff : d.finish = .ok () ↔ WholeFrames d.buffer := finishFrom_iff 0

/-! ## Pieces and reads in any order -/

end FrameDecoder

/-- A call on the decoder. -/
inductive DecoderCall
  | push (bytes : List UInt8)
  | decodeNext

namespace FrameDecoder

variable {α : Type} (serde : Serde α)

/-- The answers to a run of calls, and the decoder they leave. -/
def calls : List DecoderCall → FrameDecoder → List (Except TransportError (Option α)) × FrameDecoder
  | [], d => ([], d)
  | .push bytes :: rest, d =>
    let (answers, d') := calls rest (d.push bytes).2
    ((d.push bytes).1.map (fun _ => none) :: answers, d')
  | .decodeNext :: rest, d =>
    let (answers, d') := calls rest (d.decodeNext serde).2
    ((d.decodeNext serde).1 :: answers, d')

/-- The messages among the answers, in order. -/
def decoded : List (Except TransportError (Option α)) → List α
  | [] => []
  | .ok (some message) :: answers => message :: decoded answers
  | _ :: answers => decoded answers

/-- The pieces of the calls, put together again. -/
def pushed : List DecoderCall → List UInt8
  | [] => []
  | .push bytes :: rest => bytes ++ pushed rest
  | .decodeNext :: rest => pushed rest

/-- Every piece finds room in the buffer. -/
def Fits : List DecoderCall → FrameDecoder → Prop
  | [], _ => True
  | .push bytes :: rest, d => d.bufferedLen + bytes.length ≤ maxWireBufferBytes ∧ Fits rest (d.push bytes).2
  | .decodeNext :: rest, d => Fits rest (d.decodeNext serde).2

variable {serde} {answers : List (Except TransportError (Option α))} {messages : List α} {tail : List UInt8} {d : FrameDecoder}
  {payloads : List (List UInt8)} {ops : List DecoderCall}

/-- Each payload reads as its message. -/
def Reads (serde : Serde α) : List α → List (List UInt8) → Prop :=
  List.Forall₂ fun message payload => serde.fromSlice payload = .ok message

/-- Only what follows every message is answered with an error. -/
def ErrorsLast (messages : List α) (tail : List UInt8) (answers : List (Except TransportError (Option α))) : Prop :=
  ∀ before e after, answers = before ++ .error e :: after → decoded before = messages ∧ frameFront tail = .bad e

theorem ErrorsLast.silent (h : ErrorsLast messages tail answers) : ErrorsLast messages tail (.ok none :: answers) := by
  intro before e after he
  cases before with
  | nil => cases he
  | cons answer before =>
    obtain ⟨rfl, hrest⟩ := List.cons.inj he
    exact h before e after hrest

theorem ErrorsLast.message {message : α} (h : ErrorsLast messages tail answers) :
    ErrorsLast (message :: messages) tail (.ok (some message) :: answers) := by
  intro before e after he
  cases before with
  | nil => cases he
  | cons answer before =>
    obtain ⟨rfl, hrest⟩ := List.cons.inj he
    obtain ⟨hdecoded, hfront⟩ := h before e after hrest
    exact ⟨congrArg (message :: ·) hdecoded, hfront⟩

theorem ErrorsLast.refused {e : TransportError} (hfront : frameFront tail = .bad e) (h : ErrorsLast (α := α) [] tail answers) :
    ErrorsLast [] tail (.error e :: answers) := by
  intro before e' after he
  cases before with
  | nil =>
    obtain ⟨he, _⟩ := List.cons.inj he
    obtain rfl := Except.error.inj he
    exact ⟨rfl, hfront⟩
  | cons answer before =>
    obtain ⟨rfl, hrest⟩ := List.cons.inj he
    exact h before e' after hrest

/-- What a run of calls answers, and what it leaves to be read. -/
structure Reads.Run (serde : Serde α) (messages : List α) (tail later : List UInt8)
    (run : List (Except TransportError (Option α)) × FrameDecoder) : Prop where
  split : ∃ left payloads, messages = decoded run.1 ++ left ∧ Reads serde left payloads ∧
    Takes frameFront (run.2.buffer ++ later) payloads tail
  errors : ErrorsLast messages tail run.1

theorem decodeNext_stuck (serde : Serde α) (hs : Stuck frameFront d.buffer) :
    (∃ e, d.decodeNext serde = (.error e, d) ∧ frameFront d.buffer = .bad e) ∨ d.decodeNext serde = (.ok none, d) := by
  rw [decodeNext_eq]
  cases hfront : frameFront d.buffer with
  | more => exact Or.inr rfl
  | bad e => exact Or.inl ⟨e, rfl, rfl⟩
  | item payload rest => exact absurd hfront (hs _ _)

/-- Whatever is pushed and read in whatever order, the messages come out in the order of
    their frames, and errors only behind all of them. -/
theorem Reads.run (hreads : Reads serde messages payloads) (later : List UInt8) (hfits : Fits serde ops d)
    (htakes : Takes frameFront (d.buffer ++ (pushed ops ++ later)) payloads tail) (hstuck : Stuck frameFront tail) :
    Reads.Run serde messages tail later (calls serde ops d) := by
  induction ops generalizing d messages payloads with
  | nil =>
    refine ⟨⟨messages, payloads, rfl, hreads, htakes⟩, fun before e after he => ?_⟩
    cases before <;> cases he
  | cons op ops ih =>
    cases op with
    | push bytes =>
      obtain ⟨hroom, hfits⟩ := hfits
      have hpush := push_eq hroom
      have hbuffer : (d.push bytes).2.buffer = d.buffer ++ bytes := by rw [hpush]
      rw [pushed, List.append_assoc, ← List.append_assoc] at htakes
      obtain ⟨⟨left, payloads', hsplit, hleft, hrest⟩, herrors⟩ := ih hreads hfits (by rw [hbuffer]; exact htakes)
      simp only [calls]
      rw [show (d.push bytes).1 = _ from congrArg Prod.fst hpush]
      cases hfront : frameFront (d.buffer ++ bytes) with
      | more | item => exact ⟨⟨left, payloads', hsplit, hleft, hrest⟩, herrors.silent⟩
      | bad e =>
        -- the bad header is at the front: nothing is left to be read
        obtain ⟨rfl, htail⟩ := htakes.bad_early frameFront_stable hfront
        cases hreads
        exact ⟨⟨left, payloads', hsplit, hleft, hrest⟩, herrors.refused htail⟩
    | decodeNext =>
      simp only [calls]
      rw [Fits, decodeNext_eq] at hfits
      rw [decodeNext_eq]
      cases hfront : frameFront d.buffer with
      | more =>
        rw [hfront] at hfits
        obtain ⟨⟨left, payloads', hsplit, hleft, hrest⟩, herrors⟩ := ih hreads hfits htakes
        exact ⟨⟨left, payloads', hsplit, hleft, hrest⟩, herrors.silent⟩
      | bad e =>
        rw [hfront] at hfits
        obtain ⟨⟨left, payloads', hsplit, hleft, hrest⟩, herrors⟩ := ih hreads hfits htakes
        obtain ⟨rfl, htail⟩ := htakes.bad_early frameFront_stable hfront
        cases hreads
        exact ⟨⟨left, payloads', hsplit, hleft, hrest⟩, herrors.refused htail⟩
      | item payload rest =>
        rw [hfront] at hfits
        obtain ⟨more, rfl, hmore⟩ := htakes.pop_early frameFront_stable hstuck hfront
        cases hreads with
        | @cons message _ messages _ hread hreads =>
          obtain ⟨⟨left, payloads', hsplit, hleft, hrest⟩, herrors⟩ := ih hreads hfits hmore
          dsimp only
          rw [received_ok hread]
          exact ⟨⟨left, payloads', congrArg (message :: ·) hsplit, hleft, hrest⟩, herrors.message⟩

theorem calls_append (ops more : List DecoderCall) (d : FrameDecoder) :
    calls serde (ops ++ more) d =
      ((calls serde ops d).1 ++ (calls serde more (calls serde ops d).2).1, (calls serde more (calls serde ops d).2).2) := by
  induction ops generalizing d with
  | nil => rfl
  | cons op ops ih => cases op <;> simp only [List.cons_append, calls, ih]

theorem decoded_append (answers more : List (Except TransportError (Option α))) :
    decoded (answers ++ more) = decoded answers ++ decoded more := by
  induction answers with
  | nil => rfl
  | cons answer answers ih =>
    match answer with
    | .ok (some message) => exact congrArg (message :: ·) ih
    | .ok none => exact ih
    | .error e => exact ih

/-- Reading on empties the buffer of its messages. -/
theorem Reads.drain (hreads : Reads serde messages payloads) (htakes : Takes frameFront d.buffer payloads tail)
    (hstuck : Stuck frameFront tail) (n : Nat) :
    decoded (calls serde (List.replicate n .decodeNext) d).1 = messages.take n ∧
      (messages.length ≤ n → (calls serde (List.replicate n .decodeNext) d).2.buffer = tail) := by
  induction n generalizing d messages payloads with
  | zero =>
    refine ⟨rfl, fun hle => ?_⟩
    obtain rfl := List.eq_nil_of_length_eq_zero (Nat.le_zero.mp hle)
    cases hreads
    cases htakes
    rfl
  | succ n ih =>
    rw [List.replicate_succ]
    simp only [calls]
    cases htakes with
    | none =>
      cases hreads
      obtain ⟨hdecoded, hbuffer⟩ := ih .nil (.none _)
      rcases decodeNext_stuck serde hstuck with ⟨e, he, _⟩ | he
      · rw [he]; exact ⟨by rw [List.take_nil]; exact hdecoded.trans List.take_nil, fun _ => hbuffer (Nat.zero_le n)⟩
      · rw [he]; exact ⟨by rw [List.take_nil]; exact hdecoded.trans List.take_nil, fun _ => hbuffer (Nat.zero_le n)⟩
    | @next _ payload rest _ _ hfront hrest =>
      cases hreads with
      | @cons message _ messages _ hread hreads =>
        obtain ⟨hdecoded, hbuffer⟩ := ih (d := ⟨rest⟩) hreads hrest
        have hnext : d.decodeNext serde = (.ok (some message), ⟨rest⟩) := by
          rw [decodeNext_eq, hfront]
          exact congrArg (·, (⟨rest⟩ : FrameDecoder)) (received_ok hread)
        rw [hnext]
        exact ⟨congrArg (message :: ·) hdecoded, fun hle => hbuffer (Nat.le_of_succ_le_succ hle)⟩

/-- Once everything has been pushed, enough reads bring every message. -/
theorem Reads.all (hreads : Reads serde messages payloads) (hfits : Fits serde ops d)
    (htakes : Takes frameFront (d.buffer ++ pushed ops) payloads tail) (hstuck : Stuck frameFront tail) {n : Nat}
    (hn : messages.length ≤ n) :
    decoded (calls serde (ops ++ List.replicate n .decodeNext) d).1 = messages ∧
      (calls serde (ops ++ List.replicate n .decodeNext) d).2.buffer = tail := by
  rw [← List.append_nil (pushed ops)] at htakes
  obtain ⟨left, payloads', hsplit, hleft, hrest⟩ := (hreads.run [] hfits htakes hstuck).split
  rw [List.append_nil] at hrest
  obtain ⟨hdecoded, hbuffer⟩ := hleft.drain hrest hstuck n
  have hlength : left.length ≤ n := by
    have hle := congrArg List.length hsplit
    rw [List.length_append] at hle
    omega
  rw [calls_append, decoded_append]
  exact ⟨by rw [hdecoded, List.take_of_length_le hlength]; exact hsplit.symm, hbuffer hlength⟩

/-! ## What the stream hands over -/

/-- The pieces a stream gives before it ends, blocks or fails. -/
def incoming : List ReadOutcome → List (List UInt8)
  | .bytes bytes :: reads => if bytes = [] then [] else bytes :: incoming reads
  | .interrupted :: reads => incoming reads
  | _ => []

/-- Reading what is available pushes the pieces of the stream one after the other, all of them
    unless one is refused, and the stream closes on whole frames only. -/
theorem readAvailable_pushes (serde : Serde α) (reads : List ReadOutcome) (d : FrameDecoder) :
    ∃ n, (readAvailable reads d).2 = (calls serde (((incoming reads).take n).map .push) d).2 ∧
      ∀ status, (readAvailable reads d).1 = .ok status → (incoming reads).length ≤ n ∧
        (status = .closed → WholeFrames (readAvailable reads d).2.buffer) := by
  induction reads generalizing d with
  | nil => exact ⟨0, rfl, fun status hs => ⟨Nat.le_refl 0, fun he => by rw [he] at hs; cases hs⟩⟩
  | cons outcome reads ih =>
    cases outcome with
    | bytes bytes =>
      rw [readAvailable, incoming]
      by_cases hend : bytes = []
      · rw [if_pos hend, if_pos hend]
        cases hfinish : d.finish with
        | ok => exact ⟨0, rfl, fun status _ => ⟨Nat.le_refl 0, fun _ => finish_iff.mp hfinish⟩⟩
        | error e => exact ⟨0, rfl, fun status hs => by cases hs⟩
      · rw [if_neg hend, if_neg hend]
        cases hpush : d.push bytes with
        | mk answer d' =>
          cases answer with
          | ok =>
            obtain ⟨n, hleft, hall⟩ := ih d'
            refine ⟨n + 1, ?_, fun status hs => ?_⟩
            · simp only [List.take_succ_cons, List.map_cons, calls, hpush]
              exact hleft
            · obtain ⟨hlength, hclosed⟩ := hall status hs
              exact ⟨Nat.succ_le_succ hlength, hclosed⟩
          | error e =>
            refine ⟨1, ?_, fun status hs => by cases hs⟩
            simp only [List.take_succ_cons, List.take_zero, List.map_cons, List.map_nil, calls, hpush]
    | interrupted => exact ih d
    | wouldBlock => exact ⟨0, rfl, fun status hs => ⟨Nat.le_refl 0, fun he => by rw [he] at hs; cases hs⟩⟩
    | failed error => exact ⟨0, rfl, fun status hs => by cases hs⟩

/-! ## The round trip -/

theorem encodeFrame_ok {message : α} {frame : List UInt8} (h : encodeFrame serde message = .ok frame) :
    ∃ payload, serde.toVec message = .ok payload ∧ Framed payload ∧ frame = frameOf payload := by
  unfold encodeFrame at h
  cases hpayload : serde.toVec message with
  | error text => rw [hpayload] at h; cases h
  | ok payload =>
    rw [hpayload] at h
    dsimp only at h
    split at h
    · cases h
    split at h
    · cases h
    next hne hfits => exact ⟨payload, rfl, ⟨hne, by omega⟩, (Except.ok.inj h).symm⟩

/-- The frames of messages that were accepted hold payloads that read as the messages. -/
theorem reads_encoded (hserde : serde.RoundTrips) {frames : List (List UInt8)}
    (hframes : messages.mapM (encodeFrame serde) = .ok frames) :
    ∃ payloads, Reads serde messages payloads ∧ (∀ payload ∈ payloads, Framed payload) ∧ frames = payloads.map frameOf := by
  induction messages generalizing frames with
  | nil =>
    obtain rfl := Except.ok.inj hframes
    exact ⟨[], .nil, fun payload hp => absurd hp List.not_mem_nil, rfl⟩
  | cons message messages ih =>
    rw [List.mapM_cons] at hframes
    cases hframe : encodeFrame serde message with
    | error e => rw [hframe] at hframes; cases hframes
    | ok frame =>
      cases hrest : messages.mapM (encodeFrame serde) with
      | error e => rw [hframe, hrest] at hframes; cases hframes
      | ok rest =>
        rw [hframe, hrest] at hframes
        obtain rfl := Except.ok.inj hframes
        obtain ⟨payload, hvec, hframed, rfl⟩ := encodeFrame_ok hframe
        obtain ⟨payloads, hreads, hall, rfl⟩ := ih hrest
        refine ⟨payload :: payloads, .cons (hserde message payload hvec) hreads, fun q hq => ?_, rfl⟩
        rcases List.mem_cons.mp hq with rfl | hq
        · exact hframed
        · exact hall q hq

/-- A header that announces no bytes, or more than a frame holds, and the error it is met with. -/
def BadHeader (header : List UInt8) (error : TransportError) : Prop :=
  header.length = 4 ∧ (fromBeBytes header = 0 ∧ error = .emptyFrame ∨
    maxWireFrameBytes < fromBeBytes header ∧ error = .frameTooLarge (fromBeBytes header))

theorem BadHeader.front {header : List UInt8} {error : TransportError} (h : BadHeader header error) (tail : List UInt8) :
    frameFront (header ++ tail) = .bad error := by
  obtain ⟨hlength, hbad⟩ := h
  match header, hlength with
  | [a, b, c, d], _ =>
    rcases hbad with ⟨hzero, rfl⟩ | ⟨hlarge, rfl⟩
    · simp only [List.cons_append, List.nil_append, frameFront, if_pos hzero]
    · have hzero : ¬ fromBeBytes [a, b, c, d] = 0 := by omega
      simp only [List.cons_append, List.nil_append, frameFront, if_neg hzero, if_pos hlarge]

/-- However the frames of accepted messages are cut, and whenever the decoder is asked for the
    next one, it answers without an error, with the messages in their order, and with all of them
    once they have been pushed and asked for. It finishes on a whole number of well-formed frames
    only. A bad header is an error that stands behind every message of the good frames before it,
    and is met as soon as these have been read. -/
theorem frames_round_trip (serde : Serde α) (hserde : serde.RoundTrips) (messages : List α) (frames : List (List UInt8))
    (hframes : messages.mapM (encodeFrame serde) = .ok frames) :
    (∀ ops, Fits serde ops {} → pushed ops <+: frames.flatten →
      (∀ e, .error e ∉ (calls serde ops {}).1) ∧ decoded (calls serde ops {}).1 <+: messages ∧
      (pushed ops = frames.flatten → ∀ n, messages.length ≤ n →
        let run := calls serde (ops ++ List.replicate n .decodeNext) {}
        decoded run.1 = messages ∧ run.2.buffer = [])) ∧
    (∀ d : FrameDecoder, d.finish = .ok () ↔ WholeFrames d.buffer) ∧
    (∀ header tail error, BadHeader header error → ∀ ops, Fits serde ops {} →
      pushed ops = frames.flatten ++ (header ++ tail) →
      (∀ before e after, (calls serde ops {}).1 = before ++ .error e :: after → decoded before = messages ∧ e = error) ∧
      ∀ n, messages.length ≤ n →
        let run := calls serde (ops ++ List.replicate n .decodeNext) {}
        decoded run.1 = messages ∧ run.2.decodeNext serde = (.error error, run.2)) ∧
    ∀ reads d, ∃ n, (readAvailable reads d).2 = (calls serde (((incoming reads).take n).map .push) d).2 ∧
      ∀ status, (readAvailable reads d).1 = .ok status → (incoming reads).length ≤ n ∧
        (status = .closed → WholeFrames (readAvailable reads d).2.buffer) := by
  obtain ⟨payloads, hreads, hframed, rfl⟩ := reads_encoded hserde hframes
  have htakes := takes_written fun payload hp later => frameFront_frameOf (hframed payload hp) later
  refine ⟨fun ops hfits ⟨later, hwire⟩ => ?_, fun d => finish_iff, fun header tail error hbad ops hfits hwire => ?_,
    readAvailable_pushes serde⟩
  · have hend : Stuck frameFront [] := fun r rest he => by cases he
    have hall := htakes []
    rw [List.append_nil] at hall
    have hrun := hreads.run (d := {}) later hfits (by rw [List.nil_append, hwire]; exact hall) hend
    obtain ⟨left, _, hsplit, _⟩ := hrun.split
    refine ⟨fun e he => ?_, ⟨left, hsplit.symm⟩, fun hpushed n hn => ?_⟩
    · obtain ⟨before, after, hanswers⟩ := List.append_of_mem he
      cases (hrun.errors before e after hanswers).2
    · exact hreads.all (d := {}) hfits (by rw [List.nil_append, hpushed]; exact hall) hend hn
  · have hfront := hbad.front tail
    have hend : Stuck frameFront (header ++ tail) := fun r rest he => by rw [hfront] at he; cases he
    have hall : Takes frameFront (({} : FrameDecoder).buffer ++ pushed ops) payloads (header ++ tail) := by
      rw [List.nil_append, hwire]; exact htakes _
    refine ⟨fun before e after hanswers => ?_, fun n hn => ?_⟩
    · have hrun := hreads.run [] hfits (by rw [List.append_nil]; exact hall) hend
      obtain ⟨hdecoded, he⟩ := hrun.errors before e after hanswers
      exact ⟨hdecoded, Front.bad.inj (he.symm.trans hfront)⟩
    · obtain ⟨hdecoded, hbuffer⟩ := hreads.all hfits hall hend hn
      refine ⟨hdecoded, ?_⟩
      rw [decodeNext_eq, hbuffer, hfront]

/-- Two of the client's messages that carry no data, and their JSON. -/
inductive BareMessage
  | snapshotRequest
  | close
  deriving DecidableEq

def BareMessage.json : BareMessage → List UInt8
  | .snapshotRequest => "\x7b\"kind\":\"snapshot_request\"\x7d".toList.map fun c => UInt8.ofNat c.toNat
  | .close => "\x7b\"kind\":\"close\"\x7d".toList.map fun c => UInt8.ofNat c.toNat

def bareSerde : Serde BareMessage where
  toVec message := .ok message.json
  fromSlice payload :=
    if payload = BareMessage.json .snapshotRequest then .ok .snapshotRequest
    else if payload = BareMessage.json .close then .ok .close
    else .error "expected value"

/-- The two frames, cut inside the second header, with a read too early. -/
def cutInHeader : List DecoderCall :=
  let wire := frameOf (BareMessage.json .snapshotRequest) ++ frameOf (BareMessage.json .close)
  [.push (wire.take 34), .decodeNext, .decodeNext, .push (wire.drop 34)]

theorem frames_round_trip_cut :
    let run := calls bareSerde (cutInHeader ++ List.replicate 2 .decodeNext) {}
    decoded run.1 = [.snapshotRequest, .close] ∧ run.2.buffer = [] := by
  have hserde : bareSerde.RoundTrips := fun message payload h => by
    obtain rfl := Except.ok.inj h
    cases message <;> decide +kernel
  obtain ⟨hround, -⟩ := frames_round_trip bareSerde hserde [.snapshotRequest, .close]
    [frameOf (BareMessage.json .snapshotRequest), frameOf (BareMessage.json .close)] (by decide +kernel)
  have hwire : pushed cutInHeader = [frameOf (BareMessage.json .snapshotRequest), frameOf (BareMessage.json .close)].flatten := by
    decide +kernel
  have hfits : Fits bareSerde cutInHeader {} := ⟨by decide +kernel, by decide +kernel, trivial⟩
  exact (hround cutInHeader hfits (hwire ▸ List.prefix_refl _)).2.2 hwire 2 (Nat.le_refl 2)

end FrameDecoder

end OpenFelt
