/-
  OpenFelt.Registry.HistoryFiles — the histories written to a file and read back
  (`src/ring_history.rs`, `save_to_path`, `load_from_path` and `validate_payload`).

  Translation. The document is JSON: `HistoryCodec` stands for the library that writes and
  reads it. A save gives the bytes it publishes, as with checkpoints.

  Proved: a saved store is read back as it was exactly when its hands are sound and
  distinct and its statistics cover them (`loadFromPath_saved_iff`).
-/

import OpenFelt.Protocol.RingHistory
import OpenFelt.Registry.Credentials

namespace OpenFelt

def historyStoreVersion : Nat := 1

def maxHistoryStoreBytes : Nat := 4 * 1024 * 1024

def historyStoreFormat : String := "terminal-poker-safe-ring-history"

inductive HistoryStoreError where
  | tooLarge
  | io (error : String)
  | invalidDocument
  deriving DecidableEq, Repr

def HistoryStoreError.message : HistoryStoreError → String
  | tooLarge => "safe history store exceeds " ++ toString maxHistoryStoreBytes ++ " bytes"
  | io error => "safe history I/O failed: " ++ error
  | invalidDocument => "safe history document is invalid"

structure HistoryStorePayload where
  retentionLimit : Nat
  histories : List SafeRingHandHistory
  statistics : RingStatistics
  deriving DecidableEq, Repr

structure HistoryStoreEnvelope where
  format : String
  version : Nat
  checksum : String
  payload : HistoryStorePayload
  deriving DecidableEq, Repr

structure HistoryStoreReceipt where
  version : Nat
  checksum : String
  bytes : Nat
  histories : Nat
  deriving DecidableEq, Repr

/-- `serde_json`: a payload's canonical bytes, and an envelope printed and read. -/
structure HistoryCodec where
  toVec : HistoryStorePayload → List UInt8
  toVecPretty : HistoryStoreEnvelope → List UInt8
  fromSlice : List UInt8 → Option HistoryStoreEnvelope

/-- What is printed is read as it was. -/
def HistoryCodec.RoundTrips (codec : HistoryCodec) : Prop :=
    ∀ envelope, codec.fromSlice (codec.toVecPretty envelope) = some envelope

def HistoryCodec.checksum (codec : HistoryCodec) (h : Hashes) (payload : HistoryStorePayload) : String :=
  "sha256:" ++ hex (h.sha256 (codec.toVec payload))

/-- `constant_time_eq`. -/
def constantTimeEq (expected candidate : List UInt8) : Bool :=
  (List.range (max expected.length candidate.length)).foldl
    (fun difference index => difference ||| ((expected.getD index 0).toNat ^^^ (candidate.getD index 0).toNat))
    (expected.length ^^^ candidate.length) = 0

/-- The hand a history is of. -/
def SafeRingHandHistory.identity (history : SafeRingHandHistory) : TableId × HandId := (history.tableId, history.handId)

/-- The statistics with one more hand. -/
def RingStatistics.counting (computed : RingStatistics) (history : SafeRingHandHistory) : RingStatistics where
  hands := saturatingAdd64 computed.hands 1
  showdowns := saturatingAdd64 computed.showdowns (if history.publiclyRevealed.isEmpty then 0 else 1)
  acceptedActions := saturatingAdd64 computed.acceptedActions history.actions.length
  potsAwarded := saturatingAdd64 computed.potsAwarded history.awards.length
  chipsAwarded := saturatingAdd64 computed.chipsAwarded (history.awards.map (·.amount)).sum

/-- What the validator finds wrong with a history by itself. -/
def SafeRingHandHistory.unsound (history : SafeRingHandHistory) : Bool :=
  history.version ≠ ringHistoryVersion || maxHistoryActions < history.actions.length || 5 < history.board.length ||
    history.publiclyRevealed.any fun cards => cards.cards.length ≠ 2

/-- The loop of `validate_payload`. -/
def validateHistories : List SafeRingHandHistory → List (TableId × HandId) → RingStatistics →
    Except HistoryStoreError RingStatistics
  | [], _, computed => .ok computed
  | history :: rest, identities, computed =>
    if history.unsound || identities.contains history.identity then .error .invalidDocument
    else validateHistories rest (history.identity :: identities) (computed.counting history)

def validatePayload (payload : HistoryStorePayload) : Except HistoryStoreError Unit :=
  match validateHistories payload.histories [] ⟨0, 0, 0, 0, 0⟩ with
  | .error error => .error error
  | .ok computed =>
    if payload.statistics.hands < computed.hands || payload.statistics.showdowns < computed.showdowns ||
        payload.statistics.acceptedActions < computed.acceptedActions ||
        payload.statistics.potsAwarded < computed.potsAwarded || payload.statistics.chipsAwarded < computed.chipsAwarded then
      .error .invalidDocument
    else .ok ()

namespace RingHistoryStore

def payload (store : RingHistoryStore) : HistoryStorePayload := ⟨maxRetainedHistories, store.histories, store.statistics⟩

/-- The document a store is saved in. -/
def document (h : Hashes) (codec : HistoryCodec) (store : RingHistoryStore) : List UInt8 :=
  codec.toVecPretty ⟨historyStoreFormat, historyStoreVersion, codec.checksum h store.payload, store.payload⟩

def saveToPath (h : Hashes) (codec : HistoryCodec) (store : RingHistoryStore) :
    Except HistoryStoreError (HistoryStoreReceipt × List UInt8) :=
  let bytes := store.document h codec
  if maxHistoryStoreBytes < bytes.length then .error .tooLarge
  else .ok (⟨historyStoreVersion, codec.checksum h store.payload, bytes.length, store.histories.length⟩, bytes)

def loadFromPath (h : Hashes) (codec : HistoryCodec) (bytes : List UInt8) : Except HistoryStoreError RingHistoryStore :=
  if maxHistoryStoreBytes < bytes.length then .error .tooLarge
  else
    match codec.fromSlice bytes with
    | none => .error .invalidDocument
    | some envelope =>
      if envelope.format ≠ historyStoreFormat || envelope.version ≠ historyStoreVersion ||
          envelope.payload.retentionLimit ≠ maxRetainedHistories || maxRetainedHistories < envelope.payload.histories.length then
        .error .invalidDocument
      else if !constantTimeEq (textBytes envelope.checksum) (textBytes (codec.checksum h envelope.payload)) then
        .error .invalidDocument
      else
        match validatePayload envelope.payload with
        | .error error => .error error
        | .ok () => .ok ⟨envelope.payload.histories, envelope.payload.statistics⟩

end RingHistoryStore

/-! ## What the validator accepts -/

section validation
variable {h : Hashes} {codec : HistoryCodec} {store : RingHistoryStore} {histories : List SafeRingHandHistory}

theorem constantTimeEq_refl (bytes : List UInt8) : constantTimeEq bytes bytes = true := by
  unfold constantTimeEq
  have hzero : ∀ (l : List Nat), l.foldl
      (fun difference index => difference ||| ((bytes.getD index 0).toNat ^^^ (bytes.getD index 0).toNat)) 0 = 0 := by
    intro l
    induction l with
    | nil => rfl
    | cons i l ih =>
      rw [List.foldl_cons, Nat.xor_self, Nat.zero_or]
      exact ih
  rw [Nat.xor_self, hzero]
  rfl

/-- The validator goes through the histories exactly when each is sound and none is of a hand already seen. -/
theorem validateHistories_eq (histories : List SafeRingHandHistory) (identities : List (TableId × HandId))
    (computed : RingStatistics) : validateHistories histories identities computed =
      if (∀ history ∈ histories, history.unsound = false) ∧ (∀ history ∈ histories, history.identity ∉ identities) ∧
        (histories.map (·.identity)).Nodup then .ok (histories.foldl RingStatistics.counting computed)
      else .error .invalidDocument := by
  induction histories generalizing identities computed with
  | nil => simp [validateHistories]
  | cons history rest ih =>
    unfold validateHistories
    by_cases hbad : (history.unsound || identities.contains history.identity) = true
    · rw [if_pos hbad, if_neg]
      rintro ⟨hsound, hnew, _⟩
      rw [Bool.or_eq_true, List.contains_iff_mem] at hbad
      rcases hbad with hbad | hbad
      · rw [hsound history List.mem_cons_self] at hbad
        cases hbad
      · exact hnew history List.mem_cons_self hbad
    · rw [if_neg hbad, ih]
      rw [Bool.or_eq_true, List.contains_iff_mem, not_or, Bool.not_eq_true] at hbad
      obtain ⟨hsound, hnew⟩ := hbad
      refine if_congr ?_ rfl rfl
      rw [List.map_cons, List.nodup_cons]
      constructor
      · rintro ⟨hrest, hseen, hdistinct⟩
        refine ⟨?_, ?_, ?_, hdistinct⟩
        · intro other hother
          rcases List.mem_cons.mp hother with rfl | hother
          · exact hsound
          · exact hrest other hother
        · intro other hother
          rcases List.mem_cons.mp hother with rfl | hother
          · exact hnew
          · exact fun hmem => hseen other hother (List.mem_cons_of_mem _ hmem)
        · intro hmem
          obtain ⟨other, hother, he⟩ := List.mem_map.mp hmem
          exact hseen other hother (by rw [he]; exact List.mem_cons_self)
      · rintro ⟨hall, hseen, hfirst, hdistinct⟩
        refine ⟨fun other hother => hall other (List.mem_cons_of_mem _ hother), ?_, hdistinct⟩
        intro other hother hmem
        rcases List.mem_cons.mp hmem with he | hmem
        · exact hfirst (List.mem_map.mpr ⟨other, hother, he⟩)
        · exact hseen other (List.mem_cons_of_mem _ hother) hmem

/-- One set of statistics is within another. -/
structure RingStatistics.Within (computed statistics : RingStatistics) : Prop where
  hands : computed.hands ≤ statistics.hands
  showdowns : computed.showdowns ≤ statistics.showdowns
  acceptedActions : computed.acceptedActions ≤ statistics.acceptedActions
  potsAwarded : computed.potsAwarded ≤ statistics.potsAwarded
  chipsAwarded : computed.chipsAwarded ≤ statistics.chipsAwarded

/-- What a document must keep to, to be read back. -/
structure RingHistoryStore.Valid (store : RingHistoryStore) : Prop where
  retained : store.histories.length ≤ maxRetainedHistories
  sound : ∀ history ∈ store.histories, history.unsound = false
  distinct : (store.histories.map (·.identity)).Nodup
  counted : (store.histories.foldl RingStatistics.counting ⟨0, 0, 0, 0, 0⟩).Within store.statistics

theorem validatePayload_ok_iff (store : RingHistoryStore) : validatePayload store.payload = .ok () ↔
    (∀ history ∈ store.histories, history.unsound = false) ∧ (store.histories.map (·.identity)).Nodup ∧
      (store.histories.foldl RingStatistics.counting ⟨0, 0, 0, 0, 0⟩).Within store.statistics := by
  unfold validatePayload
  rw [validateHistories_eq]
  by_cases hgood : (∀ history ∈ store.payload.histories, history.unsound = false) ∧
      (∀ history ∈ store.payload.histories, history.identity ∉ ([] : List (TableId × HandId))) ∧
        (store.payload.histories.map (·.identity)).Nodup
  · rw [if_pos hgood]
    obtain ⟨hsound, _, hdistinct⟩ := hgood
    dsimp only
    rw [ite_eq_right_iff]
    simp only [Bool.or_eq_true, decide_eq_true_eq, reduceCtorEq, imp_false, not_or, Nat.not_lt]
    constructor
    · rintro ⟨⟨⟨⟨hhands, hshowdowns⟩, hactions⟩, hpots⟩, hchips⟩
      exact ⟨hsound, hdistinct, hhands, hshowdowns, hactions, hpots, hchips⟩
    · rintro ⟨_, _, hhands, hshowdowns, hactions, hpots, hchips⟩
      exact ⟨⟨⟨⟨hhands, hshowdowns⟩, hactions⟩, hpots⟩, hchips⟩
  · rw [if_neg hgood]
    constructor
    · intro he
      cases he
    · rintro ⟨hsound, hdistinct, _⟩
      exact absurd ⟨hsound, fun _ _ hmem => (nomatch hmem), hdistinct⟩ hgood

/-- Only the validator can refuse a document that was saved. -/
theorem loadFromPath_document (hcodec : codec.RoundTrips) (store : RingHistoryStore)
    (hsize : (store.document h codec).length ≤ maxHistoryStoreBytes) :
    RingHistoryStore.loadFromPath h codec (store.document h codec) =
      if maxRetainedHistories < store.histories.length then .error .invalidDocument
      else (validatePayload store.payload).map fun () => store := by
  unfold RingHistoryStore.loadFromPath
  rw [if_neg (Nat.not_lt.mpr hsize)]
  rw [show codec.fromSlice (store.document h codec) = some _ from hcodec _]
  dsimp only
  rw [constantTimeEq_refl, Bool.not_true, if_neg Bool.false_ne_true]
  have hframe : (historyStoreFormat ≠ historyStoreFormat || historyStoreVersion ≠ historyStoreVersion ||
      store.payload.retentionLimit ≠ maxRetainedHistories || maxRetainedHistories < store.payload.histories.length : Bool) =
        decide (maxRetainedHistories < store.histories.length) := by
    simp only [RingHistoryStore.payload, ne_eq, not_true_eq_false, decide_false, Bool.false_or]
    exact decide_eq_decide.mpr Iff.rfl
  rw [hframe]
  by_cases hmany : maxRetainedHistories < store.histories.length
  · rw [if_pos hmany, if_pos (decide_eq_true hmany)]
  · rw [if_neg hmany, if_neg (by rw [decide_eq_false hmany]; exact Bool.false_ne_true)]
    cases validatePayload store.payload with
    | error error => rfl
    | ok u => rfl

/-- A saved document is read back as it was exactly when the store was valid. -/
theorem loadFromPath_saved_iff (hcodec : codec.RoundTrips) (hsize : (store.document h codec).length ≤ maxHistoryStoreBytes) :
    RingHistoryStore.loadFromPath h codec (store.document h codec) = .ok store ↔ store.Valid := by
  rw [loadFromPath_document hcodec store hsize]
  constructor
  · intro hload
    split at hload
    · cases hload
    rename_i hmany
    cases hvalid : validatePayload store.payload with
    | error error =>
      rw [hvalid] at hload
      cases hload
    | ok u =>
      obtain ⟨hsound, hdistinct, hcounted⟩ := (validatePayload_ok_iff store).mp hvalid
      exact ⟨Nat.not_lt.mp hmany, hsound, hdistinct, hcounted⟩
  · intro hvalid
    rw [if_neg (Nat.not_lt.mpr hvalid.retained),
      (validatePayload_ok_iff store).mpr ⟨hvalid.sound, hvalid.distinct, hvalid.counted⟩]
    rfl

end validation

end OpenFelt
