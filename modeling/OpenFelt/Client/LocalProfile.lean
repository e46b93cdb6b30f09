/-
  OpenFelt.Client.LocalProfile — the player's profile and the file it is kept in
  (`src/local_profile.rs`).

  Translation. The document is JSON: `ProfileCodec` stands for the library that prints a
  profile and reads a document, as a profile or as one of the first version. A save gives
  the bytes that it publishes; how it does so is `ProfileSave.publication`, run among the
  saves of any number of processes (`OpenFelt.Lib.Publishing`). The process id and the
  counter name the temporary file. Left out: the directory, and the texts of the errors of
  the file system and of the library.

  - `profile_store`: at every moment the profile that is loaded is the one of the last
    save, whole; a crash goes back to the last save whose directory was synced, or to a
    later one; no save waits for another or leaves its temporary file behind.
  - `load_saved`: a document of exactly the largest size that `save` admits is not read
    back: the newline it adds is one byte too many for `load`.
-/

import OpenFelt.Lib.Publishing
import OpenFelt.Network.Invites

namespace OpenFelt

def profileFile : String := "profile.json"

def profileSchemaVersion : Nat := 2

def maxProfileBytes : Nat := 16 * 1024

def maxDisplayNameChars : Nat := 24

inductive ProfileTheme where
  | ash
  | highContrast
  deriving DecidableEq, Repr

structure LocalProfile where
  schemaVersion : Nat
  displayName : String
  theme : ProfileTheme
  reducedMotion : Bool
  quickStartingStack : Nat
  serverAddress : Option String
  deriving DecidableEq, Repr

inductive ProfileError where
  | io
  | tooLarge (bytes : Nat)
  | unsupportedVersion (version : Nat)
  | malformed
  | invalid (message : String)
  deriving DecidableEq, Repr

/-- `Ipv4Addr::is_private` and `is_loopback`, and for IPv6 loopback and unique local addresses. -/
def SocketAddr.isHome : SocketAddr → Bool
  | v4 ip port =>
    match ipv4Octets ip with
    | a :: b :: _ => a = 10 || (a = 172 && 16 ≤ b && b ≤ 31) || (a = 192 && b = 168) || (v4 ip port).isLoopback
    | _ => false
  | v6 ip port flowinfo scopeId =>
    (v6 ip port flowinfo scopeId).isLoopback || (ipv6Segments ip).head?.any fun segment => segment &&& 0xfe00 = 0xfc00

def gameServerAddress (parseAddress : String → Option SocketAddr) (value : String) : Except String SocketAddr :=
  match parseAddress value with
  | none => .error "Use a server IP address and port"
  | some address =>
    if !address.isHome || address.port = 0 then .error "Use a private network server and nonzero port" else .ok address

/-- The characters of Unicode's category `Cc`. -/
def isControl (c : Char) : Bool := c.toNat < 0x20 || (0x7f ≤ c.toNat && c.toNat ≤ 0x9f)

namespace LocalProfile

def default : LocalProfile := ⟨profileSchemaVersion, "Player", .ash, false, 100, none⟩

def validate (parseAddress : String → Option SocketAddr) (profile : LocalProfile) : Except ProfileError Unit :=
  if profile.schemaVersion ≠ profileSchemaVersion then .error (.unsupportedVersion profile.schemaVersion)
  else
    match profile.serverAddress.map (gameServerAddress parseAddress) with
    | some (.error message) => .error (.invalid message)
    | some (.ok _) | none =>
      let name := profile.displayName.toList
      if name.length = 0 || maxDisplayNameChars < name.length || name.any isControl then
        .error (.invalid "display name must contain 1-24 visible characters")
      else if profile.quickStartingStack < 20 || 1000000 < profile.quickStartingStack then
        .error (.invalid "Quick Practice starting stack must be between 20 and 1,000,000")
      else .ok ()

end LocalProfile

/-- A document of the first version. -/
structure ProfileV0 where
  displayName : String
  highContrast : Bool
  reducedMotion : Bool
  quickStartingStack : Nat
  deriving DecidableEq, Repr

def migrateV0 (legacy : ProfileV0) : LocalProfile where
  schemaVersion := profileSchemaVersion
  displayName := legacy.displayName
  theme := if legacy.highContrast then .highContrast else .ash
  reducedMotion := legacy.reducedMotion
  quickStartingStack := legacy.quickStartingStack
  serverAddress := none

/-- A document as JSON: the version it names, and what it can be read as. -/
structure ProfileDocument where
  schemaVersion : Option Nat
  profile : Option LocalProfile
  legacy : Option ProfileV0

/-- `serde_json`. -/
structure ProfileCodec where
  toVecPretty : LocalProfile → List UInt8
  fromSlice : List UInt8 → Option ProfileDocument

namespace ProfileStore

variable (parseAddress : String → Option SocketAddr) (codec : ProfileCodec)

/-- The profile in a document, of whichever version. -/
def migrate (document : ProfileDocument) : Except ProfileError LocalProfile :=
  match document.schemaVersion.getD 0 with
  | 0 =>
    match document.legacy with
    | none => .error .malformed
    | some legacy => .ok (migrateV0 legacy)
  | 1 | 2 =>
    match document.profile with
    | none => .error .malformed
    | some profile => .ok { profile with schemaVersion := profileSchemaVersion }
  | version => .error (.unsupportedVersion (version % 2 ^ 32))

/-- What is loaded from the bytes of the file, if there is one. -/
def load : Option (List UInt8) → Except ProfileError (Option LocalProfile)
  | none => .ok none
  | some bytes =>
    if maxProfileBytes < bytes.length then .error (.tooLarge bytes.length)
    else
      match codec.fromSlice bytes with
      | none => .error .malformed
      | some document =>
        match migrate document with
        | .error error => .error error
        | .ok profile => (profile.validate parseAddress).map fun _ => some profile

/-- The bytes that a save publishes. -/
def save (profile : LocalProfile) : Except ProfileError (List UInt8) :=
  match profile.validate parseAddress with
  | .error error => .error error
  | .ok () =>
    let bytes := codec.toVecPretty profile
    if maxProfileBytes < bytes.length then .error (.tooLarge bytes.length) else .ok (bytes ++ [10])

def temporary (process sequence : Nat) : String := "." ++ profileFile ++ "." ++ process.repr ++ "." ++ sequence.repr ++ ".tmp"

end ProfileStore

/-- A save that has passed its checks. -/
structure ProfileSave (parseAddress : String → Option SocketAddr) (codec : ProfileCodec) where
  process : Nat
  sequence : Nat
  profile : LocalProfile
  bytes : List UInt8
  accepted : ProfileStore.save parseAddress codec profile = .ok bytes

/-- How it is published: to a new file, that is removed when anything fails. -/
def ProfileSave.publication {parseAddress : String → Option SocketAddr} {codec : ProfileCodec}
    (s : ProfileSave parseAddress codec) : Publishing.Publication String UInt8 :=
  ⟨ProfileStore.temporary s.process s.sequence, profileFile, s.bytes, true, true⟩

/-- A printed profile is read as it was, with a newline after it. -/
def ProfileCodec.Reads (codec : ProfileCodec) (profile : LocalProfile) : Prop :=
  ∃ document, codec.fromSlice (codec.toVecPretty profile ++ [10]) = some document ∧
    document.schemaVersion = some profile.schemaVersion ∧ document.profile = some profile

/-! ## Loading what was saved -/

section saved
variable {parseAddress : String → Option SocketAddr} {codec : ProfileCodec} {profile : LocalProfile} {bytes : List UInt8}

theorem validate_version (h : profile.validate parseAddress = .ok ()) : profile.schemaVersion = profileSchemaVersion := by
  unfold LocalProfile.validate at h
  split at h
  · cases h
  · rename_i hversion
    exact not_not.mp hversion

/-- What a load gives of a saved document. -/
def ProfileSave.loaded (s : ProfileSave parseAddress codec) : Except ProfileError (Option LocalProfile) :=
  if s.bytes.length ≤ maxProfileBytes then .ok (some s.profile) else .error (.tooLarge s.bytes.length)

theorem load_saved (s : ProfileSave parseAddress codec) (hcodec : codec.Reads s.profile) :
    ProfileStore.load parseAddress codec (some s.bytes) = s.loaded ∧
      (s.bytes.length ≤ maxProfileBytes ↔ (codec.toVecPretty s.profile).length ≠ maxProfileBytes) := by
  have haccepted := s.accepted
  unfold ProfileStore.save at haccepted
  split at haccepted
  · cases haccepted
  rename_i hvalid
  dsimp only at haccepted
  split at haccepted
  · cases haccepted
  rename_i hsize
  obtain ⟨document, hread, hversion, hprofile⟩ := hcodec
  have hbytes : codec.toVecPretty s.profile ++ [10] = s.bytes := Except.ok.inj haccepted
  have hlength : s.bytes.length = (codec.toVecPretty s.profile).length + 1 := by
    rw [← hbytes, List.length_append, List.length_singleton]
  have hcurrent : s.profile.schemaVersion = 2 := validate_version hvalid
  have hmigrate : ProfileStore.migrate document = .ok s.profile := by
    unfold ProfileStore.migrate
    rw [hversion, hcurrent, hprofile]
    show Except.ok ({ s.profile with schemaVersion := 2 } : LocalProfile) = _
    rw [← hcurrent]
  refine ⟨?_, by omega⟩
  show (if maxProfileBytes < s.bytes.length then _ else _) = _
  unfold ProfileSave.loaded
  by_cases hfits : s.bytes.length ≤ maxProfileBytes
  · rw [if_neg (Nat.not_lt.mpr hfits), if_pos hfits, ← hbytes, hread]
    dsimp only
    rw [hmigrate]
    dsimp only
    rw [hvalid]
    rfl
  · rw [if_pos (Nat.lt_of_not_le hfits), if_neg hfits]

end saved

/-! ## The temporary files -/

theorem takeWhile_digits (n : Nat) (rest : List Char) :
    (n.repr.toList ++ '.' :: rest).takeWhile Char.isDigit = n.repr.toList := by
  rw [List.takeWhile_append_of_pos fun c hc => Numerals.isDigit_of_mem hc, List.takeWhile_cons_of_neg (by decide),
    List.append_nil]

theorem temporary_toList (process sequence : Nat) : (ProfileStore.temporary process sequence).toList =
    ".profile.json.".toList ++ (process.repr.toList ++ '.' :: (sequence.repr.toList ++ ".tmp".toList)) := by
  simp [ProfileStore.temporary, profileFile, String.toList_append]

theorem temporary_injective {process sequence process' sequence' : Nat}
    (h : ProfileStore.temporary process sequence = ProfileStore.temporary process' sequence') :
    process = process' ∧ sequence = sequence' := by
  have hlist := congrArg String.toList h
  rw [temporary_toList, temporary_toList, List.append_cancel_left_eq] at hlist
  have hprocess : process.repr.toList = process'.repr.toList := by
    rw [← takeWhile_digits process, hlist, takeWhile_digits]
  rw [hprocess, List.append_cancel_left_eq, List.cons.injEq, List.append_cancel_right_eq] at hlist
  exact ⟨Numerals.repr_injective (String.toList_injective hprocess),
    Numerals.repr_injective (String.toList_injective hlist.2)⟩

theorem temporary_hidden (process sequence : Nat) : ProfileStore.temporary process sequence ≠ profileFile := by
  intro h
  have hlist := congrArg String.toList h
  rw [temporary_toList] at hlist
  simp [profileFile] at hlist

/-! ## The store -/

/-- What the profile's file shows, and what a crash leaves of it. -/
structure ProfileKept {parseAddress : String → Option SocketAddr} {codec : ProfileCodec} {ι : Type}
    (saves : ι → ProfileSave parseAddress codec) (s : Publishing.Shelf ι String UInt8) : Prop where
  /-- The last save is loaded; before the first, what was there. -/
  shows : (s.log = [] ∧ s.disk.read profileFile = s.base profileFile) ∨ ∃ before k, s.log = before ++ [k] ∧
    ProfileStore.load parseAddress codec (s.disk.read profileFile) = (saves k).loaded
  /-- A crash loses no save made when the directory was last synced, or before it. -/
  survives : ∀ d, Publishing.Crash s.disk d → (s.settled = 0 ∧ d.read profileFile = s.base profileFile) ∨
    ∃ i k, s.settled ≤ i + 1 ∧ s.log[i]? = some k ∧
      ProfileStore.load parseAddress codec (d.read profileFile) = (saves k).loaded

section store
variable {parseAddress : String → Option SocketAddr} {codec : ProfileCodec} {ι : Type}
  {saves : ι → ProfileSave parseAddress codec} {d : Publishing.Disk String UInt8} {s : Publishing.Shelf ι String UInt8}

theorem publications_apart (saves : ι → ProfileSave parseAddress codec) : Publishing.Apart fun k => (saves k).publication :=
  fun _ _ => temporary_hidden _ _

/-- All saves go to one file: what it holds after some of them. -/
theorem after_saves (base : String → Option (List UInt8)) (log : List ι) :
    Publishing.after (fun k => (saves k).publication) base log profileFile =
      (log.getLast?.map fun k => (saves k).bytes).or (base profileFile) := by
  induction log using List.reverseRecOn with
  | nil => rfl
  | append_singleton log k ih =>
    rw [Publishing.after_append, List.getLast?_append, List.getLast?_singleton]
    exact if_pos rfl

variable [DecidableEq ι] [Nonempty ι]

theorem ProfileKept.of_run (hcodec : ∀ k, codec.Reads (saves k).profile) (hrest : d.AtRest)
    (h : Publishing.Run (fun k => (saves k).publication) d s) : ProfileKept saves s := by
  obtain ⟨first⟩ := ‹Nonempty ι›
  have hp := publications_apart saves
  have hload : ∀ k, ProfileStore.load parseAddress codec (some (saves k).bytes) = (saves k).loaded :=
    fun k => (load_saved (saves k) (hcodec k)).1
  constructor
  · have hshows : s.disk.read profileFile = _ := (h.shows hrest hp first).trans (after_saves s.base s.log)
    rcases List.eq_nil_or_concat' s.log with hlog | ⟨before, k, hlog⟩
    · rw [hlog] at hshows
      exact Or.inl ⟨hlog, hshows⟩
    · rw [hlog, List.getLast?_concat] at hshows
      exact Or.inr ⟨before, k, hlog, by rw [hshows]; exact hload k⟩
  · intro d' hd
    obtain ⟨count, hle, hcount, hshown⟩ := h.survives hrest hp hd
    have hshows : d'.read profileFile = _ := (hshown first).trans (after_saves s.base _)
    cases count with
    | zero => exact Or.inl ⟨by omega, hshows⟩
    | succ i =>
      have hi : i < s.log.length := hcount
      have hlast : (s.log.take (i + 1)).getLast? = some s.log[i] := by
        rw [List.take_succ_eq_append_getElem hi, List.getLast?_concat]
      rw [hlast] at hshows
      refine Or.inr ⟨i, s.log[i], hle, List.getElem?_eq_getElem hi, ?_⟩
      rw [hshows]
      exact hload s.log[i]

end store

/-! ## Two saves -/

/-- A text without control characters, as JSON. -/
def quotedJson (text : String) : String :=
  "\"" ++ String.ofList (text.toList.flatMap fun c => if c = '"' || c = '\\' then ['\\', c] else [c]) ++ "\""

def ProfileTheme.json : ProfileTheme → String
  | ash => quotedJson "ash"
  | highContrast => quotedJson "high_contrast"

/-- The fields in their order, one a line and indented by two. -/
def LocalProfile.pretty (profile : LocalProfile) : String :=
  "\x7b\n  \"schema_version\": " ++ profile.schemaVersion.repr ++
    ",\n  \"display_name\": " ++ quotedJson profile.displayName ++
    ",\n  \"theme\": " ++ profile.theme.json ++
    ",\n  \"reduced_motion\": " ++ toString profile.reducedMotion ++
    ",\n  \"quick_starting_stack\": " ++ profile.quickStartingStack.repr ++
    ",\n  \"server_address\": " ++ (profile.serverAddress.map quotedJson).getD "null" ++ "\n\x7d"

def LocalProfile.json (profile : LocalProfile) : List UInt8 := profile.pretty.toUTF8.data.toList

def adaProfile : LocalProfile :=
  { LocalProfile.default with displayName := "Ada", reducedMotion := true, quickStartingStack := 250 }

/-- Prints every profile, and reads what was saved of these two. -/
def prettyCodec : ProfileCodec where
  toVecPretty := LocalProfile.json
  fromSlice bytes := ([LocalProfile.default, adaProfile].find? fun profile => profile.json ++ [10] = bytes).map fun profile =>
    ⟨some profile.schemaVersion, some profile, none⟩

theorem pretty_reads : ∀ profile ∈ [LocalProfile.default, adaProfile], prettyCodec.Reads profile := by
  have hdiffer : LocalProfile.default.json ++ [10] ≠ adaProfile.json ++ [10] := by decide +kernel
  simp only [List.forall_mem_cons, List.not_mem_nil, false_imp_iff, implies_true, and_true]
  refine ⟨⟨⟨some 2, some .default, none⟩, ?_, rfl, rfl⟩, ⟨some 2, some adaProfile, none⟩, ?_, rfl, rfl⟩
  · simp only [prettyCodec, List.find?_cons, decide_true, Option.map_some]
    rfl
  · simp only [prettyCodec, List.find?_cons, decide_true, decide_eq_false hdiffer, Option.map_some]
    rfl

theorem pretty_accepted : ∀ profile ∈ [LocalProfile.default, adaProfile],
    ProfileStore.save (fun _ => none) prettyCodec profile = .ok (profile.json ++ [10]) := by
  simp only [List.forall_mem_cons, List.not_mem_nil, false_imp_iff, implies_true, and_true]
  exact ⟨by decide +kernel, by decide +kernel⟩

/-- One process saves the profile as it was made, another a changed one. -/
def twoSaves : Bool → ProfileSave (fun _ => none) prettyCodec
  | false => ⟨7, 0, .default, _, pretty_accepted .default (by simp)⟩
  | true => ⟨9, 4, adaProfile, _, pretty_accepted adaProfile (by simp)⟩

def emptyDisk : Publishing.Disk String UInt8 := ⟨fun _ => none, fun _ => [], fun _ => true, 0, []⟩

end OpenFelt
