/-
  OpenFelt.Trainer.Downloads — the checks an update passes before it is installed
  (`run_install` of `src/trainer/update.rs`, up to `install_bytes`).

  Translation. A response is its status, its announced length and its pieces, where `none`
  is an interruption; a download that was cancelled is `none`. The entries of a compressed
  archive and the reading of bytes as text are `ArchiveReader`. The length of a download
  cannot pass `usize::MAX`, so it does not saturate.

  `run_install`: an executable comes out just when the copy is a managed one and was not
  cancelled, both downloads came whole from GitHub and within their limits, the checksum
  file gives the archive one hash, that is the hash of what came, and the archive has one
  entry under the executable's name, a regular file of an acceptable size.
-/

import OpenFelt.Registry.Credentials
import OpenFelt.Trainer.Releases
import OpenFelt.Trainer.Replacement

namespace OpenFelt.Trainer

def maxArchive : Nat := 64 * 1024 * 1024

def maxChecksum : Nat := 16384

/-! ## The installed copy -/

inductive Origin where
  | managed
  | cargo
  | source
  | package
  | unsupported
  deriving DecidableEq, Repr

def Origin.allowsReplacement (origin : Origin) : Bool := origin = .managed

def classifyInstall (path : List Char) : Origin :=
  let key := lower (path.map fun c => if c = '\\' then '/' else c)
  if within "/target/debug/".toList key || within "/target/release/".toList key || within "/target/dist/".toList key then .source
  else if within "/.cargo/bin/".toList key then .cargo
  else if within "/cellar/".toList key || within "/homebrew/".toList key || within "/program files/".toList key ||
      "/usr/".toList.isPrefixOf key || "/opt/".toList.isPrefixOf key || within ":/program files/".toList key then .package
  else if "/.local/bin/openfelt".toList.isSuffixOf key || "/.local/bin/openfelt.exe".toList.isSuffixOf key ||
      "/.openfelt/bin/openfelt".toList.isSuffixOf key || "/.openfelt/bin/openfelt.exe".toList.isSuffixOf key ||
      within "/openfelt/bin/openfelt".toList key then .managed
  else .unsupported

def binaryName (triple : List Char) : List Char :=
  if within "windows".toList triple then "openfelt.exe".toList else "openfelt".toList

/-! ## Downloads -/

inductive UpdateError where
  | origin (origin : Origin)
  | cancelled
  | url (error : SelectError)
  | unreachable
  | http (status : Nat)
  | tooLarge
  | interrupted
  | manyHashes
  | noHash
  | checksum
  | archiveType
  | archiveTooLarge
  | archiveInvalid
  | fileType
  | binaryTooLarge
  | manyBinaries
  | binarySize
  | noBinary
  deriving DecidableEq, Repr

structure Response where
  status : Nat
  contentLength : Option Nat
  chunks : List (Option (List UInt8))
  deriving DecidableEq, Repr

def appendLimited (bytes chunk : List UInt8) (limit : Nat) : Except UpdateError (List UInt8) :=
  if limit < bytes.length + chunk.length then .error .tooLarge else .ok (bytes ++ chunk)

/-- The loop of `get_limited`. -/
def readChunks (limit : Nat) : List (Option (List UInt8)) → List UInt8 → Except UpdateError (List UInt8)
  | [], bytes => .ok bytes
  | none :: _, _ => .error .interrupted
  | some chunk :: rest, bytes =>
    match appendLimited bytes chunk limit with
    | .error error => .error error
    | .ok bytes => readChunks limit rest bytes

/-- `send` is what became of the request. -/
def getLimited (reader : ReleaseReader) (url : List Char) (limit : Nat) (send : Option Response) :
    Except UpdateError (List UInt8) :=
  match httpsGitHub reader url with
  | .error error => .error (.url error)
  | .ok () =>
    match send with
    | none => .error .unreachable
    | some response =>
      if response.status < 200 ∨ 299 < response.status then .error (.http response.status)
      else if response.contentLength.any fun n => decide (limit < n) then .error .tooLarge
      else readChunks limit response.chunks []

/-! ## The checksum -/

/-- A hexadecimal digit of either case. -/
def isHexDigit (c : Char) : Bool := c.isDigit || ('a' ≤ c && c ≤ 'f') || ('A' ≤ c && c ≤ 'F')

def isSha256Hex (text : List Char) : Bool :=
  (text.map Char.utf8Size).sum = 64 && text.all isHexDigit

/-- A carriage return goes with the line feed that follows it. -/
def lines (text : List Char) : List (List Char) :=
  let pieces := text.splitOn '\n'
  pieces.dropLast.map (fun line => if ['\r'].isSuffixOf line then line.dropLast else line) ++
    pieces.getLast?.toList.filter fun line => !line.isEmpty

def splitWhitespace (text : List Char) : List (List Char) := (text.splitOnP isWhitespace).filter fun word => !word.isEmpty

/-- `trim_start_matches`; no text has more than its length of a word. -/
def trimStartMatches (word : List Char) : Nat → List Char → List Char
  | 0, text => text
  | fuel + 1, text => if word.isPrefixOf text then trimStartMatches word fuel (text.drop word.length) else text

/-- The hash that a line gives the archive. -/
def listedHash (archiveName line : List Char) : Option (List Char) :=
  let line := trim line
  if line.isEmpty || line.head? = some '#' then none
  else
    let parts := splitWhitespace line
    let first := parts[0]?.getD []
    let hash := lower (trimStartMatches "sha256:".toList first.length first)
    let name := (parts[1]?.getD []).dropWhile (· = '*')
    if parts[2]?.isSome || !isSha256Hex hash || name ≠ archiveName then none else some hash

/-- The loop of `parse_checksum`. -/
def findHash (archiveName : List Char) : List (List Char) → Option (List Char) → Except UpdateError (Option (List Char))
  | [], found => .ok found
  | line :: rest, found =>
    match listedHash archiveName line with
    | none => findHash archiveName rest found
    | some hash =>
      if found.any fun existing => decide (existing ≠ hash) then .error .manyHashes else findHash archiveName rest (some hash)

def parseChecksum (text archiveName : List Char) : Except UpdateError (List Char) :=
  if isSha256Hex (trim text) then .ok (lower (trim text))
  else
    match findHash archiveName (lines text) none with
    | .error error => .error error
    | .ok none => .error .noHash
    | .ok (some hash) => .ok hash

def sha256Hex (h : Hashes) (bytes : List UInt8) : List Char := (hex (h.sha256 bytes)).toList

def verifyChecksum (h : Hashes) (bytes : List UInt8) (expected : List Char) : Except UpdateError Unit :=
  if lower (sha256Hex h bytes) = lower (trim expected) then .ok () else .error .checksum

/-! ## The archive -/

inductive PathComponent where
  | root
  | curDir
  | parentDir
  /-- `none` is a name that is not text. -/
  | normal (name : Option (List Char))
  deriving DecidableEq, Repr

structure TarEntry where
  path : Option (List PathComponent)
  isFile : Bool
  size : Nat
  content : Option (List UInt8)
  deriving DecidableEq, Repr

/-- `flate2`, `tar` and `String::from_utf8_lossy`. -/
structure ArchiveReader where
  entries : List UInt8 → Option (List (Option TarEntry))
  text : List UInt8 → List Char

def binaryPathOk (binary : List Char) (path : List PathComponent) : Bool :=
  let parts := path.filter (· ≠ .curDir)
  if parts.contains .parentDir then false
  else
    match parts with
    | [.normal name] => name = some binary
    | [.normal _, .normal name] => name = some binary
    | _ => false

/-- The loop of `extract_binary`. -/
def findBinary (binary : List Char) : List (Option TarEntry) → Option (List UInt8) → Except UpdateError (Option (List UInt8))
  | [], found => .ok found
  | none :: _, _ => .error .archiveInvalid
  | some entry :: rest, found =>
    match entry.path with
    | none => .error .archiveInvalid
    | some path =>
      if !entry.isFile || !binaryPathOk binary path then
        if binaryPathOk binary path then .error .fileType else findBinary binary rest found
      else if maxBinary < entry.size then .error .binaryTooLarge
      else if found.isSome then .error .manyBinaries
      else
        match entry.content with
        | none => .error .archiveInvalid
        | some content =>
          if maxBinary < content.length || content.isEmpty then .error .binarySize else findBinary binary rest (some content)

def extractBinary (reader : ArchiveReader) (archiveName : List Char) (bytes : List UInt8) (binary : List Char) :
    Except UpdateError (List UInt8) :=
  if !".tar.gz".toList.isSuffixOf archiveName then .error .archiveType
  else if maxArchive < bytes.length then .error .archiveTooLarge
  else
    match reader.entries bytes with
    | none => .error .archiveInvalid
    | some entries =>
      match findBinary binary entries none with
      | .error error => .error error
      | .ok none => .error .noBinary
      | .ok (some content) => .ok content

/-! ## The installation -/

/-- The executable that `run_install` hands to `install_bytes`. A download is `none` when it was cancelled, and `late` is a
    cancellation after both. -/
def runInstall (h : Hashes) (releases : ReleaseReader) (archives : ArchiveReader) (dest triple : List Char)
    (update : AvailableUpdate) (archive checksum : Option (Option Response)) (late : Bool) : Except UpdateError (List UInt8) :=
  if !(classifyInstall dest).allowsReplacement then .error (.origin (classifyInstall dest))
  else
    match archive with
    | none => .error .cancelled
    | some send =>
      match getLimited releases update.archiveUrl maxArchive send with
      | .error error => .error error
      | .ok archive =>
        match checksum with
        | none => .error .cancelled
        | some send =>
          match getLimited releases update.checksumUrl maxChecksum send with
          | .error error => .error error
          | .ok checksum =>
            match parseChecksum (archives.text checksum) update.archiveName with
            | .error error => .error error
            | .ok expected =>
              match verifyChecksum h archive expected with
              | .error error => .error error
              | .ok () =>
                if late then .error .cancelled else extractBinary archives update.archiveName archive (binaryName triple)

/-! ## What a download brought -/

/-- The bytes came whole, from GitHub and within the limit. -/
structure Received (reader : ReleaseReader) (url : List Char) (limit : Nat) (send : Option Response) (bytes : List UInt8) :
    Prop where
  address : ∃ host, reader.url url = some ("https".toList, host) ∧ hostAllowed (host.getD []) = true
  response : ∃ response, send = some response ∧ 200 ≤ response.status ∧ response.status ≤ 299 ∧
    (∀ n ∈ response.contentLength, n ≤ limit) ∧
      ∃ pieces : List (List UInt8), response.chunks = pieces.map some ∧ bytes = pieces.flatten
  size : bytes.length ≤ limit

/-- No piece is too much when all of them together are not. -/
theorem readChunks_ok_iff {limit : Nat} {chunks : List (Option (List UInt8))} {start bytes : List UInt8}
    (hstart : start.length ≤ limit) : readChunks limit chunks start = .ok bytes ↔
      ∃ pieces : List (List UInt8), chunks = pieces.map some ∧ bytes = start ++ pieces.flatten ∧ bytes.length ≤ limit := by
  induction chunks generalizing start with
  | nil =>
    rw [readChunks]
    constructor
    · rintro h
      cases h
      exact ⟨[], rfl, by simp, hstart⟩
    · rintro ⟨pieces, hpieces, rfl, -⟩
      rw [eq_comm, List.map_eq_nil_iff] at hpieces
      simp [hpieces]
  | cons chunk rest ih =>
    cases chunk with
    | none =>
      rw [readChunks]
      constructor
      · intro h
        cases h
      · rintro ⟨pieces, hpieces, -⟩
        cases pieces with
        | nil => cases hpieces
        | cons piece pieces => cases hpieces
    | some chunk =>
      rw [readChunks, appendLimited]
      by_cases hlong : limit < start.length + chunk.length
      · rw [if_pos hlong]
        constructor
        · intro h
          cases h
        · rintro ⟨pieces, hpieces, rfl, hsize⟩
          cases pieces with
          | nil => cases hpieces
          | cons piece pieces =>
            cases hpieces
            simp only [List.flatten_cons, List.length_append] at hsize
            omega
      · rw [if_neg hlong]
        dsimp only
        rw [ih (by rw [List.length_append]; omega)]
        constructor
        · rintro ⟨pieces, rfl, rfl, hsize⟩
          exact ⟨chunk :: pieces, rfl, by simp, hsize⟩
        · rintro ⟨pieces, hpieces, rfl, hsize⟩
          cases pieces with
          | nil => cases hpieces
          | cons piece pieces =>
            cases hpieces
            exact ⟨pieces, rfl, by simp, hsize⟩

theorem getLimited_ok_iff {reader : ReleaseReader} {url : List Char} {limit : Nat} {send : Option Response} {bytes : List UInt8} :
    getLimited reader url limit send = .ok bytes ↔ Received reader url limit send bytes := by
  constructor
  · intro h
    unfold getLimited at h
    split at h
    · cases h
    · rename_i hurl
      split at h
      · cases h
      · rename_i response
        split at h
        · cases h
        · rename_i hstatus
          split at h
          · cases h
          · rename_i hlength
            obtain ⟨pieces, hpieces, rfl, hsize⟩ := (readChunks_ok_iff (Nat.zero_le limit)).mp h
            refine ⟨httpsGitHub_ok_iff.mp hurl, ⟨response, rfl, by omega, by omega, ?_, pieces, hpieces, rfl⟩, hsize⟩
            intro n hn
            rw [Option.mem_def] at hn
            simpa [hn] using hlength
  · rintro ⟨haddress, ⟨response, rfl, hlow, hhigh, hlength, pieces, hpieces, rfl⟩, hsize⟩
    have hshort : (response.contentLength.any fun n => decide (limit < n)) = false := by
      rw [Option.any_eq_false_iff_get]
      intro hsome
      simpa using hlength _ (Option.get_mem hsome)
    rw [getLimited, httpsGitHub_ok_iff.mpr haddress]
    dsimp only
    rw [if_neg (by omega), hshort, if_neg (by decide)]
    exact (readChunks_ok_iff (Nat.zero_le limit)).mpr ⟨pieces, hpieces, rfl, hsize⟩

/-! ## What a checksum file says -/

/-- The whole text is the hash, or it is the one that the text gives the archive, once or more. -/
def Publishes (text archiveName hash : List Char) : Prop :=
  (isSha256Hex (trim text) = true ∧ hash = lower (trim text)) ∨
    isSha256Hex (trim text) = false ∧ (lines text).filterMap (listedHash archiveName) ≠ [] ∧
      ∀ listed ∈ (lines text).filterMap (listedHash archiveName), listed = hash

theorem findHash_ok_iff {archiveName : List Char} {texts : List (List Char)} {found result : Option (List Char)} :
    findHash archiveName texts found = .ok result ↔
      (∀ hash ∈ found.toList ++ texts.filterMap (listedHash archiveName), result = some hash) ∧
        (found.toList ++ texts.filterMap (listedHash archiveName) = [] → result = none) := by
  induction texts generalizing found with
  | nil =>
    rw [findHash, List.filterMap_nil, List.append_nil, Except.ok.injEq]
    cases found with
    | none =>
      simp only [Option.toList_none, List.not_mem_nil, false_imp_iff, implies_true, true_and, true_imp_iff]
      exact eq_comm
    | some hash => simp [eq_comm]
  | cons line rest ih =>
    rw [findHash, List.filterMap_cons]
    cases hline : listedHash archiveName line with
    | none => exact ih
    | some hash =>
      dsimp only
      cases found with
      | none =>
        rw [if_neg (by simp), ih]
        simp
      | some existing =>
        by_cases heq : existing = hash
        · subst heq
          rw [if_neg (by simp), ih]
          simp
        · rw [if_pos (by simpa using heq)]
          constructor
          · intro h
            cases h
          · rintro ⟨hall, -⟩
            have hfirst := hall existing (by simp)
            have hsecond := hall hash (by simp)
            exact absurd (Option.some.inj (hfirst.symm.trans hsecond)) heq

theorem parseChecksum_ok_iff {text archiveName hash : List Char} :
    parseChecksum text archiveName = .ok hash ↔ Publishes text archiveName hash := by
  unfold parseChecksum Publishes
  by_cases hwhole : isSha256Hex (trim text) = true
  · rw [if_pos hwhole, hwhole, Except.ok.injEq]
    simp only [true_and, Bool.true_eq_false, false_and, or_false]
    exact eq_comm
  · rw [if_neg hwhole]
    rw [Bool.not_eq_true] at hwhole
    rw [hwhole]
    simp only [Bool.false_eq_true, false_and, true_and, false_or]
    constructor
    · intro h
      cases hfound : findHash archiveName (lines text) none with
      | error error =>
        rw [hfound] at h
        cases h
      | ok found =>
        rw [hfound] at h
        obtain ⟨hall, hnone⟩ := findHash_ok_iff.mp hfound
        rw [Option.toList_none, List.nil_append] at hall hnone
        cases found with
        | none => cases h
        | some found =>
          cases h
          refine ⟨fun hempty => ?_, fun listed hlisted => (Option.some.inj (hall listed hlisted)).symm⟩
          cases hnone hempty
    · rintro ⟨hne, hall⟩
      have hfound : findHash archiveName (lines text) none = .ok (some hash) := by
        rw [findHash_ok_iff, Option.toList_none, List.nil_append]
        exact ⟨fun listed hlisted => by rw [hall listed hlisted], fun hempty => absurd hempty hne⟩
      rw [hfound]

/-! ## The spelling of a hash -/

theorem listedHash_some {archiveName line hash : List Char} (h : listedHash archiveName line = some hash) :
    isSha256Hex hash = true ∧ ∃ word, hash = lower word := by
  unfold listedHash at h
  dsimp only at h
  split at h
  · cases h
  · split at h
    · cases h
    · rename_i hkept
      cases h
      simp only [Bool.or_eq_true, not_or, Bool.not_eq_true', Bool.not_eq_false] at hkept
      exact ⟨hkept.1.2, _, rfl⟩

theorem lower_hexDigit (c : Char) (h : c ∈ hexDigits) : c.toLower = c ∧ isWhitespace c = false := by
  have hall : (hexDigits.all fun c => c.toLower == c && !isWhitespace c) = true := rfl
  have hc := List.all_eq_true.mp hall c h
  rw [Bool.and_eq_true, beq_iff_eq, Bool.not_eq_true'] at hc
  exact hc

theorem isHexDigit_small {c : Char} (h : isHexDigit c = true) : c.toNat < 128 := by
  simp only [isHexDigit, Char.isDigit, Bool.or_eq_true, Bool.and_eq_true, decide_eq_true_eq, Char.le_def,
    UInt32.le_iff_toNat_le] at h
  change c.val.toNat < 128
  have hbounds : '9'.val.toNat = 57 ∧ 'f'.val.toNat = 102 ∧ 'F'.val.toNat = 70 := by decide
  rcases h with (⟨-, hle⟩ | ⟨-, hle⟩) | ⟨-, hle⟩
  · exact Nat.lt_of_le_of_lt hle (by decide)
  · omega
  · omega

theorem isHexDigit_cases {c : Char} (h : isHexDigit c = true) : c.toLower ∈ hexDigits ∧ (c ∈ hexDigits ∨ c.isUpper = true) := by
  have hall : ∀ n < 128, isHexDigit (Char.ofNat n) = true →
      (Char.ofNat n).toLower ∈ hexDigits ∧ (Char.ofNat n ∈ hexDigits ∨ (Char.ofNat n).isUpper = true) := by
    decide
  have hc := hall c.toNat (isHexDigit_small h)
  rw [Char.ofNat_toNat] at hc
  exact hc h

theorem isUpper_lower (c : Char) : c.toLower.isUpper = false := by
  unfold Char.toLower
  split
  · rename_i hupper
    rw [ge_iff_le, UInt32.le_iff_toNat_le, UInt32.le_iff_toNat_le] at hupper
    have hsum : (c.val + ('a'.val - 'A'.val)).toNat = c.val.toNat + 32 := by
      rw [UInt32.toNat_add, show ('a'.val - 'A'.val).toNat = 32 by decide]
      exact Nat.mod_eq_of_lt (Nat.lt_of_le_of_lt (Nat.add_le_add_right hupper.2 32) (by decide))
    delta Char.isUpper
    rw [decide_eq_false_iff_not]
    rintro ⟨-, hle⟩
    rw [UInt32.le_iff_toNat_le] at hle
    change (c.val + ('a'.val - 'A'.val)).toNat ≤ 'Z'.val.toNat at hle
    have hbounds : 'A'.val.toNat = 65 ∧ 'Z'.val.toNat = 90 := by decide
    omega
  · rename_i hupper
    delta Char.isUpper
    rw [decide_eq_false_iff_not]
    exact hupper

/-- What is in lower case and a hash is spelled as hashes are here. -/
theorem lower_trim_of_digits {hash : List Char} (h : ∀ c ∈ hash, c ∈ hexDigits) : lower (trim hash) = hash := by
  rw [trim_of_forall fun c hc => (lower_hexDigit c (h c hc)).2]
  have hsame : hash.map Char.toLower = hash.map id := List.map_congr_left fun c hc => (lower_hexDigit c (h c hc)).1
  rw [List.map_id] at hsame
  exact hsame

theorem Publishes.spelled {text archiveName hash : List Char} (h : Publishes text archiveName hash) :
    lower (trim hash) = hash := by
  apply lower_trim_of_digits
  rcases h with ⟨hwhole, rfl⟩ | ⟨-, hne, hall⟩
  · rw [isSha256Hex, Bool.and_eq_true, List.all_eq_true] at hwhole
    intro c hc
    obtain ⟨d, hd, rfl⟩ := List.mem_map.mp hc
    exact (isHexDigit_cases (hwhole.2 d hd)).1
  · obtain ⟨listed, hlisted⟩ := List.exists_mem_of_ne_nil _ hne
    obtain rfl := hall listed hlisted
    obtain ⟨line, -, hline⟩ := List.mem_filterMap.mp hlisted
    obtain ⟨hhash, word, rfl⟩ := listedHash_some hline
    rw [isSha256Hex, Bool.and_eq_true, List.all_eq_true] at hhash
    intro c hc
    obtain ⟨d, -, rfl⟩ := List.mem_map.mp hc
    refine (isHexDigit_cases (hhash.2 _ hc)).2.resolve_right ?_
    rw [isUpper_lower]
    decide

theorem lower_sha256Hex (h : Hashes) (bytes : List UInt8) : lower (sha256Hex h bytes) = sha256Hex h bytes := by
  have hdigit : ∀ n, hexDigits.getD n '0' ∈ hexDigits := by
    intro n
    rw [List.getD_eq_getElem?_getD]
    cases hn : hexDigits[n]? with
    | none =>
      rw [Option.getD_none]
      decide
    | some c => exact List.mem_of_getElem? hn
  have hsame : (sha256Hex h bytes).map Char.toLower = (sha256Hex h bytes).map id := by
    apply List.map_congr_left
    intro c hc
    rw [sha256Hex, hex, String.toList_ofList, List.mem_flatMap] at hc
    obtain ⟨byte, -, hpair⟩ := hc
    rw [hexPair, List.mem_cons, List.mem_singleton] at hpair
    rcases hpair with rfl | rfl
    · exact (lower_hexDigit _ (hdigit _)).1
    · exact (lower_hexDigit _ (hdigit _)).1
  rw [List.map_id] at hsame
  exact hsame

theorem verifyChecksum_ok_iff {h : Hashes} {bytes : List UInt8} {text archiveName hash : List Char}
    (hpublished : Publishes text archiveName hash) : verifyChecksum h bytes hash = .ok () ↔ sha256Hex h bytes = hash := by
  rw [verifyChecksum, lower_sha256Hex, hpublished.spelled]
  split
  · rename_i heq
    exact ⟨fun _ => heq, fun _ => rfl⟩
  · rename_i hne
    refine ⟨fun h => ?_, fun heq => absurd heq hne⟩
    cases h

/-! ## What an archive has -/

def TarEntry.named (binary : List Char) (entry : TarEntry) : Bool := entry.path.any (binaryPathOk binary)

/-- A regular file of an acceptable size. -/
structure TarEntry.Executable (entry : TarEntry) (content : List UInt8) : Prop where
  file : entry.isFile = true
  announced : entry.size ≤ maxBinary
  read : entry.content = some content
  nonempty : content ≠ []
  size : content.length ≤ maxBinary

/-- Every entry is read, and what there is under the name is one file. -/
structure Holds (binary : List Char) (entries : List (Option TarEntry)) (content : List UInt8) : Prop where
  read : ∀ entry ∈ entries, ∃ found, entry = some found ∧ found.path.isSome = true
  single : ∃ entry, (entries.filterMap id).filter (TarEntry.named binary) = [entry] ∧ entry.Executable content

theorem findBinary_ok_iff {binary : List Char} {entries : List (Option TarEntry)} {found result : Option (List UInt8)} :
    findBinary binary entries found = .ok result ↔
      (∀ entry ∈ entries, ∃ found, entry = some found ∧ found.path.isSome = true) ∧
        ((entries.filterMap id).filter (TarEntry.named binary) = [] ∧ result = found ∨
          found = none ∧ ∃ entry content, (entries.filterMap id).filter (TarEntry.named binary) = [entry] ∧
            entry.Executable content ∧ result = some content) := by
  induction entries generalizing found with
  | nil =>
    rw [findBinary, Except.ok.injEq]
    simp only [List.not_mem_nil, false_imp_iff, implies_true, List.filterMap_nil, List.filter_nil, true_and]
    constructor
    · rintro rfl
      exact Or.inl rfl
    · rintro (rfl | ⟨-, entry, content, hone, -⟩)
      · rfl
      · cases hone
  | cons entry rest ih =>
    cases entry with
    | none =>
      rw [findBinary]
      simp
    | some entry =>
      rw [findBinary]
      cases hpath : entry.path with
      | none => simp [hpath]
      | some path =>
        have hnamed : entry.named binary = binaryPathOk binary path := by rw [TarEntry.named, hpath, Option.any_some]
        dsimp only
        by_cases hok : binaryPathOk binary path = true
        · rw [hok] at hnamed ⊢
          have hcons : ((some entry :: rest).filterMap id).filter (TarEntry.named binary) =
              entry :: (rest.filterMap id).filter (TarEntry.named binary) := by
            simp [hnamed]
          rw [hcons]
          cases hfile : entry.isFile with
          | false =>
            rw [if_pos (by simp), if_pos rfl]
            constructor
            · intro h
              cases h
            · rintro ⟨-, ⟨hnone, -⟩ | ⟨-, other, content, hone, hexec, -⟩⟩
              · cases hnone
              · obtain ⟨rfl, -⟩ := List.cons.inj hone
                exact absurd (hfile.symm.trans hexec.file) (by decide)
          | true =>
            rw [if_neg (by simp)]
            constructor
            · intro h
              split at h
              · cases h
              · rename_i hsize
                split at h
                · cases h
                · rename_i hfound
                  rw [Option.not_isSome_iff_eq_none] at hfound
                  split at h
                  · cases h
                  · rename_i content hcontent
                    split at h
                    · cases h
                    · rename_i hgood
                      rw [Bool.or_eq_true, decide_eq_true_eq, List.isEmpty_iff, not_or] at hgood
                      obtain ⟨hread, ⟨hnone, rfl⟩ | ⟨hsome, -⟩⟩ := ih.mp h
                      · refine ⟨?_, Or.inr ⟨hfound, entry, content, by rw [hnone], ?_, rfl⟩⟩
                        · rintro other (_ | ⟨_, hother⟩)
                          · exact ⟨entry, rfl, by rw [hpath]; rfl⟩
                          · exact hread other hother
                        · exact ⟨hfile, Nat.not_lt.mp hsize, hcontent, hgood.2, Nat.not_lt.mp hgood.1⟩
                      · cases hsome
            · rintro ⟨hread, ⟨hnil, -⟩ | ⟨rfl, other, content, hone, hexec, rfl⟩⟩
              · cases hnil
              · obtain ⟨rfl, hnone⟩ := List.cons.inj hone
                have hgood : ¬(decide (maxBinary < content.length) || content.isEmpty) = true := by
                  rw [Bool.or_eq_true, decide_eq_true_eq, List.isEmpty_iff, not_or]
                  exact ⟨Nat.not_lt.mpr hexec.size, hexec.nonempty⟩
                rw [if_neg (Nat.not_lt.mpr hexec.announced), if_neg (by simp), hexec.read]
                dsimp only
                rw [if_neg hgood, ih]
                exact ⟨fun other hother => hread other (List.mem_cons_of_mem _ hother), Or.inl ⟨hnone, rfl⟩⟩
        · rw [Bool.not_eq_true] at hok
          rw [hok] at hnamed ⊢
          rw [if_pos (by simp), if_neg (by decide), ih]
          simp [hpath, hnamed]

theorem extractBinary_ok_iff {reader : ArchiveReader} {archiveName bytes binary content} :
    extractBinary reader archiveName bytes binary = .ok content ↔ ".tar.gz".toList <:+ archiveName ∧ bytes.length ≤ maxArchive ∧
      ∃ entries, reader.entries bytes = some entries ∧ Holds binary entries content := by
  unfold extractBinary
  constructor
  · intro h
    split at h
    · cases h
    · rename_i htype
      split at h
      · cases h
      · rename_i hsize
        split at h
        · cases h
        · rename_i entries hentries
          rw [Bool.not_eq_true', Bool.not_eq_false, List.isSuffixOf_iff_suffix] at htype
          split at h
          · cases h
          · cases h
          · rename_i found hfound
            cases h
            obtain ⟨hread, ⟨-, hnone⟩ | ⟨-, entry, content, hone, hexec, heq⟩⟩ := findBinary_ok_iff.mp hfound
            · cases hnone
            · cases heq
              exact ⟨htype, Nat.not_lt.mp hsize, entries, hentries, hread, entry, hone, hexec⟩
  · rintro ⟨htype, hsize, entries, hentries, hholds⟩
    obtain ⟨entry, hone, hexec⟩ := hholds.single
    have hfound : findBinary binary entries none = .ok (some content) :=
      findBinary_ok_iff.mpr ⟨hholds.read, Or.inr ⟨rfl, entry, content, hone, hexec, rfl⟩⟩
    rw [if_neg (by simpa [List.isSuffixOf_iff_suffix] using htype), if_neg (Nat.not_lt.mpr hsize), hentries]
    dsimp only
    rw [hfound]

/-! ## What is installed -/

/-- What is known of an executable when `install_bytes` is to put it in place. -/
structure Verified (h : Hashes) (releases : ReleaseReader) (archives : ArchiveReader) (triple : List Char)
    (update : AvailableUpdate) (archive checksum : Option Response) (binary : List UInt8) : Prop where
  verified : ∃ bytes sums, Received releases update.archiveUrl maxArchive archive bytes ∧
    Received releases update.checksumUrl maxChecksum checksum sums ∧
    Publishes (archives.text sums) update.archiveName (sha256Hex h bytes) ∧
    ∃ entries, archives.entries bytes = some entries ∧ Holds (binaryName triple) entries binary
  archive : ".tar.gz".toList <:+ update.archiveName

/-- What is installed is verified, and what is verified is installed unless the copy is not a managed one or it is cancelled. -/
theorem run_install (h : Hashes) (releases : ReleaseReader) (archives : ArchiveReader) (dest triple : List Char)
    (update : AvailableUpdate) (archive checksum : Option (Option Response)) (late : Bool) (binary : List UInt8) :
    runInstall h releases archives dest triple update archive checksum late = .ok binary ↔
      classifyInstall dest = .managed ∧ late = false ∧ ∃ sent sums, archive = some sent ∧ checksum = some sums ∧
        Verified h releases archives triple update sent sums binary := by
  unfold runInstall
  constructor
  · intro hrun
    split at hrun
    · cases hrun
    · rename_i horigin
      split at hrun
      · cases hrun
      · rename_i sent
        split at hrun
        · cases hrun
        · rename_i bytes hbytes
          split at hrun
          · cases hrun
          · rename_i sums
            split at hrun
            · cases hrun
            · rename_i text htext
              split at hrun
              · cases hrun
              · rename_i expected hexpected
                split at hrun
                · cases hrun
                · rename_i hchecked
                  split at hrun
                  · cases hrun
                  · rename_i hlate
                    have hpublished := parseChecksum_ok_iff.mp hexpected
                    obtain ⟨htype, -, hentries⟩ := extractBinary_ok_iff.mp hrun
                    rw [← (verifyChecksum_ok_iff hpublished).mp hchecked] at hpublished
                    exact ⟨by simpa [Origin.allowsReplacement] using horigin, by simpa using hlate, sent, sums, rfl, rfl,
                      ⟨bytes, text, getLimited_ok_iff.mp hbytes, getLimited_ok_iff.mp htext, hpublished, hentries⟩, htype⟩
  · rintro ⟨horigin, rfl, sent, sums, rfl, rfl, ⟨bytes, text, hbytes, htext, hpublished, hentries⟩, htype⟩
    have hextract := extractBinary_ok_iff.mpr ⟨htype, hbytes.size, hentries⟩
    rw [if_neg (by rw [horigin]; decide)]
    dsimp only
    rw [getLimited_ok_iff.mpr hbytes]
    dsimp only
    rw [getLimited_ok_iff.mpr htext]
    dsimp only
    rw [parseChecksum_ok_iff.mpr hpublished]
    dsimp only
    rw [(verifyChecksum_ok_iff hpublished).mpr rfl]
    exact hextract

end OpenFelt.Trainer
