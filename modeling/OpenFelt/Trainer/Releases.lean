/-
  OpenFelt.Trainer.Releases — the release an installed copy is offered
  (`select_release` of `src/trainer/update.rs`).

  Translation. The list of releases is JSON and a URL has a grammar of its own: reading
  them is `ReleaseReader`. A version is a triple in the order of the source's tuples.

  `select_release`: a copy is offered the greatest stable release just when it is newer
  than the installed one and has its archive and its checksum at HTTPS addresses of
  GitHub; it is up to date just when no stable release is newer; and what is wrong with
  the greatest one is the error, as no older one stands in. A version that was offered
  reads back as itself.
-/

import OpenFelt.Lib.Numerals
import OpenFelt.Network.Invites
import Mathlib.Data.Prod.Lex
import Mathlib.Data.List.MinMax

namespace OpenFelt.Trainer

def maxReleaseList : Nat := 1000000

/-- Major, minor and patch, compared in this order. -/
abbrev StableVersion : Type := Nat ×ₗ (Nat ×ₗ Nat)

def stableVersion (major minor patch : Nat) : StableVersion := toLex (major, toLex (minor, patch))

/-- `strip_prefix`, when it applies. -/
def without (start text : List Char) : List Char := if start <+: text then text.drop start.length else text

def parseStableVersion (tag : List Char) : Option StableVersion :=
  let tag := without ['v'] (without "openfelt-".toList (trim tag))
  if tag.contains '-' || tag.contains '+' then none
  else
    match tag.splitOn '.' with
    | [major, minor, patch] =>
      match Numerals.parseUnsigned u64Max major, Numerals.parseUnsigned u64Max minor, Numerals.parseUnsigned u64Max patch with
      | some major, some minor, some patch => some (stableVersion major minor patch)
      | _, _, _ => none
    | _ => none

def formatVersion (version : StableVersion) : List Char :=
  (ofLex version).1.repr.toList ++ '.' ::
    ((ofLex (ofLex version).2).1.repr.toList ++ '.' :: (ofLex (ofLex version).2).2.repr.toList)

structure ReleaseAsset where
  name : List Char
  browserDownloadUrl : List Char
  deriving DecidableEq, Repr

structure Release where
  tagName : List Char
  draft : Bool
  prerelease : Bool
  htmlUrl : List Char
  assets : List ReleaseAsset
  deriving DecidableEq, Repr

structure AvailableUpdate where
  version : List Char
  notesUrl : List Char
  archiveName : List Char
  archiveUrl : List Char
  checksumUrl : List Char
  deriving DecidableEq, Repr

inductive CheckResult where
  | upToDate (version : List Char)
  | available (update : AvailableUpdate)
  | noRelease
  deriving DecidableEq, Repr

inductive SelectError where
  | tooLarge
  | noBuild
  | notStable
  | rateLimit
  | unreadable
  | missingArchive (version archive : List Char)
  | missingChecksum (version archive : List Char)
  | invalidUrl
  | notGitHub
  deriving DecidableEq, Repr

/-- `serde_json` and `reqwest::Url`: the releases of a body or the message of an error, and the scheme and host of a URL. -/
structure ReleaseReader where
  releases : List UInt8 → Option (List Release)
  apiError : List UInt8 → Option (List Char)
  url : List Char → Option (List Char × Option (List Char))

def archiveName (triple : List Char) : List Char := "openfelt-".toList ++ triple ++ ".tar.gz".toList

def checksumName (archive : List Char) : List Char := archive ++ ".sha256".toList

/-- `to_ascii_lowercase`. -/
def lower (text : List Char) : List Char := text.map Char.toLower

def hostAllowed (host : List Char) : Bool :=
  let host := lower ((trim host).rdropWhile (· = '.'))
  host = "github.com".toList || ".github.com".toList.isSuffixOf host || host = "githubusercontent.com".toList ||
    ".githubusercontent.com".toList.isSuffixOf host

def httpsGitHub (reader : ReleaseReader) (url : List Char) : Except SelectError Unit :=
  match reader.url url with
  | none => .error .invalidUrl
  | some (scheme, host) => if scheme = "https".toList && hostAllowed (host.getD []) then .ok () else .error .notGitHub

/-- The releases that are neither drafts nor for trial, with their versions. -/
def stableReleases (releases : List Release) : List (StableVersion × Release) :=
  releases.filterMap fun release =>
    if release.draft || release.prerelease then none
    else (parseStableVersion release.tagName).map fun version => (version, release)

def newestFirst (a b : StableVersion × Release) : Bool := decide (b.1 ≤ a.1)

def Release.asset (release : Release) (name : List Char) : Option ReleaseAsset := release.assets.find? (·.name = name)

/-- The update that a release offers. -/
def offer (reader : ReleaseReader) (triple : List Char) (version : StableVersion) (release : Release) :
    Except SelectError CheckResult :=
  let name := archiveName triple
  match release.asset name with
  | none => .error (.missingArchive (formatVersion version) name)
  | some archive =>
    match release.asset (checksumName name) with
    | none => .error (.missingChecksum (formatVersion version) name)
    | some checksum =>
      match httpsGitHub reader archive.browserDownloadUrl with
      | .error error => .error error
      | .ok () =>
        match httpsGitHub reader checksum.browserDownloadUrl with
        | .error error => .error error
        | .ok () =>
          .ok (.available ⟨formatVersion version, release.htmlUrl, name, archive.browserDownloadUrl, checksum.browserDownloadUrl⟩)

/-- The text is part of another, wherever it stands. -/
def within (text other : List Char) : Bool := other.tails.any fun rest => text.isPrefixOf rest

def selectRelease (reader : ReleaseReader) (current triple : List Char) (body : List UInt8) : Except SelectError CheckResult :=
  if maxReleaseList < body.length then .error .tooLarge
  else if triple = "unsupported".toList then .error .noBuild
  else
    match parseStableVersion current with
    | none => .error .notStable
    | some current =>
      match reader.releases body with
      | none =>
        if within "rate limit".toList (lower ((reader.apiError body).getD [])) then .error .rateLimit else .error .unreadable
      | some releases =>
        let stable := stableReleases releases
        if stable.isEmpty then .ok .noRelease
        else
          match (stable.mergeSort newestFirst).find? fun release => decide (current < release.1) with
          | none => .ok (.upToDate (formatVersion current))
          | some (version, release) => offer reader triple version release

/-! ## The newest release -/

theorem newestFirst_trans (a b c : StableVersion × Release) (hab : newestFirst a b = true) (hbc : newestFirst b c = true) :
    newestFirst a c = true := by
  rw [newestFirst, decide_eq_true_eq] at *
  exact le_trans hbc hab

theorem newestFirst_total (a b : StableVersion × Release) : (newestFirst a b || newestFirst b a) = true := by
  rw [newestFirst, newestFirst, Bool.or_eq_true, decide_eq_true_eq, decide_eq_true_eq]
  exact le_total b.1 a.1

/-- The sort is stable: its head is the first of the list among those of the greatest version. -/
theorem head?_newestFirst (stable : List (StableVersion × Release)) :
    (stable.mergeSort newestFirst).head? = stable.argmax Prod.fst := by
  induction stable with
  | nil => rw [List.mergeSort_nil, List.argmax_nil, List.head?_nil]
  | cons a rest ih =>
    obtain ⟨before, later, hsorted, hrest, hnewer⟩ := List.mergeSort_cons newestFirst_trans newestFirst_total a rest
    have hpairs := List.pairwise_mergeSort newestFirst_trans newestFirst_total (a :: rest)
    rw [hsorted] at hpairs ⊢
    rw [hrest] at ih
    rw [List.argmax_cons, ← ih]
    cases before with
    | nil =>
      cases later with
      | nil => rfl
      | cons b more =>
        have hle := (List.pairwise_cons.mp hpairs).1 b List.mem_cons_self
        rw [newestFirst, decide_eq_true_eq] at hle
        exact (if_neg (not_lt.mpr hle)).symm
    | cons b more =>
      have hlt := hnewer b List.mem_cons_self
      rw [newestFirst, Bool.not_eq_true', decide_eq_false_iff_not, not_le] at hlt
      exact (if_pos hlt).symm

/-- The first that is newer is the newest, or none is. -/
theorem find?_newestFirst (stable : List (StableVersion × Release)) (current : StableVersion) :
    ((stable.mergeSort newestFirst).find? fun release => decide (current < release.1)) =
      (stable.argmax Prod.fst).filter fun release => decide (current < release.1) := by
  have hpairs := List.pairwise_mergeSort newestFirst_trans newestFirst_total stable
  rw [← head?_newestFirst]
  cases hsorted : stable.mergeSort newestFirst with
  | nil => rfl
  | cons a rest =>
    rw [hsorted] at hpairs
    by_cases ha : current < a.1
    · rw [List.find?_cons_of_pos (by simpa using ha), List.head?_cons, Option.filter_some, if_pos (by simpa using ha)]
    · have hnone : rest.find? (fun release => decide (current < release.1)) = none := by
        rw [List.find?_eq_none]
        intro b hb hlt
        have hle := (List.pairwise_cons.mp hpairs).1 b hb
        rw [newestFirst, decide_eq_true_eq] at hle
        rw [decide_eq_true_eq] at hlt
        exact ha (lt_of_lt_of_le hlt hle)
      rw [List.find?_cons_of_neg (by simpa using ha), hnone, List.head?_cons, Option.filter_some, if_neg (by simpa using ha)]

theorem mem_stableReleases {releases : List Release} {found : StableVersion × Release} :
    found ∈ stableReleases releases ↔ found.2 ∈ releases ∧ found.2.draft = false ∧ found.2.prerelease = false ∧
      parseStableVersion found.2.tagName = some found.1 := by
  obtain ⟨version, release⟩ := found
  rw [stableReleases, List.mem_filterMap]
  constructor
  · rintro ⟨listed, hmem, hfound⟩
    split at hfound
    · cases hfound
    · rename_i hkept
      obtain ⟨read, hread, heq⟩ := Option.map_eq_some_iff.mp hfound
      obtain ⟨rfl, rfl⟩ := Prod.mk.inj heq
      simp only [Bool.or_eq_true, not_or, Bool.not_eq_true] at hkept
      exact ⟨hmem, hkept.1, hkept.2, hread⟩
  · rintro ⟨hmem, hdraft, htrial, hread⟩
    refine ⟨release, hmem, ?_⟩
    dsimp only at hdraft htrial hread
    simp [hdraft, htrial, hread]

/-! ## The round trip of a version -/

theorem trim_of_forall {text : List Char} (h : ∀ c ∈ text, isWhitespace c = false) : trim text = text := by
  have hdrop : text.dropWhile isWhitespace = text := by
    rw [List.dropWhile_eq_self_iff]
    intro hlen
    simp [h _ (List.getElem_mem hlen)]
  rw [trim, hdrop, List.rdropWhile_eq_self_iff]
  intro hne
  simp [h _ (List.getLast_mem hne)]

theorem without_of_not_mem {first : Char} {start text : List Char} (h : first ∉ text) : without (first :: start) text = text := by
  rw [without, if_neg]
  intro hstarts
  exact h (hstarts.subset List.mem_cons_self)

def inVersion (c : Char) : Bool := c.isDigit || c = '.'

theorem inVersion_format (version : StableVersion) : ∀ c ∈ formatVersion version, inVersion c = true := by
  intro c hc
  simp only [formatVersion, List.mem_append, List.mem_cons] at hc
  rcases hc with hc | rfl | hc | rfl | hc
  · simp [inVersion, Numerals.isDigit_of_mem hc]
  · rfl
  · simp [inVersion, Numerals.isDigit_of_mem hc]
  · rfl
  · simp [inVersion, Numerals.isDigit_of_mem hc]

theorem isWhitespace_inVersion {c : Char} (h : inVersion c = true) : isWhitespace c = false := by
  rw [inVersion, Bool.or_eq_true, decide_eq_true_eq] at h
  rcases h with hdigit | rfl
  · exact GameInvite.isWhitespace_allowed (by simp [GameInvite.allowedInAccess, Char.isAlphanum, hdigit])
  · decide

theorem not_mem_format {version : StableVersion} {c : Char} (h : inVersion c = false) : c ∉ formatVersion version := by
  intro hc
  rw [inVersion_format version c hc] at h
  cases h

theorem splitOn_dot {field rest : List Char} (h : ∀ c ∈ field, c ≠ '.') :
    (field ++ '.' :: rest).splitOn '.' = field :: rest.splitOn '.' :=
  List.splitOnP_append_cons_of_forall_mem (fun c hc => by simpa using h c hc) '.' (by decide) rest

theorem ne_dot_of_digit {n : Nat} : ∀ c ∈ n.repr.toList, c ≠ '.' := by
  rintro c hc rfl
  exact absurd (Numerals.isDigit_of_mem hc) (by decide)

structure StableVersion.Bounded (version : StableVersion) : Prop where
  major : (ofLex version).1 ≤ u64Max
  minor : (ofLex (ofLex version).2).1 ≤ u64Max
  patch : (ofLex (ofLex version).2).2 ≤ u64Max

theorem parseStableVersion_bounded {tag : List Char} {version : StableVersion} (h : parseStableVersion tag = some version) :
    version.Bounded := by
  unfold parseStableVersion at h
  dsimp only at h
  split at h
  · cases h
  · split at h
    · split at h
      · rename_i major minor patch hmajor hminor hpatch
        obtain rfl := Option.some.inj h
        exact ⟨Numerals.parseUnsigned_le hmajor, Numerals.parseUnsigned_le hminor, Numerals.parseUnsigned_le hpatch⟩
      · cases h
    · cases h

theorem parseStableVersion_format {version : StableVersion} (h : version.Bounded) :
    parseStableVersion (formatVersion version) = some version := by
  have htrim : trim (formatVersion version) = formatVersion version :=
    trim_of_forall fun c hc => isWhitespace_inVersion (inVersion_format version c hc)
  have hname : without "openfelt-".toList (formatVersion version) = formatVersion version :=
    without_of_not_mem (not_mem_format (c := 'o') rfl)
  have hmark : without ['v'] (formatVersion version) = formatVersion version := without_of_not_mem (not_mem_format rfl)
  have hlast : (ofLex (ofLex version).2).2.repr.toList.splitOn '.' = [(ofLex (ofLex version).2).2.repr.toList] :=
    List.splitOnP_eq_singleton fun c hc => by simpa using ne_dot_of_digit c hc
  have hsplit : (formatVersion version).splitOn '.' =
      [(ofLex version).1.repr.toList, (ofLex (ofLex version).2).1.repr.toList, (ofLex (ofLex version).2).2.repr.toList] := by
    rw [formatVersion, splitOn_dot ne_dot_of_digit, splitOn_dot ne_dot_of_digit, hlast]
  have hplain : ((formatVersion version).contains '-' || (formatVersion version).contains '+') = false := by
    rw [Bool.or_eq_false_iff]
    have hdash : '-' ∉ formatVersion version := not_mem_format rfl
    have hplus : '+' ∉ formatVersion version := not_mem_format rfl
    exact ⟨by simpa using hdash, by simpa using hplus⟩
  unfold parseStableVersion
  rw [htrim, hname, hmark]
  dsimp only
  rw [hplain, hsplit]
  simp only [Bool.false_eq_true, if_false, Numerals.parseUnsigned_repr h.major, Numerals.parseUnsigned_repr h.minor,
    Numerals.parseUnsigned_repr h.patch]
  rfl

example : parseStableVersion "openfelt-v1.10.2".toList = some (stableVersion 1 10 2) := rfl

/-! ## What is chosen -/

/-- Neither a draft nor for trial, and its tag is the version's. -/
structure Release.Stable (release : Release) (version : StableVersion) : Prop where
  draft : release.draft = false
  prerelease : release.prerelease = false
  tag : parseStableVersion release.tagName = some version

/-- The first release of the list among those of the greatest version. -/
structure Newest (releases : List Release) (version : StableVersion) (release : Release) : Prop where
  listed : release ∈ releases
  stable : release.Stable version
  first : (stableReleases releases).argmax Prod.fst = some (version, release)
  greatest : ∀ other ∈ releases, ∀ otherVersion, other.Stable otherVersion → otherVersion ≤ version

/-- An HTTPS address on GitHub. -/
def OnGitHub (reader : ReleaseReader) (url : List Char) : Prop :=
  ∃ host, reader.url url = some ("https".toList, host) ∧ hostAllowed (host.getD []) = true

/-- Why an address is refused. -/
inductive AddressRefused (reader : ReleaseReader) (url : List Char) : SelectError → Prop
  | invalid : reader.url url = none → AddressRefused reader url .invalidUrl
  | elsewhere : reader.url url ≠ none → ¬OnGitHub reader url → AddressRefused reader url .notGitHub

/-- The first file of the release with this name. -/
structure Release.Has (release : Release) (name : List Char) (asset : ReleaseAsset) : Prop where
  named : asset.name = name
  first : ∃ before after, release.assets = before ++ asset :: after ∧ ∀ other ∈ before, other.name ≠ name

def Release.Lacks (release : Release) (name : List Char) : Prop := ∀ asset ∈ release.assets, asset.name ≠ name

/-- The named file is the release's own and its address is on GitHub. -/
def Release.Publishes (reader : ReleaseReader) (release : Release) (name url : List Char) : Prop :=
  (∃ asset, release.Has name asset ∧ asset.browserDownloadUrl = url) ∧ OnGitHub reader url

/-- The update a release is offered as. -/
structure Release.Offers (reader : ReleaseReader) (triple : List Char) (version : StableVersion) (release : Release)
    (update : AvailableUpdate) : Prop where
  version : update.version = formatVersion version
  notes : update.notesUrl = release.htmlUrl
  named : update.archiveName = archiveName triple
  archive : release.Publishes reader (archiveName triple) update.archiveUrl
  checksum : release.Publishes reader (checksumName (archiveName triple)) update.checksumUrl

/-- The first reason why a release cannot be offered. -/
inductive Release.Fails (reader : ReleaseReader) (triple : List Char) (version : StableVersion) (release : Release) :
    SelectError → Prop
  | noArchive : release.Lacks (archiveName triple) →
      Fails reader triple version release (.missingArchive (formatVersion version) (archiveName triple))
  | noChecksum (archive : ReleaseAsset) : release.Has (archiveName triple) archive →
      release.Lacks (checksumName (archiveName triple)) →
      Fails reader triple version release (.missingChecksum (formatVersion version) (archiveName triple))
  | archiveAddress (archive checksum : ReleaseAsset) (error : SelectError) : release.Has (archiveName triple) archive →
      release.Has (checksumName (archiveName triple)) checksum → AddressRefused reader archive.browserDownloadUrl error →
      Fails reader triple version release error
  | checksumAddress (archive checksum : ReleaseAsset) (error : SelectError) : release.Has (archiveName triple) archive →
      release.Has (checksumName (archiveName triple)) checksum → OnGitHub reader archive.browserDownloadUrl →
      AddressRefused reader checksum.browserDownloadUrl error → Fails reader triple version release error

variable {reader : ReleaseReader} {releases : List Release} {release : Release} {version current : StableVersion}
  {installed triple : List Char} {body : List UInt8}

theorem stable_iff_mem : release ∈ releases ∧ release.Stable version ↔ (version, release) ∈ stableReleases releases := by
  rw [mem_stableReleases]
  constructor
  · rintro ⟨hmem, hstable⟩
    exact ⟨hmem, hstable.draft, hstable.prerelease, hstable.tag⟩
  · rintro ⟨hmem, hdraft, htrial, hread⟩
    exact ⟨hmem, ⟨hdraft, htrial, hread⟩⟩

theorem Newest.of_argmax {newest : StableVersion × Release} (h : (stableReleases releases).argmax Prod.fst = some newest) :
    Newest releases newest.1 newest.2 := by
  obtain ⟨hmem, hstable⟩ := stable_iff_mem.mpr (List.argmax_mem h)
  refine ⟨hmem, hstable, h, ?_⟩
  intro other hother otherVersion hversion
  exact List.le_of_mem_argmax (stable_iff_mem.mp ⟨hother, hversion⟩) h

theorem Newest.bounded (h : Newest releases version release) : version.Bounded := parseStableVersion_bounded h.stable.tag

theorem httpsGitHub_ok_iff {url : List Char} : httpsGitHub reader url = .ok () ↔ OnGitHub reader url := by
  unfold httpsGitHub OnGitHub
  cases hread : reader.url url with
  | none => simp
  | some found =>
    obtain ⟨scheme, host⟩ := found
    by_cases hscheme : scheme = "https".toList
    · subst hscheme
      cases hallowed : hostAllowed (host.getD []) <;> simp [hallowed]
    · simp

theorem httpsGitHub_error_iff {url : List Char} {error : SelectError} :
    httpsGitHub reader url = .error error ↔ AddressRefused reader url error := by
  have hok := @httpsGitHub_ok_iff reader url
  constructor
  · intro h
    rw [h] at hok
    have hrefused : ¬OnGitHub reader url := fun honGitHub => by cases hok.mpr honGitHub
    unfold httpsGitHub at h
    split at h
    · rename_i hread
      cases h
      exact .invalid hread
    · rename_i scheme host hread
      split at h
      · cases h
      · cases h
        exact .elsewhere (by rw [hread]; simp) hrefused
  · intro h
    cases h with
    | invalid hread => rw [httpsGitHub, hread]
    | elsewhere hread hrefused =>
      rw [← hok] at hrefused
      unfold httpsGitHub at hrefused ⊢
      cases hurl : reader.url url with
      | none => exact absurd hurl hread
      | some found =>
        obtain ⟨scheme, host⟩ := found
        rw [hurl] at hrefused
        dsimp only at hrefused ⊢
        split
        · rename_i hallowed
          exact absurd (if_pos hallowed) hrefused
        · rfl

theorem asset_some_iff {name : List Char} {asset : ReleaseAsset} : release.asset name = some asset ↔ release.Has name asset := by
  unfold Release.asset
  rw [List.find?_eq_some_iff_append]
  simp only [decide_eq_true_eq, Bool.not_eq_true', decide_eq_false_iff_not]
  exact ⟨fun h => ⟨h.1, h.2⟩, fun h => ⟨h.named, h.first⟩⟩

theorem asset_none_iff {name : List Char} : release.asset name = none ↔ release.Lacks name := by
  unfold Release.asset Release.Lacks
  simp

/-- A release has a first file of a name, or none at all. -/
theorem asset_cases (release : Release) (name : List Char) : release.Lacks name ∨ ∃ asset, release.Has name asset := by
  cases hasset : release.asset name with
  | none => exact Or.inl (asset_none_iff.mp hasset)
  | some asset => exact Or.inr ⟨asset, asset_some_iff.mp hasset⟩

/-- With both files the addresses decide. -/
theorem offer_of_has {archive checksum : ReleaseAsset} (harchive : release.Has (archiveName triple) archive)
    (hchecksum : release.Has (checksumName (archiveName triple)) checksum) : offer reader triple version release =
      (httpsGitHub reader archive.browserDownloadUrl).bind fun _ => (httpsGitHub reader checksum.browserDownloadUrl).bind fun _ =>
        .ok (.available ⟨formatVersion version, release.htmlUrl, archiveName triple, archive.browserDownloadUrl,
          checksum.browserDownloadUrl⟩) := by
  rw [offer, asset_some_iff.mpr harchive]
  dsimp only
  rw [asset_some_iff.mpr hchecksum]
  dsimp only
  cases httpsGitHub reader archive.browserDownloadUrl with
  | error error => rfl
  | ok u =>
    cases httpsGitHub reader checksum.browserDownloadUrl with
    | error error => rfl
    | ok u => rfl

theorem offer_ok_iff {result : CheckResult} : offer reader triple version release = .ok result ↔
    ∃ update, result = .available update ∧ release.Offers reader triple version update := by
  constructor
  · intro h
    rcases asset_cases release (archiveName triple) with hlacks | ⟨archive, harchive⟩
    · rw [offer, asset_none_iff.mpr hlacks] at h
      cases h
    rcases asset_cases release (checksumName (archiveName triple)) with hlacks | ⟨checksum, hchecksum⟩
    · rw [offer, asset_some_iff.mpr harchive] at h
      dsimp only at h
      rw [asset_none_iff.mpr hlacks] at h
      cases h
    rw [offer_of_has harchive hchecksum] at h
    cases hurl : httpsGitHub reader archive.browserDownloadUrl with
    | error error =>
      rw [hurl] at h
      cases h
    | ok u =>
      cases hsum : httpsGitHub reader checksum.browserDownloadUrl with
      | error error =>
        rw [hurl, hsum] at h
        cases h
      | ok u =>
        rw [hurl, hsum] at h
        cases h
        exact ⟨_, rfl, rfl, rfl, rfl, ⟨⟨archive, harchive, rfl⟩, httpsGitHub_ok_iff.mp hurl⟩,
          ⟨⟨checksum, hchecksum, rfl⟩, httpsGitHub_ok_iff.mp hsum⟩⟩
  · rintro ⟨update, rfl, hoffers⟩
    obtain ⟨⟨archive, harchive, harchiveUrl⟩, hurl⟩ := hoffers.archive
    obtain ⟨⟨checksum, hchecksum, hchecksumUrl⟩, hsum⟩ := hoffers.checksum
    rw [offer_of_has harchive hchecksum, harchiveUrl, hchecksumUrl, httpsGitHub_ok_iff.mpr hurl, httpsGitHub_ok_iff.mpr hsum,
      ← hoffers.version, ← hoffers.notes, ← hoffers.named]
    rfl

theorem offer_error_iff {error : SelectError} : offer reader triple version release = .error error ↔
    release.Fails reader triple version error := by
  constructor
  · intro h
    rcases asset_cases release (archiveName triple) with hlacks | ⟨archive, harchive⟩
    · rw [offer, asset_none_iff.mpr hlacks] at h
      cases h
      exact .noArchive hlacks
    rcases asset_cases release (checksumName (archiveName triple)) with hlacks | ⟨checksum, hchecksum⟩
    · rw [offer, asset_some_iff.mpr harchive] at h
      dsimp only at h
      rw [asset_none_iff.mpr hlacks] at h
      cases h
      exact .noChecksum archive harchive hlacks
    rw [offer_of_has harchive hchecksum] at h
    cases hurl : httpsGitHub reader archive.browserDownloadUrl with
    | error refusal =>
      rw [hurl] at h
      cases h
      exact .archiveAddress archive checksum _ harchive hchecksum (httpsGitHub_error_iff.mp hurl)
    | ok u =>
      cases hsum : httpsGitHub reader checksum.browserDownloadUrl with
      | error refusal =>
        rw [hurl, hsum] at h
        cases h
        exact .checksumAddress archive checksum _ harchive hchecksum (httpsGitHub_ok_iff.mp hurl) (httpsGitHub_error_iff.mp hsum)
      | ok u =>
        rw [hurl, hsum] at h
        cases h
  · intro h
    cases h with
    | noArchive hlacks => rw [offer, asset_none_iff.mpr hlacks]
    | noChecksum archive harchive hlacks =>
      rw [offer, asset_some_iff.mpr harchive]
      dsimp only
      rw [asset_none_iff.mpr hlacks]
    | archiveAddress archive checksum error harchive hchecksum hrefused =>
      rw [offer_of_has harchive hchecksum, httpsGitHub_error_iff.mpr hrefused]
      rfl
    | checksumAddress archive checksum error harchive hchecksum hurl hrefused =>
      rw [offer_of_has harchive hchecksum, httpsGitHub_ok_iff.mpr hurl, httpsGitHub_error_iff.mpr hrefused]
      rfl

/-- The list, when it is read, is asked for its newest release only. -/
theorem selectRelease_eq (hsize : body.length ≤ maxReleaseList) (htriple : triple ≠ "unsupported".toList)
    (hcurrent : parseStableVersion installed = some current) (hread : reader.releases body = some releases) :
    selectRelease reader installed triple body =
      ((stableReleases releases).argmax Prod.fst).elim (.ok .noRelease) fun newest =>
        if current < newest.1 then offer reader triple newest.1 newest.2 else .ok (.upToDate (formatVersion current)) := by
  rw [selectRelease, if_neg (Nat.not_lt.mpr hsize), if_neg htriple, hcurrent, hread]
  dsimp only
  rw [find?_newestFirst]
  cases hnewest : (stableReleases releases).argmax Prod.fst with
  | none =>
    rw [List.argmax_eq_none] at hnewest
    rw [hnewest]
    rfl
  | some newest =>
    have hne : (stableReleases releases).isEmpty = false := by
      rw [List.isEmpty_eq_false_iff_exists_mem]
      exact ⟨newest, List.argmax_mem hnewest⟩
    rw [hne, Option.filter_some, Option.elim_some]
    by_cases hlt : current < newest.1
    · simp [hlt]
    · simp [hlt]

/-- What a list of releases means for an installed copy. -/
structure ReleaseChoice (reader : ReleaseReader) (installed triple : List Char) (body : List UInt8) (current : StableVersion)
    (releases : List Release) : Prop where
  noRelease : selectRelease reader installed triple body = .ok .noRelease ↔
    ∀ release ∈ releases, ∀ version, ¬release.Stable version
  upToDate : ∀ text, selectRelease reader installed triple body = .ok (.upToDate text) ↔
    text = formatVersion current ∧ ∃ version release, Newest releases version release ∧ version ≤ current
  available : ∀ update, selectRelease reader installed triple body = .ok (.available update) ↔
    ∃ version release, Newest releases version release ∧ current < version ∧ release.Offers reader triple version update
  /-- No older release stands in for the newest. -/
  failed : ∀ error, selectRelease reader installed triple body = .error error ↔
    ∃ version release, Newest releases version release ∧ current < version ∧ release.Fails reader triple version error
  /-- The copy that was offered is offered nothing more by the same list. -/
  settled : ∀ update, selectRelease reader installed triple body = .ok (.available update) →
    selectRelease reader update.version triple body = .ok (.upToDate update.version)

theorem Newest.eq {newest : StableVersion × Release} (h : Newest releases version release)
    (hnewest : (stableReleases releases).argmax Prod.fst = some newest) : version = newest.1 ∧ release = newest.2 :=
  Prod.mk.inj (Option.some.inj (h.first.symm.trans hnewest))

theorem choice_of_none (hnone : (stableReleases releases).argmax Prod.fst = none)
    (heq : selectRelease reader installed triple body = .ok .noRelease) :
    ReleaseChoice reader installed triple body current releases := by
  rw [List.argmax_eq_none] at hnone
  have hunstable : ∀ release ∈ releases, ∀ version, ¬release.Stable version := by
    intro release hmem version hstable
    have hlisted := stable_iff_mem.mp ⟨hmem, hstable⟩
    rw [hnone] at hlisted
    cases hlisted
  have hno : ∀ version release, ¬Newest releases version release := fun _ _ hn => hunstable _ hn.listed _ hn.stable
  refine ⟨⟨fun _ => hunstable, fun _ => heq⟩, fun text => ?_, fun update => ?_, fun error => ?_, fun update h => ?_⟩
  · rw [heq]
    constructor
    · intro h
      cases h
    · rintro ⟨-, version, release, hn, -⟩
      exact absurd hn (hno _ _)
  · rw [heq]
    constructor
    · intro h
      cases h
    · rintro ⟨version, release, hn, -⟩
      exact absurd hn (hno _ _)
  · rw [heq]
    constructor
    · intro h
      cases h
    · rintro ⟨version, release, hn, -⟩
      exact absurd hn (hno _ _)
  · rw [heq] at h
    cases h

/-- The newest release is asked for its files, and no other. -/
theorem choice_of_newer (hsize : body.length ≤ maxReleaseList) (htriple : triple ≠ "unsupported".toList)
    (hread : reader.releases body = some releases) {newest : StableVersion × Release}
    (hnewest : (stableReleases releases).argmax Prod.fst = some newest) (hlt : current < newest.1)
    (heq : selectRelease reader installed triple body = offer reader triple newest.1 newest.2) :
    ReleaseChoice reader installed triple body current releases := by
  have hn := Newest.of_argmax hnewest
  refine ⟨⟨fun h => ?_, fun h => absurd hn.stable (h _ hn.listed _)⟩, fun text => ⟨fun h => ?_, ?_⟩, fun update => ?_,
    fun error => ?_, fun update h => ?_⟩
  · obtain ⟨update, hupdate, -⟩ := offer_ok_iff.mp (heq.symm.trans h)
    cases hupdate
  · obtain ⟨update, hupdate, -⟩ := offer_ok_iff.mp (heq.symm.trans h)
    cases hupdate
  · rintro ⟨-, version, release, hother, hle⟩
    rw [(hother.eq hnewest).1] at hle
    exact absurd hle (not_le.mpr hlt)
  · rw [heq, offer_ok_iff]
    constructor
    · rintro ⟨found, hfound, hoffers⟩
      cases hfound
      exact ⟨newest.1, newest.2, hn, hlt, hoffers⟩
    · rintro ⟨version, release, hother, -, hoffers⟩
      obtain ⟨rfl, rfl⟩ := hother.eq hnewest
      exact ⟨update, rfl, hoffers⟩
  · rw [heq, offer_error_iff]
    constructor
    · intro hfails
      exact ⟨newest.1, newest.2, hn, hlt, hfails⟩
    · rintro ⟨version, release, hother, -, hfails⟩
      obtain ⟨rfl, rfl⟩ := hother.eq hnewest
      exact hfails
  · obtain ⟨found, hfound, hoffers⟩ := offer_ok_iff.mp (heq.symm.trans h)
    cases hfound
    have hparse : parseStableVersion update.version = some newest.1 := by
      rw [hoffers.version, parseStableVersion_format hn.bounded]
    rw [selectRelease_eq hsize htriple hparse hread, hnewest, Option.elim_some, if_neg (lt_irrefl _), hoffers.version]

theorem choice_of_current {newest : StableVersion × Release}
    (hnewest : (stableReleases releases).argmax Prod.fst = some newest) (hlt : ¬current < newest.1)
    (heq : selectRelease reader installed triple body = .ok (.upToDate (formatVersion current))) :
    ReleaseChoice reader installed triple body current releases := by
  have hn := Newest.of_argmax hnewest
  have holder : ∀ version release, Newest releases version release → ¬current < version := by
    intro version release hother hnewer
    rw [(hother.eq hnewest).1] at hnewer
    exact hlt hnewer
  refine ⟨⟨fun h => ?_, fun h => absurd hn.stable (h _ hn.listed _)⟩, fun text => ?_, fun update => ?_, fun error => ?_,
    fun update h => ?_⟩
  · rw [heq] at h
    cases h
  · constructor
    · intro h
      rw [heq] at h
      cases h
      exact ⟨rfl, newest.1, newest.2, hn, not_lt.mp hlt⟩
    · rintro ⟨rfl, -⟩
      exact heq
  · rw [heq]
    constructor
    · intro h
      cases h
    · rintro ⟨version, release, hother, hnewer, -⟩
      exact absurd hnewer (holder _ _ hother)
  · rw [heq]
    constructor
    · intro h
      cases h
    · rintro ⟨version, release, hother, hnewer, -⟩
      exact absurd hnewer (holder _ _ hother)
  · rw [heq] at h
    cases h

/-- A copy is offered the greatest stable release if it is newer, with its own archive and checksum from GitHub, and once. -/
theorem select_release (hsize : body.length ≤ maxReleaseList) (htriple : triple ≠ "unsupported".toList)
    (hcurrent : parseStableVersion installed = some current) (hread : reader.releases body = some releases) :
    ReleaseChoice reader installed triple body current releases := by
  have heq := selectRelease_eq hsize htriple hcurrent hread
  cases hnewest : (stableReleases releases).argmax Prod.fst with
  | none =>
    rw [hnewest, Option.elim_none] at heq
    exact choice_of_none hnewest heq
  | some newest =>
    rw [hnewest, Option.elim_some] at heq
    by_cases hlt : current < newest.1
    · rw [if_pos hlt] at heq
      exact choice_of_newer hsize htriple hread hnewest hlt heq
    · rw [if_neg hlt] at heq
      exact choice_of_current hnewest hlt heq

/-! ## A list of three -/

def pages : List Char := "https://github.com/jdavies69/openfelt/releases/".toList

def linuxArchive : List Char := archiveName "x86_64-unknown-linux-gnu".toList

/-- A file of the release with this tag. -/
def download (tag name : List Char) : ReleaseAsset := ⟨name, pages ++ "download/".toList ++ tag ++ '/' :: name⟩

/-- A release with its archive and checksum, under its tag. -/
def listedRelease (tag : List Char) (prerelease : Bool) : Release where
  tagName := tag
  draft := false
  prerelease := prerelease
  htmlUrl := pages ++ "tag/".toList ++ tag
  assets := [download tag linuxArchive, download tag (checksumName linuxArchive)]

/-- The newest is for trial. -/
def listedReleases : List Release :=
  [listedRelease "v1.2.0-rc.1".toList true, listedRelease "v0.9.0".toList false, listedRelease "v1.1.0".toList false]

def quoted (text : List Char) : List Char := '"' :: (text ++ ['"'])

def jsonObject (fields : List (String × List Char)) : List Char :=
  '\x7b' :: ((fields.map fun field => quoted field.1.toList ++ ':' :: field.2).intersperse [',']).flatten ++ ['\x7d']

def jsonArray (items : List (List Char)) : List Char := '[' :: ((items.intersperse [',']).flatten ++ [']'])

def ReleaseAsset.json (asset : ReleaseAsset) : List Char :=
  jsonObject [("name", quoted asset.name), ("browser_download_url", quoted asset.browserDownloadUrl)]

def Release.json (release : Release) : List Char :=
  jsonObject [("tag_name", quoted release.tagName), ("draft", (toString release.draft).toList),
    ("prerelease", (toString release.prerelease).toList), ("html_url", quoted release.htmlUrl),
    ("assets", jsonArray (release.assets.map ReleaseAsset.json))]

def listedBody : List UInt8 := (jsonArray (listedReleases.map Release.json)).map fun c => UInt8.ofNat c.toNat

/-- Scheme and host of an address without a user or a port. -/
def splitAddress (url : List Char) : Option (List Char × Option (List Char)) :=
  let scheme := url.takeWhile (· ≠ ':')
  if (scheme ++ "://".toList).isPrefixOf url then
    some (scheme, some ((url.drop (scheme.length + 3)).takeWhile (· ≠ '/')))
  else none

/-- Reads this list, and no other body. -/
def listedReader : ReleaseReader where
  releases body := if body = listedBody then some listedReleases else none
  apiError _ := none
  url := splitAddress

/-- Version 1.0.1 is offered 1.1.0, that comes last. -/
theorem select_release_listed : selectRelease listedReader "1.0.1".toList "x86_64-unknown-linux-gnu".toList listedBody =
    .ok (.available ⟨"1.1.0".toList, "https://github.com/jdavies69/openfelt/releases/tag/v1.1.0".toList, linuxArchive,
      (download "v1.1.0".toList linuxArchive).browserDownloadUrl,
      (download "v1.1.0".toList (checksumName linuxArchive)).browserDownloadUrl⟩) := by
  have hsize : listedBody.length ≤ maxReleaseList := by
    rw [listedBody, List.length_map]
    decide +kernel
  have hread : listedReader.releases listedBody = some listedReleases := by simp [listedReader]
  have hnewest : (stableReleases listedReleases).argmax Prod.fst =
      some (stableVersion 1 1 0, listedRelease "v1.1.0".toList false) := by rfl
  have harchive : (listedRelease "v1.1.0".toList false).Publishes listedReader linuxArchive
      (download "v1.1.0".toList linuxArchive).browserDownloadUrl :=
    ⟨⟨_, ⟨rfl, [], _, rfl, by simp⟩, rfl⟩, some "github.com".toList, by decide +kernel, by decide⟩
  have hchecksum : (listedRelease "v1.1.0".toList false).Publishes listedReader (checksumName linuxArchive)
      (download "v1.1.0".toList (checksumName linuxArchive)).browserDownloadUrl := by
    refine ⟨⟨_, ⟨rfl, [download "v1.1.0".toList linuxArchive], [], rfl, ?_⟩, rfl⟩, some "github.com".toList, by decide +kernel,
      by decide⟩
    decide
  exact ((select_release hsize (by decide) (show parseStableVersion "1.0.1".toList = some (stableVersion 1 0 1) from rfl)
    hread).available _).mpr ⟨_, _, .of_argmax hnewest, by decide, rfl, rfl, rfl, harchive, hchecksum⟩

end OpenFelt.Trainer
