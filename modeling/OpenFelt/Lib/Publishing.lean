/-
  OpenFelt.Lib.Publishing — files that are replaced whole.

  A disk has names, and files behind them. A publication writes its content to a file
  under a temporary name, syncs it, and renames it to its destination. Any number of
  publications run interleaved; each of their calls may fail, a publication may be killed,
  and the machine may crash. A crash keeps the files that were synced, and gives back the
  names as they were at some moment since they were last synced; what was not synced may
  then hold anything.

  Temporary names are no destinations, and whoever works under one has it to itself:
  - `Run.shows`: a destination holds the whole content of the last publication to it.
  - `Run.survives`: after a crash every destination is as it was after one and the same
    number of publications, at least as many as when the names were last synced.
  - `Run.tidy`: no temporary file is left by publications that were not cut short.
-/

import Mathlib.Data.List.Induction
import Mathlib.Logic.Function.Basic

namespace OpenFelt.Publishing

/-! ## The disk -/

structure Disk (Name α : Type) where
  names : Name → Option Nat
  files : Nat → List α
  synced : Nat → Bool
  next : Nat
  /-- The names as they were since they were last synced. -/
  earlier : List (Name → Option Nat)

namespace Disk

variable {Name α : Type} [DecidableEq Name] (d : Disk Name α)

def read (n : Name) : Option (List α) := (d.names n).map d.files

/-- The file that is opened under a name. -/
def target (n : Name) : Nat := (d.names n).getD d.next

/-- The file under the name is emptied, or made. -/
def open_ (n : Name) : Disk Name α where
  names := Function.update d.names n (some (d.target n))
  files := Function.update d.files (d.target n) []
  synced := Function.update d.synced (d.target n) false
  next := max d.next (d.target n + 1)
  earlier := d.names :: d.earlier

def write (i : Nat) (piece : List α) : Disk Name α :=
  { d with files := Function.update d.files i (d.files i ++ piece), synced := Function.update d.synced i false }

def sync (i : Nat) : Disk Name α := { d with synced := Function.update d.synced i true }

def rename (source destination : Name) : Disk Name α :=
  { d with
    names := Function.update (Function.update d.names destination (d.names source)) source none
    earlier := d.names :: d.earlier }

def remove (n : Name) : Disk Name α := { d with names := Function.update d.names n none, earlier := d.names :: d.earlier }

def syncNames : Disk Name α := { d with earlier := [] }

end Disk

theorem Disk.open_names_ne {Name α : Type} [DecidableEq Name] {d : Disk Name α} {n m : Name} (h : m ≠ n) :
    (d.open_ n).names m = d.names m := Function.update_of_ne h _ _

/-- The names that a crash may leave. -/
def Disk.Recalls {Name α : Type} (d : Disk Name α) (names : Name → Option Nat) : Prop := names ∈ d.names :: d.earlier

theorem Disk.recalls_names {Name α : Type} (d : Disk Name α) : d.Recalls d.names := List.mem_cons_self

/-- A disk that has been at rest. -/
structure Disk.AtRest {Name α : Type} (d : Disk Name α) : Prop where
  named : ∀ n i, d.names n = some i → i < d.next
  once : ∀ n m i, d.names n = some i → d.names m = some i → n = m
  synced : ∀ i, d.synced i = true
  earlier : d.earlier = []

/-- What a crash leaves of a disk. -/
structure Crash {Name α : Type} (d d' : Disk Name α) : Prop where
  names : d'.names ∈ d.names :: d.earlier
  files : ∀ i, d.synced i = true → d'.files i = d.files i
  synced : ∀ i, d'.synced i = true
  next : d'.next = d.next
  earlier : d'.earlier = []

/-! ## Publications -/

structure Publication (Name α : Type) where
  temporary : Name
  destination : Name
  content : List α
  /-- Its file must not be there before. -/
  fresh : Bool
  /-- When it fails it removes its file. -/
  tidies : Bool

inductive Stage (α : Type) where
  | idle
  | begun
  | writing (file : Nat) (written : List α)
  | flushed (file : Nat)
  | replaced
  | failed
  | done
  | refused
  /-- Killed, caught in a crash, or unable to remove its file. -/
  | lost

/-- The stages in which a publication works under its temporary name. -/
def Stage.holds {α : Type} : Stage α → Bool
  | begun | writing _ _ | flushed _ | failed => true
  | idle | replaced | done | refused | lost => false

def Stage.crashed {α : Type} : Stage α → Stage α
  | idle => idle
  | begun | writing _ _ | flushed _ | replaced | failed | done | refused | lost => lost

structure Shelf (ι Name α : Type) where
  disk : Disk Name α
  stage : ι → Stage α
  /-- What the destinations held at first, or after the last crash. -/
  base : Name → Option (List α)
  /-- Who has replaced a destination since then, in order. -/
  log : List ι
  /-- How many had when the names were last synced. -/
  settled : Nat

section runs
variable {ι Name α : Type} [DecidableEq Name] (p : ι → Publication Name α)

/-- What a destination holds after some publications. -/
def after (base : Name → Option (List α)) (log : List ι) (n : Name) : Option (List α) :=
  log.foldl (fun shown k => if (p k).destination = n then some (p k).content else shown) (base n)

def Shelf.start (d : Disk Name α) : Shelf ι Name α := ⟨d, fun _ => .idle, d.read, [], 0⟩

variable [DecidableEq ι]

/-- The shelf with one publication at another stage. -/
def Shelf.moved (s : Shelf ι Name α) (disk : Disk Name α) (k : ι) (stage : Stage α) : Shelf ι Name α :=
  { s with disk := disk, stage := Function.update s.stage k stage }

inductive Step : Shelf ι Name α → Shelf ι Name α → Prop
  /-- Nobody else works under the temporary name. -/
  | begin (s : Shelf ι Name α) (k : ι) : s.stage k = .idle →
      (∀ j, (s.stage j).holds = true → (p j).temporary ≠ (p k).temporary) → Step s (s.moved s.disk k .begun)
  | opens (s : Shelf ι Name α) (k : ι) : s.stage k = .begun →
      ((p k).fresh = true → s.disk.names (p k).temporary = none) →
      Step s (s.moved (s.disk.open_ (p k).temporary) k (.writing (s.disk.target (p k).temporary) []))
  | writes (s : Shelf ι Name α) (k : ι) (file : Nat) (written piece : List α) : s.stage k = .writing file written →
      written ++ piece <+: (p k).content →
      Step s (s.moved (s.disk.write file piece) k (.writing file (written ++ piece)))
  | flushes (s : Shelf ι Name α) (k : ι) (file : Nat) : s.stage k = .writing file (p k).content →
      Step s (s.moved (s.disk.sync file) k (.flushed file))
  | replaces (s : Shelf ι Name α) (k : ι) (file : Nat) : s.stage k = .flushed file →
      Step s { s.moved (s.disk.rename (p k).temporary (p k).destination) k .replaced with log := s.log ++ [k] }
  | settles (s : Shelf ι Name α) (k : ι) : s.stage k = .replaced →
      Step s { s.moved s.disk.syncNames k .done with settled := s.log.length }
  /-- The names were not synced, or need not be. -/
  | returns (s : Shelf ι Name α) (k : ι) : s.stage k = .replaced → Step s (s.moved s.disk k .done)
  | fails (s : Shelf ι Name α) (k : ι) : (s.stage k).holds = true → Step s (s.moved s.disk k .failed)
  | removes (s : Shelf ι Name α) (k : ι) : s.stage k = .failed → (p k).tidies = true →
      Step s (s.moved (s.disk.remove (p k).temporary) k .refused)
  | leaves (s : Shelf ι Name α) (k : ι) : s.stage k = .failed → Step s (s.moved s.disk k .lost)
  | killed (s : Shelf ι Name α) (k : ι) : s.stage k ≠ .idle → Step s (s.moved s.disk k .lost)
  | crashes (s : Shelf ι Name α) (disk : Disk Name α) : Crash s.disk disk →
      Step s {
        disk := disk
        stage := fun k => (s.stage k).crashed
        base := disk.read
        log := []
        settled := 0 }

inductive Run (d : Disk Name α) : Shelf ι Name α → Prop
  | start : Run d (.start d)
  | step {s t : Shelf ι Name α} : Run d s → Step p s t → Run d t

end runs

/-! ## What holds of every run -/

section runs
variable {ι Name α : Type} [DecidableEq Name] (p : ι → Publication Name α)

/-- The invariant. -/
structure Sound (s : Shelf ι Name α) : Prop where
  named : ∀ names, s.disk.Recalls names → ∀ n i, names n = some i → i < s.disk.next
  once : ∀ names, s.disk.Recalls names → ∀ n m i, names n = some i → names m = some i → n = m
  /-- A file that is or was published is whole, and nobody writes to it. -/
  apart : ∀ names, s.disk.Recalls names → ∀ k i, names (p k).destination = some i → s.disk.synced i = true ∧
    ∀ n, n ≠ (p k).destination → s.disk.names n ≠ some i
  /-- Every directory shows the destinations after some number of publications. -/
  cut : ∀ names, s.disk.Recalls names → ∃ count, s.settled ≤ count ∧ count ≤ s.log.length ∧
    ∀ k, (names (p k).destination).map s.disk.files = after p s.base (s.log.take count) (p k).destination
  shows : ∀ k, s.disk.read (p k).destination = after p s.base s.log (p k).destination
  settled : s.settled ≤ s.log.length
  writing : ∀ k file written, s.stage k = .writing file written →
    s.disk.names (p k).temporary = some file ∧ s.disk.files file = written
  flushed : ∀ k file, s.stage k = .flushed file →
    s.disk.names (p k).temporary = some file ∧ s.disk.files file = (p k).content ∧ s.disk.synced file = true
  held : ∀ j k, (s.stage j).holds = true → (s.stage k).holds = true → (p j).temporary = (p k).temporary → j = k

theorem after_append (base : Name → Option (List α)) (log : List ι) (k : ι) (n : Name) :
    after p base (log ++ [k]) n = if (p k).destination = n then some (p k).content else after p base log n := by
  simp [after, List.foldl_append]

variable {p} {d d' : Disk Name α} {s t : Shelf ι Name α} {k : ι} {i : Nat}

/-- The temporary names are no destinations. -/
def Apart (p : ι → Publication Name α) : Prop := ∀ j k, (p j).temporary ≠ (p k).destination

theorem Sound.start (hrest : d.AtRest) : Sound p (.start d) := by
  have hnames : ∀ names, d.Recalls names → names = d.names := by
    intro names h
    simpa [Disk.Recalls, hrest.earlier] using h
  refine ⟨fun names h => ?_, fun names h => ?_, fun names h => ?_, fun names h => ?_, fun _ => rfl, Nat.le_refl _,
    fun _ _ _ h => (by cases h), fun _ _ h => (by cases h), fun _ _ h => (by cases h)⟩
  · obtain rfl := hnames names h
    exact hrest.named
  · obtain rfl := hnames names h
    exact hrest.once
  · obtain rfl := hnames names h
    refine fun k i hi => ⟨hrest.synced i, fun n hn hsame => hn ?_⟩
    exact hrest.once _ _ _ hsame hi
  · obtain rfl := hnames names h
    exact ⟨0, Nat.le_refl _, Nat.le_refl _, fun _ => rfl⟩

/-- Nobody but one publication has to do with the file. -/
structure Owned (p : ι → Publication Name α) (s : Shelf ι Name α) (k : ι) (i : Nat) : Prop where
  unpublished : ∀ names, s.disk.Recalls names → ∀ j, names (p j).destination ≠ some i
  unshared : ∀ j, j ≠ k → (s.stage j).holds = true → s.disk.names (p j).temporary ≠ some i

theorem Sound.owned (hs : Sound p s) (hp : Apart p) (hk : (s.stage k).holds = true)
    (hi : s.disk.names (p k).temporary = some i) : Owned p s k i := by
  refine ⟨fun names hnames j hj => ?_, fun j hjk hj hsame => hjk ?_⟩
  · exact (hs.apart names hnames j i hj).2 _ (hp k j) hi
  · exact hs.held j k hj hk (hs.once _ (s.disk.recalls_names) _ _ _ hsame hi)

variable [DecidableEq ι]

omit [DecidableEq Name] in
@[simp] theorem moved_self {disk : Disk Name α} {stage : Stage α} : (s.moved disk k stage).stage k = stage :=
  Function.update_self _ _ _

omit [DecidableEq Name] in
theorem moved_ne {disk : Disk Name α} {stage : Stage α} {j : ι} (h : j ≠ k) : (s.moved disk k stage).stage j = s.stage j :=
  Function.update_of_ne h _ _

/-- Only the stage of one publication changes, to one without a file. -/
theorem Sound.restage (hs : Sound p s) {stage : Stage α} (hwriting : ∀ file written, stage ≠ .writing file written)
    (hflushed : ∀ file, stage ≠ .flushed file)
    (hheld : stage.holds = true → ∀ j, j ≠ k → (s.stage j).holds = true → (p j).temporary ≠ (p k).temporary) :
    Sound p (s.moved s.disk k stage) := by
  refine ⟨hs.named, hs.once, hs.apart, hs.cut, hs.shows, hs.settled, fun j file written h => ?_, fun j file h => ?_,
    fun j l hj hl hsame => ?_⟩
  · by_cases hjk : j = k
    · subst hjk
      exact absurd (moved_self.symm.trans h) (hwriting file written)
    · exact hs.writing j file written ((moved_ne hjk).symm.trans h)
  · by_cases hjk : j = k
    · subst hjk
      exact absurd (moved_self.symm.trans h) (hflushed file)
    · exact hs.flushed j file ((moved_ne hjk).symm.trans h)
  · by_contra hne
    by_cases hjk : j = k
    · subst hjk
      have hlj : l ≠ j := fun he => hne he.symm
      rw [moved_self] at hj
      rw [moved_ne hlj] at hl
      exact hheld hj l hlj hl hsame.symm
    · by_cases hlk : l = k
      · subst hlk
        rw [moved_self] at hl
        rw [moved_ne hjk] at hj
        exact hheld hl j hjk hj hsame
      · rw [moved_ne hjk] at hj
        rw [moved_ne hlk] at hl
        exact hne (hs.held j l hj hl hsame)

/-- One publication's file changes, and nothing else of the disk. -/
theorem Sound.touch (hs : Sound p s) (howned : Owned p s k i) (hk : (s.stage k).holds = true) {disk : Disk Name α}
    {stage : Stage α} (hnames : disk.names = s.disk.names) (hearlier : disk.earlier = s.disk.earlier)
    (hnext : disk.next = s.disk.next)
    (hothers : ∀ j, j ≠ i → disk.files j = s.disk.files j ∧ disk.synced j = s.disk.synced j)
    (hwriting : ∀ file written, stage = .writing file written →
      disk.names (p k).temporary = some file ∧ disk.files file = written)
    (hflushed : ∀ file, stage = .flushed file →
      disk.names (p k).temporary = some file ∧ disk.files file = (p k).content ∧ disk.synced file = true) :
    Sound p (s.moved disk k stage) := by
  have hrecalls : ∀ names, disk.Recalls names ↔ s.disk.Recalls names := by
    intro names
    rw [Disk.Recalls, Disk.Recalls, hnames, hearlier]
  have hkept : ∀ names, s.disk.Recalls names → ∀ j,
      (names (p j).destination).map disk.files = (names (p j).destination).map s.disk.files := by
    intro names h j
    cases hj : names (p j).destination with
    | none => rfl
    | some file =>
      have hne : file ≠ i := by
        rintro rfl
        exact howned.unpublished names h j hj
      rw [Option.map_some, Option.map_some, (hothers file hne).1]
  have hfile : ∀ j file, j ≠ k → (s.stage j).holds = true → s.disk.names (p j).temporary = some file → file ≠ i := by
    rintro j file hjk hj hname rfl
    exact howned.unshared j hjk hj hname
  refine ⟨fun names h => ?_, fun names h => ?_, fun names h j file hj => ?_, fun names h => ?_, fun j => ?_, hs.settled,
    fun j file written h => ?_, fun j file h => ?_, fun j l hj hl hsame => ?_⟩
  · show ∀ n file, names n = some file → file < disk.next
    rw [hnext]
    exact hs.named names ((hrecalls names).mp h)
  · exact hs.once names ((hrecalls names).mp h)
  · have hold := (hrecalls names).mp h
    obtain ⟨hsynced, hn⟩ := hs.apart names hold j file hj
    have hne : file ≠ i := by
      rintro rfl
      exact howned.unpublished names hold j hj
    refine ⟨(hothers file hne).2.trans hsynced, ?_⟩
    show ∀ n, n ≠ _ → disk.names n ≠ some file
    rw [hnames]
    exact hn
  · obtain ⟨count, hle, hcount, hshown⟩ := hs.cut names ((hrecalls names).mp h)
    exact ⟨count, hle, hcount, fun j => (hkept names ((hrecalls names).mp h) j).trans (hshown j)⟩
  · show (disk.names _).map disk.files = _
    rw [hnames]
    exact (hkept _ (s.disk.recalls_names) j).trans (hs.shows j)
  · by_cases hjk : j = k
    · subst hjk
      exact hwriting file written (moved_self.symm.trans h)
    · have hstage : s.stage j = .writing file written := (moved_ne hjk).symm.trans h
      obtain ⟨hname, hcontent⟩ := hs.writing j file written hstage
      have hne := hfile j file hjk (by rw [hstage]; rfl) hname
      exact ⟨by rw [← hname]; exact congrFun hnames _, (hothers file hne).1.trans hcontent⟩
  · by_cases hjk : j = k
    · subst hjk
      exact hflushed file (moved_self.symm.trans h)
    · have hstage : s.stage j = .flushed file := (moved_ne hjk).symm.trans h
      obtain ⟨hname, hcontent, hsynced⟩ := hs.flushed j file hstage
      have hne := hfile j file hjk (by rw [hstage]; rfl) hname
      exact ⟨by rw [← hname]; exact congrFun hnames _, (hothers file hne).1.trans hcontent,
        (hothers file hne).2.trans hsynced⟩
  · have hholds : ∀ l, ((s.moved disk k stage).stage l).holds = true → (s.stage l).holds = true := by
      intro l hl
      by_cases hlk : l = k
      · exact hlk ▸ hk
      · rw [moved_ne hlk] at hl
        exact hl
    exact hs.held j l (hholds j hj) (hholds l hl) hsame

/-! ## The steps that change names -/

omit [DecidableEq ι] in
/-- The file that is opened is nobody else's. -/
theorem Sound.target_owned (hs : Sound p s) (hp : Apart p) (hk : (s.stage k).holds = true) :
    Owned p s k (s.disk.target (p k).temporary) := by
  cases hname : s.disk.names (p k).temporary with
  | some i =>
    have htarget : s.disk.target (p k).temporary = i := by rw [Disk.target, hname, Option.getD_some]
    rw [htarget]
    exact hs.owned hp hk hname
  | none =>
    have htarget : s.disk.target (p k).temporary = s.disk.next := by rw [Disk.target, hname, Option.getD_none]
    rw [htarget]
    refine ⟨fun names h j hj => ?_, fun j _ _ hj => ?_⟩
    · exact Nat.lt_irrefl _ (hs.named names h _ _ hj)
    · exact Nat.lt_irrefl _ (hs.named _ s.disk.recalls_names _ _ hj)

omit [DecidableEq ι] in
/-- The names change, and no file does. -/
theorem Sound.rebind (hs : Sound p s) {t : ι → Stage α} (more : List ι) (hfiles : d.files = s.disk.files)
    (hsame : d.synced = s.disk.synced) (hearlier : d.earlier = s.disk.names :: s.disk.earlier) (hnext : s.disk.next ≤ d.next)
    (hnamed : ∀ n x, d.names n = some x → x < d.next) (honce : ∀ n m x, d.names n = some x → d.names m = some x → n = m)
    (hold : ∀ names, s.disk.Recalls names → ∀ j x, names (p j).destination = some x → ∀ n, d.names n = some x →
      s.disk.names n = some x)
    (hsynced : ∀ j x, d.names (p j).destination = some x → s.disk.synced x = true)
    (hshows : ∀ j, (d.names (p j).destination).map s.disk.files = after p s.base (s.log ++ more) (p j).destination)
    (hheld : ∀ j, (t j).holds = true → t j = s.stage j ∧
      (s.stage j ≠ .begun → d.names (p j).temporary = s.disk.names (p j).temporary)) :
    Sound p { s with disk := d, stage := t, log := s.log ++ more } := by
  have hlength : s.log.length ≤ (s.log ++ more).length := by simp
  refine ⟨fun names h n x hx => ?_, fun names h => ?_, fun names h j x hx => ?_, fun names h => ?_, fun j => ?_,
    Nat.le_trans hs.settled hlength, fun j file written h => ?_, fun j file h => ?_, fun j l hj hl => ?_⟩
  · change names ∈ d.names :: d.earlier at h
    rw [hearlier] at h
    rcases List.mem_cons.mp h with rfl | h
    · exact hnamed n x hx
    · exact Nat.lt_of_lt_of_le (hs.named names h n x hx) hnext
  · change names ∈ d.names :: d.earlier at h
    rw [hearlier] at h
    rcases List.mem_cons.mp h with rfl | h
    · exact honce
    · exact hs.once names h
  · change names ∈ d.names :: d.earlier at h
    rw [hearlier] at h
    show d.synced x = true ∧ _
    rw [hsame]
    rcases List.mem_cons.mp h with rfl | h
    · exact ⟨hsynced j x hx, fun n hn hname => hn (honce n _ x hname hx)⟩
    · obtain ⟨hsync, hn⟩ := hs.apart names h j x hx
      exact ⟨hsync, fun n hne hname => hn n hne (hold names h j x hx n hname)⟩
  · change names ∈ d.names :: d.earlier at h
    rw [hearlier] at h
    show ∃ count, _ ∧ _ ∧ ∀ j, (names _).map d.files = _
    rw [hfiles]
    rcases List.mem_cons.mp h with rfl | h
    · refine ⟨_, Nat.le_trans hs.settled hlength, Nat.le_refl _, fun j => ?_⟩
      rw [List.take_length]
      exact hshows j
    · obtain ⟨count, hle, hcount, hshown⟩ := hs.cut names h
      refine ⟨count, hle, Nat.le_trans hcount hlength, fun j => ?_⟩
      rw [List.take_append_of_le_length hcount]
      exact hshown j
  · show (d.names _).map d.files = _
    rw [hfiles]
    exact hshows j
  · change t j = _ at h
    obtain ⟨hstage, hname⟩ := hheld j (by rw [h]; rfl)
    rw [h] at hstage
    obtain ⟨htemporary, hcontent⟩ := hs.writing j file written hstage.symm
    exact ⟨(hname (by rw [← hstage]; simp)).trans htemporary, (congrFun hfiles file).trans hcontent⟩
  · change t j = _ at h
    obtain ⟨hstage, hname⟩ := hheld j (by rw [h]; rfl)
    rw [h] at hstage
    obtain ⟨htemporary, hcontent, hsync⟩ := hs.flushed j file hstage.symm
    exact ⟨(hname (by rw [← hstage]; simp)).trans htemporary, (congrFun hfiles file).trans hcontent,
      (congrFun hsame file).trans hsync⟩
  · exact hs.held j l (by rw [← (hheld j hj).1]; exact hj) (by rw [← (hheld l hl).1]; exact hl)

omit [DecidableEq ι] in
/-- The name is there, before the file under it is emptied. -/
theorem Sound.link (hs : Sound p s) (hp : Apart p) (hk : s.stage k = .begun) : Sound p { s with
    disk := { s.disk with
      names := Function.update s.disk.names (p k).temporary (some (s.disk.target (p k).temporary))
      next := max s.disk.next (s.disk.target (p k).temporary + 1)
      earlier := s.disk.names :: s.disk.earlier } } := by
  have hholds : (s.stage k).holds = true := by rw [hk]; rfl
  have howned := hs.target_owned hp hholds
  have hnew : ∀ n, s.disk.names n = some (s.disk.target (p k).temporary) → n = (p k).temporary := by
    intro n hn
    cases hname : s.disk.names (p k).temporary with
    | some i =>
      rw [Disk.target, hname, Option.getD_some] at hn
      exact hs.once _ s.disk.recalls_names _ _ _ hn hname
    | none =>
      rw [Disk.target, hname, Option.getD_none] at hn
      exact absurd (hs.named _ s.disk.recalls_names _ _ hn) (Nat.lt_irrefl _)
  generalize s.disk.target (p k).temporary = i at howned hnew
  have hcases : ∀ n x, Function.update s.disk.names (p k).temporary (some i) n = some x →
      (n = (p k).temporary ∧ x = i) ∨ (n ≠ (p k).temporary ∧ s.disk.names n = some x) := by
    intro n x hx
    by_cases hn : n = (p k).temporary
    · rw [hn, Function.update_self] at hx
      exact Or.inl ⟨hn, (Option.some.inj hx).symm⟩
    · exact Or.inr ⟨hn, (Function.update_of_ne hn _ _).symm.trans hx⟩
  have hdestination : ∀ j, Function.update s.disk.names (p k).temporary (some i) (p j).destination =
      s.disk.names (p j).destination := fun j => Function.update_of_ne (hp k j).symm _ _
  have hrebound := hs.rebind (d := { s.disk with
      names := Function.update s.disk.names (p k).temporary (some i)
      next := max s.disk.next (i + 1)
      earlier := s.disk.names :: s.disk.earlier }) [] rfl rfl rfl (Nat.le_max_left _ _)
    (fun n x hx => ?_) (fun n m x hx hx' => ?_) (fun names h j x hx n hn => ?_) (fun j x hx => ?_) (fun j => ?_)
    fun j hj => ⟨rfl, fun hne => ?_⟩
  · rw [List.append_nil] at hrebound
    exact hrebound
  · rcases hcases n x hx with ⟨_, rfl⟩ | ⟨_, hx⟩
    · exact Nat.lt_of_lt_of_le (Nat.lt_succ_self _) (Nat.le_max_right _ _)
    · exact Nat.lt_of_lt_of_le (hs.named _ s.disk.recalls_names _ _ hx) (Nat.le_max_left _ _)
  · rcases hcases n x hx with ⟨hn, hi⟩ | ⟨hn, hbefore⟩
    · rcases hcases m x hx' with ⟨hm, _⟩ | ⟨_, hbefore'⟩
      · rw [hn, hm]
      · rw [hn, hnew m (hi ▸ hbefore')]
    · rcases hcases m x hx' with ⟨_, hi⟩ | ⟨_, hbefore'⟩
      · exact absurd (hnew n (hi ▸ hbefore)) hn
      · exact hs.once _ s.disk.recalls_names _ _ _ hbefore hbefore'
  · rcases hcases n x hn with ⟨_, rfl⟩ | ⟨_, hn⟩
    · exact absurd hx (howned.unpublished names h j)
    · exact hn
  · exact (hs.apart _ s.disk.recalls_names j x ((hdestination j).symm.trans hx)).1
  · rw [List.append_nil]
    exact (congrArg (Option.map s.disk.files) (hdestination j)).trans (hs.shows j)
  · refine Function.update_of_ne (fun hsame => hne ?_) _ _
    rw [hs.held j k hj hholds hsame, hk]

theorem Sound.opens (hs : Sound p s) (hp : Apart p) (hk : s.stage k = .begun) :
    Sound p (s.moved (s.disk.open_ (p k).temporary) k (.writing (s.disk.target (p k).temporary) [])) := by
  have hholds : (s.stage k).holds = true := by rw [hk]; rfl
  have howned := hs.target_owned hp hholds
  have hlink := hs.link hp hk
  refine hlink.touch (i := s.disk.target (p k).temporary) ?_ hholds rfl rfl rfl (fun j hj => ?_) (fun file written he => ?_)
    fun file he => (by cases he)
  · refine ⟨fun names h j hj => ?_, fun j hjk hj hsame => ?_⟩
    · rcases List.mem_cons.mp h with rfl | h
      · exact howned.unpublished _ s.disk.recalls_names j ((Function.update_of_ne (hp k j).symm _ _).symm.trans hj)
      · exact howned.unpublished names h j hj
    · refine howned.unshared j hjk hj ((Function.update_of_ne (fun he => hjk ?_) _ _).symm.trans hsame)
      exact hs.held j k hj hholds he
  · exact ⟨Function.update_of_ne hj _ _, Function.update_of_ne hj _ _⟩
  · cases he
    exact ⟨Function.update_self _ _ _, Function.update_self _ _ _⟩

theorem Sound.replaces (hs : Sound p s) (hp : Apart p) (hk : s.stage k = .flushed i) :
    Sound p { s.moved (s.disk.rename (p k).temporary (p k).destination) k .replaced with log := s.log ++ [k] } := by
  have hholds : (s.stage k).holds = true := by rw [hk]; rfl
  obtain ⟨hname, hcontent, hsynced⟩ := hs.flushed k i hk
  have howned := hs.owned hp hholds hname
  -- a name after the renaming: the destination, or one that was there
  have hcases : ∀ n x, (s.disk.rename (p k).temporary (p k).destination).names n = some x →
      (n = (p k).destination ∧ x = i) ∨ (n ≠ (p k).temporary ∧ n ≠ (p k).destination ∧ s.disk.names n = some x) := by
    intro n x hx
    change Function.update (Function.update s.disk.names _ _) _ none n = some x at hx
    by_cases hn : n = (p k).temporary
    · rw [hn, Function.update_self] at hx
      cases hx
    · rw [Function.update_of_ne hn] at hx
      by_cases hn' : n = (p k).destination
      · rw [hn', Function.update_self, hname] at hx
        exact Or.inl ⟨hn', (Option.some.inj hx).symm⟩
      · exact Or.inr ⟨hn, hn', (Function.update_of_ne hn' _ _).symm.trans hx⟩
  have htemporary : ∀ n, s.disk.names n = some i → n = (p k).temporary := fun n hn =>
    hs.once _ s.disk.recalls_names _ _ _ hn hname
  refine hs.rebind [k] rfl rfl rfl (Nat.le_refl _) (fun n x hx => ?_) (fun n m x hx hx' => ?_)
    (fun names h j x hx n hn => ?_) (fun j x hx => ?_) (fun j => ?_) fun j hj => ?_
  · rcases hcases n x hx with ⟨_, rfl⟩ | ⟨_, _, hbefore⟩
    · exact hs.named _ s.disk.recalls_names _ _ hname
    · exact hs.named _ s.disk.recalls_names _ _ hbefore
  · rcases hcases n x hx with ⟨hn, hi⟩ | ⟨hn, _, hbefore⟩
    · rcases hcases m x hx' with ⟨hm, _⟩ | ⟨hm, _, hbefore'⟩
      · rw [hn, hm]
      · exact absurd (htemporary m (hi ▸ hbefore')) hm
    · rcases hcases m x hx' with ⟨_, hi⟩ | ⟨_, _, hbefore'⟩
      · exact absurd (htemporary n (hi ▸ hbefore)) hn
      · exact hs.once _ s.disk.recalls_names _ _ _ hbefore hbefore'
  · rcases hcases n x hn with ⟨_, rfl⟩ | ⟨_, _, hbefore⟩
    · exact absurd hx (howned.unpublished names h j)
    · exact hbefore
  · rcases hcases _ x hx with ⟨_, rfl⟩ | ⟨_, _, hbefore⟩
    · exact hsynced
    · exact (hs.apart _ s.disk.recalls_names j x hbefore).1
  · rw [after_append]
    show (Function.update (Function.update s.disk.names _ _) _ none (p j).destination).map _ = _
    rw [Function.update_of_ne (hp k j).symm]
    by_cases hj : (p k).destination = (p j).destination
    · rw [if_pos hj, ← hj, Function.update_self, hname, Option.map_some, hcontent]
    · rw [if_neg hj, Function.update_of_ne fun he => hj he.symm]
      exact hs.shows j
  · by_cases hjk : j = k
    · subst hjk
      rw [moved_self] at hj
      cases hj
    · rw [moved_ne hjk] at hj ⊢
      refine ⟨rfl, fun _ => ?_⟩
      show Function.update (Function.update s.disk.names _ _) _ none (p j).temporary = _
      rw [Function.update_of_ne fun he => hjk (hs.held j k hj hholds he), Function.update_of_ne (hp j k)]

theorem Sound.removes (hs : Sound p s) (hp : Apart p) (hk : s.stage k = .failed) :
    Sound p (s.moved (s.disk.remove (p k).temporary) k .refused) := by
  have hholds : (s.stage k).holds = true := by rw [hk]; rfl
  have hcases : ∀ n x, (s.disk.remove (p k).temporary).names n = some x → s.disk.names n = some x := by
    intro n x hx
    change Function.update s.disk.names _ none n = some x at hx
    by_cases hn : n = (p k).temporary
    · rw [hn, Function.update_self] at hx
      cases hx
    · exact (Function.update_of_ne hn _ _).symm.trans hx
  have hrebound := hs.rebind (d := s.disk.remove (p k).temporary) (t := Function.update s.stage k .refused) [] rfl rfl rfl
    (Nat.le_refl _) (fun n x hx => hs.named _ s.disk.recalls_names _ _ (hcases n x hx))
    (fun n m x hx hx' => hs.once _ s.disk.recalls_names _ _ _ (hcases n x hx) (hcases m x hx'))
    (fun _ _ _ x _ n hn => hcases n x hn) (fun j x hx => (hs.apart _ s.disk.recalls_names j x (hcases _ x hx)).1)
    (fun j => ?_) fun j hj => ?_
  · rw [List.append_nil] at hrebound
    exact hrebound
  · rw [List.append_nil]
    exact (congrArg (Option.map s.disk.files) (Function.update_of_ne (hp k j).symm _ _)).trans (hs.shows j)
  · by_cases hjk : j = k
    · subst hjk
      rw [Function.update_self] at hj
      cases hj
    · rw [Function.update_of_ne hjk] at hj ⊢
      exact ⟨rfl, fun _ => Function.update_of_ne (fun he => hjk (hs.held j k hj hholds he)) _ _⟩

theorem Sound.settles (hs : Sound p s) : Sound p { s.moved s.disk.syncNames k .done with settled := s.log.length } := by
  have hdone : Sound p (s.moved s.disk k .done) :=
    hs.restage (fun _ _ h => (by cases h)) (fun _ h => (by cases h)) fun h => (by cases h)
  have hnames : ∀ names, s.disk.syncNames.Recalls names → names = s.disk.names := by
    intro names h
    simpa [Disk.Recalls, Disk.syncNames] using h
  refine ⟨fun names h => ?_, fun names h => ?_, fun names h => ?_, fun names h => ?_, hdone.shows, Nat.le_refl _,
    hdone.writing, hdone.flushed, hdone.held⟩
  · obtain rfl := hnames names h
    exact hs.named _ s.disk.recalls_names
  · obtain rfl := hnames names h
    exact hs.once _ s.disk.recalls_names
  · obtain rfl := hnames names h
    exact hs.apart _ s.disk.recalls_names
  · obtain rfl := hnames names h
    refine ⟨s.log.length, Nat.le_refl _, Nat.le_refl _, fun j => ?_⟩
    show s.disk.read _ = after p s.base (s.log.take s.log.length) _
    rw [List.take_length]
    exact hs.shows j

theorem crashed_cases (stage : Stage α) : stage.crashed = .idle ∨ stage.crashed = .lost := by
  cases stage <;> simp [Stage.crashed]

omit [DecidableEq ι] in
/-- The destinations on the disk that a crash leaves. -/
theorem Sound.survives (hs : Sound p s) (hd : Crash s.disk d) : ∃ count, s.settled ≤ count ∧ count ≤ s.log.length ∧
    ∀ k, d.read (p k).destination = after p s.base (s.log.take count) (p k).destination := by
  obtain ⟨count, hle, hcount, hshown⟩ := hs.cut d.names hd.names
  refine ⟨count, hle, hcount, fun k => Eq.trans ?_ (hshown k)⟩
  unfold Disk.read
  cases hname : d.names (p k).destination with
  | none => rfl
  | some i => rw [Option.map_some, Option.map_some, hd.files i (hs.apart d.names hd.names k i hname).1]

omit [DecidableEq ι] in
theorem Sound.crashes (hs : Sound p s) (hd : Crash s.disk d) :
    Sound p ⟨d, fun k => (s.stage k).crashed, d.read, [], 0⟩ := by
  have hnames : ∀ names, d.Recalls names → names = d.names := by
    intro names h
    simpa [Disk.Recalls, hd.earlier] using h
  have hidle : ∀ k stage, (s.stage k).crashed = stage → stage.holds = false := by
    rintro k _ rfl
    rcases crashed_cases (s.stage k) with h | h <;> rw [h] <;> rfl
  refine ⟨fun names h n i hi => ?_, fun names h => ?_, fun names h k i hi => ?_, fun names h => ?_, fun _ => rfl, Nat.le_refl _,
    fun k _ _ h => ?_, fun k _ h => ?_, fun k _ h => ?_⟩
  · obtain rfl := hnames names h
    show i < d.next
    rw [hd.next]
    exact hs.named d.names hd.names n i hi
  · obtain rfl := hnames names h
    exact hs.once d.names hd.names
  · obtain rfl := hnames names h
    exact ⟨hd.synced i, fun n hn hsame => hn (hs.once d.names hd.names n _ i hsame hi)⟩
  · obtain rfl := hnames names h
    exact ⟨0, Nat.le_refl _, Nat.le_refl _, fun _ => rfl⟩
  · have hno := hidle k _ h
    cases hno
  · have hno := hidle k _ h
    cases hno
  · rw [hidle k _ rfl] at h
    cases h

theorem Sound.step (hs : Sound p s) (hp : Apart p) (h : Step p s t) : Sound p t := by
  cases h with
  | begin k hk hfree =>
    exact hs.restage (fun _ _ h => (by cases h)) (fun _ h => (by cases h)) fun _ j _ hj => hfree j hj
  | opens k hk => exact hs.opens hp hk
  | writes k file written piece hk =>
    have hholds : (s.stage k).holds = true := by rw [hk]; rfl
    obtain ⟨hname, hcontent⟩ := hs.writing k file written hk
    refine hs.touch (hs.owned hp hholds hname) hholds rfl rfl rfl (fun j hj => ?_) (fun file' written' he => ?_)
      fun _ he => (by cases he)
    · exact ⟨Function.update_of_ne hj _ _, Function.update_of_ne hj _ _⟩
    · cases he
      exact ⟨hname, (Function.update_self _ _ _).trans (by rw [hcontent])⟩
  | flushes k file hk =>
    have hholds : (s.stage k).holds = true := by rw [hk]; rfl
    obtain ⟨hname, hcontent⟩ := hs.writing k file _ hk
    refine hs.touch (hs.owned hp hholds hname) hholds rfl rfl rfl (fun j hj => ?_) (fun _ _ he => (by cases he))
      fun file' he => ?_
    · exact ⟨rfl, Function.update_of_ne hj _ _⟩
    · cases he
      exact ⟨hname, hcontent, Function.update_self _ _ _⟩
  | replaces k file hk => exact hs.replaces hp hk
  | settles k => exact hs.settles
  | returns k hk => exact hs.restage (fun _ _ h => (by cases h)) (fun _ h => (by cases h)) fun h => (by cases h)
  | fails k hk =>
    refine hs.restage (fun _ _ h => (by cases h)) (fun _ h => (by cases h)) fun _ j hjk hj hsame => hjk ?_
    exact hs.held j k hj hk hsame
  | removes k hk => exact hs.removes hp hk
  | leaves k hk => exact hs.restage (fun _ _ h => (by cases h)) (fun _ h => (by cases h)) fun h => (by cases h)
  | killed k hk => exact hs.restage (fun _ _ h => (by cases h)) (fun _ h => (by cases h)) fun h => (by cases h)
  | crashes disk hd => exact hs.crashes hd

theorem Run.sound (hrest : d.AtRest) (hp : Apart p) (h : Run p d s) : Sound p s := by
  induction h with
  | start => exact .start hrest
  | step _ hstep ih => exact ih.step hp hstep

/-- A destination is never seen half written. -/
theorem Run.shows (hrest : d.AtRest) (hp : Apart p) (h : Run p d s) (k : ι) :
    s.disk.read (p k).destination = after p s.base s.log (p k).destination := (h.sound hrest hp).shows k

theorem Run.survives (hrest : d.AtRest) (hp : Apart p) (h : Run p d s) (hd : Crash s.disk d') :
    ∃ count, s.settled ≤ count ∧ count ≤ s.log.length ∧
      ∀ k, d'.read (p k).destination = after p s.base (s.log.take count) (p k).destination := (h.sound hrest hp).survives hd

/-- Whatever crashes there were, a destination holds what it did at first, or the whole of one publication. -/
theorem Run.whole (hrest : d.AtRest) (hp : Apart p) (h : Run p d s) (k : ι) :
    s.disk.read (p k).destination = d.read (p k).destination ∨
      ∃ j, (p j).destination = (p k).destination ∧ s.disk.read (p k).destination = some (p j).content := by
  have hbase : ∀ base : Name → Option (List α), (base (p k).destination = d.read (p k).destination ∨
        ∃ j, (p j).destination = (p k).destination ∧ base (p k).destination = some (p j).content) → ∀ log : List ι,
      after p base log (p k).destination = d.read (p k).destination ∨
        ∃ j, (p j).destination = (p k).destination ∧ after p base log (p k).destination = some (p j).content := by
    intro base hbase log
    induction log using List.reverseRecOn with
    | nil => exact hbase
    | append_singleton log j ih =>
      rw [after_append]
      by_cases hj : (p j).destination = (p k).destination
      · rw [if_pos hj]
        exact Or.inr ⟨j, hj, rfl⟩
      · rw [if_neg hj]
        exact ih
  rw [h.shows hrest hp k]
  refine hbase s.base ?_ s.log
  induction h with
  | start => exact Or.inl rfl
  | step h hstep ih =>
    cases hstep with
    | crashes disk hd =>
      obtain ⟨count, _, _, hshown⟩ := h.survives hrest hp hd
      have hread : disk.read (p k).destination = _ := hshown k
      change disk.read _ = _ ∨ ∃ j, _ ∧ disk.read _ = _
      rw [hread]
      exact hbase _ ih _
    | _ => exact ih

/-! ## Temporary files -/

/-- Every name that was not there at first is a destination, or of a publication at work or cut short. -/
structure Traced (p : ι → Publication Name α) (d : Disk Name α) (s : Shelf ι Name α) : Prop where
  now : ∀ n, (∀ k, (p k).destination ≠ n) → s.disk.names n ≠ none → d.names n ≠ none ∨
    ∃ k, (p k).temporary = n ∧ ((s.stage k).holds = true ∨ s.stage k = .lost)
  before : ∀ names, s.disk.Recalls names → ∀ n, (∀ k, (p k).destination ≠ n) → names n ≠ none →
    d.names n ≠ none ∨ ∃ k, (p k).temporary = n ∧ s.stage k ≠ .idle

omit [DecidableEq Name] in
/-- One publication moves on: the names there are were there, or it works under them. -/
theorem Traced.moved (ht : Traced p d s) {disk : Disk Name α} {stage : Stage α} (log : List ι) (settled : Nat)
    (hidle : stage ≠ .idle)
    (hnow : ∀ n, (∀ j, (p j).destination ≠ n) → disk.names n ≠ none →
      s.disk.names n ≠ none ∨ ((p k).temporary = n ∧ stage.holds = true))
    (hleft : (s.stage k).holds = true ∨ s.stage k = .lost →
      stage.holds = true ∨ stage = .lost ∨ disk.names (p k).temporary = none)
    (hbefore : ∀ names, disk.Recalls names → names = disk.names ∨ s.disk.Recalls names) :
    Traced p d { s.moved disk k stage with log := log, settled := settled } := by
  have hhere : ∀ n, (∀ j, (p j).destination ≠ n) → disk.names n ≠ none → d.names n ≠ none ∨
      ∃ j, (p j).temporary = n ∧
        (((s.moved disk k stage).stage j).holds = true ∨ (s.moved disk k stage).stage j = .lost) := by
    intro n hn hname
    rcases hnow n hn hname with hold | ⟨rfl, hholds⟩
    · rcases ht.now n hn hold with hfirst | ⟨j, rfl, hj⟩
      · exact Or.inl hfirst
      · refine Or.inr ⟨j, rfl, ?_⟩
        by_cases hjk : j = k
        · subst hjk
          rw [moved_self]
          rcases hleft hj with hholds | hlost | hnone
          · exact Or.inl hholds
          · exact Or.inr hlost
          · exact absurd hnone hname
        · rw [moved_ne hjk]
          exact hj
    · exact Or.inr ⟨k, rfl, Or.inl (by rw [moved_self]; exact hholds)⟩
  refine ⟨hhere, fun names h n hn hname => ?_⟩
  rcases hbefore names h with rfl | h
  · rcases hhere n hn hname with hfirst | ⟨j, hj, hholds⟩
    · exact Or.inl hfirst
    · refine Or.inr ⟨j, hj, fun he => ?_⟩
      change (s.moved disk k stage).stage j = .idle at he
      rw [he] at hholds
      rcases hholds with hholds | hholds <;> cases hholds
  · rcases ht.before names h n hn hname with hfirst | ⟨j, hj, hstage⟩
    · exact Or.inl hfirst
    · refine Or.inr ⟨j, hj, ?_⟩
      by_cases hjk : j = k
      · subst hjk
        show (s.moved disk j stage).stage j ≠ .idle
        rw [moved_self]
        exact hidle
      · show (s.moved disk k stage).stage j ≠ .idle
        rw [moved_ne hjk]
        exact hstage

theorem Traced.step (ht : Traced p d s) (h : Step p s t) : Traced p d t := by
  have hsame : ∀ names, s.disk.Recalls names → names = s.disk.names ∨ s.disk.Recalls names := fun _ => Or.inr
  have hmore : ∀ {disk : Disk Name α}, disk.earlier = s.disk.names :: s.disk.earlier → ∀ names, disk.Recalls names →
      names = disk.names ∨ s.disk.Recalls names := by
    intro disk hearlier names h
    rw [Disk.Recalls, hearlier] at h
    exact List.mem_cons.mp h
  cases h with
  | begin k hk => exact ht.moved s.log s.settled (by simp) (fun n _ hn => Or.inl hn) (fun _ => Or.inl rfl) hsame
  | opens k hk =>
    refine ht.moved s.log s.settled (by simp) (fun n _ hn => ?_) (fun _ => Or.inl rfl) (hmore rfl)
    by_cases he : n = (p k).temporary
    · exact Or.inr ⟨he.symm, rfl⟩
    · change Function.update s.disk.names _ _ n ≠ none at hn
      rw [Function.update_of_ne he] at hn
      exact Or.inl hn
  | writes k => exact ht.moved s.log s.settled (by simp) (fun n _ hn => Or.inl hn) (fun _ => Or.inl rfl) hsame
  | flushes k => exact ht.moved s.log s.settled (by simp) (fun n _ hn => Or.inl hn) (fun _ => Or.inl rfl) hsame
  | replaces k =>
    refine ht.moved _ s.settled (by simp) (fun n hn hname => Or.inl ?_)
      (fun _ => Or.inr (Or.inr (Function.update_self _ _ _))) (hmore rfl)
    change Function.update (Function.update s.disk.names _ _) _ none n ≠ none at hname
    by_cases he : n = (p k).temporary
    · rw [he, Function.update_self] at hname
      exact absurd rfl hname
    · rw [Function.update_of_ne he, Function.update_of_ne (hn k).symm] at hname
      exact hname
  | settles k hk =>
    refine ht.moved s.log _ (by simp) (fun n _ hn => Or.inl hn) (fun h => absurd h ?_) fun names h => Or.inl ?_
    · rw [hk]
      simp [Stage.holds]
    · simpa [Disk.Recalls, Disk.syncNames] using h
  | returns k hk =>
    refine ht.moved s.log s.settled (by simp) (fun n _ hn => Or.inl hn) (fun h => absurd h ?_) hsame
    rw [hk]
    simp [Stage.holds]
  | fails k => exact ht.moved s.log s.settled (by simp) (fun n _ hn => Or.inl hn) (fun _ => Or.inl rfl) hsame
  | removes k =>
    refine ht.moved s.log s.settled (by simp) (fun n _ hname => Or.inl fun hnone => hname ?_)
      (fun _ => Or.inr (Or.inr (Function.update_self _ _ _))) (hmore rfl)
    by_cases he : n = (p k).temporary
    · rw [he]
      exact Function.update_self _ _ _
    · exact (Function.update_of_ne he _ _).trans hnone
  | leaves k => exact ht.moved s.log s.settled (by simp) (fun n _ hn => Or.inl hn) (fun _ => Or.inr (Or.inl rfl)) hsame
  | killed k => exact ht.moved s.log s.settled (by simp) (fun n _ hn => Or.inl hn) (fun _ => Or.inr (Or.inl rfl)) hsame
  | crashes disk hd =>
    have hlost : ∀ j, s.stage j ≠ .idle → (s.stage j).crashed = .lost := by
      intro j hj
      cases hstage : s.stage j with
      | idle => exact absurd hstage hj
      | _ => rfl
    refine ⟨fun n hn hname => ?_, fun names h n hn hname => ?_⟩
    · rcases ht.before disk.names hd.names n hn hname with hfirst | ⟨j, hj, hstage⟩
      · exact Or.inl hfirst
      · exact Or.inr ⟨j, hj, Or.inr (hlost j hstage)⟩
    · have hnames : names = disk.names := by simpa [Disk.Recalls, hd.earlier] using h
      subst hnames
      rcases ht.before disk.names hd.names n hn hname with hfirst | ⟨j, hj, hstage⟩
      · exact Or.inl hfirst
      · refine Or.inr ⟨j, hj, ?_⟩
        show (s.stage j).crashed ≠ .idle
        rw [hlost j hstage]
        simp

theorem Run.traced (hrest : d.AtRest) (h : Run p d s) : Traced p d s := by
  induction h with
  | start =>
    refine ⟨fun _ _ hname => Or.inl hname, fun names h _ _ hname => Or.inl ?_⟩
    have hnames : names = d.names := by simpa [Disk.Recalls, hrest.earlier, Shelf.start] using h
    rw [← hnames]
    exact hname
  | step _ hstep ih => exact ih.step hstep

/-- Nothing is left lying about by publications that came to their end. -/
theorem Run.tidy (hrest : d.AtRest) (h : Run p d s) (hends : ∀ k, (s.stage k).holds = false ∧ s.stage k ≠ .lost) (n : Name)
    (hn : ∀ k, (p k).destination ≠ n) (hname : s.disk.names n ≠ none) : d.names n ≠ none := by
  rcases (h.traced hrest).now n hn hname with hfirst | ⟨k, _, hk⟩
  · exact hfirst
  · rcases hk with hk | hk
    · rw [(hends k).1] at hk
      cases hk
    · exact absurd hk (hends k).2

end runs

end OpenFelt.Publishing
