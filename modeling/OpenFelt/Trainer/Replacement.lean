/-
  OpenFelt.Trainer.Replacement — an update put in the place of the executable
  (`install_bytes` and `swap_in_place` of `src/trainer/update.rs`).

  Translation. Each call of the file system is a step, which may fail; what an update has
  come to is its phase. The update is written beside the executable and synced; then the
  executable is renamed to a backup, and the update to the executable. When the second
  renaming fails the first is undone. Left out: the directory, whose names are the only
  ones here, and the mode of the file.

  `install_keeps`: at every moment, and after a crash at any moment, the executable is
  whole, the old or the new; or there is none, and the old one is whole in the backup. The
  result that is reported says which.
-/

import OpenFelt.Lib.Publishing

namespace OpenFelt.Trainer

open Publishing

def maxBinary : Nat := 64 * 1024 * 1024

def stagedName (file : String) : String := "." ++ file ++ ".new"

def backupName (file : String) : String := "." ++ file ++ ".previous"

inductive InstallError where
  | unexpectedSize
  | cannotWrite
  | cannotMark
  | cannotClear
  | cannotStage
  | restored
  | notRestored
  deriving DecidableEq, Repr

def InstallError.message : InstallError → String
  | unexpectedSize => "Update binary has an unexpected size"
  | cannotWrite => "Cannot write the update beside the current executable"
  | cannotMark => "Cannot mark the update executable"
  | cannotClear => "Cannot clear the previous update backup"
  | cannotStage => "Cannot stage the current executable"
  | restored => "Update replacement failed; the existing executable was restored"
  | notRestored => "Update replacement failed and the previous executable could not be restored"

/-- How far the update has come; a number is its file. -/
inductive InstallPhase where
  | begun
  | writing (i : Nat) (written : List UInt8)
  | flushed (i : Nat)
  | marked (i : Nat)
  | cleared (i : Nat)
  /-- The executable is in the backup. -/
  | parted (i : Nat)
  | restoring
  | replaced
  /-- The staged file is to be removed. -/
  | failed (error : InstallError)
  | finished (result : Except InstallError Unit)

inductive InstallStep (file : String) (bytes : List UInt8) :
    Disk String UInt8 → InstallPhase → Disk String UInt8 → InstallPhase → Prop
  | creates (d : Disk String UInt8) :
      InstallStep file bytes d .begun (d.open_ (stagedName file)) (.writing (d.target (stagedName file)) [])
  | writes (d : Disk String UInt8) (i : Nat) (written piece : List UInt8) : written ++ piece <+: bytes →
      InstallStep file bytes d (.writing i written) (d.write i piece) (.writing i (written ++ piece))
  | flushes (d : Disk String UInt8) (i : Nat) : InstallStep file bytes d (.writing i bytes) (d.sync i) (.flushed i)
  | cannotCreate (d : Disk String UInt8) : InstallStep file bytes d .begun d (.failed .cannotWrite)
  | cannotWrite (d : Disk String UInt8) (i : Nat) (written : List UInt8) :
      InstallStep file bytes d (.writing i written) d (.failed .cannotWrite)
  | marks (d : Disk String UInt8) (i : Nat) : InstallStep file bytes d (.flushed i) d (.marked i)
  | cannotMark (d : Disk String UInt8) (i : Nat) : InstallStep file bytes d (.flushed i) d (.failed .cannotMark)
  | isClear (d : Disk String UInt8) (i : Nat) : d.names (backupName file) = none →
      InstallStep file bytes d (.marked i) d (.cleared i)
  | clears (d : Disk String UInt8) (i : Nat) : d.names (backupName file) ≠ none →
      InstallStep file bytes d (.marked i) (d.remove (backupName file)) (.cleared i)
  | cannotClear (d : Disk String UInt8) (i : Nat) : InstallStep file bytes d (.marked i) d (.failed .cannotClear)
  | parts (d : Disk String UInt8) (i : Nat) :
      InstallStep file bytes d (.cleared i) (d.rename file (backupName file)) (.parted i)
  | cannotPart (d : Disk String UInt8) (i : Nat) : InstallStep file bytes d (.cleared i) d (.failed .cannotStage)
  | replaces (d : Disk String UInt8) (i : Nat) : InstallStep file bytes d (.parted i) (d.rename (stagedName file) file) .replaced
  | cannotReplace (d : Disk String UInt8) (i : Nat) : InstallStep file bytes d (.parted i) d .restoring
  | restores (d : Disk String UInt8) :
      InstallStep file bytes d .restoring (d.rename (backupName file) file) (.failed .restored)
  | cannotRestore (d : Disk String UInt8) : InstallStep file bytes d .restoring d (.failed .notRestored)
  | forgets (d : Disk String UInt8) : InstallStep file bytes d .replaced (d.remove (backupName file)) (.finished (.ok ()))
  | keeps (d : Disk String UInt8) : InstallStep file bytes d .replaced d (.finished (.ok ()))
  | removes (d : Disk String UInt8) (error : InstallError) :
      InstallStep file bytes d (.failed error) (d.remove (stagedName file)) (.finished (.error error))
  | leaves (d : Disk String UInt8) (error : InstallError) :
      InstallStep file bytes d (.failed error) d (.finished (.error error))

/-- The first check of `install_bytes`. -/
def installStart (bytes : List UInt8) : InstallPhase :=
  if bytes.isEmpty || maxBinary < bytes.length then .finished (.error .unexpectedSize) else .begun

inductive InstallRun (file : String) (bytes : List UInt8) (d : Disk String UInt8) : Disk String UInt8 → InstallPhase → Prop
  | start : InstallRun file bytes d d (installStart bytes)
  | step {e e' : Disk String UInt8} {phase phase' : InstallPhase} : InstallRun file bytes d e phase →
      InstallStep file bytes e phase e' phase' → InstallRun file bytes d e' phase'

/-! ## The names -/

section names
variable (file : String)

theorem staged_length : (stagedName file).length = file.length + 5 := by
  rw [stagedName, String.length_append, String.length_append, show ".".length = 1 by decide, show ".new".length = 4 by decide]
  omega

theorem backup_length : (backupName file).length = file.length + 10 := by
  rw [backupName, String.length_append, String.length_append, show ".".length = 1 by decide,
    show ".previous".length = 9 by decide]
  omega

theorem staged_ne : stagedName file ≠ file := by
  intro h
  have hlength := staged_length file
  rw [h] at hlength
  omega

theorem backup_ne : backupName file ≠ file := by
  intro h
  have hlength := backup_length file
  rw [h] at hlength
  omega

theorem staged_ne_backup : stagedName file ≠ backupName file := by
  intro h
  have hlength := staged_length file
  rw [h, backup_length] at hlength
  omega

end names

/-! ## What is there at every moment -/

/-- The executable is a whole file, the old or the new one; or the old one is in the backup. -/
def Whole (file : String) (bytes : List UInt8) (old : Nat) (d : Disk String UInt8) (names : String → Option Nat) : Prop :=
  names file = some old ∨ (names file = none ∧ names (backupName file) = some old) ∨
    ∃ i, names file = some i ∧ d.files i = bytes ∧ d.synced i = true

/-- The names, at every phase. -/
def InstallPhase.At (file : String) (bytes : List UInt8) (old : Nat) (d : Disk String UInt8) : InstallPhase → Prop
  | begun => (∀ names, d.Recalls names → names file = some old) ∧ old < d.next ∧
    ∀ n, n ≠ file → d.names n ≠ some old
  | writing i written => (∀ names, d.Recalls names → names file = some old) ∧ d.names (stagedName file) = some i ∧
    i ≠ old ∧ d.files i = written
  | flushed i | marked i | cleared i =>
    d.names file = some old ∧ d.names (stagedName file) = some i ∧ d.files i = bytes ∧ d.synced i = true
  | parted i => d.names file = none ∧ d.names (backupName file) = some old ∧ d.names (stagedName file) = some i ∧
    d.files i = bytes ∧ d.synced i = true
  | restoring | failed .notRestored | finished (.error .notRestored) =>
    d.names file = none ∧ d.names (backupName file) = some old
  | failed _ | finished (.error _) => d.names file = some old
  | replaced | finished (.ok ()) => ∃ i, d.names file = some i ∧ d.files i = bytes ∧ d.synced i = true

/-- The invariant; `old` is the file of the executable. -/
structure Installing (file : String) (bytes contents : List UInt8) (old : Nat) (d : Disk String UInt8) (phase : InstallPhase) :
    Prop where
  kept : d.files old = contents ∧ d.synced old = true
  whole : ∀ names, d.Recalls names → Whole file bytes old d names
  stands : phase.At file bytes old d

section installing
variable {file : String} {bytes contents : List UInt8} {old i : Nat} {d d' : Disk String UInt8} {phase phase' : InstallPhase}
  {error : InstallError}

/-- Names are changed and no file is: the names now are to be looked at, the others are as they were. -/
theorem Installing.rename (hi : Installing file bytes contents old d phase) (hfiles : d'.files = d.files)
    (hsynced : d'.synced = d.synced) (hearlier : d'.earlier = d.names :: d.earlier)
    (hwhole : Whole file bytes old d d'.names) (hphase : phase'.At file bytes old d') :
    Installing file bytes contents old d' phase' := by
  refine ⟨by rw [hfiles, hsynced]; exact hi.kept, fun names h => ?_, hphase⟩
  have hsame : Whole file bytes old d' names ↔ Whole file bytes old d names := by
    unfold Whole
    rw [hfiles, hsynced]
  rw [hsame]
  rw [Disk.Recalls, hearlier] at h
  rcases List.mem_cons.mp h with rfl | h
  · exact hwhole
  · exact hi.whole names h

/-- Nothing of the disk changes. -/
theorem Installing.wait (hi : Installing file bytes contents old d phase) (hphase : phase'.At file bytes old d) :
    Installing file bytes contents old d phase' := ⟨hi.kept, hi.whole, hphase⟩

theorem Installing.creates (hi : Installing file bytes contents old d .begun) :
    Installing file bytes contents old (d.open_ (stagedName file)) (.writing (d.target (stagedName file)) []) := by
  obtain ⟨hold, hnext, hothers⟩ := hi.stands
  have hne : d.target (stagedName file) ≠ old := by
    unfold Disk.target
    cases hname : d.names (stagedName file) with
    | none => exact (Nat.ne_of_lt hnext).symm
    | some i =>
      rintro rfl
      exact hothers _ (staged_ne file) hname
  have hrecalls : ∀ names, (d.open_ (stagedName file)).Recalls names → names file = some old := by
    intro names h
    rcases List.mem_cons.mp h with rfl | h
    · exact (Function.update_of_ne (staged_ne file).symm _ _).trans (hold _ d.recalls_names)
    · exact hold names h
  refine ⟨⟨?_, ?_⟩, fun names h => Or.inl (hrecalls names h), hrecalls, Function.update_self _ _ _, hne,
    Function.update_self _ _ _⟩
  · exact (Function.update_of_ne hne.symm _ _).trans hi.kept.1
  · exact (Function.update_of_ne hne.symm _ _).trans hi.kept.2

theorem Installing.writes {written : List UInt8} (piece : List UInt8)
    (hi : Installing file bytes contents old d (.writing i written)) :
    Installing file bytes contents old (d.write i piece) (.writing i (written ++ piece)) := by
  obtain ⟨hold, hstaged, hne, hwritten⟩ := hi.stands
  refine ⟨⟨?_, ?_⟩, fun names h => Or.inl (hold names h), hold, hstaged, hne, ?_⟩
  · exact (Function.update_of_ne hne.symm _ _).trans hi.kept.1
  · exact (Function.update_of_ne hne.symm _ _).trans hi.kept.2
  · exact (Function.update_self _ _ _).trans (by rw [hwritten])

theorem Installing.flushes (hi : Installing file bytes contents old d (.writing i bytes)) :
    Installing file bytes contents old (d.sync i) (.flushed i) := by
  obtain ⟨hold, hstaged, hne, hwritten⟩ := hi.stands
  refine ⟨⟨hi.kept.1, ?_⟩, fun names h => Or.inl (hold names h), hold _ d.recalls_names, hstaged, hwritten,
    Function.update_self _ _ _⟩
  exact (Function.update_of_ne hne.symm _ _).trans hi.kept.2

theorem Installing.parts (hi : Installing file bytes contents old d (.cleared i)) :
    Installing file bytes contents old (d.rename file (backupName file)) (.parted i) := by
  obtain ⟨hold, hstaged, hcontent, hsynced⟩ := hi.stands
  have hfile : (d.rename file (backupName file)).names file = none := Function.update_self _ _ _
  have hbackup : (d.rename file (backupName file)).names (backupName file) = some old := by
    refine (Function.update_of_ne (backup_ne file) _ _).trans ?_
    rw [Function.update_self, hold]
  refine hi.rename rfl rfl rfl (Or.inr (Or.inl ⟨hfile, hbackup⟩)) ⟨hfile, hbackup, ?_, hcontent, hsynced⟩
  refine (Function.update_of_ne (staged_ne file) _ _).trans ?_
  rw [Function.update_of_ne (staged_ne_backup file), hstaged]

theorem Installing.replaces (hi : Installing file bytes contents old d (.parted i)) :
    Installing file bytes contents old (d.rename (stagedName file) file) .replaced := by
  obtain ⟨_, _, hstaged, hcontent, hsynced⟩ := hi.stands
  have hfile : (d.rename (stagedName file) file).names file = some i := by
    refine (Function.update_of_ne (staged_ne file).symm _ _).trans ?_
    rw [Function.update_self, hstaged]
  exact hi.rename rfl rfl rfl (Or.inr (Or.inr ⟨i, hfile, hcontent, hsynced⟩)) ⟨i, hfile, hcontent, hsynced⟩

theorem Installing.restores (hi : Installing file bytes contents old d .restoring) :
    Installing file bytes contents old (d.rename (backupName file) file) (.failed .restored) := by
  obtain ⟨_, hbackup⟩ := hi.stands
  have hfile : (d.rename (backupName file) file).names file = some old := by
    refine (Function.update_of_ne (backup_ne file).symm _ _).trans ?_
    rw [Function.update_self, hbackup]
  exact hi.rename rfl rfl rfl (Or.inl hfile) hfile

/-- A name is removed that is neither the executable's nor, while there is none, the backup's. -/
theorem remove_other {n m : String} (h : m ≠ n) : (d.remove n).names m = d.names m := Function.update_of_ne h _ _

theorem Installing.removes (hi : Installing file bytes contents old d (.failed error)) :
    Installing file bytes contents old (d.remove (stagedName file)) (.finished (.error error)) := by
  have hfile : (d.remove (stagedName file)).names file = d.names file := remove_other (staged_ne file).symm
  have hbackup : (d.remove (stagedName file)).names (backupName file) = d.names (backupName file) :=
    remove_other (staged_ne_backup file).symm
  have hp := hi.stands
  refine hi.rename rfl rfl rfl ?_ ?_
  · unfold Whole
    rw [hfile, hbackup]
    exact hi.whole _ d.recalls_names
  · cases error <;> simp only [InstallPhase.At, hfile, hbackup] at hp ⊢ <;> exact hp

theorem Installing.step (hi : Installing file bytes contents old d phase) (h : InstallStep file bytes d phase d' phase') :
    Installing file bytes contents old d' phase' := by
  have hp := hi.stands
  cases h with
  | creates => exact hi.creates
  | writes i written piece => exact hi.writes piece
  | flushes i => exact hi.flushes
  | cannotCreate => exact hi.wait (hp.1 _ d.recalls_names)
  | cannotWrite i written => exact hi.wait (hp.1 _ d.recalls_names)
  | marks i => exact hi.wait hp
  | cannotMark i => exact hi.wait hp.1
  | isClear i => exact hi.wait hp
  | clears i =>
    obtain ⟨hold, hstaged, hcontent, hsynced⟩ := hp
    have hfile : (d.remove (backupName file)).names file = some old := (remove_other (backup_ne file).symm).trans hold
    refine hi.rename rfl rfl rfl (Or.inl hfile) ⟨hfile, ?_, hcontent, hsynced⟩
    exact (remove_other (staged_ne_backup file)).trans hstaged
  | cannotClear i => exact hi.wait hp.1
  | parts i => exact hi.parts
  | cannotPart i => exact hi.wait hp.1
  | replaces i => exact hi.replaces
  | cannotReplace i => exact hi.wait ⟨hp.1, hp.2.1⟩
  | restores => exact hi.restores
  | cannotRestore => exact hi.wait hp
  | forgets =>
    obtain ⟨i, hfile, hcontent, hsynced⟩ := hp
    have hsame : (d.remove (backupName file)).names file = some i := (remove_other (backup_ne file).symm).trans hfile
    exact hi.rename rfl rfl rfl (Or.inr (Or.inr ⟨i, hsame, hcontent, hsynced⟩)) ⟨i, hsame, hcontent, hsynced⟩
  | keeps => exact hi.wait hp
  | removes error => exact hi.removes
  | leaves error => exact hi.wait (by cases error <;> exact hp)

theorem Installing.run {e : Disk String UInt8} (hrest : d.AtRest) (hold : d.names file = some old)
    (h : InstallRun file bytes d e phase) : Installing file bytes (d.files old) old e phase := by
  have hrecalls : ∀ names, d.Recalls names → names file = some old := by
    intro names h
    rw [Disk.Recalls, hrest.earlier, List.mem_singleton] at h
    rw [h, hold]
  induction h with
  | start =>
    refine ⟨⟨rfl, hrest.synced old⟩, fun names h => Or.inl (hrecalls names h), ?_⟩
    unfold installStart
    split
    · exact hold
    · exact ⟨hrecalls, hrest.named _ _ hold, fun n hn hsame => hn (hrest.once _ _ _ hsame hold)⟩
  | step _ hs ih => exact ih.step hs

/-- What is read under names that keep the executable. -/
theorem Whole.reads {contents : List UInt8} {e : Disk String UInt8} (h : Whole file bytes old d e.names)
    (hold : d.files old = contents ∧ d.synced old = true) (hfiles : ∀ i, d.synced i = true → e.files i = d.files i) :
    e.read file = some contents ∨ e.read file = some bytes ∨
      (e.read file = none ∧ e.read (backupName file) = some contents) := by
  unfold Disk.read
  rcases h with h | ⟨h, hbackup⟩ | ⟨i, h, hcontent, hsynced⟩
  · rw [h, Option.map_some, hfiles old hold.2, hold.1]
    exact Or.inl rfl
  · rw [h, hbackup, Option.map_none, Option.map_some, hfiles old hold.2, hold.1]
    exact Or.inr (Or.inr ⟨rfl, rfl⟩)
  · rw [h, Option.map_some, hfiles i hsynced, hcontent]
    exact Or.inr (Or.inl rfl)

/-- What the disk holds of the executable, and what an update reports of it. -/
structure ExecutableKept (file : String) (bytes contents : List UInt8) (d : Disk String UInt8) (phase : InstallPhase) : Prop where
  now : d.read file = some contents ∨ d.read file = some bytes ∨
    (d.read file = none ∧ d.read (backupName file) = some contents)
  crash : ∀ e, Crash d e → e.read file = some contents ∨ e.read file = some bytes ∨
    (e.read file = none ∧ e.read (backupName file) = some contents)
  replaced : phase = .finished (.ok ()) → d.read file = some bytes
  refused : ∀ error, phase = .finished (.error error) → error ≠ .notRestored → d.read file = some contents
  lost : phase = .finished (.error .notRestored) → d.read file = none ∧ d.read (backupName file) = some contents

theorem install_keeps {e : Disk String UInt8} (hrest : d.AtRest) (hold : d.read file = some contents)
    (h : InstallRun file bytes d e phase) : ExecutableKept file bytes contents e phase := by
  obtain ⟨old, hname, rfl⟩ := Option.map_eq_some_iff.mp hold
  have hi := Installing.run hrest hname h
  have hread : ∀ i n, e.names n = some i → e.read n = some (e.files i) := fun i n hn => by rw [Disk.read, hn, Option.map_some]
  refine ⟨(hi.whole _ e.recalls_names).reads hi.kept fun _ _ => rfl, fun e' he => ?_, fun hphase => ?_,
    fun error hphase hne => ?_, fun hphase => ?_⟩
  · exact Whole.reads (hi.whole _ he.names) hi.kept he.files
  · have hp := hi.stands
    rw [hphase] at hp
    obtain ⟨i, hfile, hcontent, _⟩ := hp
    rw [hread i file hfile, hcontent]
  · have hp := hi.stands
    rw [hphase] at hp
    have hfile : e.names file = some old := by
      cases error <;> first | exact hp | exact absurd rfl hne
    rw [hread old file hfile, hi.kept.1]
  · have hp := hi.stands
    rw [hphase] at hp
    obtain ⟨hfile, hbackup⟩ := hp
    refine ⟨by rw [Disk.read, hfile, Option.map_none], ?_⟩
    rw [hread old _ hbackup, hi.kept.1]

end installing

/-- One file, the executable. -/
def oneFile : Disk String UInt8 := ⟨fun n => if n = "openfelt" then some 0 else none, fun _ => [1], fun _ => true, 1, []⟩

theorem install_keeps_renamed : ∃ d, InstallRun "openfelt" [2] oneFile d .replaced ∧
    ExecutableKept "openfelt" [2] [1] d .replaced := by
  have hrest : oneFile.AtRest := by
    have hname : ∀ n i, oneFile.names n = some i → n = "openfelt" ∧ i = 0 := by
      intro n i h
      change (if n = "openfelt" then some 0 else none) = some i at h
      split at h
      · rename_i hn
        exact ⟨hn, (Option.some.inj h).symm⟩
      · cases h
    refine ⟨fun n i h => ?_, fun n m i h h' => (hname n i h).1.trans (hname m i h').1.symm, fun _ => rfl, rfl⟩
    rw [(hname n i h).2]
    exact Nat.one_pos
  have h0 : InstallRun "openfelt" [2] oneFile oneFile .begun := .start
  have h1 := h0.step (.creates oneFile)
  have h2 := h1.step (.writes _ _ _ [2] (List.prefix_refl _))
  have h3 := h2.step (.flushes _ _)
  have h4 := h3.step (.marks _ _)
  have h5 := h4.step (.isClear _ _ (by
    simp [Disk.sync, Disk.write, Disk.open_, oneFile, Function.update, stagedName, backupName]))
  have h6 := h5.step (.parts _ _)
  have h7 := h6.step (.replaces _ _)
  exact ⟨_, h7, install_keeps hrest (by simp [Disk.read, oneFile]) h7⟩

end OpenFelt.Trainer
