import CallProfile.Storage.FileSystem
import CallProfile.Storage.Output
import Mathlib.Tactic.Lemma
import Mathlib.Tactic.SplitIfs

/-!
# What comes of using files

An action on files that are kept as a state has an outcome: a result, and the files that it leaves.
Here the outcomes of the actions on documents are told, for every way of keeping files.  Where
looking at files does not change them (`QuietDisk`), checking a path does not either, and writing a
document to a path that passes the check fails for no reason that the check could have found.

* `outcome_bind`, `outcome_lift_bind` — actions one after the other.
* `outcome_checkPath`, `outcome_writeDocument`, `outcome_readDocument` — one equation for each
  action.
* **`isFromWriting_of_writeDocument`** — why writing behind a check may fail.
-/

namespace CallProfile

open Json

variable {σ δ ε α β : Type}

/-- What an action on files gives, and the files that it leaves. -/
def outcome (action : ExceptT ε (StateM σ) α) (files : σ) : Except ε α × σ :=
  action.run.run files

/-- An action goes on with the files that were left, unless it has failed. -/
lemma outcome_bind (action : ExceptT ε (StateM σ) α) (next : α → ExceptT ε (StateM σ) β)
    (files : σ) :
    outcome (action >>= next) files =
      match outcome action files with
      | (.ok a, left) => outcome (next a) left
      | (.error e, left) => (.error e, left) := by
  simp only [outcome, ExceptT.run_bind, StateT.run_bind]
  rcases action.run.run files with ⟨_ | _, _⟩ <;> rfl

/-- An action that cannot fail hands its files on. -/
lemma outcome_lift_bind (action : StateM σ α) (next : α → ExceptT ε (StateM σ) β) (files : σ) :
    outcome (ExceptT.lift action >>= next) files =
      outcome (next (action.run files).1) (action.run files).2 := rfl

/-- So does one whose failure is looked at. -/
lemma outcome_run_bind (action : ExceptT δ (StateM σ) α)
    (next : Except δ α → ExceptT ε (StateM σ) β) (files : σ) :
    outcome (ExceptT.lift action.run >>= next) files =
      outcome (next (outcome action files).1) (outcome action files).2 := rfl

/-! ## Looking at files -/

variable [Disk (StateM σ)]

/-- What stands at a path. -/
def kindAt (files : σ) (path : String) : Option Kind :=
  ((Disk.kind? path : StateM σ (Option Kind)).run files).1

/-- The bytes that are read at a path. -/
def readAt (files : σ) (path : String) : Except Fault ByteArray :=
  ((Disk.read path : StateM σ (Except Fault ByteArray)).run files).1

/-- Looking at files does not change them. -/
class QuietDisk (σ : Type) [Disk (StateM σ)] : Prop where
  run_kind? : ∀ (files : σ) (path : String),
    (Disk.kind? path : StateM σ (Option Kind)).run files = (kindAt files path, files)
  run_read : ∀ (files : σ) (path : String),
    (Disk.read path : StateM σ (Except Fault ByteArray)).run files = (readAt files path, files)

instance : QuietDisk FileSystem where
  run_kind? _ _ := rfl
  run_read _ _ := rfl

/-- A path is none to write to. -/
def IsClosed (files : σ) (path : String) : Prop :=
  path = "" ∨ kindAt files path = some .directory

variable [QuietDisk σ] {files left : σ} {path : String} {value : Value}

/-- The check of a path refuses an empty path and that of a directory, and leaves the files as they
are. -/
lemma outcome_checkPath (files : σ) (path : String) :
    outcome (checkPath path) files =
      (if path = "" then .error .empty
        else if kindAt files path = some .directory then .error (.directory path)
        else .ok (), files) := by
  rw [checkPath]
  split_ifs with hempty hdirectory
  · rfl
  all_goals
    change outcome (ExceptT.lift (Disk.kind? path) >>= _) files = _
    rw [outcome_lift_bind, QuietDisk.run_kind?]
  · rw [hdirectory]
    rfl
  · rw [if_neg hdirectory]
    rfl

/-- What reading the symbols at a path gives. -/
def symbolsAt (files : σ) (path : String) : Except Fault (Except Failure (List Symbol)) :=
  match readAt files path with
  | .ok bytes => .ok (.ok (symbolsOfBytes bytes))
  | .error .isADirectory => .ok (.error (.unreadable Fault.isADirectory.message))
  | .error fault => .error fault

lemma run_readSymbols (files : σ) (path : String) :
    (readSymbols path : StateM σ _).run files = (symbolsAt files path, files) := by
  rw [readSymbols, symbolsAt, StateT.run_bind, QuietDisk.run_read]
  match readAt files path with
  | .ok bytes => rfl
  | .error fault => cases fault <;> rfl

lemma outcome_readSymbols (files : σ) (path : String) :
    outcome (readSymbols path : ExceptT ε (StateM σ) _) files =
      (.ok (symbolsAt files path), files) := by
  rw [readSymbols, symbolsAt]
  change outcome (ExceptT.lift (Disk.read path) >>= _) files = _
  rw [outcome_lift_bind, QuietDisk.run_read]
  match readAt files path with
  | .ok bytes => rfl
  | .error fault => cases fault <;> rfl

/-- A document is read if its file can be read and its text is one. -/
lemma outcome_readDocument {read : List Symbol → Except Failure α} {bytes : ByteArray} {a : α}
    (hfile : readAt files path = .ok bytes) (hread : read (symbolsOfBytes bytes) = .ok a) :
    outcome (readDocument read path) files = (.ok a, files) := by
  rw [readDocument, outcome_bind, outcome_readSymbols, symbolsAt, hfile]
  simp only [hread]
  rfl

/-! ## Writing documents -/

omit [QuietDisk σ] in
/-- A document is written behind the check of its path and the making of its directory. -/
lemma outcome_writeDocument (files : σ) (path : String) (value : Value) :
    outcome (writeDocument value path) files =
      match outcome (checkPath path >>= fun _ => makeParent path) files with
      | (.error e, left) => (.error (.path e), left)
      | (.ok _, prepared) =>
        match (Disk.write path value.pretty.toUTF8 : StateM σ (Except Fault Unit)).run prepared with
        | (.error fault, left) => (.error (.file fault), left)
        | (.ok _, left) => (.ok (), left) := by
  rw [writeDocument]
  change outcome (ExceptT.lift (ExceptT.run (checkPath path >>= fun _ => makeParent path)) >>= _)
    files = _
  rw [outcome_run_bind]
  rcases outcome (checkPath path >>= fun _ => makeParent path) files with ⟨_ | _, prepared⟩
  · rfl
  · change outcome (ExceptT.lift (Disk.write path value.pretty.toUTF8) >>= _) prepared = _
    rw [outcome_lift_bind]
    simp only
    rcases (Disk.write path value.pretty.toUTF8 : StateM σ _).run prepared with ⟨_ | _, _⟩ <;> rfl

/-- An error of what a writer finds out only by making directories or by writing. -/
def OutputError.isFromWriting : OutputError → Bool
  | .file _ => true
  | .path (.noParent ..) => true
  | _ => false

omit [QuietDisk σ] in
/-- Directories are made in silence, or it is told which one could not be made. -/
lemma isFromWriting_of_makeParent {e : PathError}
    (h : outcome (makeParent path) files = (.error e, left)) :
    (OutputError.path e).isFromWriting = true := by
  rw [makeParent] at h
  change outcome (ExceptT.lift (Disk.kind? (Path.parent path)) >>= _) files = _ at h
  rw [outcome_lift_bind] at h
  split_ifs at h
  · change outcome (ExceptT.lift (Disk.makeDirectories (Path.parent path)) >>= _) _ = _ at h
    rw [outcome_lift_bind] at h
    split at h
    · cases h
    · cases h
      rfl
  · cases h

/-- **Writing to a path that passes the check fails only while it writes.** -/
theorem isFromWriting_of_writeDocument (hopen : ¬ IsClosed files path) {e : OutputError}
    (h : outcome (writeDocument value path) files = (.error e, left)) :
    e.isFromWriting = true := by
  have hcheck : outcome (checkPath path) files = (.ok (), files) := by
    rw [outcome_checkPath, if_neg fun hempty => hopen (.inl hempty),
      if_neg fun hdirectory => hopen (.inr hdirectory)]
  rw [outcome_writeDocument, outcome_bind, hcheck] at h
  simp only at h
  split at h
  · next _ _ hparent =>
      cases h
      exact isFromWriting_of_makeParent hparent
  · split at h
    · cases h
      rfl
    · cases h

end CallProfile
