import CallProfile.Proofs.Storage.Outcomes

/-!
# Reading a file that was just written

Writing puts a file where a path leads to and touches nothing else.  What was a directory on the
way is one still, since no file is put in the place of a directory, so the path leads to the same
place when it is followed again.

* `entry?_put` — what stands where after something was put somewhere.
* `approach_put` — a path leads into the same directory as before.
* **`read_of_write`** — a file that was written is read back.
* **`readDocument_of_writeDocument`** — so is a document, if the reader takes its text.
-/

namespace CallProfile

namespace FileSystem

variable {fs done : FileSystem} {path : String} {bytes : ByteArray} {location : Location}
  {entry : FileEntry}

/-! ## Where paths lead -/

lemma entry?_root (fs : FileSystem) : fs.entry? .root = some .directory := if_pos rfl

/-- Putting an entry at a place changes nothing at other places. -/
lemma entry?_put (hroot : location ≠ .root) (other : Location) :
    entry? (fs.put location entry) other =
      if other = location then some entry else fs.entry? other := by
  unfold entry? put
  rw [OrderedMap.get?_insert]
  split_ifs with hother hsame
  · exact absurd (hsame.symm.trans hother) hroot
  all_goals rfl

/-- A place is taken for a directory exactly if there is one. -/
lemma asDirectory_eq_ok_iff {found : Location} :
    fs.asDirectory location = .ok found ↔
      fs.entry? location = some .directory ∧ location = found := by
  rw [asDirectory]
  split <;> simp_all

/-- A path that leads somewhere leads through directories. -/
lemma approach_eq_ok_iff {found : Location × Option String} :
    fs.approach path = .ok found ↔
      checkText path = .ok () ∧ path ≠ "" ∧
        ∃ inside, fs.enterDirectories (Path.components path).dropLast (fs.startOf path) =
            .ok inside ∧ (inside, (Path.components path).getLast?) = found := by
  rw [approach]
  cases htext : checkText path with
  | error fault => simp [bind, Except.bind]
  | ok _ =>
      by_cases hempty : path = ""
      · simp [hempty, bind, Except.bind, throw, throwThe, MonadExceptOf.throw]
      · cases hinside : fs.enterDirectories (Path.components path).dropLast (fs.startOf path) <;>
          simp [hempty, hinside, bind, Except.bind, pure, Except.pure]

variable {target : Location}

/-- A directory stays one when something is put in another place. -/
lemma asDirectory_put (htarget : fs.entry? target ≠ some .directory) {found : Location}
    (h : fs.asDirectory location = .ok found) :
    (fs.put target entry).asDirectory location = .ok found := by
  rw [asDirectory_eq_ok_iff] at h ⊢
  obtain ⟨hdirectory, rfl⟩ := h
  have hroot : target ≠ .root := fun hroot => htarget (hroot ▸ entry?_root fs)
  have hother : location ≠ target := fun hsame => htarget (hsame ▸ hdirectory)
  rw [entry?_put hroot, if_neg hother]
  exact ⟨hdirectory, rfl⟩

/-- A step of a path leads to the same directory as before. -/
lemma enter_put (htarget : fs.entry? target ≠ some .directory) {name : String} {found : Location}
    (h : (find location name >>= fs.asDirectory) = .ok found) :
    (find location name >>= (fs.put target entry).asDirectory) = .ok found := by
  cases hfind : find location name with
  | error fault => rw [hfind] at h; cases h
  | ok next =>
      rw [hfind] at h
      exact asDirectory_put htarget h

/-- Directories can be entered as before, when something else is put in the place of what is no
directory. -/
lemma enterDirectories_put (htarget : fs.entry? target ≠ some .directory) {names : List String}
    {found : Location} (h : fs.enterDirectories names location = .ok found) :
    (fs.put target entry).enterDirectories names location = .ok found := by
  induction names generalizing location with
  | nil => exact h
  | cons name names ih =>
      rw [enterDirectories, List.foldlM_cons] at h ⊢
      cases hstep : find location name >>= fs.asDirectory with
      | error fault => rw [hstep] at h; cases h
      | ok next =>
          rw [hstep] at h
          rw [enter_put htarget hstep]
          exact ih h

/-- A path leads into the same directory as before. -/
lemma approach_put (htarget : fs.entry? target ≠ some .directory)
    {found : Location × Option String} (h : fs.approach path = .ok found) :
    (fs.put target entry).approach path = .ok found := by
  rw [approach_eq_ok_iff] at h ⊢
  obtain ⟨htext, hempty, inside, hinside, hfound⟩ := h
  exact ⟨htext, hempty, inside, enterDirectories_put htarget hinside, hfound⟩

/-! ## Files -/

/-- A file is written where a path leads to, and never in the place of a directory. -/
lemma exists_of_write_eq_ok (h : fs.write path bytes = .ok done) :
    ∃ directory name target, fs.approach path = .ok (directory, some name) ∧
      Path.endsInSlash path = false ∧ find directory name = .ok target ∧
      fs.entry? target ≠ some .directory ∧ done = fs.put target (.file bytes) := by
  rw [write] at h
  match happroach : fs.approach path with
  | .error fault =>
      rw [happroach] at h
      cases h
  | .ok (directory, none) =>
      rw [happroach] at h
      cases hdirectory : fs.asDirectory directory <;> (simp only [hdirectory] at h; cases h)
  | .ok (directory, some name) =>
      simp only [happroach] at h
      split_ifs at h with hslash
      cases hfind : find directory name with
      | error fault =>
          rw [hfind] at h
          cases h
      | ok target =>
          simp only [hfind] at h
          split at h
          · cases h
          · next htarget =>
              cases h
              exact ⟨directory, name, target, rfl, by simpa using hslash, hfind, htarget, rfl⟩

/-- **A file that was written is read back.** -/
theorem read_of_write (h : fs.write path bytes = .ok done) : done.read path = .ok bytes := by
  obtain ⟨directory, name, target, happroach, hslash, hfind, htarget, rfl⟩ :=
    exists_of_write_eq_ok h
  have hroot : target ≠ .root := fun hroot => htarget (hroot ▸ entry?_root fs)
  have hlocate : (fs.put target (.file bytes)).locate path = .ok target := by
    rw [locate, approach_put htarget happroach]
    exact hfind
  rw [read, lookup, hlocate]
  simp only [entry?_put hroot, if_true, hslash]
  rfl

end FileSystem

/-! ## Documents -/

/-- A write that has succeeded is one of the file system. -/
lemma write_of_run_write {path : String} {bytes : ByteArray} {fs done : FileSystem}
    (h : (Disk.write path bytes : StateM FileSystem (Except Fault Unit)).run fs = (.ok (), done)) :
    fs.write path bytes = .ok done := by
  simp only [Disk.write, StateT.run] at h
  split at h
  · next hwrite =>
      cases h
      exact hwrite
  · cases h

/-- A document that was written is in the end the contents of a file. -/
lemma exists_write_of_writeDocument {value : Json.Value} {path : String} {fs done : FileSystem}
    (h : outcome (writeDocument value path) fs = (.ok (), done)) :
    ∃ prepared : FileSystem, prepared.write path value.pretty.toUTF8 = .ok done := by
  rw [outcome_writeDocument] at h
  split at h
  · cases h
  · next prepared _ =>
      split at h
      · cases h
      · next hrun =>
          cases h
          exact ⟨prepared, write_of_run_write hrun⟩

/-- **A document that was written is read back**, if its reader takes its text. -/
theorem readDocument_of_writeDocument {α : Type} {value : Json.Value} {path : String}
    {fs done : FileSystem} {read : List Json.Symbol → Except Json.Failure α} {a : α}
    (h : outcome (writeDocument value path) fs = (.ok (), done))
    (hread : read (Json.symbolsOfBytes value.pretty.toUTF8) = .ok a) :
    outcome (readDocument read path) done = (.ok a, done) := by
  obtain ⟨prepared, hwrite⟩ := exists_write_of_writeDocument h
  exact outcome_readDocument (FileSystem.read_of_write hwrite) hread

end CallProfile
