import CallProfile.Command.Run
import CallProfile.Proofs.Storage.Outcomes
import CallProfile.Proofs.Tree.CallPaths
import CallProfile.Proofs.Tree.Cuts

/-!
# Commands that are refused

A command is refused if its arguments are none, or if the files do not hold what it needs
(`Command.IsRefused`).  This can be told from the files as they are, before the command has run.
Then the command fails, and it leaves the files as they are; otherwise it can fail only while it
writes.

Each step of a command is a check: it refuses under some condition or gives something to go on
with, and does not touch the files (`Checks`).  The last step may write (`Finishes`).  One step
behind the other is refused if one of the two is (`Settles.bind`), so what is proved about the steps
is put together in the order of the program.  All this holds wherever looking at files does not
change them.

* `Checks.bind`, `Checks.finish` — steps one after the other.
* `checks_checkOutput`, `checks_load`, `checks_choose`, `finishes_save` — the steps.
* **`Command.finishes`** — all commands, with any way of keeping files.
* **`refused_command_leaves_files`** — what this says of a file system.
-/

namespace CallProfile

variable {σ α β : Type}

/-! ## The course of a command -/

/-- What work gives and has said, and the files that it leaves. -/
def Work.outcome (work : Work (StateM σ) α) (said : Transcript) (files : σ) :
    (Except CommandError α × Transcript) × σ :=
  (work.run.run said).run files

namespace Work

/-- Work goes on with what has been said and with the files that were left, unless it has failed. -/
lemma outcome_bind (work : Work (StateM σ) α) (next : α → Work (StateM σ) β) (said : Transcript)
    (files : σ) :
    outcome (work >>= next) said files =
      match outcome work said files with
      | ((.ok a, said), left) => outcome (next a) said left
      | ((.error e, said), left) => ((.error e, said), left) := by
  simp only [outcome, ExceptT.run_bind, StateT.run_bind]
  rcases (work.run.run said).run files with ⟨⟨_ | _, _⟩, _⟩ <;> rfl

/-- What is done with the files alone says nothing. -/
lemma outcome_lift_bind (action : StateM σ α) (next : α → Work (StateM σ) β) (said : Transcript)
    (files : σ) :
    outcome ((liftM action : Work (StateM σ) α) >>= next) said files =
      outcome (next (action.run files).1) said (action.run files).2 := rfl

/-- The errors of an action on files become those of a command. -/
lemma outcome_orThrow {ε : Type} (action : ExceptT ε (StateM σ) Unit)
    {next : Except ε Unit → Work (StateM σ) Unit} {fail : ε → CommandError}
    (hok : next (.ok ()) = pure ()) (herror : ∀ e, next (.error e) = throw (fail e))
    (said : Transcript) (files : σ) :
    outcome ((liftM action.run : Work (StateM σ) (Except ε Unit)) >>= next) said files =
      match CallProfile.outcome action files with
      | (.ok _, left) => ((.ok (), said), left)
      | (.error e, left) => ((.error (fail e), said), left) := by
  rw [outcome_lift_bind]
  change outcome (next (CallProfile.outcome action files).1) said
    (CallProfile.outcome action files).2 = _
  rcases CallProfile.outcome action files with ⟨e | _, _⟩
  · rw [herror]
    rfl
  · rw [hok]
    rfl

end Work

/-! ## Checks, and what comes behind them -/

/-- A cause of what can go wrong only while files are written. -/
def Cause.isFromWriting : Cause → Bool
  | .output e => e.isFromWriting
  | _ => false

/-- Work that is refused under a condition has failed for a cause other than writing, and has left
the files; of other work it is known how it is `done`. -/
inductive Settles (files : σ) (refused : Prop) (done : Except CommandError α → σ → Prop) :
    (Except CommandError α × Transcript) × σ → Prop
  | refuse {e : CommandError} {said : Transcript} (hrefused : refused)
    (hcause : e.cause.isFromWriting = false) : Settles files refused done ((.error e, said), files)
  | finish {result : Except CommandError α} {said : Transcript} {left : σ} (hpassed : ¬ refused)
    (hdone : done result left) : Settles files refused done ((result, said), left)

/-- Work that refuses under a condition, or else gives something and leaves the files. -/
def Checks (work : Work (StateM σ) α) (files : σ) (refused : Prop) (gives : α → Prop) : Prop :=
  ∀ said, Settles files refused (fun result left => left = files ∧ ∃ a, result = .ok a ∧ gives a)
    (Work.outcome work said files)

/-- Work that refuses under a condition, or else fails only while it writes. -/
def Finishes (work : Work (StateM σ) α) (files : σ) (refused : Prop) : Prop :=
  ∀ said, Settles files refused
    (fun result _ => ∀ e, result = .error e → e.cause.isFromWriting = true)
    (Work.outcome work said files)

variable {files : σ} {refused later : Prop} {gives : α → Prop}

/-- Behind a check the files are those from before it. -/
lemma Settles.bind {done : Except CommandError β → σ → Prop} {work : Work (StateM σ) α}
    {next : α → Work (StateM σ) β} (hcheck : Checks work files refused gives)
    (hnext : ∀ a, gives a → ∀ said, Settles files later done (Work.outcome (next a) said files))
    (said : Transcript) :
    Settles files (refused ∨ later) done (Work.outcome (work >>= next) said files) := by
  rw [Work.outcome_bind]
  have hwork := hcheck said
  generalize Work.outcome work said files = first at hwork
  cases hwork with
  | refuse hrefused hcause => exact .refuse (.inl hrefused) hcause
  | @finish _ said _ hpassed hdone =>
      obtain ⟨rfl, a, rfl, ha⟩ := hdone
      have hsecond := hnext a ha said
      simp only
      generalize Work.outcome (next a) said _ = second at hsecond ⊢
      cases hsecond with
      | refuse hlater hcause => exact .refuse (.inr hlater) hcause
      | finish hopen hdone => exact .finish (fun h => h.elim hpassed hopen) hdone

/-- Two checks in sequence refuse what either of them refuses. -/
lemma Checks.bind {work : Work (StateM σ) α} {next : α → Work (StateM σ) β} {more : β → Prop}
    (hcheck : Checks work files refused gives)
    (hnext : ∀ a, gives a → Checks (next a) files later more) :
    Checks (work >>= next) files (refused ∨ later) more :=
  Settles.bind hcheck hnext

/-- A check in front of other work refuses what either of them refuses. -/
lemma Checks.finish {work : Work (StateM σ) α} {next : α → Work (StateM σ) β}
    (hcheck : Checks work files refused gives)
    (hnext : ∀ a, gives a → Finishes (next a) files later) :
    Finishes (work >>= next) files (refused ∨ later) :=
  Settles.bind hcheck hnext

/-- A check is done when it has given something. -/
lemma Checks.finishes {work : Work (StateM σ) α} (h : Checks work files refused gives) :
    Finishes work files refused := by
  intro said
  have hwork := h said
  generalize Work.outcome work said files = outcome at hwork ⊢
  cases hwork with
  | refuse hrefused hcause => exact .refuse hrefused hcause
  | finish hpassed hdone =>
      obtain ⟨rfl, a, rfl, -⟩ := hdone
      exact .finish hpassed fun _ he => by cases he

lemma Checks.of_iff {work : Work (StateM σ) α} (hiff : refused ↔ later)
    (h : Checks work files refused gives) : Checks work files later gives :=
  propext hiff ▸ h

lemma Finishes.of_iff {work : Work (StateM σ) α} (hiff : refused ↔ later)
    (h : Finishes work files refused) : Finishes work files later :=
  propext hiff ▸ h

/-! ## Steps that use no files -/

lemma checks_pure (a : α) : Checks (pure a : Work (StateM σ) α) files False fun _ => True :=
  fun _ => .finish id ⟨rfl, a, rfl, trivial⟩

lemma checks_say (text : String) :
    Checks (say text : Work (StateM σ) Unit) files False fun _ => True :=
  fun _ => .finish id ⟨rfl, (), rfl, trivial⟩

lemma checks_warn (warnings : List Warning) :
    Checks (warn warnings : Work (StateM σ) Unit) files False fun _ => True :=
  fun _ => .finish id ⟨rfl, (), rfl, trivial⟩

/-- No listing can have so many rows. -/
def IsNoLimit (limit : Nat) : Prop := limit = 0 ∨ greatestLimit < limit

/-- The check of a limit refuses those that are none. -/
lemma checks_checkLimit (limit : Nat) :
    Checks (liftM (checkLimit limit) : Work (StateM σ) Unit) files (IsNoLimit limit)
      fun _ => True := by
  intro said
  rw [checkLimit]
  split_ifs with hzero hhigh
  · exact .refuse (.inl hzero) rfl
  · exact .refuse (.inr hhigh) rfl
  · exact .finish (fun h => h.elim hzero hhigh) ⟨rfl, (), rfl, trivial⟩

/-- A guard refuses what it is told to. -/
lemma finishes_guard {condition : Prop} [Decidable condition] {cause : Cause}
    (hcause : cause.isFromWriting = false) {next : Unit → Work (StateM σ) α}
    (hnext : Finishes (next ()) files later) :
    Finishes (if condition then throw (.bare cause) >>= next else next ()) files
      (condition ∨ later) := by
  intro said
  split_ifs with hcondition
  · exact .refuse (.inl hcondition) hcause
  · exact hnext.of_iff (or_iff_right hcondition).symm said

/-- A name that fits no function of a dataset. -/
def Target.IsUnknown (dataset : Dataset) : Target → Prop
  | .address _ => False
  | .name part => dataset.addressesNamed part = []

/-- Choosing a function refuses a target that is unknown in the dataset. -/
lemma checks_choose (dataset : Dataset) (target : Target) :
    Checks (choose dataset target : Work (StateM σ) Address) files (target.IsUnknown dataset)
      fun _ => True := by
  unfold choose
  refine Checks.of_iff (iff_of_eq (false_or _)) ((checks_warn _).bind fun _ _ => ?_)
  cases target with
  | address address => exact fun _ => .finish id ⟨rfl, address, rfl, trivial⟩
  | name part =>
      rw [Dataset.resolve?, Target.IsUnknown]
      cases dataset.addressesNamed part with
      | nil => exact fun _ => .refuse rfl rfl
      | cons address others =>
          exact fun _ => .finish (List.cons_ne_nil _ _) ⟨rfl, address, rfl, trivial⟩

lemma checks_reportOf (dataset : Dataset) (limit : Nat) (function : Option Target)
    (generatedAt : String) :
    Checks (reportOf dataset limit function generatedAt : Work (StateM σ) Report) files
      (∃ target ∈ function, target.IsUnknown dataset) fun _ => True := by
  unfold reportOf
  refine Checks.of_iff (iff_of_eq (false_or _)) ((checks_warn _).bind fun _ _ => ?_)
  cases function with
  | none => exact fun _ => .finish (by simp) ⟨rfl, _, rfl, trivial⟩
  | some target =>
      change Checks ((some <$> choose dataset target) >>= fun target =>
        pure (dataset.report limit target generatedAt)) files _ _
      rw [bind_map_left]
      refine Checks.of_iff ?_ ((checks_choose dataset target).bind fun address _ =>
        checks_pure (dataset.report limit (some address) generatedAt))
      simp

/-! ## Steps that use files -/

variable [Disk (StateM σ)] [QuietDisk σ]

/-- The check of an output path refuses those that are closed. -/
lemma checks_checkOutput (path : String) :
    Checks (checkOutput path) files (IsClosed files path) fun _ => ¬ IsClosed files path := by
  intro said
  have hrun : Work.outcome (checkOutput path) said files = _ :=
    Work.outcome_orThrow (checkPath path) rfl (fun _ => rfl) said files
  rw [hrun, outcome_checkPath]
  split_ifs with hempty hdirectory
  · exact .refuse (.inl hempty) rfl
  · exact .refuse (.inr hdirectory) rfl
  · have hopen : ¬ IsClosed files path := fun h => h.elim hempty hdirectory
    exact .finish hopen ⟨rfl, (), rfl, hopen⟩

/-- What loading the dataset at a path gives. -/
def loadAt (files : σ) (path : String) : List Warning × Except LoadError Dataset :=
  ((loadFile path : StateM σ _).run files).1

/-- Loading a dataset leaves the files as they are. -/
lemma run_loadFile (path : String) :
    (loadFile path : StateM σ _).run files = (loadAt files path, files) := by
  rw [loadAt, loadFile, StateT.run_bind, run_readSymbols]
  rcases symbolsAt files path with _ | _ | _ <;> rfl

/-- There is no dataset at a path. -/
def IsNoDataset (files : σ) (path : String) : Prop := ∃ e, (loadAt files path).2 = .error e

/-- Loading warns, and gives the dataset or says for which file there is none. -/
lemma outcome_load (path : String) (said : Transcript) (files : σ) :
    Work.outcome (load path) said files =
      (((loadAt files path).2.mapError fun e =>
          .during s!"Failed to load dataset {path}" (.dataset e),
        { said with warnings := said.warnings ++ (loadAt files path).1 }), files) := by
  rw [load, Work.outcome_lift_bind, run_loadFile]
  rcases loadAt files path with ⟨_, _ | _⟩ <;> rfl

/-- Loading refuses a file that has no dataset. -/
lemma checks_load (path : String) :
    Checks (load path) files (IsNoDataset files path) fun dataset =>
      (loadAt files path).2 = .ok dataset := by
  intro said
  rw [outcome_load]
  cases hload : (loadAt files path).2 with
  | error e => exact .refuse ⟨e, hload⟩ rfl
  | ok dataset =>
      refine .finish ?_ ⟨rfl, dataset, rfl, rfl⟩
      rintro ⟨e, he⟩
      rw [hload] at he
      cases he

/-- A document is written to a path that has been checked. -/
lemma finishes_save {path : String} (hopen : ¬ IsClosed files path) (context : String)
    (value : Json.Value) : Finishes (save context value path) files False := by
  intro said
  have hrun : Work.outcome (save context value path) said files = _ :=
    Work.outcome_orThrow (writeDocument value path) rfl (fun _ => rfl) said files
  rw [hrun]
  rcases hwrite : outcome (writeDocument value path) files with ⟨cause | _, left⟩
  · refine .finish id fun e he => ?_
    cases he
    exact isFromWriting_of_writeDocument hopen hwrite
  · exact .finish id fun e he => by cases he

/-! ## Commands -/

/-- What cannot fail adds no error. -/
lemma exists_bind_eq_error_iff {ε : Type} {found : Except ε α} {next : α → Except ε β}
    (hnext : ∀ a, ∃ b, next a = .ok b) :
    (∃ e, found >>= next = .error e) ↔ ∃ e, found = .error e := by
  cases found with
  | error e => exact iff_of_true ⟨e, rfl⟩ ⟨e, rfl⟩
  | ok a =>
      obtain ⟨b, hb⟩ := hnext a
      refine iff_of_false (fun ⟨e, h⟩ => ?_) fun ⟨e, h⟩ => by cases h
      change next a = .error e at h
      rw [hb] at h
      cases h

/-- A command has no call tree to show exactly if no sample has a call frame. -/
lemma exists_treeOf_eq_error_iff (dataset : Dataset) (arguments : TreeArguments) :
    (∃ e, treeOf dataset arguments = .error e) ↔
      ∀ sample ∈ dataset.samples, sample.hasCode = false := by
  have hraw : (∃ e, dataset.rawTree = .error e) ↔
      ∀ sample ∈ dataset.samples, sample.hasCode = false := by
    simp only [Dataset.rawTree_eq_error_iff, exists_eq_left]
  rw [← hraw, treeOf]
  cases arguments.raw with
  | true =>
      refine exists_bind_eq_error_iff fun tree => ?_
      cases arguments.threshold <;> exact ⟨_, rfl⟩
  | false =>
      refine (exists_bind_eq_error_iff fun tree => ?_).trans
        (exists_congr fun _ => Dataset.tree_eq_error_iff)
      cases arguments.threshold <;> exact ⟨_, rfl⟩

/-- The arguments of a command are none, or the files do not hold what it needs. -/
def Command.IsRefused (files : σ) : Command → Prop
  | histogram arguments => IsNoLimit arguments.limit ∨ IsNoDataset files arguments.input
  | tree arguments =>
    (∃ path ∈ arguments.output, IsClosed files path) ∨ arguments.depth = 0 ∨
      IsNoDataset files arguments.input ∨
      ∃ dataset, (loadAt files arguments.input).2 = .ok dataset ∧
        ∀ sample ∈ dataset.samples, sample.hasCode = false
  | function arguments =>
    IsNoLimit arguments.limit ∨ IsNoDataset files arguments.input ∨
      ∃ dataset, (loadAt files arguments.input).2 = .ok dataset ∧
        arguments.target.IsUnknown dataset
  | report arguments =>
    IsNoLimit arguments.limit ∨ IsClosed files arguments.output ∨
      IsNoDataset files arguments.input ∨
      ∃ dataset, (loadAt files arguments.input).2 = .ok dataset ∧
        ∃ target ∈ arguments.function, target.IsUnknown dataset
  | version => False

/-- The histogram command refuses exactly what it has to, and nothing else goes wrong before it
writes. -/
lemma finishes_histogram (arguments : HistogramArguments) :
    Finishes (runHistogram arguments) files ((Command.histogram arguments).IsRefused files) := by
  have hlisting : ∀ dataset : Dataset, Checks (do
      warn dataset.histogramWarnings
      say (dataset.histogramListing arguments.limit) : Work (StateM σ) Unit) files False
      fun _ => True := fun dataset =>
    (Checks.bind (checks_warn _) fun _ _ => checks_say _).of_iff (iff_of_eq (false_or _))
  refine Checks.finish (checks_checkLimit _) fun _ _ => ?_
  exact ((checks_load _).bind fun dataset _ => hlisting dataset).finishes.of_iff
    (iff_of_eq (or_false _))

/-- The function command refuses exactly what it has to, and nothing else goes wrong before it
writes. -/
lemma finishes_function (arguments : FunctionArguments) :
    Finishes (runFunction arguments) files ((Command.function arguments).IsRefused files) := by
  refine Checks.finish (checks_checkLimit _) fun _ _ => ?_
  refine Checks.finish (checks_load _) fun dataset hload => ?_
  refine ((checks_choose dataset arguments.target).bind fun _ _ => checks_say _).finishes.of_iff ?_
  simp [hload]

/-- The report command refuses exactly what it has to, and else fails only while it writes. -/
lemma finishes_report (arguments : ReportArguments) (generatedAt : String) :
    Finishes (runReport arguments generatedAt) files
      ((Command.report arguments).IsRefused files) := by
  refine Checks.finish (checks_checkLimit _) fun _ _ => ?_
  refine Checks.finish (checks_checkOutput _) fun _ hopen => ?_
  refine Checks.finish (checks_load _) fun dataset hload => ?_
  refine Finishes.of_iff ?_ ((checks_reportOf dataset _ _ generatedAt).finish fun _ _ =>
    finishes_save hopen _ _)
  simp [hload]

/-- Behind the check of its path, a tree command is refused without levels or call frames, if
nothing but writing can go wrong once there is a tree. -/
lemma finishes_levels (arguments : TreeArguments) {next : Dataset → Work (StateM σ) Unit}
    (herror : ∀ dataset e, treeOf dataset arguments = .error e →
      next dataset = throw (.during "Failed to build call tree" (.tree e)))
    (hok : ∀ dataset tree, treeOf dataset arguments = .ok tree →
      Finishes (next dataset) files False) :
    Finishes (do
      if arguments.depth = 0 then throw (.bare .zeroDepth)
      let dataset ← load arguments.input
      next dataset) files
      (arguments.depth = 0 ∨ IsNoDataset files arguments.input ∨
        ∃ dataset, (loadAt files arguments.input).2 = .ok dataset ∧
          ∀ sample ∈ dataset.samples, sample.hasCode = false) := by
  refine finishes_guard rfl ?_
  refine Checks.finish (checks_load _) fun dataset hload => ?_
  have hframes := exists_treeOf_eq_error_iff dataset arguments
  refine Finishes.of_iff (hframes.trans (by simp [hload])) ?_
  cases htree : treeOf dataset arguments with
  | error e =>
      rw [herror dataset e htree]
      exact fun _ => .refuse ⟨e, rfl⟩ rfl
  | ok tree => exact (hok dataset tree htree).of_iff (by simp)

/-- The tree command refuses exactly what it has to, and else fails only while it writes. -/
lemma finishes_tree (arguments : TreeArguments) :
    Finishes (runTree arguments) files ((Command.tree arguments).IsRefused files) := by
  obtain ⟨input, output, threshold, raw, depth, locator⟩ := arguments
  rw [runTree]
  cases output with
  | none =>
      refine Finishes.of_iff ?_ (finishes_levels _ (fun dataset e h => ?_) fun dataset tree h => ?_)
      · simp [Command.IsRefused]
      · simp only [h]
      · simp only [h]
        exact ((checks_say _).bind fun _ _ => checks_pure ()).finishes.of_iff (by simp)
  | some path =>
      refine Finishes.of_iff ?_ ((checks_checkOutput path).finish fun _ hopen =>
        finishes_levels _ (fun dataset e h => ?_) fun dataset tree h => ?_)
      · simp [Command.IsRefused]
      · simp only [h]
      · simp only [h]
        exact ((checks_say _).finish fun _ _ => finishes_save hopen _ _).of_iff (by simp)

/-- **A command is refused, or it fails only while it writes.** -/
theorem Command.finishes (command : Command) (generatedAt : String) (files : σ) :
    Finishes (command.work generatedAt) files (command.IsRefused files) := by
  cases command with
  | histogram arguments => exact finishes_histogram arguments
  | tree arguments => exact finishes_tree arguments
  | function arguments => exact finishes_function arguments
  | report arguments => exact finishes_report arguments generatedAt
  | version => exact (checks_say versionListing).finishes

/-- A command that is refused fails, and leaves the files. -/
lemma Command.run_of_isRefused {command : Command} (h : command.IsRefused files)
    (generatedAt : String) :
    ∃ e said, e.cause.isFromWriting = false ∧
      (command.run generatedAt : StateM σ _).run files = ((.error e, said), files) := by
  have hwork := command.finishes generatedAt files {}
  change ∃ e said, _ ∧ Work.outcome (command.work generatedAt) {} files = _
  generalize Work.outcome (command.work generatedAt) {} files = outcome at hwork ⊢
  cases hwork with
  | refuse hrefused hcause => exact ⟨_, _, hcause, rfl⟩
  | finish hpassed hdone => exact absurd h hpassed

/-- A command that failed for a cause other than writing was refused, and has left the files. -/
lemma Command.isRefused_of_run {command : Command} {generatedAt : String} {e : CommandError}
    {said : Transcript} {left : σ}
    (hrun : (command.run generatedAt : StateM σ _).run files = ((.error e, said), left))
    (hcause : e.cause.isFromWriting = false) : command.IsRefused files ∧ left = files := by
  have hwork := command.finishes generatedAt files {}
  change Work.outcome (command.work generatedAt) {} files = _ at hrun
  rw [hrun] at hwork
  cases hwork with
  | refuse hrefused _ => exact ⟨hrefused, rfl⟩
  | finish hpassed hdone =>
      rw [hdone e rfl] at hcause
      cases hcause

/-! ## Files in memory -/

/-- **A command that fails before it writes leaves the file system as it is.**  A command is refused
if its limit, its depth or its output path is none, if it does not find a dataset, if the dataset
has no call frames for the tree, or if no function has the name that is asked for.  Then it fails,
and every file and directory is what it was before.  The other way round, what fails for a cause
other than writing has been refused for one of these reasons. -/
theorem refused_command_leaves_files (fs : FileSystem) (command : Command) (generatedAt : String) :
    (command.IsRefused fs → ∃ e said, e.cause.isFromWriting = false ∧
      (command.run generatedAt : StateM FileSystem _).run fs = ((.error e, said), fs)) ∧
    ∀ e said left,
      (command.run generatedAt : StateM FileSystem _).run fs = ((.error e, said), left) →
        e.cause.isFromWriting = false → command.IsRefused fs ∧ left = fs :=
  ⟨fun h => Command.run_of_isRefused h generatedAt,
    fun _ _ _ hrun hcause => Command.isRefused_of_run hrun hcause⟩

/-- A directory with an old report and no dataset. -/
def FileSystem.withOldReport : FileSystem :=
  fresh.put ((Location.root.below "work").below "report.json") (.file "[]".toUTF8)

/-- A report about a dataset that is not there is refused, and the old report is still there. -/
theorem withOldReport_kept :
    (Command.report {}).IsRefused FileSystem.withOldReport ∧
      ∃ e said, ((Command.report {}).run "T" : StateM FileSystem _).run FileSystem.withOldReport =
          ((.error e, said), FileSystem.withOldReport) ∧
        FileSystem.withOldReport.read "report.json" = .ok "[]".toUTF8 := by
  have hrefused : (Command.report {}).IsRefused FileSystem.withOldReport := by
    exact .inr (.inr (.inl ⟨.file .notFound, rfl⟩))
  obtain ⟨e, said, hcause, hrun⟩ :=
    (refused_command_leaves_files FileSystem.withOldReport (.report {}) "T").1 hrefused
  exact ⟨((refused_command_leaves_files _ _ _).2 e said _ hrun hcause).1, e, said, hrun, rfl⟩

end CallProfile
