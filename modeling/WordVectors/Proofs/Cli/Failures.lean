import WordVectors.Cli.Command
import WordVectors.Proofs.Binary.Reporting
import WordVectors.Proofs.Cli.Arguments
import WordVectors.Proofs.Loading

/-!
# Failures of the conversion tool

A command comes to a result: the folder with what it has written, or why it fails. Failures of the
files are reported, and then the folder is as it was. Other failures end the tool without a status:
octets that are not UTF-8, a field of a text that is no number, a vector that is larger than a
segment, want of room, a null character in a path, and a model that cannot be written. The last is
found out only after its file was opened, which by then has lost what it held.

## Main definitions

* `Folder.effect`: the folder after a task, and its result
* `Command.result`: what a command comes to
* `Command.Unreported`: the failures that are not reported
* `Command.Truncates`: what a model leaves that cannot be written

## Main results

* `Folder.run_bind`, `Folder.effect_andThen`: tasks one after another
* `Folder.write_cases`: whether a file can be opened does not depend on what is written
* `effect_of_result_eq_ok`, `effect_of_result_eq_error`: a command comes to its result
* `cases_of_result_eq_error`: why a command fails
* `isReported_iff`: a failure is reported unless it is one of those that are not
* `runTool_reports_iff`: when the tool reports a failure and keeps the folder
-/

namespace WordVectors

namespace Folder

variable {α β : Type} (folder : Folder)

/-! ## Tasks in a folder -/

/-- **A task that goes on with the result of another** starts in the folder that the other left. -/
theorem run_bind (task : FileTask α) (next : α → FileTask β) :
    folder.run (task.bind next) = (folder.run task).1.run (next (folder.run task).2) := by
  induction task generalizing folder with
  | done a => rfl
  | read path reply ih => exact ih (folder.read path) folder
  | write path content reply ih =>
    simp only [FileTask.bind, run]
    cases folder.write path content with
    | error e => exact ih (.error e) folder
    | ok after => exact ih (.ok ()) after

/-- The folder after a task, and its result or why it failed. -/
def effect (task : Cli.Task α) : Folder × Except ModelError α :=
  ((folder.run task).1, (folder.run task).2.result)

theorem effect_ofReport (r : Cli.Report α) : folder.effect (.ofReport r) = (folder, r.result) := rfl

/-- **A task that goes on if the first did not fail.** -/
theorem effect_andThen (first : Cli.Task α) (next : α → Cli.Task β) :
    folder.effect (first.andThen next) =
      match folder.effect first with
      | (after, .error e) => (after, .error e)
      | (after, .ok a) => after.effect (next a) := by
  rw [effect, show folder.run (first.andThen next) = _ from run_bind folder first _, effect]
  rcases (folder.run first).2.result with e | a
  · rfl
  · have hnext := run_bind (folder.run first).1 (next a)
      fun s => .done ((folder.run first).2.before s)
    dsimp only
    rw [hnext]
    rfl

/-- **Whether a file can be opened** does not depend on what is written. -/
theorem write_cases (path : String) :
    (∃ e, ∀ content, folder.write path content = .error e) ∨
      ∀ content, ∃ after, folder.write path content = .ok after := by
  unfold write
  split
  · exact .inl ⟨_, fun _ => rfl⟩
  · rcases folder.place path with e | place
    · exact .inl ⟨e, fun _ => rfl⟩
    · cases place with
      | folder => exact .inl ⟨_, fun _ => rfl⟩
      | outside names => exact .inl ⟨_, fun _ => rfl⟩
      | file name content => exact .inr fun _ => ⟨_, rfl⟩
      | void => exact .inr fun _ => ⟨_, rfl⟩
      | free name =>
        cases name with
        | none => exact .inr fun _ => ⟨_, rfl⟩
        | some name => exact .inr fun _ => ⟨_, rfl⟩

end Folder

namespace Cli

variable {settings : Settings} {directory : String} {folder : Folder}

/-! ## What commands come to -/

/-- The format of the file that a command reads, unless a mark stands in its place. -/
def Command.source : Command → Option Format
  | convert c => c.source
  | inspect i => i.format

/-- The model in a file of a folder, if its format is given. -/
def loaded [Memory] (settings : Settings) (directory : String) (folder : Folder) (path : String)
    (format : Option Format) (byteOrder : String) : Except ModelError Store :=
  match format with
  | none => .error .noFormat
  | some format =>
    match folder.read path with
    | .error e => .error (.file e)
    | .ok content =>
      let order := if format = .binary then some byteOrder else none
      let request := { Binary.Request.unspecified with byteOrder := order }
      (format.load settings request (absolutePath directory path) content .silent).2.map
        Format.Loaded.store

/-- The folder with a model written as a conversion asks for. The file is opened before the model is
looked at. -/
def saved (folder : Folder) (store : Store) (c : Conversion) : Except ModelError Folder :=
  match c.target, c.output with
  | none, _ => .error .noFormat
  | some _, none => .error .noOutput
  | some format, some path => do
    let _ ← (folder.write path []).mapError .file
    let content ← (format.encode store).mapError .write
    (folder.write path content).mapError .file

/-- **What a command comes to**: the folder that it leaves, or why it fails. -/
def Command.result [Memory] (settings : Settings) (directory : String) (folder : Folder) :
    Command → Except ModelError Folder
  | convert c =>
    (loaded settings directory folder c.input c.source c.byteOrder).bind fun store =>
      saved folder store c
  | inspect i =>
    (loaded settings directory folder i.input i.format i.byteOrder).bind fun _ =>
      match i.head with
      | none => .error .noCount
      | some _ => .ok folder

/-- **A model that cannot be written leaves only its head** in the file of a conversion. -/
inductive Command.Truncates [Memory] (settings : Settings) (directory : String)
    (folder : Folder) : Command → ModelError → Folder → Prop
  | intro {c : Conversion} {format : Format} {path : String} {store : Store} {cause : WriteError}
      {after : Folder}
      (hloaded : loaded settings directory folder c.input c.source c.byteOrder = .ok store)
      (htarget : c.target = some format) (houtput : c.output = some path)
      (hcause : format.encode store = .error cause)
      (hafter : folder.write path (format.head store) = .ok after) :
      Truncates settings directory folder (.convert c) (.write cause) after

/-- The result of a reading does not depend on whether it is reported. -/
theorem load_silent [Memory] (format : Format) (request : Binary.Request) (file : String)
    (content : Bytes) (p : Progress) : (format.load settings request file content p).2 =
      (format.load settings request file content .silent).2 := by
  cases format with
  | binary =>
    exact Binary.load_snd settings settings.progressInterval request file content p .silent
  | text => rfl
  | compact => rfl

theorem effect_loadInput [Memory] (path : String) (format : Option Format) (byteOrder : String) :
    folder.effect (loadInput settings directory path format byteOrder) =
      (folder, loaded settings directory folder path format byteOrder) := by
  cases format with
  | none => rfl
  | some format =>
    simp only [loadInput, loaded, load, Folder.effect, Folder.run]
    cases folder.read path with
    | error e => rfl
    | ok content =>
      dsimp only
      rw [← load_silent format _ _ _ (.ofSink .all)]
      split
      · next hload =>
        rw [hload]
        rfl
      · next hload =>
        rw [hload]
        rfl

section

variable {store : Store} {path : String} {format : Format} {content : Bytes} {after : Folder}

/-- A file that cannot be opened is not opened for the head of a model either. -/
theorem effect_save_of_write_eq_error {cause : FileError}
    (h : ∀ content, folder.write path content = .error cause) :
    folder.effect (save store path format) = (folder, .error (.file cause)) := by
  unfold save
  cases format.encode store with
  | ok content => simp only [Folder.effect, Folder.run, h]
  | error cause => simp only [Folder.effect, Folder.run, h]

theorem effect_save_of_encode_eq_ok (hcontent : format.encode store = .ok content)
    (h : folder.write path content = .ok after) :
    folder.effect (save store path format) = (after, .ok ()) := by
  simp only [save, hcontent, Folder.effect, Folder.run, h]

theorem effect_save_of_encode_eq_error {cause : WriteError}
    (hcause : format.encode store = .error cause)
    (h : folder.write path (format.head store) = .ok after) :
    folder.effect (save store path format) = (after, .error (.write cause)) := by
  simp only [save, hcause, Folder.effect, Folder.run, h]

end

theorem effect_of_saved_eq_ok {store : Store} {c : Conversion} {after : Folder}
    (h : saved folder store c = .ok after) :
    folder.effect (saveOutput store c) = (after, .ok ()) := by
  cases htarget : c.target with
  | none => simp only [saved, htarget, reduceCtorEq] at h
  | some format =>
    cases houtput : c.output with
    | none => simp only [saved, htarget, houtput, reduceCtorEq] at h
    | some path =>
      simp only [saved, htarget, houtput] at h
      obtain ⟨-, -, h⟩ := exists_of_bind_eq_ok h
      obtain ⟨content, hcontent, h⟩ := exists_of_bind_eq_ok h
      simp only [saveOutput, htarget, houtput]
      exact effect_save_of_encode_eq_ok (eq_ok_of_mapError_eq_ok hcontent)
        (eq_ok_of_mapError_eq_ok h)

/-- **A model that is not saved** leaves the folder as it was, or only its head. -/
theorem effect_of_saved_eq_error [Memory] {store : Store} {c : Conversion} {e : ModelError}
    (hloaded : loaded settings directory folder c.input c.source c.byteOrder = .ok store)
    (h : saved folder store c = .error e) :
    ∃ after, folder.effect (saveOutput store c) = (after, .error e) ∧
      (after = folder ∨ (Command.convert c).Truncates settings directory folder e after) := by
  cases htarget : c.target with
  | none =>
    simp only [saved, htarget, Except.error.injEq] at h
    subst h
    simp only [saveOutput, htarget]
    exact ⟨folder, rfl, .inl rfl⟩
  | some format =>
    cases houtput : c.output with
    | none =>
      simp only [saved, htarget, houtput, Except.error.injEq] at h
      subst h
      simp only [saveOutput, htarget, houtput]
      exact ⟨folder, rfl, .inl rfl⟩
    | some path =>
      simp only [saved, htarget, houtput] at h
      simp only [saveOutput, htarget, houtput]
      rcases folder.write_cases path with ⟨cause, hwrite⟩ | hwrite
      · rw [hwrite] at h
        obtain rfl := Except.error.inj h
        exact ⟨folder, effect_save_of_write_eq_error hwrite, .inl rfl⟩
      · obtain ⟨opened, hopened⟩ := hwrite []
        rw [hopened] at h
        rcases cases_of_bind_eq_error h with h | ⟨-, -, h⟩
        · cases h
        · rcases cases_of_bind_eq_error h with h | ⟨content, -, h⟩
          · obtain ⟨cause, hcause, rfl⟩ := exists_of_mapError_eq_error h
            obtain ⟨after, hafter⟩ := hwrite (format.head store)
            exact ⟨after, effect_save_of_encode_eq_error hcause hafter,
              .inr (.intro hloaded htarget houtput hcause hafter)⟩
          · obtain ⟨after, hafter⟩ := hwrite content
            rw [hafter] at h
            cases h

theorem effect_convert [Memory] (c : Conversion) :
    folder.effect (convert settings directory c) =
      match loaded settings directory folder c.input c.source c.byteOrder with
      | .error e => (folder, .error e)
      | .ok store => folder.effect (saveOutput store c) := by
  rw [convert, Folder.effect_andThen]
  rw [Folder.effect_ofReport, Report.print]
  dsimp only
  rw [Folder.effect_andThen, effect_loadInput]
  rcases loaded settings directory folder c.input c.source c.byteOrder with e | store
  · rfl
  · dsimp only
    rw [Folder.effect_andThen]
    rw [Folder.effect_ofReport, Report.print]
    dsimp only
    rw [Folder.effect_andThen]
    rcases folder.effect (saveOutput store c) with ⟨after, e | ⟨⟩⟩
    · rfl
    · rfl

theorem effect_inspect [Memory] (i : Inspection) :
    folder.effect (inspect settings directory i) =
      match loaded settings directory folder i.input i.format i.byteOrder, i.head with
      | .error e, _ => (folder, .error e)
      | .ok _, none => (folder, .error .noCount)
      | .ok _, some _ => (folder, .ok ()) := by
  rw [inspect, Folder.effect_andThen, effect_loadInput]
  rcases loaded settings directory folder i.input i.format i.byteOrder with e | store
  · rfl
  · dsimp only
    rw [Folder.effect_andThen]
    rw [Folder.effect_ofReport, Report.print]
    dsimp only
    cases i.head with
    | none => rfl
    | some count => rfl

/-- **A command that does not fail** leaves its result. -/
theorem effect_of_result_eq_ok [Memory] {command : Command} {after : Folder}
    (h : command.result settings directory folder = .ok after) :
    folder.effect (command.task settings directory) = (after, .ok ()) := by
  cases command with
  | convert c =>
    obtain ⟨store, hstore, h⟩ := exists_of_bind_eq_ok h
    rw [Command.task, effect_convert, hstore]
    exact effect_of_saved_eq_ok h
  | inspect i =>
    obtain ⟨store, hstore, h⟩ := exists_of_bind_eq_ok h
    rw [Command.task, effect_inspect, hstore]
    cases hhead : i.head with
    | none =>
      rw [hhead] at h
      cases h
    | some count =>
      rw [hhead] at h
      obtain rfl := Except.ok.inj h
      rfl

/-- **A command that fails** leaves the folder as it was, unless a model could not be written. -/
theorem effect_of_result_eq_error [Memory] {command : Command} {e : ModelError}
    (h : command.result settings directory folder = .error e) :
    ∃ after, folder.effect (command.task settings directory) = (after, .error e) ∧
      (after = folder ∨ command.Truncates settings directory folder e after) := by
  cases command with
  | convert c =>
    rw [Command.task, effect_convert]
    rcases cases_of_bind_eq_error h with h | ⟨store, hstore, h⟩
    · rw [h]
      exact ⟨folder, rfl, .inl rfl⟩
    · rw [hstore]
      exact effect_of_saved_eq_error hstore h
  | inspect i =>
    rw [Command.task, effect_inspect]
    refine ⟨folder, ?_, .inl rfl⟩
    rcases cases_of_bind_eq_error h with h | ⟨store, hstore, h⟩
    · rw [h]
    · rw [hstore]
      cases hhead : i.head with
      | none =>
        rw [hhead] at h
        obtain rfl := Except.error.inj h
        rfl
      | some count =>
        rw [hhead] at h
        cases h

/-! ## Failures that are not reported -/

/-- **The failures of a command that are not reported.** -/
inductive Command.Unreported (settings : Settings) : Command → ModelError → Prop
  /-- The model cannot be loaded, for one of the causes that its format leaves unreported. -/
  | load {command : Command} {format : Format} {e : ModelError}
      (hformat : command.source = some format) (h : format.Unreported settings e) :
      Unreported settings command e
  /-- The model cannot be written. -/
  | write {c : Conversion} {format : Format} {store : Store} {cause : WriteError}
      (htarget : c.target = some format) (h : format.encode store = .error cause) :
      Unreported settings (.convert c) (.write cause)
  /-- There is a null character in a path. -/
  | path (command : Command) : Unreported settings command (.file .nul)
  | noSource {command : Command} (h : command.source = none) : Unreported settings command .noFormat
  | noTarget {c : Conversion} (h : c.target = none) : Unreported settings (.convert c) .noFormat
  | noOutput {c : Conversion} (h : c.output = none) : Unreported settings (.convert c) .noOutput
  | noCount {i : Inspection} (h : i.head = none) : Unreported settings (.inspect i) .noCount

theorem Command.Unreported.isReported {command : Command} {e : ModelError}
    (h : command.Unreported settings e) : e.isReported = false := by
  cases h with
  | load _ h => exact h.isReported
  | _ => rfl

/-- A file that cannot be opened is reported, unless there is a null character in its path. -/
theorem isReported_or_of_file (command : Command) (cause : FileError) :
    (ModelError.file cause).isReported = true ∨ command.Unreported settings (.file cause) := by
  cases cause with
  | nul => exact .inr (.path command)
  | _ => exact .inl rfl

theorem cases_of_saved_eq_error {store : Store} {c : Conversion} {e : ModelError}
    (h : saved folder store c = .error e) :
    e.isReported = true ∨ (Command.convert c).Unreported settings e := by
  simp only [saved] at h
  split at h
  · next htarget =>
    obtain rfl := Except.error.inj h
    exact .inr (.noTarget htarget)
  · next houtput =>
    obtain rfl := Except.error.inj h
    exact .inr (.noOutput houtput)
  · next format path htarget houtput =>
    rcases cases_of_bind_eq_error h with h | ⟨-, -, h⟩
    · obtain ⟨cause, -, rfl⟩ := exists_of_mapError_eq_error h
      exact isReported_or_of_file _ cause
    · rcases cases_of_bind_eq_error h with h | ⟨content, -, h⟩
      · obtain ⟨cause, hcause, rfl⟩ := exists_of_mapError_eq_error h
        exact .inr (.write htarget hcause)
      · obtain ⟨cause, -, rfl⟩ := exists_of_mapError_eq_error h
        exact isReported_or_of_file _ cause

section

variable (husable : settings.Usable) {command : Command} {e : ModelError}
include husable

theorem cases_of_loaded_eq_error [Memory] (order : ByteOrder) {path : String}
    (h : loaded settings directory folder path command.source order.name = .error e) :
    e.isReported = true ∨ command.Unreported settings e := by
  simp only [loaded] at h
  split at h
  · next hsource =>
    obtain rfl := Except.error.inj h
    exact .inr (.noSource hsource)
  · next format hsource =>
    split at h
    · obtain rfl := Except.error.inj h
      exact isReported_or_of_file command _
    · rcases Format.cases_of_load_eq_error husable order (map_eq_error_iff.1 h) with h | h
      · exact .inl h
      · exact .inr (.load hsource h)

theorem cases_of_result_eq_error [Memory] {order : ByteOrder}
    (horder : order.name = command.byteOrder)
    (h : command.result settings directory folder = .error e) :
    e.isReported = true ∨ command.Unreported settings e := by
  cases command with
  | convert c =>
    rcases cases_of_bind_eq_error h with h | ⟨store, -, h⟩
    · rw [show c.byteOrder = order.name from horder.symm] at h
      exact cases_of_loaded_eq_error husable order h
    · exact cases_of_saved_eq_error h
  | inspect i =>
    rcases cases_of_bind_eq_error h with h | ⟨store, -, h⟩
    · rw [show i.byteOrder = order.name from horder.symm] at h
      exact cases_of_loaded_eq_error husable order h
    · split at h
      · next hhead =>
        obtain rfl := Except.error.inj h
        exact .inr (.noCount hhead)
      · cases h

/-- **A failure is reported unless it is one of those that are not.** -/
theorem isReported_iff [Memory] {order : ByteOrder} (horder : order.name = command.byteOrder)
    (h : command.result settings directory folder = .error e) :
    e.isReported = true ↔ ¬ command.Unreported settings e := by
  constructor
  · intro hreported hnot
    rw [hnot.isReported] at hreported
    cases hreported
  · intro hnot
    exact (cases_of_result_eq_error husable horder h).resolve_right hnot

end

/-! ## Runs -/

section

variable {arguments : List String} {command : Command}

theorem ending_outcomeOf (name : String) (r : Report Unit) :
    (outcomeOf name r).ending =
      match r.result with
      | .ok () => .status 0
      | .error e => if e.isReported then .status 1 else .failure e := by
  rcases hresult : r.result with e | ⟨⟩
  · cases he : e.isReported with
    | false => simp only [outcomeOf, hresult, he, Bool.false_eq_true, if_false]
    | true => simp only [outcomeOf, hresult, he, if_true]
  · simp only [outcomeOf, hresult]

/-- A run of the tool that carries out a command. -/
theorem run_runTool [Memory] (hissues : settings.issues = [])
    (hparse : parse settings arguments = .ok command) (directory : String) (folder : Folder) :
    (folder.run (runTool settings directory arguments)).1 =
        (folder.effect (command.task settings directory)).1 ∧
      (folder.run (runTool settings directory arguments)).2.ending =
        match (folder.effect (command.task settings directory)).2 with
        | .ok () => .status 0
        | .error e => if e.isReported then .status 1 else .failure e := by
  have hrun : runTool settings directory arguments =
      FileTask.bind (command.task settings directory) fun r =>
        .done (outcomeOf command.name r) := by
    simp only [runTool, hissues, hparse]
  have hbind : folder.run (runTool settings directory arguments) =
      ((folder.run (command.task settings directory)).1,
        outcomeOf command.name (folder.run (command.task settings directory)).2) := by
    rw [hrun]
    exact Folder.run_bind folder _ _
  rw [hbind]
  exact ⟨rfl, ending_outcomeOf _ _⟩

/-- A command that does not fail leaves its result. -/
theorem run_of_result_eq_ok [Memory] (hissues : settings.issues = [])
    (hparse : parse settings arguments = .ok command) {written : Folder}
    (h : command.result settings directory folder = .ok written) :
    (folder.run (runTool settings directory arguments)).2.ending = .status 0 ∧
      (folder.run (runTool settings directory arguments)).1 = written := by
  obtain ⟨hafter, hending⟩ := run_runTool hissues hparse directory folder
  rw [effect_of_result_eq_ok h] at hafter hending
  exact ⟨hending, hafter⟩

/-- A failure that is reported leaves the folder as it was. -/
theorem run_of_isReported [Memory] (hissues : settings.issues = [])
    (hparse : parse settings arguments = .ok command) {e : ModelError}
    (h : command.result settings directory folder = .error e) (he : e.isReported = true) :
    (folder.run (runTool settings directory arguments)).2.ending = .status 1 ∧
      (folder.run (runTool settings directory arguments)).1 = folder := by
  obtain ⟨hafter, hending⟩ := run_runTool hissues hparse directory folder
  obtain ⟨after, heffect, hleft⟩ := effect_of_result_eq_error h
  rw [heffect] at hafter hending
  refine ⟨hending.trans (if_pos he), hafter.trans ?_⟩
  rcases hleft with hleft | ⟨-, -, -, -, -⟩
  · exact hleft
  · cases he

theorem run_of_not_isReported [Memory] (hissues : settings.issues = [])
    (hparse : parse settings arguments = .ok command) {e : ModelError}
    (h : command.result settings directory folder = .error e) (he : e.isReported = false) :
    (folder.run (runTool settings directory arguments)).2.ending = .failure e ∧
      ((folder.run (runTool settings directory arguments)).1 = folder ∨
        command.Truncates settings directory folder e
          (folder.run (runTool settings directory arguments)).1) := by
  obtain ⟨hafter, hending⟩ := run_runTool hissues hparse directory folder
  obtain ⟨after, heffect, hleft⟩ := effect_of_result_eq_error h
  rw [heffect] at hafter hending
  refine ⟨hending.trans (if_neg ?_), ?_⟩
  · rw [he]
    exact Bool.false_ne_true
  · rw [hafter]
    exact hleft

/-- **When the tool reports a failure and keeps the folder.** Under settings without issues a
command ends with status zero and its result; with status one, in the folder as it was; or without
a status, exactly for the failures that are not reported. Then the folder is as it was as well,
unless a model could not be written, which leaves only its head in the file. -/
theorem runTool_reports_iff [Memory] (hissues : settings.issues = [])
    (hparse : parse settings arguments = .ok command) (directory : String) (folder : Folder) :
    let result := command.result settings directory folder
    let after := (folder.run (runTool settings directory arguments)).1
    let ending := (folder.run (runTool settings directory arguments)).2.ending
    (((ending = .status 0 ∨ ending = .status 1) ∧ (ending ≠ .status 0 → after = folder)) ↔
      ∀ e, result = .error e → ¬ command.Unreported settings e) ∧
    (∀ written, result = .ok written → ending = .status 0 ∧ after = written) ∧
    (∀ e, result = .error e → ¬ command.Unreported settings e →
      ending = .status 1 ∧ after = folder) ∧
    ∀ e, result = .error e → command.Unreported settings e →
      ending = .failure e ∧
        (after = folder ∨ command.Truncates settings directory folder e after) := by
  have husable := settings.issues_eq_nil_iff.1 hissues
  obtain ⟨order, horder⟩ := exists_order_of_parse husable hparse
  intro result after ending
  have hok : ∀ written, result = .ok written → ending = .status 0 ∧ after = written :=
    fun written hresult => run_of_result_eq_ok hissues hparse hresult
  have hreported : ∀ e, result = .error e → ¬ command.Unreported settings e →
      ending = .status 1 ∧ after = folder := by
    intro e hresult hnot
    exact run_of_isReported hissues hparse hresult ((isReported_iff husable horder hresult).2 hnot)
  have hunreported : ∀ e, result = .error e → command.Unreported settings e →
      ending = .failure e ∧
        (after = folder ∨ command.Truncates settings directory folder e after) := by
    intro e hresult hnot
    exact run_of_not_isReported hissues hparse hresult hnot.isReported
  refine ⟨⟨?_, ?_⟩, hok, hreported, hunreported⟩
  · rintro ⟨hstatus, -⟩ e hresult hnot
    rw [(hunreported e hresult hnot).1] at hstatus
    rcases hstatus with h | h
    · cases h
    · cases h
  · intro hall
    rcases hresult : result with e | written
    · obtain ⟨hone, hkept⟩ := hreported e hresult (hall e hresult)
      exact ⟨.inr hone, fun _ => hkept⟩
    · obtain ⟨hzero, -⟩ := hok written hresult
      exact ⟨.inl hzero, fun hne => absurd hzero hne⟩

end

/-- A text that declares a word and holds none: the tool reports it, and the file at the output is
kept. -/
theorem runTool_reports_iff_missing :
    letI : Memory := .ample
    let folder : Folder := ⟨[("in", [0x31, 0x20, 0x31, 0x0A]), ("out", [0x6B])], [], ["tmp"]⟩
    let arguments := ["convert", "in", "out", "--from", "text"]
    let command : Command := .convert ⟨"in", some "out", some .text, some .compact, "little"⟩
    Settings.default.issues = [] ∧ parse .default arguments = .ok command ∧
      (folder.run (runTool .default "/tmp" arguments)).2.ending = .status 1 ∧
      (folder.run (runTool .default "/tmp" arguments)).1 = folder := by
  intro folder arguments command
  have hissues : Settings.default.issues = [] := by decide +kernel
  have hparse : parse .default arguments = .ok command := by rfl
  have hplace : folder.place "in" = .ok (.file "in" [0x31, 0x20, 0x31, 0x0A]) := by cbv
  have hread : folder.read "in" = .ok [0x31, 0x20, 0x31, 0x0A] := by
    rw [Folder.read, hplace]
    decide +kernel
  obtain ⟨e, hdecode, he⟩ : ∃ e, @TextModel.decodeBytes .ample [0x31, 0x20, 0x31, 0x0A]
      (absolutePath "/tmp" "in") none = .error e ∧ e.isReported = true :=
    exists_of_mapError_eq_error ((map_eq_error_iff (f := fun _ => ())).1 (by decide +kernel))
  have hresult : @Command.result .ample .default "/tmp" folder command = .error e := by
    simp only [Command.result, command, loaded, hread, Format.load, Format.loadWhole]
    rw [show Binary.Request.unspecified.capacity = none from rfl, hdecode]
    rfl
  obtain ⟨-, -, hreported, -⟩ :=
    @runTool_reports_iff .default arguments command .ample hissues hparse "/tmp" folder
  refine ⟨hissues, hparse, hreported e hresult fun hnot => ?_⟩
  rw [hnot.isReported] at he
  cases he

/-- **A model that cannot be written takes the place of the file at the output**: a text whose
vectors have more components than the field of a compact model counts. The tool ends without a
status, and the file is empty. -/
theorem runTool_truncates :
    letI : Memory := .ample
    let content : Bytes := [0x30, 0x20, 0x34, 0x32, 0x39, 0x34, 0x39, 0x36, 0x37, 0x32, 0x39, 0x36,
      0x0A]
    let folder : Folder := ⟨[("in", content), ("out", [0x6B])], [], ["tmp"]⟩
    let arguments := ["convert", "in", "out", "--from", "text", "--to", "compact"]
    Settings.default.issues = [] ∧ folder.read "out" = .ok [0x6B] ∧
      (folder.run (runTool .default "/tmp" arguments)).2.ending = .failure (.write .fieldRange) ∧
      (folder.run (runTool .default "/tmp" arguments)).1.read "out" = .ok [] := by
  intro content folder arguments
  let command : Command := .convert ⟨"in", some "out", some .text, some .compact, "little"⟩
  let emptied : Folder := ⟨[("in", content), ("out", [])], [], ["tmp"]⟩
  have hissues : Settings.default.issues = [] := by decide +kernel
  have hparse : parse .default arguments = .ok command := by rfl
  have hin : folder.place "in" = .ok (.file "in" content) := by cbv
  have hout : folder.place "out" = .ok (.file "out" [0x6B]) := by cbv
  have hemptied : emptied.place "out" = .ok (.file "out" []) := by cbv
  have hread : folder.read "in" = .ok content := by
    rw [Folder.read, hin]
    decide +kernel
  have hwrite : folder.write "out" [] = .ok emptied := by
    have hname : folder.asksForDirectory "out" = false := by
      rw [Folder.asksForDirectory]
      decide +kernel
    rw [Folder.write, hname, hout]
    decide +kernel
  obtain ⟨store, hdecode, hlayer⟩ : ∃ store, @TextModel.decodeBytes .ample content
      (absolutePath "/tmp" "in") none = .ok store ∧ store.layerSize = 4294967296 :=
    exists_of_map_eq_ok (by decide +kernel)
  have hloaded :
      @loaded .ample .default "/tmp" folder "in" (some .text) "little" = .ok store := by
    simp only [loaded, hread, Format.load, Format.loadWhole]
    rw [show Binary.Request.unspecified.capacity = none from rfl, hdecode]
    rfl
  have hencode : Format.encode .compact store = .error .fieldRange := by
    rw [Format.encode, Compact.encode, hlayer]
    rfl
  have hhead : Format.head .compact store = [] := by
    rw [Format.head, Compact.head, hlayer]
    rfl
  have heffect : folder.effect (@Command.task .ample .default "/tmp" command) =
      (emptied, .error (.write .fieldRange)) := by
    rw [show @Command.task .ample .default "/tmp" command = @convert .ample .default "/tmp" _
      from rfl, @effect_convert .default "/tmp" folder .ample, hloaded]
    exact effect_save_of_encode_eq_error hencode (hhead ▸ hwrite)
  obtain ⟨hafter, hending⟩ :=
    @run_runTool .default arguments command .ample hissues hparse "/tmp" folder
  rw [heffect] at hafter hending
  refine ⟨hissues, ?_, hending, ?_⟩
  · rw [Folder.read, hout]
    decide +kernel
  · rw [hafter, Folder.read, hemptied]
    decide +kernel

end Cli

end WordVectors
