import Flipbook.CommandLine.Program
import Flipbook.Config.Types
import Flipbook.Proofs.Conversion.Unreported
import Flipbook.Sheet.Svg
import Flipbook.Yaml.Document

namespace Flipbook

open Text

variable {σ : Type}

namespace Configuration

theorem ofDocument_error {path : Text} {document : Yaml.Document} {e : LoadError}
    (failed : ofDocument path document = .error e) : e = .notMapping path := by
  unfold ofDocument at failed
  split at failed
  · cases failed
  · split at failed <;> cases failed
    rfl

theorem silent_notDocument {path : Text} {fault : Yaml.Fault} :
    (LoadError.notDocument path fault).message? = none ↔ fault = .stray := by
  cases fault with
  | refused message => exact iff_of_false nofun nofun
  | stray => exact iff_of_true rfl rfl

section file

variable [Yaml.Library]

def inFile (tree : FileTree) (path : Text) : Except LoadError Configuration :=
  match tree.read (.verbatim path) with
  | .ok content => ofBytes path content
  | .error problem => .error (if problem = .notAName then .notAName else .file path ⟨problem, .verbatim path⟩)

def loadIn (tree : FileTree) : Option Text → Except LoadError Configuration
  | none | some [] => .ok {}
  | some path => inFile tree path

theorem finish_load (path : Option Text) (world : World σ) :
    finish (load path) world = (loadIn world.tree path, world) := by
  cases path with
  | none => rfl
  | some path =>
    cases path with
    | nil => rfl
    | cons c rest =>
      unfold load loadIn inFile
      simp only
      rw [finish_bind, finish_adapt, finish_read]
      cases world.tree.read (.verbatim (c :: rest)) <;> rfl

/-- Why the bytes of a configuration file give no configuration, where nothing is said of it. -/
inductive Unusable (path : Text) (content : Bytes) : LoadError → Prop
  | text (noText : decode? content = none) (late : Yaml.Library.early? content = none) : Unusable path content .notText
  | early (noText : decode? content = none) (stray : Yaml.Library.early? content = some .stray) :
      Unusable path content (.notDocument path .stray)
  | document {t : Text} (text : decode? content = some t)
      (stray : Yaml.Library.document (normalizeLines t) = .error .stray) :
      Unusable path content (.notDocument path .stray)

theorem unusable_of_ofBytes {path : Text} {content : Bytes} {e : LoadError} (failed : ofBytes path content = .error e)
    (silent : e.message? = none) : Unusable path content e := by
  unfold ofBytes at failed
  split at failed
  · rename_i t text
    rcases bind_eq_error.mp failed with faulty | ⟨document, -, failed⟩
    · obtain ⟨fault, stray, rfl⟩ := mapError_eq_error.mp faulty
      obtain rfl := silent_notDocument.mp silent
      exact .document text stray
    · rw [ofDocument_error failed] at silent
      cases silent
  · rename_i noText
    split at failed
    · rename_i fault early
      cases failed
      obtain rfl := silent_notDocument.mp silent
      exact .early noText early
    · rename_i late
      cases failed
      exact .text noText late

theorem Unusable.ofBytes {path : Text} {content : Bytes} {e : LoadError} (unusable : Unusable path content e) :
    ofBytes path content = .error e ∧ e.message? = none := by
  unfold Configuration.ofBytes
  cases unusable with
  | text noText late =>
    rw [noText, late]
    exact ⟨rfl, rfl⟩
  | early noText stray =>
    rw [noText, stray]
    exact ⟨rfl, rfl⟩
  | document text stray =>
    rw [text]
    simp only [stray]
    exact ⟨rfl, rfl⟩

/-- Why a configuration file gives no configuration, where nothing is said of it. -/
inductive Unread (tree : FileTree) (path : Text) : LoadError → Prop
  | name (null : '\x00' ∈ path) : Unread tree path .notAName
  | content {content : Bytes} {e : LoadError} (read : tree.read (.verbatim path) = .ok content)
      (unusable : Unusable path content e) : Unread tree path e

theorem inFile_silent {tree : FileTree} {path : Text} {e : LoadError} :
    inFile tree path = .error e ∧ e.message? = none ↔ Unread tree path e := by
  unfold inFile
  constructor
  · rintro ⟨failed, silent⟩
    cases read : tree.read (.verbatim path) with
    | ok content =>
      rw [read] at failed
      exact .content read (unusable_of_ofBytes failed silent)
    | error problem =>
      rw [read] at failed
      cases failed
      split at silent
      · rename_i noName
        rw [if_pos noName]
        subst noName
        exact .name (Path.hasNull_verbatim.mp (FileTree.read_eq_notAName.mp read))
      · cases silent
  · intro unread
    cases unread with
    | name null =>
      rw [FileTree.read_eq_notAName.mpr (Path.hasNull_verbatim.mpr null)]
      exact ⟨rfl, rfl⟩
    | content read unusable =>
      rw [read]
      exact unusable.ofBytes

end file

/-- Why a configuration is refused, where nothing is said of it. -/
structure Unshown (config : Configuration) (path : String) : Prop where
  refused : Settings.ofConfiguration config = .error (.unwritable path)
  found : ∃ full sectionName name, config.complete = .ok full ∧ path = sectionName ++ "." ++ name ∧
    full.shown? (full.setting sectionName name) = none

end Configuration

namespace CommandLine

open Conversion

section run

variable [Yaml.Library] [Reflection] [Sheet.Writer]

theorem finish_run (arguments : Arguments) (world : World σ) :
    finish (run arguments) world =
      match Configuration.loadIn world.tree arguments.config with
      | .error e => (.error (.load e), world)
      | .ok config => match Settings.ofConfiguration (arguments.override config) with
        | .error e => (.error (.config e), world)
        | .ok settings =>
          match finish (convert settings (fun _ => pure ()) arguments.input arguments.outputDirectory) world with
          | (.error failure, after) => (.error (.conversion failure), after)
          | (.ok report, after) =>
            (if report.integers.all isWritable then .ok report else .error .report, after) := by
  unfold run Options.configuration
  rw [finish_bind, finish_adapt, finish_bind, Configuration.finish_load]
  cases Configuration.loadIn world.tree arguments.config with
  | error e => rfl
  | ok config =>
    simp only [finish_pure, Except.mapError]
    rw [finish_bind, finish_mk]
    cases Settings.ofConfiguration (arguments.override config) with
    | error e => rfl
    | ok settings =>
      simp only
      rw [finish_bind, finish_adapt]
      obtain ⟨outcome, after⟩ :=
        finish (convert settings (fun _ => pure ()) arguments.input arguments.outputDirectory) world
      cases outcome with
      | error failure => rfl
      | ok report =>
        simp only [Except.mapError]
        split <;> rfl

/-- The conversion that is asked for in a world. -/
def Asks (arguments : Arguments) (before : World σ) (settings : Settings) : Prop :=
  ∃ config, Configuration.loadIn before.tree arguments.config = .ok config ∧
    Settings.ofConfiguration (arguments.override config) = .ok settings

/-- Why a run fails, where nothing is said of it. -/
inductive Unreported (arguments : Arguments) (before : World σ) : ProgramError → Prop
  | load {path : Text} {e : LoadError} (asked : arguments.config = some path) (nonempty : path ≠ [])
      (unread : Configuration.Unread before.tree path e) : Unreported arguments before (.load e)
  | config {config : Configuration} {path : String}
      (loaded : Configuration.loadIn before.tree arguments.config = .ok config)
      (unshown : (arguments.override config).Unshown path) : Unreported arguments before (.config (.unwritable path))
  | conversion {settings : Settings} {failure : Failure} (asked : Asks arguments before settings)
      (failed : Conversion.Unreported settings (.ofText arguments.input)
        (outputDirectory (.ofText arguments.input) arguments.outputDirectory) before failure) :
      Unreported arguments before (.conversion failure)
  | report {settings : Settings} {report : Report} {after : World σ} {n : Int} (asked : Asks arguments before settings)
      (converted : finish (convert settings (fun _ => pure ()) arguments.input arguments.outputDirectory) before =
        (.ok report, after))
      (member : n ∈ report.integers) (long : isWritable n = false) : Unreported arguments before .report

variable {arguments : Arguments} {before after : World σ} {e : ProgramError}

theorem Unreported.ends (unreported : Unreported arguments before e) :
    ∃ after, finish (run arguments) before = (.error e, after) := by
  rw [finish_run]
  cases unreported with
  | @load path e asked nonempty unread =>
    have unloaded : Configuration.loadIn before.tree arguments.config = .error e := by
      rw [asked]
      cases path with
      | nil => exact absurd rfl nonempty
      | cons => exact (Configuration.inFile_silent.mpr unread).1
    rw [unloaded]
    exact ⟨before, rfl⟩
  | config loaded unshown =>
    rw [loaded]
    simp only [unshown.refused]
    exact ⟨before, rfl⟩
  | conversion asked failed =>
    obtain ⟨config, loaded, accepted⟩ := asked
    obtain ⟨after, ended⟩ := failed.ends
    rw [loaded]
    simp only [accepted, ended]
    exact ⟨after, rfl⟩
  | @report settings report after n asked converted member long =>
    obtain ⟨config, loaded, accepted⟩ := asked
    have unwritten : ¬report.integers.all isWritable = true := fun all => by
      rw [List.all_eq_true.mp all n member] at long
      cases long
    rw [loaded]
    simp only [accepted, converted, if_neg unwritten]
    exact ⟨after, rfl⟩

theorem Unreported.silent (unreported : Unreported arguments before e) : e.message? = none := by
  cases unreported with
  | load _ _ unread => exact (Configuration.inFile_silent.mpr unread).2
  | config | report => rfl
  | conversion _ failed => exact failed.silent

theorem Unreported.ne {failure : Failure} (unreported : Unreported arguments before (.conversion failure)) :
    failure ≠ .frames (.timeline .noFrames) ∧ failure ≠ .frames .noWorkers ∧ failure ≠ .sheet .noFrames := by
  cases unreported with
  | conversion asked failed =>
    obtain ⟨config, -, accepted⟩ := asked
    exact failed.ne (Settings.checked_of_accepted accepted)

end run

end CommandLine

end Flipbook
