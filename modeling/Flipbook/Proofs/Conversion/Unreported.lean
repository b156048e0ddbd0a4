import Flipbook.Proofs.Conversion.Stages
import Flipbook.Proofs.Files.NullNames
import Flipbook.Proofs.Frame.FrameCount
import Flipbook.Proofs.Frame.Instants

namespace Flipbook

namespace Sheet

theorem heightFor_ne_noFrames (width : Int) (frame : Text) : heightFor width frame ≠ .error .noFrames := by
  intro failed
  rcases bind_eq_error.mp failed with shapeless | ⟨ratio, -, failed⟩
  · obtain ⟨cause, -, impossible⟩ := mapError_eq_error.mp shapeless
    cases impossible
  · rcases bind_eq_error.mp failed with tooWide | ⟨wide, -, tooHigh⟩
    · obtain ⟨cause, -, impossible⟩ := mapError_eq_error.mp tooWide
      cases impossible
    · obtain ⟨cause, -, impossible⟩ := mapError_eq_error.mp tooHigh
      cases impossible

theorem build_ne_noFrames [Writer] {options : Options} {frames : List Text} (some_frame : frames ≠ []) :
    build options frames ≠ .error .noFrames := by
  intro failed
  rcases bind_eq_error.mp failed with shapeless | ⟨grid, -, failed⟩
  · cases frames with
    | nil => exact absurd rfl some_frame
    | cons first rest =>
      unfold layout at shapeless
      dsimp only at shapeless
      split at shapeless
      · cases shapeless
      · rcases bind_eq_error.mp shapeless with unknown | ⟨height, -, impossible⟩
        · exact heightFor_ne_noFrames _ _ unknown
        · cases impossible
  · dsimp only at failed
    split at failed
    · cases failed
    · split at failed <;> cases failed

end Sheet

namespace Conversion

open Text

variable {σ : Type} {before after world : World σ} {settings : Settings} {path directory : Path} {frames : List Frame}

theorem finish_convertInput [Reflection] [Sheet.Writer] (settings : Settings) (path directory : Path) (world : World σ) :
    finish (convertInput settings (fun _ => pure ()) path directory) world =
      match documentIn world.tree path with
      | .error e => (.error e, world)
      | .ok document => match Frame.compile settings.frames document with
        | .error e => (.error (.frames e), world)
        | .ok frames => finish (saveFrames settings (fun _ => pure ()) path directory frames) world := by
  unfold convertInput
  rw [finish_silent, finish_bind, finish_readDocument]
  cases documentIn world.tree path with
  | error e => rfl
  | ok document =>
    simp only
    rw [finish_silent, finish_bind, finish_mk]
    cases Frame.compile settings.frames document <;> rfl

theorem finish_saveFrames_error [Reflection] [Sheet.Writer] {e : Failure} :
    finish (saveFrames settings (fun _ => pure ()) path directory frames) before = (.error e, after) ↔
      (∃ problem, finish (FileSystem.makeDirectories directory) before = (.error problem, after) ∧ .file problem = e) ∨
        ∃ made start, finish (FileSystem.makeDirectories directory) before = (.ok made, start) ∧
          (finish (writeFrames settings.pattern path.stem directory frames) start = (.error e, after) ∨
            ∃ files between,
              finish (writeFrames settings.pattern path.stem directory frames) start = (.ok files, between) ∧
                finish (saveSheet settings (fun _ => pure ()) path directory frames) between = (.error e, after)) := by
  unfold saveFrames onFiles
  simp only [finish_silent, finish_bind_error, finish_adapt_error, finish_adapt_ok, finish_pure, Prod.mk.injEq,
    reduceCtorEq, false_and, and_false, exists_false, or_false]

theorem finish_saveSheet_error [Sheet.Writer] {e : Failure} :
    finish (saveSheet settings (fun _ => pure ()) path directory frames) before = (.error e, after) ↔
      settings.hasSheet ∧
        finish (writeSheet settings (sheetPath path directory) frames) before = (.error e, after) := by
  unfold saveSheet
  cases settings.hasSheet with
  | false => simp
  | true =>
    rw [if_pos rfl, finish_silent]
    simp only [finish_bind_error, finish_pure, Prod.mk.injEq, reduceCtorEq, false_and, and_false, exists_false,
      or_false, true_and]

section writeFrames

variable [Reflection] {pattern : Setting} {name : Text} {e : Failure}

/-- Why a frame cannot be written to a tree: it has no name, or no place to go. -/
inductive Unwritten (pattern : Setting) (name : Text) (directory : Path) (tree : FileTree) (frame : Frame) :
    Failure → Prop
  | name {e : Failure} (unnamed : frameFile pattern name directory frame = .error e) :
      Unwritten pattern name directory tree frame e
  | place {file : FrameFile} {problem : FileProblem} (named : frameFile pattern name directory frame = .ok file)
      (refused : tree.write file.path (encode frame.data) = .error problem) :
      Unwritten pattern name directory tree frame (.file ⟨problem, file.path⟩)

theorem writeFrames_append (frames others : List Frame) :
    (writeFrames pattern name directory (frames ++ others) : ExceptT Failure (Session σ) (List FrameFile)) = (do
      return (← writeFrames pattern name directory frames) ++ (← writeFrames pattern name directory others)) :=
  List.mapM_append

theorem Unwritten.ends {done rest : List Frame} {frame : Frame} {files : List FrameFile}
    (earlier : finish (writeFrames pattern name directory done) before = (.ok files, after))
    (unwritten : Unwritten pattern name directory after.tree frame e) :
    finish (writeFrames pattern name directory (done ++ frame :: rest)) before = (.error e, after) := by
  rw [writeFrames_append, finish_bind, earlier]
  simp only
  rw [finish_bind, finish_writeFrames_cons]
  cases unwritten with
  | name unnamed => rw [unnamed]
  | place named refused => simp only [named, refused]

theorem writeFrames_error (failed : finish (writeFrames pattern name directory frames) before = (.error e, after)) :
    ∃ done frame rest files, frames = done ++ frame :: rest ∧
      finish (writeFrames pattern name directory done) before = (.ok files, after) ∧
        Unwritten pattern name directory after.tree frame e := by
  induction frames generalizing before with
  | nil => cases failed
  | cons frame frames ih =>
    rw [finish_writeFrames_cons] at failed
    split at failed
    · rename_i unnamed
      cases failed
      exact ⟨[], frame, frames, [], rfl, rfl, .name unnamed⟩
    · rename_i file named
      split at failed
      · rename_i problem refused
        cases failed
        exact ⟨[], frame, frames, [], rfl, rfl, .place named refused⟩
      · rename_i tree written
        split at failed
        · cases failed
        · rename_i later
          cases failed
          obtain ⟨done, stopped, rest, files, rfl, earlier, unwritten⟩ := ih later
          refine ⟨frame :: done, stopped, rest, file :: files, rfl, ?_, unwritten⟩
          rw [finish_writeFrames_cons, named]
          simp only [written, earlier]

end writeFrames

section Unreported

variable [Reflection] [Sheet.Writer] (settings : Settings) (path directory : Path) (before : World σ)

/-- The file at the path is compiled to these frames. -/
def Compiles (frames : List Frame) : Prop :=
  before.tree.kind path = .ok .file ∧ ∃ document, documentIn before.tree path = .ok document ∧
    Frame.compile settings.frames document = .ok frames

/-- Frames are written to these files in a directory that was made for them. -/
def Writes (frames : List Frame) (files : List FrameFile) (between : World σ) : Prop :=
  ∃ made start, finish (FileSystem.makeDirectories directory) before = (.ok made, start) ∧
    finish (writeFrames settings.pattern path.stem directory frames) start = (.ok files, between)

inductive Unreported : Failure → Prop
  | text (found : before.tree.kind path = .ok .file) (noText : documentIn before.tree path = .error .notText) :
      Unreported .notText
  | frames {document : Text} {e : Frame.CompileError} (found : before.tree.kind path = .ok .file)
      (read : documentIn before.tree path = .ok document) (failed : Frame.compile settings.frames document = .error e) :
      Unreported (.frames e)
  | directory {frames : List Frame} (compiled : Compiles settings path before frames) (null : directory.HasNull) :
      Unreported (.file ⟨.notAName, directory⟩)
  | pattern {done rest : List Frame} {frame : Frame} {files : List FrameFile} {between : World σ} {pattern : Text}
      {e : PatternError} (compiled : Compiles settings path before (done ++ frame :: rest))
      (written : Writes settings path directory before done files between)
      (failed : frameFilename settings.pattern path.stem frame.index = .error (.filename pattern e))
      (silent : e.isReported = false) : Unreported (.filename pattern e)
  | name {done rest : List Frame} {frame : Frame} {files : List FrameFile} {between : World σ} {file : FrameFile}
      (compiled : Compiles settings path before (done ++ frame :: rest))
      (written : Writes settings path directory before done files between)
      (named : frameFile settings.pattern path.stem directory frame = .ok file) (null : file.path.HasNull) :
      Unreported (.file ⟨.notAName, file.path⟩)
  | sheet {frames : List Frame} {files : List FrameFile} {between : World σ} {e : Sheet.SheetError}
      (compiled : Compiles settings path before frames)
      (written : Writes settings path directory before frames files between) (wanted : settings.hasSheet)
      (failed : Sheet.build (sheetOptions settings) (frames.map Frame.data) = .error e) : Unreported (.sheet e)

end Unreported

theorem message?_file {problem : FileError} : (Failure.file problem).message? = none ↔ problem.problem = .notAName := by
  unfold Failure.message?
  simp

theorem message?_filename {pattern : Text} {e : PatternError} :
    (Failure.filename pattern e).message? = none ↔ e.isReported = false := by
  unfold Failure.message?
  simp

theorem documentIn_silent {tree : FileTree} {kind : FileKind} {e : Failure} (found : tree.kind path = .ok kind)
    (unread : documentIn tree path = .error e) (silent : e.message? = none) : e = .notText := by
  unfold documentIn at unread
  split at unread
  · rename_i problem refused
    cases unread
    obtain rfl := message?_file.mp silent
    rw [FileTree.kind_eq_notAName.mpr (FileTree.read_eq_notAName.mp refused)] at found
    cases found
  · split at unread
    · cases unread
    · cases unread
      rfl

theorem frameFilename_error [Reflection] {pattern : Setting} {name : Text} {index : Nat} {e : Failure}
    (failed : frameFilename pattern name index = .error e) : ∃ text error, e = .filename text error := by
  unfold frameFilename at failed
  split at failed
  · rename_i text
    cases named : filename text ⟨name, index⟩ with
    | ok filename =>
      rw [named] at failed
      cases failed
    | error error =>
      rw [named] at failed
      cases failed
      exact ⟨text, error, rfl⟩
  · cases failed
    exact ⟨[], .notText, rfl⟩

theorem hasNull_sheetPath {input : Text} {tree : FileTree} {kind : FileKind}
    (found : tree.kind (.ofText input) = .ok kind) (null : (sheetPath (.ofText input) directory).HasNull) :
    directory.HasNull := by
  have noStem : '\x00' ∉ (Path.ofText input).stem := by
    intro inside
    rw [FileTree.kind_eq_notAName.mpr (Path.HasNull.of_stem inside)] at found
    cases found
  have noName : '\x00' ∉ (Path.ofText input).stem ++ "_sprite.svg".toList := by
    rw [List.mem_append, not_or]
    exact ⟨noStem, by decide⟩
  unfold sheetPath at null
  rw [Path.ofText_of_isName (isName_sheet (Path.slash_not_mem_stem input)), Path.hasNull_iff] at null
  rw [Path.hasNull_iff]
  rcases null with root | ⟨part, member, inside⟩
  · exact .inl root
  · rcases List.mem_append.mp member with above | last
    · exact .inr ⟨part, above, inside⟩
    · rw [List.mem_singleton.mp last] at inside
      exact absurd inside noName

section silent

variable [Reflection] [Sheet.Writer] {e : Failure} {input : Text}

theorem unreported_of_writeFrames {start : World σ} {made : Unit} (compiled : Compiles settings path before frames)
    (directories : finish (FileSystem.makeDirectories directory) before = (.ok made, start))
    (failed : finish (writeFrames settings.pattern path.stem directory frames) start = (.error e, after))
    (silent : e.message? = none) : Unreported settings path directory before e := by
  obtain ⟨done, frame, rest, files, rfl, earlier, unwritten⟩ := writeFrames_error failed
  have written : Writes settings path directory before done files after := ⟨made, start, directories, earlier⟩
  cases unwritten with
  | name unnamed =>
    have noName : frameFilename settings.pattern path.stem frame.index = .error e := map_eq_error.mp unnamed
    obtain ⟨pattern, error, rfl⟩ := frameFilename_error noName
    exact .pattern compiled written noName (message?_filename.mp silent)
  | @place file problem named refused =>
    obtain rfl : problem = .notAName := message?_file.mp silent
    exact .name compiled written named (FileTree.write_eq_notAName.mp refused)

theorem unreported_of_saveFrames (compiled : Compiles settings (.ofText input) before frames)
    (failed : finish (saveFrames settings (fun _ => pure ()) (.ofText input) directory frames) before =
      (.error e, after))
    (silent : e.message? = none) : Unreported settings (.ofText input) directory before e := by
  rcases finish_saveFrames_error.mp failed with
    ⟨problem, refused, rfl⟩ | ⟨made, start, directories, unwritten | ⟨files, between, written, unsaved⟩⟩
  · have null := (FileSystem.finish_makeDirectories_notAName refused).mp (message?_file.mp silent)
    rw [FileSystem.finish_makeDirectories_of_hasNull null] at refused
    cases refused
    exact .directory compiled null
  · exact unreported_of_writeFrames compiled directories unwritten silent
  · obtain ⟨wanted, unsaved⟩ := finish_saveSheet_error.mp unsaved
    rw [finish_writeSheet] at unsaved
    split at unsaved
    · rw [finish_writeDocument] at unsaved
      split at unsaved
      · cases unsaved
      · rename_i problem refused
        cases unsaved
        obtain rfl : problem = .notAName := message?_file.mp silent
        have null := hasNull_sheetPath compiled.1 (FileTree.write_eq_notAName.mp refused)
        rw [FileSystem.finish_makeDirectories_of_hasNull null] at directories
        cases directories
    · rename_i unbuilt
      cases unsaved
      exact .sheet compiled ⟨made, start, directories, written⟩ wanted unbuilt

theorem unreported_of_convert {given : Option Text}
    (failed : finish (convert settings (fun _ => pure ()) input given) before = (.error e, after))
    (silent : e.message? = none) :
    Unreported settings (.ofText input) (outputDirectory (.ofText input) given) before e := by
  rw [finish_convert] at failed
  split at failed
  · rename_i found
    rw [finish_convertInput] at failed
    split at failed
    · rename_i unread
      cases failed
      obtain rfl := documentIn_silent found unread silent
      exact .text found unread
    · rename_i document read
      split at failed
      · rename_i uncompiled
        cases failed
        exact .frames found read uncompiled
      · rename_i frames compiled
        exact unreported_of_saveFrames ⟨found, document, read, compiled⟩ failed silent
  · cases failed
    cases silent
  · rename_i problem missing
    split at failed
    · cases failed
      cases silent
    · rename_i present
      cases failed
      obtain rfl : problem = .notAName := message?_file.mp silent
      exact absurd rfl present

theorem finish_convert_found {given : Option Text} (found : before.tree.kind (.ofText input) = .ok .file) :
    finish (convert settings (fun _ => pure ()) input given) before =
      match documentIn before.tree (.ofText input) with
      | .error e => (.error e, before)
      | .ok document => match Frame.compile settings.frames document with
        | .error e => (.error (.frames e), before)
        | .ok frames => finish (saveFrames settings (fun _ => pure ()) (.ofText input)
            (outputDirectory (.ofText input) given) frames) before := by
  rw [finish_convert, found]
  exact finish_convertInput ..

theorem Compiles.finish_convert {given : Option Text} (compiled : Compiles settings (.ofText input) before frames) :
    finish (convert settings (fun _ => pure ()) input given) before =
      finish (saveFrames settings (fun _ => pure ()) (.ofText input) (outputDirectory (.ofText input) given) frames)
        before := by
  obtain ⟨found, document, read, framed⟩ := compiled
  rw [finish_convert_found found, read]
  simp only [framed]

theorem Unreported.ends {given : Option Text}
    (unreported : Unreported settings (.ofText input) (outputDirectory (.ofText input) given) before e) :
    ∃ after, finish (convert settings (fun _ => pure ()) input given) before = (.error e, after) := by
  cases unreported with
  | text found noText =>
    rw [finish_convert_found found, noText]
    exact ⟨before, rfl⟩
  | frames found read failed =>
    rw [finish_convert_found found, read]
    simp only [failed]
    exact ⟨before, rfl⟩
  | directory compiled null =>
    rw [compiled.finish_convert]
    refine ⟨before, finish_saveFrames_error.mpr (.inl ⟨_, ?_, rfl⟩)⟩
    exact FileSystem.finish_makeDirectories_of_hasNull null
  | @pattern done rest frame files between pattern e compiled written failed silent =>
    obtain ⟨made, start, directories, earlier⟩ := written
    rw [compiled.finish_convert]
    have unwritten : Unwritten settings.pattern (Path.ofText input).stem
        (outputDirectory (.ofText input) given) between.tree frame (.filename pattern e) :=
      .name (map_eq_error.mpr failed)
    exact ⟨between, finish_saveFrames_error.mpr (.inr ⟨made, start, directories, .inl (unwritten.ends earlier)⟩)⟩
  | @name done rest frame files between file compiled written named null =>
    obtain ⟨made, start, directories, earlier⟩ := written
    rw [compiled.finish_convert]
    have refused : between.tree.write file.path (encode frame.data) = .error .notAName :=
      FileTree.write_eq_notAName.mpr null
    have unwritten := Unwritten.place named refused
    exact ⟨between, finish_saveFrames_error.mpr (.inr ⟨made, start, directories, .inl (unwritten.ends earlier)⟩)⟩
  | @sheet frames files between e compiled written wanted failed =>
    obtain ⟨made, start, directories, earlier⟩ := written
    rw [compiled.finish_convert]
    refine ⟨between, finish_saveFrames_error.mpr (.inr ⟨made, start, directories, .inr ?_⟩)⟩
    refine ⟨files, between, earlier, finish_saveSheet_error.mpr ⟨wanted, ?_⟩⟩
    rw [finish_writeSheet, failed]

theorem Unreported.silent (unreported : Unreported settings path directory before e) : e.message? = none := by
  cases unreported with
  | text | frames | sheet => rfl
  | directory | name => exact message?_file.mpr rfl
  | pattern _ _ _ silent => exact message?_filename.mpr silent

/-- A conversion ends without a word just with these failures. -/
theorem unreported_iff {given : Option Text} :
    (∃ after, finish (convert settings (fun _ => pure ()) input given) before = (.error e, after)) ∧ e.message? = none ↔
      Unreported settings (.ofText input) (outputDirectory (.ofText input) given) before e := by
  constructor
  · rintro ⟨⟨after, failed⟩, silent⟩
    exact unreported_of_convert failed silent
  · intro unreported
    exact ⟨unreported.ends, unreported.silent⟩

theorem Unreported.ne (checked : settings.Checked) (unreported : Unreported settings path directory before e) :
    e ≠ .frames (.timeline .noFrames) ∧ e ≠ .frames .noWorkers ∧ e ≠ .sheet .noFrames := by
  cases unreported with
  | text | directory | pattern | name => exact ⟨nofun, nofun, nofun⟩
  | frames _ _ failed =>
    obtain ⟨instant, worker⟩ := checked.compile_error failed
    refine ⟨?_, ?_, nofun⟩
    · rintro ⟨rfl⟩
      exact instant rfl
    · rintro ⟨rfl⟩
      exact worker rfl
  | sheet compiled _ _ failed =>
    refine ⟨nofun, nofun, ?_⟩
    rintro ⟨rfl⟩
    obtain ⟨-, document, -, framed⟩ := compiled
    exact Sheet.build_ne_noFrames (mt List.map_eq_nil_iff.mp (Frame.compile_ne_nil framed)) failed

end silent

end Conversion

end Flipbook
