import Flipbook.Conversion.Convert
import Flipbook.Proofs.Files.Kept
import Flipbook.Proofs.Files.Names

namespace Flipbook.Conversion

open Text

variable {σ : Type} {before after world : World σ}

theorem finish_writeDocument (path : Path) (document : Text) (world : World σ) :
    finish (writeDocument path document) world = match world.tree.write path (encode document) with
      | .ok tree => (.ok (), ⟨world.state, tree⟩)
      | .error problem => (.error (.file ⟨problem, path⟩), world) := by
  unfold writeDocument onFiles
  rw [finish_adapt, finish_write]
  unfold changed
  cases world.tree.write path (encode document) <;> rfl

def documentIn (tree : FileTree) (path : Path) : Except Failure Text :=
  match tree.read path with
  | .error problem => .error (.file ⟨problem, path⟩)
  | .ok content =>
    match decode? content with
    | some document => .ok (normalizeLines document)
    | none => .error .notText

theorem finish_readDocument (path : Path) (world : World σ) :
    finish (readDocument path) world = (documentIn world.tree path, world) := by
  unfold readDocument onFiles documentIn
  rw [finish_bind, finish_adapt, finish_read]
  cases world.tree.read path with
  | error problem => rfl
  | ok content =>
    simp only [Except.mapError]
    cases decode? content <;> rfl

def frameFile [Reflection] (pattern : Setting) (name : Text) (directory : Path) (frame : Frame) : Except Failure FrameFile :=
  (frameFilename pattern name frame.index).map fun filename =>
    ⟨frame.index, directory.join (.ofText filename), frame.timestamp, frame.size⟩

def frameWrites (files : List FrameFile) (frames : List Frame) : List (Path × Bytes) :=
  (files.zip frames).map fun (file, frame) => (file.path, encode frame.data)

theorem finish_writeFrame (path : Path) (frame : Frame) (world : World σ) :
    finish (do
      writeDocument path frame.data
      onFiles (FileSystem.size path) : ExceptT Failure (Session σ) Nat) world =
        match world.tree.write path (encode frame.data) with
        | .ok tree => (.ok frame.size, ⟨world.state, tree⟩)
        | .error problem => (.error (.file ⟨problem, path⟩), world) := by
  rw [finish_bind, finish_writeDocument]
  cases written : world.tree.write path (encode frame.data) with
  | error problem => rfl
  | ok tree =>
    unfold onFiles
    simp only
    rw [finish_adapt, finish_size, FileTree.size_write written]
    rfl

variable {pattern : Setting} {name : Text} {directory : Path} {frames : List Frame} {files : List FrameFile}

section frames

variable [Reflection]

theorem finish_writeFrames_cons (frame : Frame) :
    finish (writeFrames pattern name directory (frame :: frames)) world =
      match frameFile pattern name directory frame with
      | .error e => (.error e, world)
      | .ok file => match world.tree.write file.path (encode frame.data) with
        | .error problem => (.error (.file ⟨problem, file.path⟩), world)
        | .ok tree => match finish (writeFrames pattern name directory frames) ⟨world.state, tree⟩ with
          | (.ok files, after) => (.ok (file :: files), after)
          | (.error e, after) => (.error e, after) := by
  unfold writeFrames frameFile
  rw [List.mapM_cons, finish_bind, finish_bind, finish_mk]
  cases frameFilename pattern name frame.index with
  | error e => rfl
  | ok filename =>
    simp only [Except.map]
    rw [← bind_assoc, finish_bind, finish_writeFrame]
    cases world.tree.write (directory.join (.ofText filename)) (encode frame.data) with
    | error problem => rfl
    | ok tree =>
      simp only [finish_pure, finish_bind]
      generalize finish (List.mapM _ frames) _ = rest
      obtain ⟨outcome, after⟩ := rest
      cases outcome <;> rfl

theorem writeFrames_ok (written : finish (writeFrames pattern name directory frames) before = (.ok files, after)) :
    List.Forall₂ (fun file frame => frameFile pattern name directory frame = .ok file) files frames ∧
      before.tree.writeAll (frameWrites files frames) = .ok after.tree := by
  induction frames generalizing before files with
  | nil =>
    cases written
    exact ⟨.nil, rfl⟩
  | cons frame frames ih =>
    rw [finish_writeFrames_cons] at written
    split at written
    · cases written
    · rename_i file named
      split at written
      · cases written
      · rename_i tree first
        split at written
        · rename_i others between rest
          cases written
          obtain ⟨later, whole⟩ := ih rest
          refine ⟨.cons named later, ?_⟩
          have step : before.tree.writeAll (frameWrites (file :: others) (frame :: frames)) =
              before.tree.write file.path (encode frame.data) >>= fun tree =>
                tree.writeAll (frameWrites others frames) := rfl
          rw [step, first, ok_bind, whole]
        · cases written

end frames

def sheetPath (path directory : Path) : Path := directory.join (.ofText (path.stem ++ "_sprite.svg".toList))

theorem isName_sheet {name : Text} (free : '/' ∉ name) : Path.IsName (name ++ "_sprite.svg".toList) :=
  Path.isName_append free (by decide) (by decide)

section stages

variable {m : Type → Type} [Monad m] [FileSystem m] [Sheet.Writer]

def saveSheet (settings : Settings) (tell : Step → m Unit) (path directory : Path) (frames : List Frame) :
    ExceptT Failure m (Option Path) := do
  if settings.hasSheet then
    tell .buildingSheet
    writeSheet settings (sheetPath path directory) frames
    return some (sheetPath path directory)
  else
    return none

def saveFrames [Reflection] (settings : Settings) (tell : Step → m Unit) (path directory : Path) (frames : List Frame) :
    ExceptT Failure m Report := do
  tell .saving
  onFiles (FileSystem.makeDirectories directory)
  let files ← writeFrames settings.pattern path.stem directory frames
  let sheet ← saveSheet settings tell path directory frames
  tell .done
  return {
    input := path
    outputDirectory := directory
    rate := settings.frames.rate
    totalDuration := (frames.map Frame.duration).foldl (· + ·) 0.0
    frames := files
    sheet }

def convertInput [Reflection] (settings : Settings) (tell : Step → m Unit) (path directory : Path) : ExceptT Failure m Report := do
  tell .reading
  let document ← readDocument path
  tell .compiling
  let frames ← ExceptT.mk (pure ((Frame.compile settings.frames document).mapError .frames))
  saveFrames settings tell path directory frames

end stages

theorem convert_eq [Reflection] [Sheet.Writer] (settings : Settings) (tell : Step → Session σ Unit) (input : Text) (directory : Option Text) :
    convert settings tell input directory = (do
      if !(← onFiles (FileSystem.is .file (Path.ofText input))) then throw (.inputMissing input)
      convertInput settings tell (Path.ofText input) (outputDirectory (Path.ofText input) directory)) := by
  unfold convert convertInput saveFrames saveSheet sheetPath
  cases settings.hasSheet <;> simp only [if_true, Bool.false_eq_true, if_false, bind_assoc, pure_bind]

theorem finish_convert [Reflection] [Sheet.Writer] (settings : Settings) (tell : Step → Session σ Unit) (input : Text) (directory : Option Text)
    (world : World σ) :
    finish (convert settings tell input directory) world =
      match world.tree.kind (Path.ofText input) with
      | .ok .file => finish (convertInput settings tell (Path.ofText input)
          (outputDirectory (Path.ofText input) directory)) world
      | .ok .directory => (.error (.inputMissing input), world)
      | .error problem =>
        if problem.isAbsence then (.error (.inputMissing input), world)
        else (.error (.file ⟨problem, Path.ofText input⟩), world) := by
  rw [convert_eq, finish_bind]
  unfold onFiles
  rw [finish_adapt, finish_is]
  cases world.tree.kind (Path.ofText input) with
  | ok kind => cases kind <;> rfl
  | error problem => cases absent : problem.isAbsence <;> simp only [absent] <;> rfl

def sheetOptions (settings : Settings) : Sheet.Options where
  columns := settings.sheetColumns
  frameWidth := settings.sheetFrameWidth

theorem finish_writeSheet [Sheet.Writer] (settings : Settings) (path : Path) (frames : List Frame) (world : World σ) :
    finish (writeSheet settings path frames) world =
      match Sheet.build (sheetOptions settings) (frames.map Frame.data) with
      | .ok sheet => finish (writeDocument path sheet) world
      | .error e => (.error (.sheet e), world) := by
  unfold writeSheet
  rw [finish_bind, finish_mk]
  cases built : Sheet.build (sheetOptions settings) (frames.map Frame.data) with
  | ok sheet =>
    unfold sheetOptions at built
    rw [built]
    rfl
  | error e =>
    unfold sheetOptions at built
    rw [built]
    rfl

def sheetWrites (path : Option Path) (sheet : Text) : List (Path × Bytes) :=
  path.toList.map fun path => (path, encode sheet)

/-- All that is written for frames, in its order. -/
def allWrites (frames : List Frame) (report : Report) (sheet : Text) : List (Path × Bytes) :=
  frameWrites report.frames frames ++ sheetWrites report.sheet sheet

structure Saved [Reflection] [Sheet.Writer] (settings : Settings) (path directory : Path) (frames : List Frame) (report : Report) (sheet : Text)
    (start after : FileTree) : Prop where
  files : List.Forall₂ (fun file frame => frameFile settings.pattern path.stem directory frame = .ok file)
    report.frames frames
  place : report.sheet = if settings.hasSheet then some (sheetPath path directory) else none
  built : settings.hasSheet → Sheet.build (sheetOptions settings) (frames.map Frame.data) = .ok sheet
  writes : start.writeAll (allWrites frames report sheet) = .ok after

variable {settings : Settings} {tell : Step → Session σ Unit} {path : Path} {report : Report}

theorem saveSheet_ok [Sheet.Writer] (quiet : ∀ step, Quiet (tell step)) {place : Option Path}
    (saved : finish (saveSheet settings tell path directory frames) before = (.ok place, after)) :
    ∃ sheet, place = (if settings.hasSheet then some (sheetPath path directory) else none) ∧
      (settings.hasSheet → Sheet.build (sheetOptions settings) (frames.map Frame.data) = .ok sheet) ∧
      before.tree.writeAll (sheetWrites place sheet) = .ok after.tree := by
  unfold saveSheet at saved
  cases wanted : settings.hasSheet with
  | false =>
    rw [wanted] at saved
    cases saved
    exact ⟨[], rfl, fun impossible => absurd impossible Bool.false_ne_true, rfl⟩
  | true =>
    rw [wanted, if_pos rfl] at saved
    obtain ⟨state, told⟩ := (quiet .buildingSheet).finish_lift (ε := Failure) before
    rw [finish_bind, told] at saved
    simp only at saved
    obtain ⟨_, between, wrote, saved⟩ := finish_bind_ok saved
    rw [finish_pure] at saved
    cases saved
    rw [finish_writeSheet] at wrote
    split at wrote
    · rename_i sheet built
      rw [finish_writeDocument] at wrote
      split at wrote
      · rename_i tree written
        cases wrote
        exact ⟨sheet, rfl, fun _ => built, (FileTree.writeAll_singleton ..).trans written⟩
      · cases wrote
    · cases wrote

theorem saveFrames_ok [Reflection] [Sheet.Writer] (quiet : ∀ step, Quiet (tell step))
    (saved : finish (saveFrames settings tell path directory frames) before = (.ok report, after)) :
    ∃ start sheet, FileTree.SameFiles before.tree start ∧
      Saved settings path directory frames report sheet start after.tree := by
  unfold saveFrames at saved
  obtain ⟨state, told⟩ := (quiet .saving).finish_lift (ε := Failure) before
  rw [finish_bind, told] at saved
  simp only at saved
  obtain ⟨_, start, made, saved⟩ := finish_bind_ok saved
  have kept := FileSystem.keepsFiles_makeDirectories directory ⟨state, before.tree⟩
  rw [finish_adapt_ok.mp made] at kept
  obtain ⟨files, between, written, saved⟩ := finish_bind_ok saved
  obtain ⟨place, between', wrote, saved⟩ := finish_bind_ok saved
  obtain ⟨state', done⟩ := (quiet .done).finish_lift (ε := Failure) between'
  rw [finish_bind, done] at saved
  cases saved
  obtain ⟨named, frameTree⟩ := writeFrames_ok written
  obtain ⟨sheet, placed, built, sheetTree⟩ := saveSheet_ok quiet wrote
  refine ⟨start.tree, sheet, kept, named, placed, built, ?_⟩
  unfold allWrites
  rw [FileTree.writeAll_append, frameTree]
  exact sheetTree

theorem convert_saved [Reflection] [Sheet.Writer] (quiet : ∀ step, Quiet (tell step)) {input : Text} {given : Option Text}
    (converted : finish (convert settings tell input given) before = (.ok report, after)) :
    ∃ document frames sheet start, documentIn before.tree (Path.ofText input) = .ok document ∧
      Frame.compile settings.frames document = .ok frames ∧ FileTree.SameFiles before.tree start ∧
        Saved settings (Path.ofText input) (outputDirectory (Path.ofText input) given) frames report sheet start
          after.tree := by
  rw [finish_convert] at converted
  split at converted
  · unfold convertInput at converted
    obtain ⟨state, told⟩ := (quiet .reading).finish_lift (ε := Failure) before
    rw [finish_bind, told] at converted
    simp only at converted
    obtain ⟨document, between, read, converted⟩ := finish_bind_ok converted
    rw [finish_readDocument] at read
    obtain ⟨found, rfl⟩ := Prod.mk.inj read
    obtain ⟨state', told'⟩ := (quiet .compiling).finish_lift (ε := Failure) ⟨state, before.tree⟩
    rw [finish_bind, told'] at converted
    simp only at converted
    obtain ⟨frames, between', compiled, converted⟩ := finish_bind_ok converted
    rw [finish_mk] at compiled
    obtain ⟨compiles, rfl⟩ := Prod.mk.inj compiled
    obtain ⟨start, sheet, kept, saved⟩ := saveFrames_ok quiet converted
    exact ⟨document, frames, sheet, start, found, mapError_eq_ok.mp compiles, kept, saved⟩
  · cases converted
  · split at converted <;> cases converted

/-- What a conversion that succeeds has read, compiled and written. -/
theorem convert_ok [Reflection] [Sheet.Writer] (quiet : ∀ step, Quiet (tell step)) {input : Text} {given : Option Text}
    (converted : finish (convert settings tell input given) before = (.ok report, after)) :
    ∃ document frames sheet start, documentIn before.tree (Path.ofText input) = .ok document ∧
      Frame.compile settings.frames document = .ok frames ∧
        Saved settings (Path.ofText input) (outputDirectory (Path.ofText input) given) frames report sheet start
          after.tree := by
  obtain ⟨document, frames, sheet, start, read, compiled, -, saved⟩ := convert_saved quiet converted
  exact ⟨document, frames, sheet, start, read, compiled, saved⟩

end Flipbook.Conversion
