import Mathlib.Data.List.Nodup
import Flipbook.Config.Types
import Flipbook.Proofs.Config.Accepted
import Flipbook.Proofs.Config.UsualPattern
import Flipbook.Proofs.Conversion.Stages
import Flipbook.Proofs.Frame.Instants
import Flipbook.Sheet.Svg

namespace Flipbook.Conversion

open Text

variable {σ : Type} {settings : Settings} {path directory : Path} {frames : List Frame} {report : Report}
  {sheet : Text} {start after : FileTree}

/-- The report has this entry for the frame. -/
def Reports (report : Report) (frames : List Frame) (file : FrameFile) (frame : Frame) : Prop :=
  (file, frame) ∈ report.frames.zip frames

variable {file : FrameFile} {frame : Frame}

theorem Reports.write_mem (reports : Reports report frames file frame) (sheet : Text) :
    (file.path, encode frame.data) ∈ allWrites frames report sheet :=
  List.mem_append_left _ (List.mem_map.mpr ⟨(file, frame), reports, rfl⟩)

theorem mem_allWrites {place : Path} {content : Bytes} (member : (place, content) ∈ allWrites frames report sheet) :
    (∃ file frame, Reports report frames file frame ∧ place = file.path ∧ content = encode frame.data) ∨
      report.sheet = some place := by
  rcases List.mem_append.mp member with inside | inside
  · obtain ⟨⟨file, frame⟩, reports, same⟩ := List.mem_map.mp inside
    cases same
    exact .inl ⟨file, frame, reports, rfl, rfl⟩
  · obtain ⟨place, listed, same⟩ := List.mem_map.mp inside
    cases same
    exact .inr (Option.mem_toList.mp listed)

namespace Saved

variable [Reflection] [Sheet.Writer] (saved : Saved settings path directory frames report sheet start after)

include saved

theorem file_eq (reports : Reports report frames file frame) :
    frameFile settings.pattern path.stem directory frame = .ok file :=
  (List.forall₂_iff_zip.mp saved.files).2 reports

theorem map_index : report.frames.map FrameFile.index = frames.map Frame.index := by
  have same : List.Forall₂ (fun file frame => FrameFile.index file = Frame.index frame) report.frames frames := by
    refine saved.files.imp fun file frame named => ?_
    obtain ⟨filename, -, rfl⟩ := map_eq_ok named
    rfl
  rw [← List.forall₂_eq_eq_eq, List.forall₂_map_left_iff, List.forall₂_map_right_iff]
  exact same

theorem reads_last (reports : Reports report frames file frame) :
    ∃ last, FileTree.lastWritten? after (allWrites frames report sheet) file.path = some last ∧
      after.read file.path = .ok last :=
  FileTree.read_of_mem saved.writes (reports.write_mem sheet)

theorem usual_path (usual : settings.pattern = .text usualPattern) (reports : Reports report frames file frame) :
    file.path = directory.join (.ofText (usualName path.stem frame.index)) := by
  have named := saved.file_eq reports
  unfold frameFile frameFilename at named
  rw [usual] at named
  simp only [filename_usual] at named
  cases named
  rfl

theorem eq_of_usual (usual : settings.pattern = .text usualPattern) (free : '/' ∉ path.stem)
    (numbered : (frames.map Frame.index).Nodup) (reports : Reports report frames file frame) {other : Path}
    {content : Bytes} (written : (other, content) ∈ allWrites frames report sheet)
    (same : after.resolve other = after.resolve file.path) : content = encode frame.data := by
  obtain ⟨place, resolved⟩ := FileTree.resolve_of_mem saved.writes (reports.write_mem sheet)
  rw [resolved] at same
  rw [saved.usual_path usual reports] at resolved
  have named := isName_usualName free
  rcases mem_allWrites written with ⟨file', frame', reports', rfl, rfl⟩ | placed
  · rw [saved.usual_path usual reports'] at same
    have name := FileTree.name_inj_of_resolve (named frame'.index) (named frame.index) same resolved
    have index := usualName_inj name
    have inside := (List.of_mem_zip reports').2
    have inside' := (List.of_mem_zip reports).2
    rw [List.inj_on_of_nodup_map numbered inside inside' index]
  · rw [saved.place] at placed
    split at placed
    · cases placed
      have name := FileTree.name_inj_of_resolve (named frame.index) (isName_sheet free) resolved same
      exact absurd name (usualName_ne_sheet _ _)
    · cases placed

theorem reads_usual (usual : settings.pattern = .text usualPattern) (free : '/' ∉ path.stem)
    (numbered : (frames.map Frame.index).Nodup) (reports : Reports report frames file frame) :
    after.read file.path = .ok (encode frame.data) := by
  obtain ⟨last, ⟨other, written, same⟩, found⟩ := FileTree.lastWritten?_of_mem after (reports.write_mem sheet)
  obtain ⟨last', found', reading⟩ := saved.reads_last reports
  rw [found, Option.some_inj] at found'
  rw [reading, ← found', saved.eq_of_usual usual free numbered reports written same]

end Saved

/-- After a conversion the file of each frame holds what was written last to its place, by a later frame or as
    the sheet. With the usual pattern this is the frame itself. -/
theorem convert_holds_last_writes [Reflection] [Sheet.Writer] {before after : World σ} {tell : Step → Session σ Unit}
    (quiet : ∀ step, Quiet (tell step)) {input : Text} {given : Option Text}
    (converted : finish (convert settings tell input given) before = (.ok report, after)) :
    ∃ document frames sheet, documentIn before.tree (.ofText input) = .ok document ∧
      Frame.compile settings.frames document = .ok frames ∧
        report.frames.map FrameFile.index = List.range frames.length ∧
          (report.sheet = if settings.hasSheet then
            some (sheetPath (.ofText input) (outputDirectory (.ofText input) given)) else none) ∧
          (settings.hasSheet → Sheet.build (sheetOptions settings) (frames.map Frame.data) = .ok sheet) ∧
            ∀ file frame, Reports report frames file frame →
              file.index = frame.index ∧ file.size = (encode frame.data).length ∧
                (∃ last, FileTree.lastWritten? after.tree (allWrites frames report sheet) file.path = some last ∧
                  after.tree.read file.path = .ok last) ∧
                (settings.pattern = .text usualPattern → after.tree.read file.path = .ok (encode frame.data)) := by
  obtain ⟨document, frames, sheet, start, read, compiled, saved⟩ := convert_ok quiet converted
  have numbered := Frame.map_index_compile compiled
  refine ⟨document, frames, sheet, read, compiled, saved.map_index.trans numbered, saved.place, saved.built, ?_⟩
  intro file frame reports
  have shape : file.index = frame.index ∧ file.size = (encode frame.data).length := by
    obtain ⟨filename, -, rfl⟩ := map_eq_ok (saved.file_eq reports)
    exact ⟨rfl, rfl⟩
  refine ⟨shape.1, shape.2, saved.reads_last reports, fun usual => ?_⟩
  apply saved.reads_usual usual (Path.slash_not_mem_stem input) _ reports
  rw [numbered]
  exact List.nodup_range

def overSheet : Configuration :=
  .ofSections [("output".toList, [("filename_pattern".toList, .text "{name}_sprite.svg".toList),
    ("sprite_sheet".toList, .flag true)])]

def stillWorld : World Unit := ⟨(), FileTree.ofFiles [(.ofText "a.svg".toList, encode "<svg/>".toList)]⟩

def convertStill (settings : Settings) : Except Failure Report × World Unit :=
  finish (convert settings (fun _ => pure ()) "a.svg".toList none) stillWorld

theorem convert_holds_last_writes_overSheet :
    ∃ settings report after, Settings.ofConfiguration overSheet = .ok settings ∧
      (∀ step : Step, Quiet ((fun _ => pure () : Step → Session Unit Unit) step)) ∧
        convertStill settings = (.ok report, after) ∧
          ∃ document frames sheet, documentIn stillWorld.tree (.ofText "a.svg".toList) = .ok document ∧
            Frame.compile settings.frames document = .ok frames ∧
              report.frames.map FrameFile.index = List.range frames.length ∧
                (report.sheet = if settings.hasSheet then
                  some (sheetPath (.ofText "a.svg".toList) (outputDirectory (.ofText "a.svg".toList) none)) else none) ∧
                (settings.hasSheet → Sheet.build (sheetOptions settings) (frames.map Frame.data) = .ok sheet) ∧
                  ∀ file frame, Reports report frames file frame →
                    file.index = frame.index ∧ file.size = (encode frame.data).length ∧
                      (∃ last, FileTree.lastWritten? after.tree (allWrites frames report sheet) file.path = some last ∧
                        after.tree.read file.path = .ok last) ∧
                      (settings.pattern = .text usualPattern →
                        after.tree.read file.path = .ok (encode frame.data)) := by
  have succeeds : ((Settings.ofConfiguration overSheet).toOption.map fun settings => (convertStill settings).1.isOk) =
      some true := by decide +kernel
  have quiet (step : Step) : Quiet ((fun _ => pure () : Step → Session Unit Unit) step) := fun _ _ => rfl
  obtain ⟨settings, report, after, accepted, converted⟩ := exists_of_run_isOk succeeds
  exact ⟨settings, report, after, accepted, quiet, converted, convert_holds_last_writes quiet converted⟩

example :
    (Settings.ofConfiguration overSheet).toOption.map (fun settings =>
      let (outcome, after) := convertStill settings
      outcome.toOption.map fun report => report.frames.map fun file =>
        (file.path.text, (after.tree.read file.path).toOption.map (·.length == file.size))) =
      some (some [("frames/a_sprite.svg".toList, some false)]) := by
  decide +kernel

end Flipbook.Conversion
