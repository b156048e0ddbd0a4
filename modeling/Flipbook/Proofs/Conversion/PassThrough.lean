import Flipbook.Proofs.Conversion.LastWrites
import Flipbook.Proofs.Text.Utf8

namespace Flipbook

/-- Nothing in the document moves: it has no style, or one without keyframes or without animations. -/
def Frame.Unanimated (document : Text) : Prop :=
  ∀ css, Markup.styleContent? document = some css → css = [] ∨ Css.keyframes css = [] ∨ Css.animations css = .ok []

theorem Frame.compile_unanimated {options : Options} {document : Text} {frames : List Frame}
    (unanimated : Unanimated document) (compiled : compile options document = .ok frames) :
    frames = [still document] := by
  unfold compile at compiled
  split at compiled
  · exact (Except.ok.inj compiled).symm
  · exact (Except.ok.inj compiled).symm
  · rename_i css nonempty styled
    obtain ⟨animations, parsed, compiled⟩ := bind_eq_ok compiled
    have nothing : ((Css.keyframes css).isEmpty || animations.isEmpty) = true := by
      rcases unanimated css styled with empty | none | none
      · exact absurd empty nonempty
      · rw [none]
        rfl
      · rw [mapError_eq_ok.mp parsed] at none
        cases none
        exact Bool.or_true _
    rw [if_pos nothing] at compiled
    exact (Except.ok.inj compiled).symm

namespace Conversion

open Text

variable {σ : Type} {settings : Settings} {path directory : Path} {report : Report} {sheet : Text}
  {tree start after : FileTree} {document : Text}

/-- A document is in a single file. All other files are as they were, but for that of the sheet. -/
structure PassedThrough (document : Text) (report : Report) (file : FrameFile) (tree after : FileTree) : Prop where
  alone : report.frames = [file]
  size : file.size = (encode document).length
  holds : after.read file.path = .ok (encode document)
  others : ∀ place, after.resolve file.path ≠ .ok place →
    (∀ sheet, report.sheet = some sheet → after.resolve sheet ≠ .ok place) →
      ∀ content, after.entry? place = some (.file content) ↔ tree.entry? place = some (.file content)

theorem Saved.entry?_of_apart [Reflection] [Sheet.Writer] {frames : List Frame}
    (saved : Saved settings path directory frames report sheet start after) {place : FileTree.Place}
    (noFrame : ∀ file ∈ report.frames, after.resolve file.path ≠ .ok place)
    (noSheet : ∀ sheet, report.sheet = some sheet → after.resolve sheet ≠ .ok place) :
    after.entry? place = start.entry? place := by
  apply FileTree.entry?_writeAll saved.writes
  intro ⟨written, content⟩ member resolved
  have resolved' := (FileTree.resolve_writeAll saved.writes written).mpr resolved
  rcases mem_allWrites member with ⟨file, frame, reports, rfl, -⟩ | placed
  · exact noFrame file (List.of_mem_zip reports).1 resolved'
  · exact noSheet written placed resolved'

theorem Saved.passedThrough [Reflection] [Sheet.Writer] (saved : Saved settings path directory [Frame.still document] report sheet start after)
    (kept : FileTree.SameFiles tree start) (usual : settings.pattern = .text usualPattern) (free : '/' ∉ path.stem) :
    ∃ file, PassedThrough document report file tree after := by
  have files := saved.files
  cases listed : report.frames with
  | nil =>
    rw [listed] at files
    cases files
  | cons file rest =>
    rw [listed] at files
    cases files with
    | cons named none =>
      cases none
      have reports : Reports report [Frame.still document] file (Frame.still document) := by
        unfold Reports
        rw [listed]
        exact List.mem_singleton.mpr rfl
      obtain ⟨filename, -, shape⟩ := map_eq_ok named
      refine ⟨file, listed, by rw [← shape]; rfl, ?_, ?_⟩
      · exact saved.reads_usual usual free (List.nodup_singleton _) reports
      · intro place apart noSheet content
        rw [saved.entry?_of_apart _ noSheet]
        · exact kept place content
        · rw [listed]
          exact List.forall_mem_singleton.mpr apart

/-- A document in which nothing moves is written as it was read, and with the bytes that it had if there is no
    carriage return in it. -/
theorem convert_passes_through [Reflection] [Sheet.Writer] {before after : World σ} {tell : Step → Session σ Unit}
    (quiet : ∀ step, Quiet (tell step)) (usual : settings.pattern = .text usualPattern) {input : Text}
    {given : Option Text} {content : Bytes} (there : before.tree.read (.ofText input) = .ok content)
    (text : decode? content = some document) (unanimated : Frame.Unanimated (normalizeLines document))
    (converted : finish (convert settings tell input given) before = (.ok report, after)) :
    ∃ file, PassedThrough (normalizeLines document) report file before.tree after.tree ∧
      (after.tree.read file.path = .ok content ↔ '\r' ∉ document) := by
  obtain ⟨read, frames, sheet, start, found, compiled, kept, saved⟩ := convert_saved quiet converted
  have same : read = normalizeLines document := by
    unfold documentIn at found
    rw [there] at found
    simp only [text] at found
    exact (Except.ok.inj found).symm
  rw [same] at compiled
  rw [Frame.compile_unanimated unanimated compiled] at saved
  obtain ⟨file, passed⟩ := saved.passedThrough kept usual (Path.slash_not_mem_stem input)
  refine ⟨file, passed, ?_⟩
  rw [passed.holds, Except.ok.injEq]
  exact encode_normalizeLines_iff text

def twoCharacterEnd : Text := "<svg/>\r\n".toList

def twoCharacterWorld : World Unit :=
  ⟨(), FileTree.ofFiles [(.ofText "a.svg".toList, encode twoCharacterEnd)]⟩

def convertTwoCharacterEnd (settings : Settings) : Except Failure Report × World Unit :=
  finish (convert settings (fun _ => pure ()) "a.svg".toList none) twoCharacterWorld

theorem convert_passes_through_twoCharacterEnd :
    ∃ settings report after file, Settings.ofConfiguration {} = .ok settings ∧
      settings.pattern = .text usualPattern ∧ convertTwoCharacterEnd settings = (.ok report, after) ∧
        PassedThrough "<svg/>\n".toList report file twoCharacterWorld.tree after.tree ∧
          twoCharacterWorld.tree.read (.ofText "a.svg".toList) = .ok (encode twoCharacterEnd) ∧
            after.tree.read file.path ≠ .ok (encode twoCharacterEnd) := by
  have succeeds : ((Settings.ofConfiguration {}).toOption.map fun settings =>
      (convertTwoCharacterEnd settings).1.isOk) = some true := by decide +kernel
  have pattern : (Settings.ofConfiguration {}).toOption.map Settings.pattern = some (.text usualPattern) := rfl
  have quiet (step : Step) : Quiet ((fun _ => pure () : Step → Session Unit Unit) step) := fun _ _ => rfl
  have there : twoCharacterWorld.tree.read (.ofText "a.svg".toList) = .ok (encode twoCharacterEnd) := by decide +kernel
  have unanimated : Frame.Unanimated (normalizeLines twoCharacterEnd) := by
    intro css styled
    have styleless : Markup.styleContent? (normalizeLines twoCharacterEnd) = none := by decide +kernel
    rw [styleless] at styled
    cases styled
  obtain ⟨settings, report, after, accepted, converted⟩ := exists_of_run_isOk succeeds
  rw [accepted] at pattern
  have usual : settings.pattern = .text usualPattern := Option.some.inj pattern
  obtain ⟨file, passed, same⟩ :=
    convert_passes_through quiet usual there (decode_encode twoCharacterEnd) unanimated converted
  refine ⟨settings, report, after, file, accepted, usual, converted, passed, there, ?_⟩
  rw [ne_eq, same]
  decide

end Conversion

end Flipbook
