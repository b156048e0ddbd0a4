import Mathlib.Data.List.DropRight
import Flipbook.Css.Block
import Flipbook.Proofs.Css.BraceDepth

namespace Flipbook.Css

variable {isHead : Char → Bool}

def inHead (isHead : Char → Bool) (c : Char) : Bool := c ≠ '{' && c ≠ '}' && isHead c

/-- A block that ends behind so many characters of the text: between its two braces are none, and before them stands
    the longest run of characters of a head. -/
structure BlockEnds (isHead : Char → Bool) (t : Text) (stop : Nat) (block : Block) : Prop where
  stands : ∃ before after, t = before ++ '{' :: (block.body ++ '}' :: after) ∧
    block.head = before.rtakeWhile (inHead isHead) ∧ stop = before.length + block.body.length + 2
  headed : block.head ≠ []
  flat : ∀ c ∈ block.body, c ≠ '{' ∧ c ≠ '}'

/-- What could be a head so far, and the block that is open. -/
structure Reading where
  head : Text
  inside : Option Block

def Reading.start : Reading := ⟨[], none⟩

def Reading.next (isHead : Char → Bool) (reading : Reading) (c : Char) : Reading :=
  if c = '{' then ⟨[], if reading.head.isEmpty then none else some ⟨reading.head, []⟩⟩
  else if c = '}' then .start
  else ⟨if isHead c then reading.head ++ [c] else [],
    reading.inside.map fun block => { block with body := block.body ++ [c] }⟩

def Reading.after (isHead : Char → Bool) (reading : Reading) (t : Text) : Reading := t.foldl (next isHead) reading

def Reading.closed? (reading : Reading) (c : Char) : Option Block := if c = '}' then reading.inside else none

def Reading.blocks (isHead : Char → Bool) (reading : Reading) (t : Text) : List Block :=
  blocksFrom isHead reading.head reading.inside t

namespace Reading

theorem after_concat (reading : Reading) (t : Text) (c : Char) :
    reading.after isHead (t ++ [c]) = (reading.after isHead t).next isHead c := List.foldl_append

theorem next_plain {c : Char} (noOpen : c ≠ '{') (noClose : c ≠ '}') (reading : Reading) :
    reading.next isHead c = ⟨if isHead c then reading.head ++ [c] else [],
      reading.inside.map fun block => { block with body := block.body ++ [c] }⟩ := by
  rw [next, if_neg noOpen, if_neg noClose]

theorem blocks_cons (reading : Reading) (c : Char) (t : Text) :
    reading.blocks isHead (c :: t) = (reading.closed? c).toList ++ (reading.next isHead c).blocks isHead t := by
  by_cases isOpen : c = '{'
  · subst isOpen
    rfl
  · by_cases isClose : c = '}'
    · subst isClose
      obtain ⟨head, inside⟩ := reading
      cases inside <;> rfl
    · have closed : reading.closed? c = none := if_neg isClose
      rw [closed, next_plain isOpen isClose, blocks, blocksFrom.eq_def]
      simp only [if_neg isOpen, if_neg isClose]
      rfl

theorem blocks_append (reading : Reading) (t u : Text) :
    reading.blocks isHead (t ++ u) = reading.blocks isHead t ++ (reading.after isHead t).blocks isHead u := by
  induction t generalizing reading with
  | nil => rfl
  | cons c t ih =>
    rw [List.cons_append, blocks_cons, blocks_cons, ih, List.append_assoc]
    rfl

theorem head_after (t : Text) : (start.after isHead t).head = t.rtakeWhile (inHead isHead) := by
  induction t using List.reverseRecOn with
  | nil => rfl
  | append_singleton t c ih =>
    rw [after_concat, List.rtakeWhile_concat, ← ih]
    by_cases isOpen : c = '{'
    · subst isOpen
      rfl
    · by_cases isClose : c = '}'
      · subst isClose
        rfl
      · have same : inHead isHead c = isHead c := by simp [inHead, isOpen, isClose]
        rw [next_plain isOpen isClose, same]

def Opened (isHead : Char → Bool) (t : Text) (block : Block) : Prop :=
  ∃ before, t = before ++ '{' :: block.body ∧ block.head = before.rtakeWhile (inHead isHead) ∧ block.head ≠ [] ∧
    ∀ c ∈ block.body, c ≠ '{' ∧ c ≠ '}'

theorem opened_concat {t : Text} {c : Char} {block : Block} : Opened isHead (t ++ [c]) block ↔
    (c = '{' ∧ block = ⟨t.rtakeWhile (inHead isHead), []⟩ ∧ t.rtakeWhile (inHead isHead) ≠ []) ∨
      (c ≠ '{' ∧ c ≠ '}' ∧ ∃ shorter, Opened isHead t shorter ∧ block = ⟨shorter.head, shorter.body ++ [c]⟩) := by
  constructor
  · rintro ⟨before, shape, head, nonempty, flat⟩
    obtain ⟨headText, body⟩ := block
    simp only at shape head nonempty flat
    subst head
    induction body using List.reverseRecOn with
    | nil =>
      obtain ⟨rfl, same⟩ := List.append_inj' shape rfl
      exact .inl ⟨(List.cons.inj same).1, rfl, nonempty⟩
    | append_singleton body d =>
      have whole : t ++ [c] = (before ++ '{' :: body) ++ [d] := by rw [shape]; simp
      obtain ⟨rfl, same⟩ := List.append_inj' whole rfl
      obtain ⟨rfl, -⟩ := List.cons.inj same
      obtain ⟨noOpen, noClose⟩ := flat c (by simp)
      exact .inr ⟨noOpen, noClose, ⟨_, body⟩,
        ⟨before, rfl, rfl, nonempty, fun d member => flat d (List.mem_append_left _ member)⟩, rfl⟩
  · rintro (⟨rfl, rfl, nonempty⟩ | ⟨noOpen, noClose, shorter, ⟨before, rfl, head, nonempty, flat⟩, rfl⟩)
    · exact ⟨t, rfl, rfl, nonempty, List.forall_mem_nil _⟩
    · refine ⟨before, by simp, head, nonempty, ?_⟩
      exact List.forall_mem_append.mpr ⟨flat, List.forall_mem_singleton.mpr ⟨noOpen, noClose⟩⟩

theorem inside_after {t : Text} {block : Block} :
    (start.after isHead t).inside = some block ↔ Opened isHead t block := by
  induction t using List.reverseRecOn generalizing block with
  | nil =>
    refine iff_of_false (by rintro ⟨⟩) ?_
    rintro ⟨before, shape, -⟩
    cases before <;> cases shape
  | append_singleton t c ih =>
    rw [after_concat, opened_concat]
    by_cases isOpen : c = '{'
    · subst isOpen
      have state : ((start.after isHead t).next isHead '{').inside =
          if (t.rtakeWhile (inHead isHead)).isEmpty then none else some ⟨t.rtakeWhile (inHead isHead), []⟩ := by
        rw [next, if_pos rfl, head_after]
      rw [state, or_iff_left fun plain => plain.1 rfl]
      by_cases nothing : t.rtakeWhile (inHead isHead) = []
      · simp [nothing]
      · rw [if_neg (by simpa using nothing), Option.some.injEq, and_iff_right rfl, and_iff_left nothing]
        exact eq_comm
    · by_cases isClose : c = '}'
      · subst isClose
        refine iff_of_false (by rintro ⟨⟩) ?_
        simp
      · rw [next_plain isOpen isClose, Option.map_eq_some_iff]
        rw [or_iff_right fun opened => isOpen opened.1]
        constructor
        · rintro ⟨shorter, open_, rfl⟩
          exact ⟨isOpen, isClose, shorter, ih.mp open_, rfl⟩
        · rintro ⟨-, -, shorter, open_, rfl⟩
          exact ⟨shorter, ih.mpr open_, rfl⟩

end Reading

theorem blockEnds_iff_opened {t u : Text} {c : Char} {block : Block} :
    BlockEnds isHead (t ++ c :: u) (t.length + 1) block ↔ c = '}' ∧ Reading.Opened isHead t block := by
  constructor
  · rintro ⟨⟨before, after, shape, head, stop⟩, headed, flat⟩
    have length : t.length = (before ++ '{' :: block.body).length := by
      rw [List.length_append, List.length_cons]
      omega
    have whole : t ++ c :: u = (before ++ '{' :: block.body) ++ '}' :: after := by rw [shape]; simp
    obtain ⟨rfl, rest⟩ := List.append_inj whole length
    exact ⟨(List.cons.inj rest).1, before, rfl, head, headed, flat⟩
  · rintro ⟨rfl, before, rfl, head, headed, flat⟩
    refine ⟨⟨before, u, by simp, head, ?_⟩, headed, flat⟩
    rw [List.length_append, List.length_cons]
    omega

theorem BlockEnds.stop_le {t : Text} {stop : Nat} {block : Block} (ends : BlockEnds isHead t stop block) :
    stop ≤ t.length := by
  obtain ⟨before, after, rfl, -, rfl⟩ := ends.stands
  simp only [List.length_append, List.length_cons]
  omega

theorem Reading.blocks_placed (seen t : Text) : ∃ placed : List (Nat × Block),
    placed.map (·.2) = (start.after isHead seen).blocks isHead t ∧ placed.Pairwise (·.1 < ·.1) ∧
      ∀ stop block, (stop, block) ∈ placed ↔ BlockEnds isHead (seen ++ t) stop block ∧ seen.length < stop := by
  induction t generalizing seen with
  | nil =>
    refine ⟨[], rfl, .nil, fun stop block => iff_of_false List.not_mem_nil ?_⟩
    rintro ⟨ends, later⟩
    have bound := ends.stop_le
    rw [List.append_nil] at bound
    omega
  | cons c t ih =>
    obtain ⟨placed, blocks, ordered, members⟩ := ih (seen ++ [c])
    have shape : seen ++ [c] ++ t = seen ++ c :: t := by simp
    have length : (seen ++ [c]).length = seen.length + 1 := List.length_append
    rw [shape, length] at members
    rw [after_concat] at blocks
    rw [blocks_cons, ← blocks]
    -- a block that ends with this character is the one that was open
    have here {block : Block} : (start.after isHead seen).closed? c = some block ↔
        BlockEnds isHead (seen ++ c :: t) (seen.length + 1) block := by
      rw [blockEnds_iff_opened, ← inside_after, closed?]
      by_cases isClose : c = '}' <;> simp [isClose]
    have split (stop : Nat) : seen.length < stop ↔ stop = seen.length + 1 ∨ seen.length + 1 < stop := by omega
    cases closed : (start.after isHead seen).closed? c with
    | none =>
      refine ⟨placed, rfl, ordered, fun stop block => ?_⟩
      rw [members, split, and_or_left]
      refine (or_iff_right ?_).symm
      rintro ⟨ends, rfl⟩
      rw [here.mpr ends] at closed
      cases closed
    | some first =>
      have ends := here.mp closed
      refine ⟨(seen.length + 1, first) :: placed, rfl, ?_, fun stop block => ?_⟩
      · refine List.pairwise_cons.mpr ⟨fun (stop, block) member => ?_, ordered⟩
        exact ((members stop block).mp member).2
      · rw [List.mem_cons, members, split, and_or_left]
        refine or_congr_left ?_
        constructor
        · intro same
          cases same
          exact ⟨ends, rfl⟩
        · rintro ⟨ends, rfl⟩
          rw [here.mpr ends] at closed
          cases closed
          rfl

/-- The blocks that are read are all blocks of the text, by the places where they end. -/
theorem blocks_placed (isHead : Char → Bool) (t : Text) : ∃ placed : List (Nat × Block),
    placed.map (·.2) = blocks isHead t ∧ placed.Pairwise (·.1 < ·.1) ∧
      ∀ stop block, (stop, block) ∈ placed ↔ BlockEnds isHead t stop block := by
  obtain ⟨placed, blocks, ordered, members⟩ := @Reading.blocks_placed isHead [] t
  refine ⟨placed, blocks, ordered, fun stop block => ?_⟩
  rw [members]
  refine and_iff_left_of_imp fun ends => ?_
  obtain ⟨before, after, -, -, rfl⟩ := ends.stands
  exact Nat.succ_pos _

end Flipbook.Css
