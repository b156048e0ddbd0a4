import Flipbook.Proofs.Text.Runs

namespace Flipbook.Text

section Ends

variable {p : Char → Bool}

theorem trimEndBy_eq_nil {t : Text} : trimEndBy p t = [] ↔ ∀ c ∈ t, p c := by
  induction t with
  | nil => simp [trimEndBy]
  | cons c rest ih =>
    rw [List.forall_mem_cons, ← ih, trimEndBy]
    cases trimEndBy p rest with
    | nil => by_cases dropped : p c <;> simp [dropped]
    | cons d kept => simp

theorem trimEndBy_append {t tail : Text} (dropped : ∀ c ∈ tail, p c) :
    trimEndBy p (t ++ tail) = trimEndBy p t := by
  induction t with
  | nil => exact trimEndBy_eq_nil.mpr dropped
  | cons c rest ih =>
    rw [List.cons_append]
    unfold trimEndBy
    rw [ih]

theorem trimEndBy_of_last {t : Text} (last : ∀ c ∈ t.getLast?, p c = false) : trimEndBy p t = t := by
  induction t with
  | nil => rfl
  | cons c rest ih =>
    cases rest with
    | nil =>
      have kept : p c = false := last c rfl
      simp [trimEndBy, kept]
    | cons d rest =>
      have tail : trimEndBy p (d :: rest) = d :: rest := ih fun e isLast => last e isLast
      rw [trimEndBy, tail]

theorem exists_trimEndBy (p : Char → Bool) (t : Text) : ∃ tail, t = trimEndBy p t ++ tail ∧ (∀ c ∈ tail, p c) ∧
    ∀ c ∈ (trimEndBy p t).getLast?, p c = false := by
  induction t with
  | nil => exact ⟨[], rfl, List.forall_mem_nil _, fun c last => by cases last⟩
  | cons c rest ih =>
    obtain ⟨tail, shape, dropped, last⟩ := ih
    rw [trimEndBy]
    cases kept : trimEndBy p rest with
    | nil =>
      rw [kept, List.nil_append] at shape
      by_cases isEnd : p c
      · rw [shape]
        exact ⟨c :: tail, by simp [isEnd], List.forall_mem_cons.mpr ⟨isEnd, dropped⟩, by simp [isEnd]⟩
      · exact ⟨tail, by simp [isEnd, shape], dropped, by simp [isEnd]⟩
    | cons d others =>
      rw [kept] at shape last
      exact ⟨tail, by rw [List.cons_append, ← shape], dropped, last⟩

end Ends

def Trimmed (t : Text) : Prop := Halts isBlank t ∧ ∀ c ∈ t.getLast?, isBlank c = false

instance (t : Text) : Decidable (Trimmed t) :=
  decidable_of_iff (t.head?.all (!isBlank ·) ∧ t.getLast?.all (!isBlank ·))
    (by simp [Trimmed, Halts, Option.all_eq_true])

theorem trim_eq_nil {t : Text} : trim t = [] ↔ ∀ c ∈ t, isBlank c := by
  unfold trim trimEnd trimStart
  rw [trimEndBy_eq_nil]
  constructor
  · intro blank c member
    rw [← List.takeWhile_append_dropWhile (p := isBlank) (l := t), List.mem_append] at member
    rcases member with member | member
    · exact List.mem_takeWhile_imp member
    · exact blank c member
  · intro blank c member
    exact blank c ((List.dropWhile_suffix isBlank).subset member)

theorem Trimmed.trim_eq {t : Text} (trimmed : Trimmed t) : trim t = t := by
  rw [trim, trimStart, dropWhile_of_halts trimmed.1]
  exact trimEndBy_of_last trimmed.2

theorem trim_around {before t after : Text} (blankBefore : ∀ c ∈ before, isBlank c) (trimmed : Trimmed t)
    (blankAfter : ∀ c ∈ after, isBlank c) : trim (before ++ t ++ after) = t := by
  cases t with
  | nil =>
    rw [trim_eq_nil, List.append_nil]
    intro c member
    rcases List.mem_append.mp member with member | member
    · exact blankBefore c member
    · exact blankAfter c member
  | cons c rest =>
    have start : Halts isBlank ((c :: rest) ++ after) := halts_cons.mpr (trimmed.1 c rfl)
    rw [trim, trimStart, List.append_assoc, dropWhile_run blankBefore start, trimEnd, trimEndBy_append blankAfter]
    exact trimEndBy_of_last trimmed.2

theorem exists_trim (t : Text) : ∃ before after, t = before ++ trim t ++ after ∧ (∀ c ∈ before, isBlank c) ∧
    (∀ c ∈ after, isBlank c) ∧ Trimmed (trim t) := by
  obtain ⟨after, shape, blank, last⟩ := exists_trimEndBy isBlank (trimStart t)
  refine ⟨t.takeWhile isBlank, after, ?_, fun c => List.mem_takeWhile_imp, blank, fun c first => ?_, last⟩
  · rw [List.append_assoc]
    exact (List.takeWhile_append_dropWhile (p := isBlank) (l := t)).symm.trans (congrArg (_ ++ ·) shape)
  · refine halts_dropWhile t c ?_
    change c ∈ (trimStart t).head?
    have kept : (trimEndBy isBlank (trimStart t)).head? = some c := first
    rw [shape, List.head?_append, kept]
    rfl

theorem trimmed_trim (t : Text) : Trimmed (trim t) := by
  obtain ⟨_, _, _, _, _, trimmed⟩ := exists_trim t
  exact trimmed

section Splitting

variable {sep : Char → Bool}

theorem splitBy_eq_splitOnP (t : Text) : splitBy sep t = t.splitOnP sep := by
  induction t with
  | nil => rfl
  | cons c rest ih =>
    obtain ⟨piece, pieces, tail, whole⟩ := splitBy_cons sep c rest
    rw [whole, List.splitOnP_cons_eq_if_modifyHead, ← ih, tail]
    split <;> rfl

theorem splitBy_of_free {t : Text} (free : ∀ c ∈ t, sep c = false) : splitBy sep t = [t] := by
  rw [splitBy_eq_splitOnP]
  exact List.splitOnP_eq_singleton free

theorem splitBy_append_cons (t rest : Text) {c : Char} (isSep : sep c) :
    splitBy sep (t ++ c :: rest) = splitBy sep t ++ splitBy sep rest := by
  rw [splitBy_eq_splitOnP, splitBy_eq_splitOnP, splitBy_eq_splitOnP]
  exact List.splitOnP_append_cons t rest isSep

theorem splitBy_cut {t : Text} (free : ∀ c ∈ t, sep c = false) {c : Char} (isSep : sep c) (rest : Text) :
    splitBy sep (t ++ c :: rest) = t :: splitBy sep rest := by
  rw [splitBy_append_cons t rest isSep, splitBy_of_free free]
  rfl

theorem mem_of_mem_splitBy {t piece : Text} (member : piece ∈ splitBy sep t) {c : Char} (inside : c ∈ piece) :
    c ∈ t := by
  have kept : c ∈ (splitBy sep t).flatten := List.mem_flatten_of_mem member inside
  rw [splitBy_flatten] at kept
  exact (List.mem_filter.mp kept).1

theorem mem_wordsBy {t : Text} {c : Char} (kept : sep c = false) : (∃ word ∈ wordsBy sep t, c ∈ word) ↔ c ∈ t := by
  unfold wordsBy
  constructor
  · rintro ⟨word, member, inside⟩
    exact mem_of_mem_splitBy (List.mem_filter.mp member).1 inside
  · intro inside
    have found : c ∈ (splitBy sep t).flatten := by
      rw [splitBy_flatten]
      exact List.mem_filter.mpr ⟨inside, by rw [kept]; rfl⟩
    obtain ⟨word, member, inside⟩ := List.mem_flatten.mp found
    refine ⟨word, List.mem_filter.mpr ⟨member, ?_⟩, inside⟩
    cases word with
    | nil => cases inside
    | cons => rfl

end Splitting

theorem free_or_cut (sep : Char → Bool) (t : Text) : (∀ c ∈ t, sep c = false) ∨
    ∃ first c rest, t = first ++ c :: rest ∧ (∀ d ∈ first, sep d = false) ∧ sep c := by
  induction t with
  | nil => exact .inl (List.forall_mem_nil _)
  | cons c rest ih =>
    cases isSep : sep c with
    | true => exact .inr ⟨[], c, rest, rfl, List.forall_mem_nil _, isSep⟩
    | false =>
      refine ih.imp (fun free => List.forall_mem_cons.mpr ⟨isSep, free⟩) ?_
      rintro ⟨first, d, later, rfl, free, isSep'⟩
      exact ⟨c :: first, d, later, rfl, List.forall_mem_cons.mpr ⟨isSep, free⟩, isSep'⟩

section Words

variable {sep : Char → Bool}

theorem wordsBy_of_seps {t : Text} (seps : ∀ c ∈ t, sep c) : wordsBy sep t = [] := by
  unfold wordsBy
  rw [List.filter_eq_nil_iff]
  intro piece member
  cases piece with
  | nil => simp
  | cons c rest =>
    have noSep := not_sep_of_mem_splitBy member (List.mem_cons_self)
    rw [seps c (mem_of_mem_splitBy member (List.mem_cons_self))] at noSep
    cases noSep

theorem wordsBy_append_cons (t rest : Text) {c : Char} (isSep : sep c) :
    wordsBy sep (t ++ c :: rest) = wordsBy sep t ++ wordsBy sep rest := by
  unfold wordsBy
  rw [splitBy_append_cons t rest isSep, List.filter_append]

theorem wordsBy_around {before t after : Text} (sepsBefore : ∀ c ∈ before, sep c) (sepsAfter : ∀ c ∈ after, sep c) :
    wordsBy sep (before ++ t ++ after) = wordsBy sep t := by
  have tail : wordsBy sep (t ++ after) = wordsBy sep t := by
    cases after with
    | nil => rw [List.append_nil]
    | cons c rest =>
      have others : wordsBy sep rest = [] := wordsBy_of_seps fun d member => sepsAfter d (List.mem_cons_of_mem _ member)
      rw [wordsBy_append_cons t rest (sepsAfter c (by simp)), others, List.append_nil]
  rw [List.append_assoc]
  induction before with
  | nil => exact tail
  | cons c rest ih =>
    have first : wordsBy sep ([] ++ c :: (rest ++ (t ++ after))) = wordsBy sep [] ++ wordsBy sep (rest ++ (t ++ after)) :=
      wordsBy_append_cons [] _ (sepsBefore c (by simp))
    exact first.trans (ih fun d member => sepsBefore d (by simp [member]))

end Words

theorem words_of_blank {t : Text} (blank : ∀ c ∈ t, isBlank c) : words t = [] := wordsBy_of_seps blank

theorem words_around {before t after : Text} (blankBefore : ∀ c ∈ before, isBlank c)
    (blankAfter : ∀ c ∈ after, isBlank c) : words (before ++ t ++ after) = words t :=
  wordsBy_around blankBefore blankAfter

structure StandsAlone (word t : Text) : Prop where
  ne_nil : word ≠ []
  solid : ∀ c ∈ word, isBlank c = false
  apart : ∃ before after, t = before ++ word ++ after ∧ (∀ c ∈ before.getLast?, isBlank c) ∧ ∀ c ∈ after.head?, isBlank c

theorem words_of_solid {word : Text} (nonempty : word ≠ []) (solid : ∀ c ∈ word, isBlank c = false) :
    words word = [word] := by
  rw [words, wordsBy, splitBy_of_free solid]
  exact List.filter_cons_of_pos (by simpa using nonempty)

theorem StandsAlone.mem_words {word t : Text} (stands : StandsAlone word t) : word ∈ words t := by
  obtain ⟨nonempty, solid, before, after, rfl, blankBefore, blankAfter⟩ := stands
  have ends : word ∈ words (word ++ after) := by
    cases after with
    | nil => simp [words_of_solid nonempty solid]
    | cons c rest =>
      rw [words, wordsBy_append_cons word rest (blankAfter c rfl), ← words, words_of_solid nonempty solid]
      exact List.mem_cons_self
  rw [List.append_assoc]
  rcases List.eq_nil_or_concat before with rfl | ⟨lead, c, rfl⟩
  · exact ends
  · have blank : isBlank c := blankBefore c (by simp)
    rw [List.concat_eq_append, List.append_assoc, List.singleton_append, words, wordsBy_append_cons _ _ blank]
    exact List.mem_append_right _ ends

theorem mem_words_iff {word t : Text} : word ∈ words t ↔ StandsAlone word t := by
  refine ⟨fun member => ?_, StandsAlone.mem_words⟩
  obtain ⟨piece, filled⟩ := List.mem_filter.mp member
  refine ⟨by simpa using filled, fun c inside => not_sep_of_mem_splitBy piece inside, ?_⟩
  clear piece filled
  induction size : t.length using Nat.strongRecOn generalizing t with
  | ind n ih =>
    rcases free_or_cut isBlank t with free | ⟨first, c, rest, rfl, free, blank⟩
    · have whole : word = t := by
        rw [words, wordsBy, splitBy_of_free free] at member
        exact List.mem_singleton.mp (List.mem_filter.mp member).1
      exact ⟨[], [], by simp [whole], by simp, by simp⟩
    · rw [words, wordsBy_append_cons first rest blank, List.mem_append] at member
      rcases member with here | later
      · have whole : word = first := by
          rw [wordsBy, splitBy_of_free free] at here
          exact List.mem_singleton.mp (List.mem_filter.mp here).1
        exact ⟨[], c :: rest, by simp [whole], by simp, by simpa using blank⟩
      · obtain ⟨before, after, rfl, blankBefore, blankAfter⟩ := ih rest.length (by simp [← size]; omega) later rfl
        refine ⟨first ++ c :: before, after, by simp, fun d last => ?_, blankAfter⟩
        rcases List.eq_nil_or_concat before with rfl | ⟨lead, e, rfl⟩
        · obtain rfl : c = d := by simpa using last
          exact blank
        · exact blankBefore d (by simpa [List.getLast?_cons] using last)

theorem words_eq_nil {t : Text} : words t = [] ↔ ∀ c ∈ t, isBlank c := by
  constructor
  · intro none c member
    by_contra notBlank
    obtain ⟨piece, inside, stands⟩ : ∃ piece ∈ splitBy isBlank t, c ∈ piece := by
      have kept : c ∈ t.filter (!isBlank ·) := List.mem_filter.mpr ⟨member, by simpa using notBlank⟩
      rw [← splitBy_flatten] at kept
      exact List.mem_flatten.mp kept
    unfold words wordsBy at none
    rw [List.filter_eq_nil_iff] at none
    have empty : piece = [] := by simpa using none piece inside
    rw [empty] at stands
    cases stands
  · exact words_of_blank

end Flipbook.Text
