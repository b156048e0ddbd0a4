import Flipbook.Proofs.Files.Writes
import Flipbook.Proofs.Text.Pieces

namespace Flipbook

open Text

/-- A text that stands for one step down. -/
structure Path.IsName (t : Text) : Prop where
  noSlash : '/' ∉ t
  nonempty : t ≠ []
  here : t ≠ ['.']
  up : t ≠ FileTree.up

namespace Path

theorem isName_append {name tail : Text} (free : '/' ∉ name) (free' : '/' ∉ tail) (long : 2 < tail.length) :
    IsName (name ++ tail) := by
  have length : 2 < (name ++ tail).length := by
    rw [List.length_append]
    omega
  have apart (short : Text) (bounded : short.length ≤ 2) : name ++ tail ≠ short := by
    intro same
    rw [same] at length
    omega
  exact ⟨by simp [free, free'], apart [] (by decide), apart ['.'] (by decide), apart FileTree.up (by decide)⟩

theorem ofText_of_isName {t : Text} (isName : IsName t) : ofText t = ⟨[], [t]⟩ := by
  have free : ∀ c ∈ t, decide (c = '/') = false := by
    intro c member
    rw [decide_eq_false_iff_not]
    intro slash
    exact isName.noSlash (slash ▸ member)
  have noRoot : rootOf t = [] := by
    unfold rootOf
    have nothing : t.takeWhile (· = '/') = [] := by
      cases t with
      | nil => rfl
      | cons c rest => rw [List.takeWhile_cons, free c List.mem_cons_self]; rfl
    rw [nothing]
    rfl
  unfold ofText wordsBy
  rw [noRoot, splitBy_of_free free]
  simp [isName.nonempty, isName.here]

theorem slash_not_mem_parts {t part : Text} (member : part ∈ (ofText t).parts) : '/' ∉ part := by
  intro inside
  have word := (List.mem_filter.mp (List.mem_filter.mp member).1).1
  have apart := not_sep_of_mem_splitBy word inside
  simp at apart

theorem mem_stem {path : Path} {c : Char} (inside : c ∈ path.stem) : ∃ part ∈ path.parts, c ∈ part := by
  have name : c ∈ path.name := by
    unfold stem at inside
    split at inside
    · rename_i ending before cut
      split at inside
      · exact inside
      · obtain ⟨whole, -⟩ := cutAt?_eq_some.mp cut
        rw [← List.mem_reverse, whole]
        exact List.mem_append_right _ (List.mem_cons_of_mem _ (List.mem_reverse.mp inside))
    · exact inside
  unfold Path.name at name
  cases last : path.parts.getLast? with
  | none =>
    rw [last] at name
    cases name
  | some part =>
    rw [last] at name
    exact ⟨part, List.mem_of_getLast? last, name⟩

theorem slash_not_mem_stem (t : Text) : '/' ∉ (ofText t).stem := by
  intro inside
  obtain ⟨part, member, slash⟩ := mem_stem inside
  exact slash_not_mem_parts member slash

end Path

namespace FileTree

variable {tree : FileTree} {path : Path} {place : Place}

theorem walk_append (tree : FileTree) (place : Place) (names rest : List Text) :
    walk tree place (names ++ rest) = walk tree place names >>= fun between => walk tree between rest := by
  induction names generalizing place with
  | nil => rfl
  | cons name names ih =>
    rw [List.cons_append, walk_cons, walk_cons]
    cases tree.entry? place with
    | none => rfl
    | some entry =>
      cases entry with
      | file => rfl
      | directory =>
        simp only
        split
        · exact ih place
        · split
          · exact ih _
          · split
            · rfl
            · exact ih _

theorem getLast?_of_resolve {names : List Text} {name : Text} (parts : path.parts = names ++ [name])
    (here : name ≠ ['.']) (down : name ≠ up) (resolved : tree.resolve path = .ok place) :
    place.getLast? = some name := by
  unfold resolve at resolved
  split at resolved
  · cases resolved
  · split at resolved
    · cases resolved
    · rw [parts, walk_append] at resolved
      obtain ⟨between, -, last⟩ := bind_eq_ok resolved
      rw [walk_cons] at last
      split at last
      · cases last
      · cases last
      · rw [if_neg here, if_neg down] at last
        split at last
        · cases last
        · cases last
          exact List.getLast?_concat

theorem name_inj_of_resolve {directory directory' : Path} {name name' : Text} (isName : Path.IsName name)
    (isName' : Path.IsName name') (resolved : tree.resolve (directory.join (.ofText name)) = .ok place)
    (resolved' : tree.resolve (directory'.join (.ofText name')) = .ok place) : name = name' := by
  rw [Path.ofText_of_isName isName] at resolved
  rw [Path.ofText_of_isName isName'] at resolved'
  have last := getLast?_of_resolve rfl isName.here isName.up resolved
  have last' := getLast?_of_resolve rfl isName'.here isName'.up resolved'
  rw [last, Option.some_inj] at last'
  exact last'

end FileTree

end Flipbook
