import Flipbook.Proofs.Css.BlockPlaces
import Flipbook.Proofs.Css.Totality

namespace Flipbook.Css

open Text

structure SelectorRule where
  group : Text
  body : Text
  deriving DecidableEq

/-- The rule of a block; none if its head is blank or that of an at-rule. -/
def Block.selectorRule? (block : Block) : Option SelectorRule :=
  if block.group = [] ∨ block.group.head? = some '@' then none else some ⟨block.group, block.body⟩

def selectorRules (css : Text) : List SelectorRule := (rules css).filterMap Block.selectorRule?

def SelectorRule.animation? (rule : SelectorRule) : Except StyleError (Option Animation) :=
  (animationFields (declarations rule.body)).map (bound? rule.group (declarations rule.body))

def bindings (rules : List SelectorRule) : Except StyleError (Table Animation) :=
  (rules.filterMapM SelectorRule.animation?).map fun found =>
    Table.ofList (found.map fun animation => (animation.selectorGroup, animation))

theorem filterMapM_filterMap {α β γ ε : Type} {f : α → Option β} {g : β → Except ε (Option γ)}
    {whole : α → Except ε (Option γ)} (through : ∀ item, whole item = ((f item).map g).getD (.ok none))
    (items : List α) : (items.filterMap f).filterMapM g = items.filterMapM whole := by
  induction items with
  | nil => rfl
  | cons item items ih =>
    rw [List.filterMapM_cons, through, ← ih]
    cases found : f item with
    | none =>
      rw [List.filterMap_cons_none found]
      rfl
    | some first => rw [List.filterMap_cons_some found, List.filterMapM_cons, Option.map_some, Option.getD_some]

theorem animations_eq_bindings (css : Text) : animations css = bindings (selectorRules css) := by
  rw [animations_eq, bindings, selectorRules, filterMapM_filterMap fun block => ?_]
  rw [Block.animation?_eq, Block.selectorRule?]
  split <;> rfl

theorem head?_joinWith_words (t : Text) : (joinWith [' '] (words t)).head? = t.find? (!isBlank ·) := by
  cases found : t.find? (!isBlank ·) with
  | none =>
    have blank : ∀ c ∈ t, isBlank c := by simpa using List.find?_eq_none.mp found
    rw [words_of_blank blank]
    rfl
  | some c =>
    obtain ⟨solid, before, rest, rfl, passed⟩ := List.find?_eq_some_iff_append.mp found
    have blank : ∀ d ∈ before, isBlank d := by simpa using passed
    have start : words (before ++ c :: rest) = words (c :: rest) := by
      have around := @words_around before (c :: rest) [] blank (List.forall_mem_nil _)
      rwa [List.append_nil] at around
    obtain ⟨piece, pieces, -, cut⟩ := splitBy_cons isBlank c rest
    rw [if_neg (by simpa using solid)] at cut
    rw [start, words, wordsBy, cut, List.filter_cons_of_pos rfl]
    cases pieces.filter (!·.isEmpty) <;> rfl

/-- No selectors stand in the text: it is blank, or what stands there is an at-rule. -/
def Headless (t : Text) : Prop := ∀ c ∈ t.find? (!isBlank ·), c = '@'

theorem selectorRule?_eq_none {block : Block} : block.selectorRule? = none ↔ Headless block.head := by
  have first : block.group.head? = block.head.find? (!isBlank ·) := head?_joinWith_words block.head
  rw [Block.selectorRule?, ite_eq_left_iff, Headless, ← first]
  cases block.group <;> simp

theorem headless_append {t : Text} (atRule : t.find? (!isBlank ·) = some '@') (tail : Text) : Headless (t ++ tail) := by
  rw [Headless, List.find?_append, atRule]
  simp

theorem selectorRule?_of_blank {t : Text} (blank : ∀ c ∈ t, isBlank c) (head body : Text) :
    Block.selectorRule? ⟨t ++ head, body⟩ = Block.selectorRule? ⟨head, body⟩ := by
  have group : Block.group ⟨t ++ head, body⟩ = Block.group ⟨head, body⟩ := by
    have around := @words_around t head [] blank (List.forall_mem_nil _)
    rw [List.append_nil] at around
    rw [Block.group, around, Block.group]
  rw [Block.selectorRule?, group]
  rfl

namespace Reading

def rules (reading : Reading) (t : Text) : List SelectorRule :=
  (reading.blocks (fun _ => true) t).filterMap Block.selectorRule?

def rule? (reading : Reading) (tail : Text) : Option SelectorRule :=
  reading.inside.bind fun block => Block.selectorRule? ⟨block.head, block.body ++ tail⟩

/-- The same rules are found from two states: from the heads, whatever completes them, and from the open blocks. -/
structure Alike (reading other : Reading) : Prop where
  head : ∀ tail body, Block.selectorRule? ⟨reading.head ++ tail, body⟩ = Block.selectorRule? ⟨other.head ++ tail, body⟩
  inside : ∀ tail, reading.rule? tail = other.rule? tail

theorem rules_cons (reading : Reading) (c : Char) (t : Text) : reading.rules (c :: t) =
    (if c = '}' then reading.rule? [] else none).toList ++ (reading.next (fun _ => true) c).rules t := by
  rw [rules, blocks_cons, List.filterMap_append]
  refine congrArg (· ++ _) ?_
  unfold closed? rule?
  split
  · cases reading.inside with
    | none => rfl
    | some block =>
      rw [Option.bind_some, List.append_nil, Option.toList_some, List.filterMap_cons]
      cases block.selectorRule? <;> rfl
  · rfl

theorem rules_append (reading : Reading) (t u : Text) :
    reading.rules (t ++ u) = reading.rules t ++ (reading.after (fun _ => true) t).rules u := by
  rw [rules, blocks_append, List.filterMap_append]
  rfl

theorem rule?_open (reading : Reading) (tail : Text) :
    (reading.next (fun _ => true) '{').rule? tail = Block.selectorRule? ⟨reading.head, tail⟩ := by
  obtain ⟨head, inside⟩ := reading
  cases head <;> rfl

theorem rule?_plain {c : Char} (noOpen : c ≠ '{') (noClose : c ≠ '}') (reading : Reading) (tail : Text) :
    (reading.next (fun _ => true) c).rule? tail = reading.rule? (c :: tail) := by
  rw [next_plain noOpen noClose]
  unfold rule?
  cases reading.inside with
  | none => rfl
  | some block => simp

theorem Alike.next {reading other : Reading} (alike : Alike reading other) (c : Char) :
    Alike (reading.next (fun _ => true) c) (other.next (fun _ => true) c) := by
  by_cases isOpen : c = '{'
  · subst isOpen
    refine ⟨fun _ _ => rfl, fun tail => ?_⟩
    have heads := alike.head [] tail
    rw [List.append_nil, List.append_nil] at heads
    rw [rule?_open, rule?_open, heads]
  · by_cases isClose : c = '}'
    · subst isClose
      exact ⟨fun _ _ => rfl, fun _ => rfl⟩
    · refine ⟨fun tail body => ?_, fun tail => ?_⟩
      · have heads := alike.head (c :: tail) body
        rw [next_plain isOpen isClose, next_plain isOpen isClose]
        simpa using heads
      · rw [rule?_plain isOpen isClose, rule?_plain isOpen isClose, alike.inside]

theorem Alike.rules_eq {reading other : Reading} (alike : Alike reading other) (t : Text) :
    reading.rules t = other.rules t := by
  induction t generalizing reading other with
  | nil => rfl
  | cons c t ih => rw [rules_cons, rules_cons, alike.inside, ih (alike.next c)]

theorem rules_of_blank {t : Text} (blank : ∀ c ∈ t, isBlank c) (u : Text) :
    (Reading.mk t none).rules u = start.rules u := by
  have alike : Alike ⟨t, none⟩ start := ⟨fun tail body => selectorRule?_of_blank blank tail body, fun _ => rfl⟩
  exact alike.rules_eq u

theorem rules_of_atRule {t : Text} (atRule : t.find? (!isBlank ·) = some '@') (u : Text) :
    (Reading.mk t none).rules u = (Reading.mk ['@'] none).rules u := by
  have alike : Alike ⟨t, none⟩ ⟨['@'], none⟩ := by
    refine ⟨fun tail body => ?_, fun _ => rfl⟩
    have own : Headless (['@'] ++ tail) := headless_append (by decide) tail
    rw [selectorRule?_eq_none.mpr (headless_append atRule tail), selectorRule?_eq_none.mpr own]
  exact alike.rules_eq u

theorem rules_inside_atRule {t : Text} (atRule : t.find? (!isBlank ·) = some '@') (u : Text) :
    (Reading.mk t none).rules ('{' :: u) = start.rules u := by
  have alike : Alike ((Reading.mk t none).next (fun _ => true) '{') start := by
    refine ⟨fun _ _ => rfl, fun tail => ?_⟩
    have headless := headless_append atRule []
    rw [List.append_nil] at headless
    rw [rule?_open, selectorRule?_eq_none.mpr headless]
    rfl
  rw [rules_cons, if_neg (by decide), alike.rules_eq]
  rfl

section Flat

variable {t : Text} (flat : ∀ c ∈ t, c ≠ '{' ∧ c ≠ '}')
include flat

theorem after_flat (reading : Reading) : reading.after (fun _ => true) t =
    ⟨reading.head ++ t, reading.inside.map fun block => ⟨block.head, block.body ++ t⟩⟩ := by
  induction t using List.reverseRecOn with
  | nil =>
    obtain ⟨head, inside⟩ := reading
    cases inside <;> simp [after]
  | append_singleton t c ih =>
    obtain ⟨others, last⟩ := List.forall_mem_append.mp flat
    obtain ⟨noOpen, noClose⟩ := last c List.mem_cons_self
    rw [after_concat, ih others, next_plain noOpen noClose]
    cases reading.inside <;> simp

theorem rules_flat (reading : Reading) : reading.rules t = [] := by
  induction t generalizing reading with
  | nil => rfl
  | cons c t ih =>
    obtain ⟨⟨-, noClose⟩, others⟩ := List.forall_mem_cons.mp flat
    rw [rules_cons, if_neg noClose, ih others]
    rfl

theorem rules_flat_append (head : Text) (u : Text) :
    (Reading.mk head none).rules (t ++ u) = (Reading.mk (head ++ t) none).rules u := by
  rw [rules_append, rules_flat flat, after_flat flat]
  rfl

theorem rule?_after (reading : Reading) (tail : Text) :
    (reading.after (fun _ => true) t).rule? tail = reading.rule? (t ++ tail) := by
  rw [after_flat flat]
  unfold rule?
  cases reading.inside <;> simp

end Flat

end Reading

structure Leads (block : Block) (t : Text) : Prop where
  begins : block.head ++ '{' :: (block.body ++ ['}']) <+: t
  flatHead : ∀ c ∈ block.head, c ≠ '{' ∧ c ≠ '}'
  flatBody : ∀ c ∈ block.body, c ≠ '{' ∧ c ≠ '}'

theorem Leads.cuts {t : Text} {block : Block} (leads : Leads block t) :
    ∃ rest after, cutAt? '{' t = some (block.head, rest) ∧ cutAt? '}' rest = some (block.body, after) := by
  obtain ⟨⟨after, rfl⟩, flatHead, flatBody⟩ := leads
  refine ⟨block.body ++ '}' :: after, after, cutAt?_eq_some.mpr ⟨by simp, ?_⟩, cutAt?_eq_some.mpr ⟨rfl, ?_⟩⟩
  · exact fun member => (flatHead '{' member).1 rfl
  · exact fun member => (flatBody '}' member).2 rfl

theorem Leads.unique {t : Text} {block other : Block} (leads : Leads block t) (leads' : Leads other t) :
    block = other := by
  obtain ⟨rest, after, head, body⟩ := leads.cuts
  obtain ⟨rest', after', head', body'⟩ := leads'.cuts
  obtain ⟨sameHead, rfl⟩ := Prod.mk.inj (Option.some.inj (head.symm.trans head'))
  obtain ⟨sameBody, -⟩ := Prod.mk.inj (Option.some.inj (body.symm.trans body'))
  obtain ⟨_, _⟩ := block
  obtain ⟨_, _⟩ := other
  exact congrArg₂ Block.mk sameHead sameBody

theorem flat_or_brace (t : Text) : (∀ c ∈ t, c ≠ '{' ∧ c ≠ '}') ∨
    ∃ before c after, t = before ++ c :: after ∧ (∀ c ∈ before, c ≠ '{' ∧ c ≠ '}') ∧ (c = '{' ∨ c = '}') := by
  cases found : t.find? fun c => c = '{' ∨ c = '}' with
  | none =>
    have flat := List.find?_eq_none.mp found
    simp only [decide_eq_true_eq, not_or] at flat
    exact .inl flat
  | some c =>
    obtain ⟨brace, before, after, shape, flat⟩ := List.find?_eq_some_iff_append.mp found
    exact .inr ⟨before, c, after, shape, by simpa using flat, of_decide_eq_true brace⟩

namespace Reading

theorem rules_of_leads {t : Text} {block : Block} (leads : Leads block t) : ∃ later, ∀ head,
    (Reading.mk head none).rules t = (Block.selectorRule? ⟨head ++ block.head, block.body⟩).toList ++ later := by
  obtain ⟨⟨after, rfl⟩, flatHead, flatBody⟩ := leads
  refine ⟨start.rules after, fun head => ?_⟩
  have shape : block.head ++ '{' :: (block.body ++ ['}']) ++ after =
      block.head ++ '{' :: (block.body ++ '}' :: after) := by simp
  rw [shape, rules_flat_append flatHead, rules_cons, if_neg (by decide), rules_append, rules_flat flatBody, rules_cons,
    if_pos rfl, rule?_after flatBody, List.append_nil, rule?_open]
  rfl

theorem rules_of_not_leads {t : Text} (none : ∀ block, ¬Leads block t) (head : Text) :
    (Reading.mk head .none).rules t = start.rules t := by
  rcases flat_or_brace t with flat | ⟨own, c, rest, rfl, flat, brace⟩
  · rw [rules_flat flat, rules_flat flat]
  · have opened := rules_flat_append flat [] (c :: rest)
    change start.rules _ = _ at opened
    rw [rules_flat_append flat, opened]
    rcases brace with rfl | rfl
    · rcases flat_or_brace rest with flatRest | ⟨body, d, after, rfl, flatBody, brace⟩
      · rw [rules_cons, rules_cons, rules_flat flatRest, rules_flat flatRest]
        rfl
      · rcases brace with rfl | rfl
        · -- a second brace opens a block of its own
          rw [rules_cons, rules_cons, rules_append, rules_append, rules_flat flatBody, rules_flat flatBody, rules_cons,
            rules_cons, after_flat flatBody, after_flat flatBody]
          rfl
        · exact absurd ⟨⟨after, by simp⟩, flat, flatBody⟩ (none ⟨own, body⟩)
    · rfl

theorem rules_leading (t : Text) : ∃ first later,
    (∀ rule, first = some rule ↔ ∃ block, Leads block t ∧ block.selectorRule? = some rule) ∧
      start.rules t = first.toList ++ later ∧ (Reading.mk ['@'] none).rules t = later := by
  by_cases leading : ∃ block, Leads block t
  · obtain ⟨block, leads⟩ := leading
    obtain ⟨later, found⟩ := rules_of_leads leads
    refine ⟨block.selectorRule?, later, fun rule => ?_, found [], ?_⟩
    · constructor
      · exact fun isRule => ⟨block, leads, isRule⟩
      · rintro ⟨other, leads', isRule⟩
        rw [leads.unique leads', isRule]
    · have headless : Headless (['@'] ++ block.head) := headless_append (by decide) block.head
      rw [found, selectorRule?_eq_none.mpr headless]
      rfl
  · rw [not_exists] at leading
    refine ⟨none, start.rules t, fun rule => iff_of_false (by simp) ?_, rfl, rules_of_not_leads leading _⟩
    rintro ⟨block, leads, -⟩
    exact leading block leads

end Reading

end Flipbook.Css
