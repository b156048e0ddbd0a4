import Flipbook.Proofs.Markup.TagText

namespace Flipbook.Markup

open Text

def WritableName (name : Text) : Prop := name ≠ [] ∧ ∀ c ∈ name, isAttributeNameChar c

instance (name : Text) : Decidable (WritableName name) :=
  decidable_of_iff (name ≠ [] ∧ name.all isAttributeNameChar) (by rw [WritableName, List.all_eq_true])

def putAttribute (name value : Text) : List Attribute → List Attribute
  | [] => [⟨[' '], name, some (escape value), Tag.written name value⟩]
  | a :: rest =>
    if a.name = name then
      { a with value := some (escape value), text := Tag.written name value } :: rest
    else a :: putAttribute name value rest

def Tag.put (tag : Tag) (name value : Text) : Tag :=
  { tag with attributes := putAttribute name value tag.attributes }

def Tag.putAll (tag : Tag) (values : List (Text × Text)) : Tag :=
  values.foldl (fun tag (name, value) => tag.put name value) tag

@[simp] theorem Tag.putAll_nil (tag : Tag) : tag.putAll [] = tag := rfl

@[simp] theorem Tag.putAll_cons (tag : Tag) (name value : Text) (values : List (Text × Text)) :
    tag.putAll ((name, value) :: values) = (tag.put name value).putAll values := rfl

theorem Tag.putAll_append (tag : Tag) (values others : List (Text × Text)) :
    tag.putAll (values ++ others) = (tag.putAll values).putAll others := List.foldl_append

@[simp] theorem Tag.put_name (tag : Tag) (name value : Text) : (tag.put name value).name = tag.name := rfl

@[simp] theorem Tag.put_selfClosing (tag : Tag) (name value : Text) :
    (tag.put name value).selfClosing = tag.selfClosing := rfl

theorem Tag.putAll_eq (tag : Tag) (values : List (Text × Text)) :
    tag.putAll values = { tag with attributes := (tag.putAll values).attributes } := by
  induction values generalizing tag with
  | nil => rfl
  | cons entry values ih => exact ih (tag.put entry.1 entry.2)

theorem Tag.putAll_name (tag : Tag) (values : List (Text × Text)) : (tag.putAll values).name = tag.name := by
  rw [Tag.putAll_eq]

theorem quote_not_mem_escape (value : Text) : '"' ∉ escape value := by
  intro member
  obtain ⟨c, -, inside⟩ := List.mem_flatMap.mp member
  unfold escapeChar at inside
  split at inside
  · exact absurd inside (by decide)
  · split at inside
    · exact absurd inside (by decide)
    · split at inside
      · exact absurd inside (by decide)
      · rename_i different
        exact different (List.mem_singleton.mp inside).symm

theorem written_eq (name value : Text) :
    Tag.written name value = name ++ ('=' :: ('"' :: escape value ++ ['"'])) := by
  simp [Tag.written]

theorem Attribute.legible_quoted {gap name value : Text} (gapNonempty : gap ≠ [])
    (gapBlank : ∀ c ∈ gap, isBlank c) (writable : WritableName name) (inside : '"' ∉ value) :
    Attribute.Legible ⟨gap, name, some value, name ++ ('=' :: ('"' :: value ++ ['"']))⟩ := by
  have assigned : Attribute.assigned ⟨gap, name, some value, name ++ ('=' :: ('"' :: value ++ ['"']))⟩ =
      '=' :: ('"' :: value ++ ['"']) := by
    rw [Attribute.assigned, List.drop_left]
  refine ⟨gapNonempty, gapBlank, writable.1, writable.2, ?_, ?_⟩
  · rw [assigned]
  · rw [assigned]
    have quoted : ValueText value ('"' :: value ++ ['"']) := .quoted '"' (.inl rfl) inside
    exact @AssignedText.present [] [] _ _ (List.forall_mem_nil _) (List.forall_mem_nil _) quoted

theorem Attribute.legible_written {gap name : Text} (gapNonempty : gap ≠ [])
    (gapBlank : ∀ c ∈ gap, isBlank c) (writable : WritableName name) (value : Text) :
    Attribute.Legible ⟨gap, name, some (escape value), Tag.written name value⟩ := by
  rw [written_eq]
  exact Attribute.legible_quoted gapNonempty gapBlank writable (quote_not_mem_escape value)

theorem legible_putAttribute {name : Text} (writable : WritableName name) (value : Text)
    {attributes : List Attribute} (legible : ∀ a ∈ attributes, a.Legible) :
    ∀ a ∈ putAttribute name value attributes, a.Legible := by
  induction attributes with
  | nil =>
    intro a member
    rw [List.mem_singleton.mp member]
    exact Attribute.legible_written (by simp) (List.forall_mem_singleton.mpr (by decide)) writable value
  | cons b attributes ih =>
    have first := legible b (by simp)
    have others : ∀ a ∈ attributes, a.Legible := fun a member => legible a (by simp [member])
    intro a member
    unfold putAttribute at member
    split at member
    · rename_i same
      rcases List.mem_cons.mp member with rfl | member
      · rw [same]
        exact Attribute.legible_written first.gap_ne_nil first.gap_blank writable value
      · exact others a member
    · rcases List.mem_cons.mp member with rfl | member
      · exact first
      · exact ih others a member

theorem getLast?_putAttribute {name value : Text} {attributes : List Attribute} {a : Attribute}
    (last : a ∈ (putAttribute name value attributes).getLast?) :
    a ∈ attributes.getLast? ∨ a.name = name ∧ a.text = Tag.written name value := by
  induction attributes with
  | nil =>
    cases last
    exact .inr ⟨rfl, rfl⟩
  | cons b attributes ih =>
    unfold putAttribute at last
    cases attributes with
    | nil =>
      split at last
      · rename_i same
        cases last
        exact .inr ⟨same, rfl⟩
      · cases last
        exact .inr ⟨rfl, rfl⟩
    | cons d attributes =>
      split at last
      · exact .inl last
      · refine (ih ?_).imp_left fun old => old
        have nonempty : putAttribute name value (d :: attributes) ≠ [] := by
          unfold putAttribute
          split <;> simp
        obtain ⟨e, others, shape⟩ := List.exists_cons_of_ne_nil nonempty
        rw [shape] at last ⊢
        exact last

theorem Tag.Legible.put {tag : Tag} (legible : tag.Legible) {name : Text} (writable : WritableName name)
    (value : Text) : (tag.put name value).Legible where
  name := legible.name
  attributes := legible_putAttribute writable value legible.attributes
  added := legible.added
  tail := legible.tail
  apart := by
    intro noTail closes a last c lastChar
    rcases getLast?_putAttribute last with old | ⟨sameName, sameText⟩
    · exact legible.apart noTail closes a old c lastChar
    · have shape : a.assigned = ('=' :: '"' :: escape value) ++ ['"'] := by
        rw [Attribute.assigned, sameText, sameName, written_eq, List.drop_left]
        simp
      rw [shape, List.getLast?_concat] at lastChar
      cases lastChar
      decide

theorem Tag.Legible.putAll {tag : Tag} (legible : tag.Legible) {values : List (Text × Text)}
    (writable : ∀ entry ∈ values, WritableName entry.1) : (tag.putAll values).Legible := by
  induction values generalizing tag with
  | nil => exact legible
  | cons entry values ih =>
    exact ih (legible.put (writable entry (by simp)) entry.2) fun other member => writable other (by simp [member])

def Attribute.face (a : Attribute) : Text × Text × Text := (a.gap, a.name, a.text)

/-- The tag `seen` is what the text of `tag` shows: all but the values. -/
structure Tag.Shows (tag seen : Tag) : Prop where
  name : seen.name = tag.name
  attributes : seen.attributes.map Attribute.face = (tag.attributes ++ tag.added).map Attribute.face
  added : seen.added = []
  tail : seen.tail = tag.tail
  selfClosing : seen.selfClosing = tag.selfClosing

theorem flatMap_face {attributes others : List Attribute}
    (same : attributes.map Attribute.face = others.map Attribute.face) :
    attributes.flatMap (fun a => a.gap ++ a.text) = others.flatMap (fun a => a.gap ++ a.text) := by
  have through (list : List Attribute) :
      list.flatMap (fun a => a.gap ++ a.text) =
        (list.map Attribute.face).flatMap (fun face => face.1 ++ face.2.2) := by
    rw [List.flatMap_map]
    rfl
  rw [through, through, same]

theorem Tag.Shows.render_eq {tag seen : Tag} (shows : tag.Shows seen) : seen.render = tag.render := by
  have faces := flatMap_face shows.attributes
  rw [List.flatMap_append] at faces
  simp only [Tag.render, Tag.ending, shows.name, shows.added, shows.tail, shows.selfClosing, faces]
  simp

def setOrAdd (name value : Text) (attributes : List Attribute) : List Attribute :=
  (Tag.setFirst? name value attributes).getD
    (attributes ++ [⟨[' '], name, some value, Tag.written name value⟩])

theorem setFirst?_cons (name value : Text) (a : Attribute) (rest : List Attribute) :
    Tag.setFirst? name value (a :: rest) =
      if a.name = name then some ({ a with value := some value, text := Tag.written name value } :: rest)
      else (Tag.setFirst? name value rest).map (a :: ·) := rfl

theorem setFirst?_append (name value : Text) (attributes others : List Attribute) :
    Tag.setFirst? name value (attributes ++ others) =
      ((Tag.setFirst? name value attributes).map (· ++ others)).or
        ((Tag.setFirst? name value others).map (attributes ++ ·)) := by
  induction attributes with
  | nil => simp [Tag.setFirst?]
  | cons a attributes ih =>
    rw [List.cons_append, setFirst?_cons, setFirst?_cons]
    split
    · rfl
    · rw [ih]
      cases Tag.setFirst? name value attributes <;> cases Tag.setFirst? name value others <;> rfl

theorem attributes_set (tag : Tag) (name value : Text) :
    (tag.set name value).attributes ++ (tag.set name value).added =
      setOrAdd name value (tag.attributes ++ tag.added) := by
  unfold Tag.set setOrAdd
  rw [setFirst?_append]
  cases source : Tag.setFirst? name value tag.attributes with
  | some attributes => simp
  | none =>
    cases Tag.setFirst? name value tag.added with
    | some added => simp
    | none => simp

theorem face_setOrAdd (name value : Text) {attributes seen : List Attribute}
    (same : seen.map Attribute.face = attributes.map Attribute.face) :
    (putAttribute name value seen).map Attribute.face = (setOrAdd name value attributes).map Attribute.face := by
  induction attributes generalizing seen with
  | nil =>
    rw [List.map_nil, List.map_eq_nil_iff] at same
    subst same
    rfl
  | cons a attributes ih =>
    cases seen with
    | nil => cases same
    | cons b seen =>
      rw [List.map_cons, List.map_cons] at same
      obtain ⟨first, others⟩ := List.cons.inj same
      have sameGap : b.gap = a.gap := congrArg (·.1) first
      have sameName : b.name = a.name := congrArg (·.2.1) first
      unfold putAttribute setOrAdd
      rw [setFirst?_cons, sameName]
      split
      · simp [Attribute.face, sameGap, others]
      · have rest := ih others
        unfold setOrAdd at rest
        cases found : Tag.setFirst? name value attributes with
        | some changed =>
          rw [found] at rest
          simpa [first] using rest
        | none =>
          rw [found] at rest
          simpa [first] using rest

theorem Tag.Shows.set {tag seen : Tag} (shows : tag.Shows seen) (name value : Text) :
    (tag.set name value).Shows (seen.put name value) := by
  have attributes := face_setOrAdd name value shows.attributes
  rw [← attributes_set] at attributes
  have kept : (tag.set name value).name = tag.name ∧ (tag.set name value).tail = tag.tail ∧
      (tag.set name value).selfClosing = tag.selfClosing := by
    unfold Tag.set
    split
    · exact ⟨rfl, rfl, rfl⟩
    · split <;> exact ⟨rfl, rfl, rfl⟩
  exact ⟨shows.name.trans kept.1.symm, attributes, shows.added, shows.tail.trans kept.2.1.symm,
    shows.selfClosing.trans kept.2.2.symm⟩

theorem Tag.Shows.setAll {tag seen : Tag} (shows : tag.Shows seen) (values : List (Text × Text)) :
    (tag.setAll values).Shows (seen.putAll values) := by
  induction values generalizing tag seen with
  | nil => exact shows
  | cons entry values ih => exact ih (shows.set entry.1 entry.2)

theorem Tag.render_setAll {tag : Tag} (noneAdded : tag.added = []) (values : List (Text × Text)) :
    (tag.setAll values).render = (tag.putAll values).render := by
  have itself : tag.Shows tag := ⟨rfl, by rw [noneAdded, List.append_nil], noneAdded, rfl, rfl⟩
  exact (itself.setAll values).render_eq.symm

/-- Values are set in any number and any order, and the tag still reads as one tag. -/
theorem Tag.read?_setAll {tag : Tag} (legible : tag.Legible) {values : List (Text × Text)}
    (writable : ∀ entry ∈ values, WritableName entry.1) (rest : Text) :
    Tag.read? ((tag.setAll values).render ++ rest) = some (tag.putAll values, rest) := by
  rw [Tag.render_setAll legible.added]
  exact Tag.read?_complete (legible.putAll writable) rest

/-- The value of the last attribute of a name that has one. -/
def lastValue? (name : Text) : List Attribute → Option Text
  | [] => none
  | a :: rest => (lastValue? name rest).or (if a.name = name then a.value else none)

theorem attributeMap_get? (tag : Tag) (name : Text) :
    tag.attributeMap.get? name = lastValue? name (tag.attributes ++ tag.added) := by
  rw [Tag.attributeMap, Table.get?_ofList]
  induction tag.attributes ++ tag.added with
  | nil => rfl
  | cons a rest ih =>
    rw [lastValue?, ← ih]
    cases valued : a.value with
    | none => simp [valued]
    | some value =>
      simp only [List.filterMap_cons, valued, Option.map_some, List.reverse_cons, Table.get?_append,
        Table.get?_cons, Table.get?_nil]

theorem names_putAttribute (name value : Text) (attributes : List Attribute) :
    (putAttribute name value attributes).map (·.name) =
      if name ∈ attributes.map (·.name) then attributes.map (·.name)
      else attributes.map (·.name) ++ [name] := by
  induction attributes with
  | nil => rfl
  | cons a attributes ih =>
    unfold putAttribute
    split
    · rename_i same
      simp [same]
    · rename_i different
      have apart : name ≠ a.name := Ne.symm different
      rw [List.map_cons, ih, List.map_cons]
      by_cases member : name ∈ attributes.map (·.name)
      · rw [if_pos member, if_pos (List.mem_cons_of_mem _ member)]
      · rw [if_neg member, if_neg (by simpa [apart] using member), List.cons_append]

theorem nodup_putAttribute {attributes : List Attribute} (distinct : (attributes.map (·.name)).Nodup)
    (name value : Text) : ((putAttribute name value attributes).map (·.name)).Nodup := by
  rw [names_putAttribute]
  split
  · exact distinct
  · rename_i absent
    refine List.nodup_append.mpr ⟨distinct, by simp, ?_⟩
    rintro other member last single rfl
    rw [List.mem_singleton.mp single] at member
    exact absent member

theorem lastValue?_eq_none {name : Text} {attributes : List Attribute}
    (absent : name ∉ attributes.map (·.name)) : lastValue? name attributes = none := by
  induction attributes with
  | nil => rfl
  | cons a attributes ih =>
    rw [List.map_cons, List.mem_cons, not_or] at absent
    rw [lastValue?, ih absent.2, if_neg (Ne.symm absent.1)]
    rfl

theorem lastValue?_putAttribute_self {attributes : List Attribute}
    (distinct : (attributes.map (·.name)).Nodup) (name value : Text) :
    lastValue? name (putAttribute name value attributes) = some (escape value) := by
  induction attributes with
  | nil => simp [putAttribute, lastValue?]
  | cons a attributes ih =>
    rw [List.map_cons, List.nodup_cons] at distinct
    unfold putAttribute
    split
    · rename_i same
      rw [lastValue?, lastValue?_eq_none (same ▸ distinct.1), if_pos same, Option.none_or]
    · rw [lastValue?, ih distinct.2, Option.some_or]

theorem lastValue?_putAttribute_of_ne {name other : Text} (different : name ≠ other) (value : Text)
    (attributes : List Attribute) :
    lastValue? other (putAttribute name value attributes) = lastValue? other attributes := by
  induction attributes with
  | nil => simp [putAttribute, lastValue?, different]
  | cons a attributes ih =>
    unfold putAttribute
    split
    · rename_i same
      rw [lastValue?, lastValue?, if_neg (same ▸ different), if_neg (same ▸ different)]
    · rw [lastValue?, lastValue?, ih]

theorem attributeMap_put_self {tag : Tag} (distinct : (tag.attributes.map (·.name)).Nodup)
    (noneAdded : tag.added = []) (name value : Text) :
    (tag.put name value).attributeMap.get? name = some (escape value) := by
  rw [attributeMap_get?, show (tag.put name value).added = [] from noneAdded, List.append_nil]
  exact lastValue?_putAttribute_self distinct name value

theorem attributeMap_put_of_ne {name other : Text} (different : name ≠ other) {tag : Tag}
    (noneAdded : tag.added = []) (value : Text) :
    (tag.put name value).attributeMap.get? other = tag.attributeMap.get? other := by
  rw [attributeMap_get?, attributeMap_get?, show (tag.put name value).added = [] from noneAdded, noneAdded,
    List.append_nil, List.append_nil]
  exact lastValue?_putAttribute_of_ne different value tag.attributes

def lastWritten? (values : List (Text × Text)) (name : Text) : Option Text :=
  Table.get? values.reverse name

theorem lastWritten?_cons (name value : Text) (values : List (Text × Text)) (other : Text) :
    lastWritten? ((name, value) :: values) other =
      (lastWritten? values other).or (if name = other then some value else none) := by
  rw [lastWritten?, List.reverse_cons, Table.get?_append, Table.get?_cons, Table.get?_nil]
  rfl

theorem isSome_lastWritten? {values : List (Text × Text)} {name : Text} (given : name ∈ values.map (·.1)) :
    (lastWritten? values name).isSome := by
  induction values with
  | nil => cases given
  | cons entry values ih =>
    rw [lastWritten?_cons, Option.isSome_or, Bool.or_eq_true]
    rcases List.mem_cons.mp given with rfl | later
    · exact .inr (by rw [if_pos rfl]; rfl)
    · exact .inl (ih later)

theorem attributeMap_putAll {tag : Tag} (distinct : (tag.attributes.map (·.name)).Nodup)
    (noneAdded : tag.added = []) (values : List (Text × Text)) (name : Text) :
    (tag.putAll values).attributeMap.get? name =
      ((lastWritten? values name).map escape).or (tag.attributeMap.get? name) := by
  induction values generalizing tag with
  | nil => rfl
  | cons entry values ih =>
    obtain ⟨known, value⟩ := entry
    have step : (tag.put known value).attributeMap.get? name =
        if known = name then some (escape value) else tag.attributeMap.get? name := by
      split
      · rename_i same
        rw [← same]
        exact attributeMap_put_self distinct noneAdded known value
      · rename_i different
        exact attributeMap_put_of_ne different noneAdded value
    have rest : ((tag.put known value).putAll values).attributeMap.get? name = _ :=
      ih (nodup_putAttribute distinct known value) noneAdded
    rw [Tag.putAll_cons, rest, step, lastWritten?_cons]
    cases lastWritten? values name with
    | some last => rfl
    | none => split <;> rfl

end Flipbook.Markup
