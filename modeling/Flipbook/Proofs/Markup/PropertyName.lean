import Flipbook.Proofs.Markup.Untouched
import Mathlib.Data.Bool.AllAny

namespace Flipbook.Text

def isCapital (c : Char) : Bool := 'A' ≤ c && c ≤ 'Z'

def smallOf (c : Char) : Char := Char.ofNat (c.toNat + 32)

/-- No lower case but of ASCII. The letter `k` is that of the Kelvin sign too. -/
def IsPlain (c : Char) : Prop := c.toNat < 128 ∧ isCapital c = false ∧ c ≠ 'k' ∧ c ≠ '\x00'

instance (c : Char) : Decidable (IsPlain c) := inferInstanceAs (Decidable (_ ∧ _))

def LowersTo (c small : Char) : Prop := c = small ∨ isCapital c ∧ smallOf c = small

theorem toNat_lt_of_isCapital {c : Char} (capital : isCapital c) : c.toNat < 128 := by
  unfold isCapital at capital
  simp only [Bool.and_eq_true, decide_eq_true_eq] at capital
  have high : c.toNat ≤ 90 := capital.2
  omega

theorem LowersTo.ascii {c small : Char} (lowers : LowersTo c small) (plain : IsPlain small) : c.val < 128 := by
  rcases lowers with rfl | ⟨capital, -⟩
  · exact plain.1
  · exact toNat_lt_of_isCapital capital

theorem lowerChar_ne_of_wide {c small : Char} (wide : ¬c.val < 128) (plain : IsPlain small) :
    lowerChar c ≠ small := by
  obtain ⟨ascii, -, notK, notNull⟩ := plain
  -- the table is looked through once: what its runs lead to is past ASCII, but for the Kelvin sign
  have targets : (caseRuns.all fun run =>
      decide (128 ≤ run.first + run.shift) || (run.first == run.last && run.first + run.shift == 107)) = true := by
    decide +kernel
  have far : 128 ≤ c.toNat := Nat.le_of_not_lt wide
  unfold lowerChar
  rw [if_neg wide]
  intro same
  cases found : caseRuns.findSome? (·.lower? c.toNat) with
  | none =>
    rw [found] at same
    have here : c = small := same
    rw [here] at far
    omega
  | some n =>
    rw [found] at same
    have letter : Char.ofNat n = small := same
    obtain ⟨run, member, moved⟩ := List.exists_of_findSome?_eq_some found
    unfold CaseRun.lower? at moved
    split at moved
    · rename_i inside
      simp only [Bool.and_eq_true, decide_eq_true_eq] at inside
      have target := List.all_eq_true.mp targets run member
      simp only [Bool.or_eq_true, Bool.and_eq_true, decide_eq_true_eq, beq_iff_eq] at target
      cases moved
      rcases target with high | ⟨single, kelvin⟩
      · unfold Char.ofNat at letter
        by_cases valid : (c.toNat + run.shift).toNat.isValidChar
        · rw [dif_pos valid] at letter
          rw [← letter] at ascii
          change (c.toNat + run.shift).toNat < 128 at ascii
          omega
        · rw [dif_neg valid] at letter
          exact notNull letter.symm
      · have place : (c.toNat + run.shift).toNat = 107 := by omega
        rw [place] at letter
        exact notK letter.symm
    · cases moved

theorem lowerChar_eq_iff {c small : Char} (plain : IsPlain small) : lowerChar c = small ↔ LowersTo c small := by
  by_cases ascii : c.val < 128
  · unfold lowerChar LowersTo
    rw [if_pos ascii]
    change (if isCapital c then smallOf c else c) = small ↔ _
    cases capital : isCapital c with
    | true =>
      refine ⟨fun same => .inr ⟨rfl, same⟩, ?_⟩
      rintro (rfl | ⟨-, same⟩)
      · exact absurd capital (by simp [plain.2.1])
      · exact same
    | false => simp
  · exact iff_of_false (lowerChar_ne_of_wide ascii plain) fun lowers => ascii (lowers.ascii plain)

theorem lowerAfter_eq_iff {t small : Text} (plain : ∀ c ∈ small, IsPlain c) (before : Text) :
    lowerAfter before t = small ↔ List.Forall₂ LowersTo t small := by
  induction t generalizing before small with
  | nil => simp [lowerAfter, eq_comm]
  | cons c rest ih =>
    -- the letters that become another number of characters, or other ones, leave ASCII
    have wide {d : Char} (far : ¬d.toNat < 128) {later : Text} {small : Text} (plain : ∀ c ∈ small, IsPlain c) :
        ∀ begin, begin ++ d :: later ≠ small := by
      rintro begin rfl
      exact far (plain d (by simp)).1
    have none (far : ¬c.val < 128) : ¬List.Forall₂ LowersTo (c :: rest) small := by
      intro lowers
      cases lowers with
      | cons first others => exact far (first.ascii (plain _ (by simp)))
    unfold lowerAfter
    by_cases dotted : c = 'İ'
    · subst dotted
      exact iff_of_false (wide (d := '\u0307') (by decide) plain ['i']) (none (by decide))
    by_cases sigma : c = 'Σ'
    · subst sigma
      refine iff_of_false ?_ (none (by decide))
      simp only [if_neg dotted, ↓reduceIte]
      split
      · exact wide (d := 'ς') (by decide) plain []
      · exact wide (d := 'σ') (by decide) plain []
    simp only [if_neg dotted, if_neg sigma, List.singleton_append]
    cases small with
    | nil => simp
    | cons d small =>
      have here : IsPlain d := plain d (by simp)
      have later : ∀ c ∈ small, IsPlain c := fun c member => plain c (List.mem_cons_of_mem _ member)
      rw [List.cons_eq_cons, List.forall₂_cons, lowerChar_eq_iff here, ih later]

end Flipbook.Text

namespace Flipbook.Markup

open Text Css

/-- How a property is spelled that is written as an attribute: a capital for a dash and a small letter, all else as
    it stands. -/
inductive Spells : Text → Text → Prop
  | nil : Spells [] []
  | same {c : Char} {property name : Text} (small : isCapital c = false) (rest : Spells property name) :
      Spells (c :: property) (c :: name)
  | capital {c : Char} {property name : Text} (capital : isCapital c) (rest : Spells property name) :
      Spells (c :: property) ('-' :: smallOf c :: name)

def dashed (property : Text) : Text := property.flatMap fun c => if isCapital c then ['-', c] else [c]

theorem dashed_cons (c : Char) (property : Text) :
    dashed (c :: property) = if isCapital c then '-' :: c :: dashed property else c :: dashed property := by
  unfold dashed
  rw [List.flatMap_cons]
  split <;> rfl

theorem forall₂_dashed_iff {property name : Text} (plain : ∀ c ∈ name, IsPlain c) :
    List.Forall₂ LowersTo (dashed property) name ↔ Spells property name := by
  have itself {c d : Char} (small : isCapital c = false) (lowers : LowersTo c d) : c = d :=
    lowers.resolve_right fun other => absurd other.1 (by simp [small])
  constructor
  · intro lowers
    induction property generalizing name with
    | nil =>
      cases lowers
      exact .nil
    | cons c property ih =>
      rw [dashed_cons] at lowers
      split at lowers
      · rename_i capital
        obtain ⟨d, tail, first, following, rfl⟩ := List.forall₂_cons_left_iff.mp lowers
        obtain ⟨d', rest, second, others, rfl⟩ := List.forall₂_cons_left_iff.mp following
        have letter : smallOf c = d' := by
          rcases second with rfl | ⟨-, same⟩
          · exact absurd capital (by simp [(plain c (by simp)).2.1])
          · exact same
        rw [← itself (by decide) first, ← letter]
        exact .capital capital (ih (fun c member => plain c (by simp [member])) others)
      · rename_i small
        obtain ⟨d, rest, first, others, rfl⟩ := List.forall₂_cons_left_iff.mp lowers
        have small : isCapital c = false := by simpa using small
        rw [← itself small first]
        exact .same small (ih (fun c member => plain c (List.mem_cons_of_mem _ member)) others)
  · intro spells
    induction spells with
    | nil => exact .nil
    | same small rest ih =>
      rw [dashed_cons, if_neg (by simp [small])]
      exact .cons (.inl rfl) (ih fun c member => plain c (List.mem_cons_of_mem _ member))
    | capital capital rest ih =>
      rw [dashed_cons, if_pos capital]
      refine .cons (.inl rfl) (.cons (.inr ⟨capital, rfl⟩) (ih fun c member => plain c ?_))
      simp [member]

theorem attributeName_eq_iff {property name : Text} (plain : ∀ c ∈ name, IsPlain c) :
    attributeName property = name ↔ Spells property name := by
  rw [← forall₂_dashed_iff plain]
  exact lowerAfter_eq_iff plain []

theorem spells_cons_iff {property name : Text} {d : Char} (small : isCapital d = false) :
    Spells property (d :: name) ↔
      (∃ rest, property = d :: rest ∧ Spells rest name) ∨
        d = '-' ∧ ∃ c rest letters, property = c :: rest ∧ name = smallOf c :: letters ∧ isCapital c ∧
          Spells rest letters := by
  constructor
  · generalize whole : d :: name = text
    intro spells
    cases spells with
    | nil => cases whole
    | same _ rest =>
      cases whole
      exact .inl ⟨_, rfl, rest⟩
    | capital capital rest =>
      cases whole
      exact .inr ⟨rfl, _, _, _, rfl, rfl, capital, rest⟩
  · rintro (⟨rest, rfl, spells⟩ | ⟨rfl, c, rest, letters, rfl, rfl, capital, spells⟩)
    · exact .same small spells
    · exact .capital capital spells

theorem spells_append_iff {first : Text} (free : ∀ c ∈ first, c ≠ '-' ∧ isCapital c = false) {property rest : Text} :
    Spells property (first ++ rest) ↔ ∃ later, property = first ++ later ∧ Spells later rest := by
  induction first generalizing property with
  | nil => simp
  | cons c first ih =>
    obtain ⟨noDash, small⟩ := free c (by simp)
    have free' : ∀ d ∈ first, d ≠ '-' ∧ isCapital d = false := fun d member => free d (List.mem_cons_of_mem _ member)
    rw [List.cons_append, spells_cons_iff small]
    constructor
    · rintro (⟨later, rfl, spells⟩ | ⟨dash, -⟩)
      · obtain ⟨last, rfl, spelled⟩ := (ih free').mp spells
        exact ⟨last, rfl, spelled⟩
      · exact absurd dash noDash
    · rintro ⟨later, rfl, spells⟩
      exact .inl ⟨_, rfl, (ih free').mpr ⟨later, rfl, spells⟩⟩

def camelOrigin : Text := "transformOrigin".toList

theorem capital_o {c : Char} (capital : isCapital c) (small : smallOf c = 'o') : c = 'O' := by
  have places : ∀ n < 128, isCapital (Char.ofNat n) → smallOf (Char.ofNat n) = 'o' → Char.ofNat n = 'O' := by
    decide +kernel
  have place := places c.toNat (toNat_lt_of_isCapital capital)
  rw [Char.ofNat_toNat] at place
  exact place capital small

theorem attributeName_eq_origin_iff {property : Text} :
    attributeName property = originProperty ↔ property = originProperty ∨ property = camelOrigin := by
  have plain : ∀ c ∈ originProperty, IsPlain c := List.all_iff_forall_prop.mp (by decide +kernel)
  have undashed {name later : Text} (free : ∀ c ∈ name, c ≠ '-' ∧ isCapital c = false) (spells : Spells later name) :
      later = name := by
    rw [← List.append_nil name, spells_append_iff free] at spells
    obtain ⟨_, rfl, nothing⟩ := spells
    cases nothing
    exact List.append_nil name
  rw [attributeName_eq_iff plain]
  constructor
  · intro spells
    have whole : originProperty = "transform".toList ++ '-' :: 'o' :: "rigin".toList := by decide
    rw [whole, spells_append_iff (List.all_iff_forall_prop.mp (by decide +kernel))] at spells
    obtain ⟨later, rfl, tail⟩ := spells
    rcases (spells_cons_iff (by decide)).mp tail with
      ⟨rest, rfl, last⟩ | ⟨-, c, rest, letters, rfl, same, capital, last⟩
    · rw [undashed (List.all_iff_forall_prop.mp (by decide +kernel)) last]
      exact .inl whole.symm
    · obtain ⟨small, rfl⟩ := List.cons_eq_cons.mp same
      rw [undashed (List.all_iff_forall_prop.mp (by decide +kernel)) last, capital_o capital small.symm]
      exact .inr (by decide)
  · rintro (rfl | rfl)
    · exact (attributeName_eq_iff plain).mp (by decide)
    · exact (attributeName_eq_iff plain).mp (by decide)

/-- The values that are written under a name, in order. -/
def valuesOf (name : Text) (entries : List (Text × Text)) : List Text :=
  (entries.filter (·.1 = name)).map (·.2)

theorem valuesOf_cons (name : Text) (entry : Text × Text) (entries : List (Text × Text)) :
    valuesOf name (entry :: entries) = if entry.1 = name then entry.2 :: valuesOf name entries else valuesOf name entries := by
  by_cases same : entry.1 = name <;> simp [valuesOf, same]

theorem valuesOf_eq_nil {name : Text} {entries : List (Text × Text)} :
    valuesOf name entries = [] ↔ name ∉ entries.map (·.1) := by
  simp only [valuesOf, List.map_eq_nil_iff, List.filter_eq_nil_iff, List.mem_map, not_exists, not_and,
    decide_eq_true_eq]

theorem valuesOf_presentation {canvas : Amount} {properties : Properties} {values : List (Text × Text)}
    (computed : presentation canvas properties = .ok values) :
    valuesOf originProperty values = valuesOf camelOrigin properties := by
  have names := names_presentation computed
  have related := forall₂_of_mapM computed
  clear computed
  have noTransform : originProperty ≠ "transform".toList := by decide
  have apart : originProperty ≠ camelOrigin := by decide
  have kept : valuesOf camelOrigin (properties.filter (·.1 ≠ originProperty)) = valuesOf camelOrigin properties := by
    unfold valuesOf
    rw [List.filter_filter]
    congr 1
    refine List.filter_congr fun property _ => ?_
    by_cases camel : property.1 = camelOrigin <;> simp [camel, apart.symm]
  have held : ∀ property ∈ properties.filter (·.1 ≠ originProperty), property.1 ≠ originProperty := by
    intro property member
    simpa using (List.mem_filter.mp member).2
  rw [← kept]
  generalize properties.get? originProperty = origin at related
  generalize properties.filter (·.1 ≠ originProperty) = presented at names related held
  induction related with
  | nil => rfl
  | @cons property entry presented values first others ih =>
    obtain ⟨name, names⟩ := List.cons_eq_cons.mp names
    have name : entry.1 = attributeName property.1 := name
    rw [valuesOf_cons, valuesOf_cons, name, ih names fun p member => held p (List.mem_cons_of_mem _ member)]
    by_cases camel : property.1 = camelOrigin
    · have written : attributeName property.1 = originProperty := attributeName_eq_origin_iff.mpr (.inr camel)
      dsimp only at first
      rw [if_neg (by rw [written]; exact noTransform)] at first
      rw [if_pos written, if_pos camel, ← Except.ok.inj first]
    · have other : attributeName property.1 ≠ originProperty := by
        rw [Ne, attributeName_eq_origin_iff, not_or]
        exact ⟨held property List.mem_cons_self, camel⟩
      rw [if_neg other, if_neg camel]

def Tag.named (tag : Tag) (name : Text) : List Attribute := (tag.attributes ++ tag.added).filter (·.name = name)

def setEach (name : Text) (attributes : List Attribute) (values : List Text) : List Attribute :=
  values.foldl (fun attributes value => setOrAdd name value attributes) attributes

theorem setOrAdd_cons (name value : Text) (a : Attribute) (rest : List Attribute) :
    setOrAdd name value (a :: rest) =
      if a.name = name then { a with value := some value, text := Tag.written name value } :: rest
      else a :: setOrAdd name value rest := by
  unfold setOrAdd
  rw [setFirst?_cons]
  split
  · rfl
  · cases Tag.setFirst? name value rest <;> rfl

theorem filter_setOrAdd (name value other : Text) (attributes : List Attribute) :
    (setOrAdd name value attributes).filter (·.name = other) =
      if name = other then setOrAdd name value (attributes.filter (·.name = other))
      else attributes.filter (·.name = other) := by
  induction attributes with
  | nil =>
    by_cases same : name = other <;> simp [setOrAdd, Tag.setFirst?, same]
  | cons a rest ih =>
    rw [setOrAdd_cons]
    by_cases here : a.name = name
    · subst here
      by_cases same : a.name = other <;> simp [setOrAdd_cons, same]
    · rw [if_neg here, List.filter_cons, ih]
      by_cases same : name = other
      · simp [← same, here]
      · simp [same, List.filter_cons]

theorem Tag.named_setAll (tag : Tag) (values : List (Text × Text)) (name : Text) :
    (tag.setAll values).named name = setEach name (tag.named name) (valuesOf name values) := by
  induction values generalizing tag with
  | nil => rfl
  | cons entry values ih =>
    have first : (tag.set entry.1 entry.2).named name =
        if entry.1 = name then setOrAdd entry.1 entry.2 (tag.named name) else tag.named name := by
      unfold Tag.named
      rw [attributes_set, filter_setOrAdd]
    change ((tag.set entry.1 entry.2).setAll values).named name = _
    rw [ih, first, valuesOf_cons]
    split
    · rename_i same
      rw [same]
      rfl
    · rfl

/-- An origin is among the attributes of properties just if one of them is spelled in camel case, and then with
    their values. So it is in a document: a rewritten tag has the attributes of that name that it had, with what the
    properties in camel case say set in them, which is nothing where there are none. -/
theorem origin_written_iff (canvas : Amount) (properties : Properties) :
    (∀ values, presentation canvas properties = .ok values →
      (originProperty ∈ values.map (·.1) ↔ camelOrigin ∈ properties.names) ∧
        valuesOf originProperty values = valuesOf camelOrigin properties) ∧
      ∀ document selector result, present canvas document selector properties = .ok result →
        ∃ edit : Tag → Tag,
          result = mapTags (fun tag => if Step.rewrites ⟨selector, properties⟩ tag then some (edit tag) else none)
            document ∧
          ∀ tag, Step.rewrites ⟨selector, properties⟩ tag →
            (edit tag).named originProperty =
              setEach originProperty (tag.named originProperty) (valuesOf camelOrigin properties) ∧
            (camelOrigin ∉ properties.names → (edit tag).named originProperty = tag.named originProperty) := by
  refine ⟨fun values computed => ?_, fun document selector result presented => ?_⟩
  · have same := valuesOf_presentation computed
    refine ⟨?_, same⟩
    rw [← not_iff_not, ← valuesOf_eq_nil, same]
    exact valuesOf_eq_nil
  · rw [present_eq canvas document ⟨selector, properties⟩] at presented
    obtain ⟨values, computed, edited⟩ := map_eq_ok presented
    refine ⟨fun tag => tag.setAll values, edited.symm, fun tag rewritten => ?_⟩
    have understood : (Selector.ofText? selector).isSome := by
      unfold Step.rewrites Step.selects at rewritten
      cases read : Selector.ofText? selector with
      | none => simp [read] at rewritten
      | some => rfl
    have computed : presentation canvas properties = .ok values := by
      unfold Step.values at computed
      rwa [if_pos understood] at computed
    have named := tag.named_setAll values originProperty
    rw [valuesOf_presentation computed] at named
    refine ⟨named, fun none => ?_⟩
    rw [named, valuesOf_eq_nil.mpr none]
    rfl

theorem origin_written_iff_camel :
    presentation (.whole 512) [("transform".toList, "scale(2)".toList), (camelOrigin, "center".toList)] =
        .ok [("transform".toList, "scale(2)".toList), (originProperty, "center".toList)] ∧
      present (.whole 512) "<g/>".toList "g".toList [(camelOrigin, "center".toList)] =
        .ok "<g transform-origin=\"center\"/>".toList ∧
      (originProperty ∈ [("transform".toList, "scale(2)".toList), (originProperty, "center".toList)].map (·.1) ↔
        camelOrigin ∈ Table.names [("transform".toList, "scale(2)".toList), (camelOrigin, "center".toList)]) ∧
      ∃ edit : Tag → Tag, "<g transform-origin=\"center\"/>".toList =
        mapTags (fun tag => if Step.rewrites ⟨"g".toList, [(camelOrigin, "center".toList)]⟩ tag then some (edit tag)
          else none) "<g/>".toList := by
  have computed : presentation (.whole 512) [("transform".toList, "scale(2)".toList), (camelOrigin, "center".toList)] =
      .ok [("transform".toList, "scale(2)".toList), (originProperty, "center".toList)] := by
    decide +kernel
  have presented : present (.whole 512) "<g/>".toList "g".toList [(camelOrigin, "center".toList)] =
      .ok "<g transform-origin=\"center\"/>".toList := by
    decide +kernel
  obtain ⟨edit, edited, -⟩ := (origin_written_iff (.whole 512) [(camelOrigin, "center".toList)]).2 _ _ _ presented
  exact ⟨computed, presented, ((origin_written_iff _ _).1 _ computed).1, edit, edited⟩

end Flipbook.Markup
