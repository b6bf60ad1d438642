import MarkdownModule.Proofs.Jsx.Written
import MarkdownModule.Proofs.Text.Cut
import MarkdownModule.Proofs.Text.Split
import MarkdownModule.Proofs.Text.Trim

/-!
# The declarations of a style

A style is a row of declarations between semicolons, some of which may be empty.  As an object it has
one member for each declaration, as long as no value holds a semicolon itself, in a quoted string or
in brackets, or ends in a blank that CSS takes for a part of it.

* `Jsx.StyleItem`                 declarations with the white space around their parts
* `Jsx.IsCssValue`                values with their strings and brackets
* `Jsx.readObject?_styleObject`   the object of a style, as a script reads it
* `Jsx.styleObject_keeps_iff`     the styles that keep their declarations
-/

namespace MarkdownModule.Jsx

/-! ## declarations -/

/-- the characters of the names of properties, letters, digits and hyphens among them -/
def isPropertyPart (c : Char) : Bool := !(isBlank c || c = ':' || c = ';')

structure Declaration where
  property : Text
  property_ne : property ≠ []
  property_chars : ∀ c ∈ property, isPropertyPart c = true
  /-- any text, with colons and semicolons too, that begins and ends in no white space of CSS -/
  value : Text
  value_ne : value ≠ []
  value_head : ∀ c ∈ value.head?, isSpace c = false
  value_last : ∀ c ∈ value.getLast?, isSpace c = false

abbrev Spacing := {s : Text // Text.IsSpacing s}

/-- what may stand between the semicolons of a style -/
inductive StyleItem where
  | empty (space : Spacing)
  | declaration (d : Declaration) (before name value after : Spacing)

namespace StyleItem

def source : StyleItem → Text
  | empty space => space.1
  | declaration d before name value after =>
    before.1 ++ d.property ++ name.1 ++ ':' :: (value.1 ++ d.value ++ after.1)

def declaration? : StyleItem → Option Declaration
  | empty _ => none
  | declaration d _ _ _ _ => some d

end StyleItem

def styleSource (items : List StyleItem) : Text := [';'].intercalate (items.map StyleItem.source)

def declarations (items : List StyleItem) : List Declaration :=
  items.filterMap StyleItem.declaration?

def Declaration.member (d : Declaration) : Text × Text := (stylePropertyName d.property, d.value)

/-- a value that holds no semicolon and has no blank at an end -/
structure IsBareValue (v : Text) : Prop where
  semicolon : ';' ∉ v
  tight : Text.IsTight v

/-! ## reading the text of a style -/

theorem readDeclarations_append (a b : Text) :
    readDeclarations (a ++ ';' :: b) = readDeclarations a ++ readDeclarations b := by
  unfold readDeclarations
  rw [Text.splitOn_append, List.filterMap_append]

theorem readDeclarations_intercalate (ws : List Text) :
    readDeclarations ([';'].intercalate ws) = ws.flatMap readDeclarations := by
  induction ws with
  | nil => rfl
  | cons w ws ih =>
    cases ws with
    | nil => simp [List.intercalate]
    | cons v ws =>
      have hs : [';'].intercalate (w :: v :: ws) = w ++ ';' :: [';'].intercalate (v :: ws) := by
        simp [List.intercalate]
      rw [hs, readDeclarations_append, ih]
      rfl

theorem readDeclarations_of_not_mem {s : Text} (h : ';' ∉ s) :
    readDeclarations s = (readDeclaration? s).toList := by
  unfold readDeclarations
  rw [Text.splitOn_of_not_mem h, List.filterMap_cons, List.filterMap_nil]
  cases readDeclaration? s <;> rfl

theorem readDeclaration?_of_not_mem {s : Text} (h : ':' ∉ s) : readDeclaration? s = none := by
  have hcut := Text.cutAt_head (s := []) h (.inl rfl)
  rw [List.append_nil] at hcut
  unfold readDeclaration?
  rw [hcut]

/-- a declaration cut at its first colon -/
theorem readDeclaration?_colon {a : Text} (h : ':' ∉ a) (b : Text) :
    readDeclaration? (a ++ ':' :: b) =
      if (Text.trim a).isEmpty || (Text.trim b).isEmpty then none
      else some (Text.trim a, Text.trim b) := by
  unfold readDeclaration?
  rw [Text.cutAt_head h (.inr rfl)]

/-- the parts of a declaration that is read -/
theorem exists_of_readDeclaration? {s : Text} {d : Text × Text} (h : readDeclaration? s = some d) :
    ∃ a b, s = a ++ ':' :: b ∧ d = (Text.trim a, Text.trim b) := by
  by_cases hs : ':' ∈ s
  · obtain ⟨a, b, rfl, ha⟩ := List.eq_append_cons_of_mem hs
    rw [readDeclaration?_colon ha] at h
    split at h
    · exact absurd h.symm (Option.some_ne_none d)
    · exact ⟨a, b, rfl, (Option.some.inj h).symm⟩
  · rw [readDeclaration?_of_not_mem hs] at h
    exact absurd h.symm (Option.some_ne_none d)

/-- **A value that is read holds no semicolon, and no blank at its ends.** -/
theorem isBareValue_of_mem_readDeclarations {css : Text} {d : Text × Text}
    (h : d ∈ readDeclarations css) : IsBareValue d.2 := by
  obtain ⟨s, hs, hd⟩ := List.mem_filterMap.1 h
  obtain ⟨a, b, rfl, rfl⟩ := exists_of_readDeclaration? hd
  refine ⟨fun hmem => Text.not_mem_of_mem_splitOn hs ?_, Text.isTight_trim b⟩
  obtain ⟨-, x, y, hb, -, -⟩ := Text.trim_eq_iff.1 (rfl : Text.trim b = Text.trim b)
  have hin : ';' ∈ b := by
    rw [hb]
    exact List.mem_append_left y (List.mem_append_right x hmem)
  exact List.mem_append_right a (List.mem_cons_of_mem ':' hin)

/-! ## reading what is written -/

theorem not_mem_spacing {c : Char} (hc : isBlank c = false) (s : Spacing) : c ∉ s.1 := by
  intro h
  rw [s.2 c h] at hc
  cases hc

section
variable (d : Declaration)

theorem Declaration.not_mem_property {c : Char} (hc : isPropertyPart c = false) :
    c ∉ d.property := by
  intro h
  rw [d.property_chars c h] at hc
  cases hc

theorem Declaration.isTight_property : Text.IsTight d.property := by
  have hall : ∀ c ∈ d.property, isBlank c = false := by
    intro c hc
    have h := d.property_chars c hc
    unfold isPropertyPart at h
    cases hb : isBlank c with
    | false => rfl
    | true =>
      rw [hb] at h
      cases h
  exact ⟨fun c hc => hall c (List.mem_of_head? hc), fun c hc => hall c (List.mem_of_getLast? hc)⟩

end

/-- **A declaration with a bare value is read as it is meant**, and what is empty as nothing. -/
theorem StyleItem.readDeclarations_source {i : StyleItem}
    (h : ∀ d ∈ i.declaration?, IsBareValue d.value) :
    readDeclarations i.source = (i.declaration?.map fun d => (d.property, d.value)).toList := by
  cases i with
  | empty space =>
    rw [source, readDeclarations_of_not_mem (not_mem_spacing (by decide) space),
      readDeclaration?_of_not_mem (not_mem_spacing (by decide) space)]
    rfl
  | declaration d before name value after =>
    have hbare : IsBareValue d.value := h d rfl
    have hcolon : ':' ∉ before.1 ++ d.property ++ name.1 := by
      simp only [List.mem_append, not_or]
      exact ⟨⟨not_mem_spacing (by decide) before, d.not_mem_property (by decide)⟩,
        not_mem_spacing (by decide) name⟩
    have hsemicolon : ';' ∉ (declaration d before name value after).source := by
      have hne : (';' : Char) ≠ ':' := by decide
      simp only [source, List.mem_append, List.mem_cons, not_or]
      exact ⟨⟨⟨not_mem_spacing (by decide) before, d.not_mem_property (by decide)⟩,
        not_mem_spacing (by decide) name⟩, hne, ⟨not_mem_spacing (by decide) value,
        hbare.semicolon⟩, not_mem_spacing (by decide) after⟩
    have hproperty : Text.trim (before.1 ++ d.property ++ name.1) = d.property := by
      rw [Text.trim_between before.2 name.2, Text.trim_eq_self_iff.2 d.isTight_property]
    have hvalue : Text.trim (value.1 ++ d.value ++ after.1) = d.value := by
      rw [Text.trim_between value.2 after.2, Text.trim_eq_self_iff.2 hbare.tight]
    have hfull : ¬ (d.property.isEmpty || d.value.isEmpty) = true := by
      rw [Bool.or_eq_true, List.isEmpty_iff, List.isEmpty_iff, not_or]
      exact ⟨d.property_ne, d.value_ne⟩
    rw [readDeclarations_of_not_mem hsemicolon, source, readDeclaration?_colon hcolon, hproperty,
      hvalue, if_neg hfull]
    rfl

theorem readDeclarations_styleSource {items : List StyleItem}
    (h : ∀ d ∈ declarations items, IsBareValue d.value) :
    readDeclarations (styleSource items) =
      (declarations items).map fun d => (d.property, d.value) := by
  rw [styleSource, readDeclarations_intercalate]
  induction items with
  | nil => rfl
  | cons i items ih =>
    have hcons : declarations (i :: items) = i.declaration?.toList ++ declarations items := by
      unfold declarations
      cases hi : i.declaration? with
      | none => rw [List.filterMap_cons_none hi]; rfl
      | some d => rw [List.filterMap_cons_some hi]; rfl
    rw [hcons] at h ⊢
    have hi : ∀ d ∈ i.declaration?, IsBareValue d.value := fun d hd =>
      h d (List.mem_append_left _ (Option.mem_toList.2 hd))
    rw [List.map_cons, List.flatMap_cons, StyleItem.readDeclarations_source hi,
      ih fun d hd => h d (List.mem_append_right _ hd), List.map_append]
    cases i.declaration? <;> rfl

/-! ## the object of a style -/

def readObject? (s : Text) : Option (List (Text × Text)) :=
  (expect? '\x7b' s).bind fun r =>
    (readMembers? r).bind fun p => if (skip p.2).isEmpty then some p.1 else none

theorem readObject?_objectSource (es : List (Text × Text)) :
    readObject? (objectSource es) = some es := by
  have key : ∀ t, objectSource es = '\x7b' :: t → readMembers? t = some (es, []) →
      readObject? (objectSource es) = some es := by
    intro t hs ht
    rw [readObject?, hs, expect?_cons (by decide), Option.bind_some, ht, Option.bind_some]
    rfl
  cases es with
  | nil =>
    refine key ['\x7d'] rfl ?_
    rw [readMembers?, expect?_cons (by decide)]
  | cons e es =>
    refine key (' ' :: (", ".toList.intercalate ((e :: es).map memberSource) ++ [' ', '\x7d'])) ?_ ?_
    · simp [objectSource]
    · rw [readMembers?_space, readMembers?_source]

/-- **A script reads the object of a style as the declarations that were read**, each under the name of
its property. -/
theorem readObject?_styleObject (css : Text) :
    readObject? (styleObject css) =
      some ((readDeclarations css).map fun d => (stylePropertyName d.1, d.2)) := by
  rw [← objectSource_readDeclarations, readObject?_objectSource]

/-- **A style keeps its declarations, one member for each and in their order, exactly when no value holds
a semicolon or has a blank at an end.**  White space around the parts, empty declarations, and colons
in values do no harm. -/
theorem styleObject_keeps_iff (items : List StyleItem) :
    readObject? (styleObject (styleSource items)) =
        some ((declarations items).map Declaration.member) ↔
      ∀ d ∈ declarations items, IsBareValue d.value := by
  rw [readObject?_styleObject, Option.some.injEq]
  constructor
  · intro h d hd
    have hmem : d.member ∈ (readDeclarations (styleSource items)).map
        fun d => (stylePropertyName d.1, d.2) := by
      rw [h]
      exact List.mem_map_of_mem hd
    obtain ⟨e, he, hm⟩ := List.mem_map.1 hmem
    have hvalue : e.2 = d.value := (Prod.mk.inj hm).2
    rw [← hvalue]
    exact isBareValue_of_mem_readDeclarations he
  · intro h
    rw [readDeclarations_styleSource h, List.map_map]
    rfl

example : readObject? (styleObject " --a : 'x:y' ;;background-image:url(http://h:80/b)".toList) =
    some [("--a".toList, "'x:y'".toList), ("backgroundImage".toList, "url(http://h:80/b)".toList)] := by
  decide +kernel

/-! ## semicolons in values -/

def closingBracket? : Char → Option Char
  | '(' => some ')'
  | '[' => some ']'
  | '\x7b' => some '\x7d'
  | _ => none

/-- whether a character has a meaning of its own in a value of CSS -/
def isCssMark (c : Char) : Bool :=
  c = '\\' || Html.isQuote c || c ∈ ['(', ')', '[', ']', '\x7b', '\x7d']

/-- the values of CSS: quoted strings and brackets are closed, and a semicolon stands inside of them
alone -/
inductive IsCssValue : (inside : Bool) → Text → Prop
  | nil (inside : Bool) : IsCssValue inside []
  | char {inside : Bool} {c : Char} {s : Text} (plain : isCssMark c = false)
      (semicolon : c = ';' → inside = true) (h : IsCssValue inside s) : IsCssValue inside (c :: s)
  | escape {inside : Bool} (c : Char) {s : Text} (h : IsCssValue inside s) :
      IsCssValue inside ('\\' :: c :: s)
  | quoted {inside : Bool} {q : Char} {v s : Text} (hq : Html.isQuote q = true)
      (hv : ∀ c ∈ v, c ≠ q ∧ c ≠ '\\') (h : IsCssValue inside s) :
      IsCssValue inside (q :: v ++ q :: s)
  | bracket {inside : Bool} {o c : Char} {v s : Text} (hc : closingBracket? o = some c)
      (hv : IsCssValue true v) (h : IsCssValue inside s) : IsCssValue inside (o :: v ++ c :: s)

theorem isCssValue_of_plain {inside : Bool} {s t : Text} (h : ∀ c ∈ s, isCssMark c = false)
    (hs : ∀ c ∈ s, c = ';' → inside = true) (ht : IsCssValue inside t) :
    IsCssValue inside (s ++ t) := by
  induction s with
  | nil => exact ht
  | cons c s ih =>
    obtain ⟨hc, hr⟩ := List.forall_mem_cons.1 h
    obtain ⟨hc', hr'⟩ := List.forall_mem_cons.1 hs
    exact .char hc hc' (ih hr hr')

/-- **The address of a picture in a style is cut at its semicolon.** -/
theorem styleObject_url :
    let gap : Spacing := ⟨[], Text.isSpacing_nil⟩
    let d : Declaration :=
      { property := "background".toList, property_ne := by decide
        property_chars := List.all_eq_true.1 (by decide)
        value := "url(data:image/png;base64,AA==)".toList, value_ne := by decide
        value_head := fun c hc => by cases hc; decide
        value_last := fun c hc => by cases hc; decide }
    let items : List StyleItem := [.declaration d gap gap gap gap]
    IsCssValue false d.value ∧
      styleObject (styleSource items) = "\x7b \"background\": \"url(data:image/png\" \x7d".toList ∧
      readObject? (styleObject (styleSource items)) ≠
        some ((declarations items).map Declaration.member) := by
  intro gap d items
  have hobject : styleObject (styleSource items) =
      "\x7b \"background\": \"url(data:image/png\" \x7d".toList := by decide +kernel
  refine ⟨?_, hobject, ?_⟩
  · have hplain : ∀ s : Text, s.all (fun c => !isCssMark c) = true → ∀ c ∈ s, isCssMark c = false :=
      fun s h c hc => by simpa using List.all_eq_true.1 h c hc
    have hinside : IsCssValue true "data:image/png;base64,AA==".toList := by
      have h := isCssValue_of_plain (hplain "data:image/png;base64,AA==".toList (by decide +kernel))
        (fun _ _ _ => rfl) (.nil true)
      rwa [List.append_nil] at h
    have hname : ∀ c ∈ "url".toList, c = ';' → false = true := by
      rintro c hc rfl
      exact absurd hc (by decide)
    exact isCssValue_of_plain (hplain "url".toList (by decide)) hname
      (.bracket (o := '(') rfl hinside (.nil false))
  · have hread : readObject? "\x7b \"background\": \"url(data:image/png\" \x7d".toList =
        some [("background".toList, "url(data:image/png".toList)] := by decide +kernel
    rw [hobject, hread]
    decide

end MarkdownModule.Jsx
