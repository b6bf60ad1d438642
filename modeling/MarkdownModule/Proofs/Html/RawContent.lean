import MarkdownModule.Html.Tag
import MarkdownModule.Proofs.Html.Token
import MarkdownModule.Proofs.Jsx.Written
import MarkdownModule.Proofs.Text.Bytes

/-!
# Raw content and its end tag

Raw content lasts to the end tag of its element: `</`, the name in any letter case, and then white
space, `/`, `>` or the end of the text.  The search for it looks at the name alone, so that it stops
at the tag of a longer name as well.

* `Html.IsEndTag`, `Html.IsLongerTag`   a text that begins with an end tag, of the element or of a
                                        longer name
* `Html.IsRawEnd`                       the place where raw text is to end
* `Html.IsRawContent`                   raw text cut at that place
* `Html.cutRawText_iff`                 when the search finds it
* `Html.rawText_ends_iff`               the places that are found, the scan and the conversion
-/

namespace MarkdownModule.Html

open Jsx (TagName opensElement rawNames writeStartTag writeRaw ofHtmlAt TagBody)

/-! ## end tags -/

/-- `</` and the name, in any letter case, begin the text, and `rest` is behind them -/
def Mentions (name s rest : Text) : Prop :=
  ∃ word, s = '<' :: '/' :: (word ++ rest) ∧ Text.lower word = name

def IsEndTag (name s : Text) : Prop :=
  ∃ rest, Mentions name s rest ∧ ∀ c ∈ rest.head?, Tag.endsName c = true

/-- the end tag of a name that goes on behind the name of the element begins the text -/
def IsLongerTag (name s : Text) : Prop :=
  ∃ c rest, Mentions name s (c :: rest) ∧ Tag.endsName c = false

theorem Mentions.rest_eq {name s rest : Text} (h : Mentions name s rest) :
    rest = s.drop (name.length + 2) := by
  obtain ⟨word, rfl, rfl⟩ := h
  rw [Text.length_lower]
  exact List.drop_left.symm

theorem IsLongerTag.not_isEndTag {name s : Text} (h : IsLongerTag name s) : ¬ IsEndTag name s := by
  rintro ⟨rest, hm, hends⟩
  obtain ⟨c, rest', hm', hc⟩ := h
  rw [hm.rest_eq, ← hm'.rest_eq] at hends
  rw [hends c rfl] at hc
  cases hc

/-- the search stops at an end tag of the element, and at one of a longer name -/
theorem closesRawText_iff {name s : Text} :
    closesRawText name s = true ↔ IsEndTag name s ∨ IsLongerTag name s := by
  have hmentions : closesRawText name s = true ↔ ∃ rest, Mentions name s rest := by
    unfold closesRawText
    rw [beq_iff_eq]
    constructor
    · intro h
      have hs := List.take_append_drop (name.length + 2) s
      obtain ⟨c, t, ht, hc, h⟩ := List.map_eq_cons_iff.1 h
      obtain ⟨d, word, rfl, hd, hw⟩ := List.map_eq_cons_iff.1 h
      rw [ht, (Jsx.toLower_eq_iff (by decide)).1 hc, (Jsx.toLower_eq_iff (by decide)).1 hd] at hs
      exact ⟨s.drop (name.length + 2), word, hs.symm, hw⟩
    · rintro ⟨rest, word, rfl, rfl⟩
      have htake : ('<' :: '/' :: (word ++ rest)).take ((Text.lower word).length + 2) =
          '<' :: '/' :: word := by
        rw [Text.length_lower, List.take_succ_cons, List.take_succ_cons, List.take_left]
      rw [htake]
      rfl
  rw [hmentions]
  constructor
  · rintro ⟨rest, hm⟩
    cases rest with
    | nil => exact .inl ⟨[], hm, fun c hc => nomatch hc⟩
    | cons c rest =>
      cases hc : Tag.endsName c with
      | true => exact .inl ⟨c :: rest, hm, fun d hd => by rw [← Option.some.inj hd, hc]⟩
      | false => exact .inr ⟨c, rest, hm, hc⟩
  · rintro (⟨rest, hm, -⟩ | ⟨c, rest, hm, -⟩)
    · exact ⟨rest, hm⟩
    · exact ⟨c :: rest, hm⟩

theorem isEndTag_iff {name s : Text} :
    IsEndTag name s ↔
      closesRawText name s = true ∧ (s.drop (name.length + 2)).head?.all Tag.endsName = true := by
  constructor
  · rintro ⟨rest, hm, hends⟩
    rw [← hm.rest_eq, Option.all_eq_true]
    exact ⟨closesRawText_iff.2 (.inl ⟨rest, hm, hends⟩), hends⟩
  · rintro ⟨h, hends⟩
    refine (closesRawText_iff.1 h).elim id ?_
    rintro ⟨c, rest, hm, hc⟩
    rw [← hm.rest_eq, List.head?_cons, Option.all_some, hc] at hends
    cases hends

instance (name s : Text) : Decidable (IsEndTag name s) := decidable_of_iff _ isEndTag_iff.symm

/-! ## raw text cut at its end -/

/-- raw text that begins with `a` ends behind it: there `b` begins with the end tag, or is empty, and no
end tag begins before -/
structure IsRawContent (name a b : Text) : Prop where
  ends : b = [] ∨ IsEndTag name b
  free : ∀ t, t ≠ [] → t <:+ a → ¬ IsEndTag name (t ++ b)

/-- every tag of a longer name stands behind an end tag of the element -/
def EndsFirst (name s : Text) : Prop :=
  ∀ x y, s = x ++ y → IsLongerTag name y → ∃ t, t ≠ [] ∧ t <:+ x ∧ IsEndTag name (t ++ y)

theorem isRawContent_iff {name a b : Text} :
    IsRawContent name a b ↔
      (b = [] ∨ IsEndTag name b) ∧ ∀ t ∈ a.tails, t ≠ [] → ¬ IsEndTag name (t ++ b) :=
  ⟨fun h => ⟨h.ends, fun t ht hne => h.free t hne ((List.mem_tails t a).1 ht)⟩,
    fun h => ⟨h.1, fun t hne ht => h.2 t ((List.mem_tails t a).2 ht) hne⟩⟩

instance (name a b : Text) : Decidable (IsRawContent name a b) := decidable_of_iff _ isRawContent_iff.symm

theorem exists_isRawContent (name s : Text) : ∃ a b, s = a ++ b ∧ IsRawContent name a b := by
  induction s with
  | nil => exact ⟨[], [], rfl, .inl rfl, fun t ht hs => absurd (List.suffix_nil.1 hs) ht⟩
  | cons c r ih =>
    by_cases h : IsEndTag name (c :: r)
    · exact ⟨[], c :: r, rfl, .inr h, fun t ht hs => absurd (List.suffix_nil.1 hs) ht⟩
    · obtain ⟨a, b, rfl, hab⟩ := ih
      refine ⟨c :: a, b, rfl, hab.ends, fun t ht hs => ?_⟩
      rcases List.suffix_cons_iff.1 hs with rfl | hs
      · exact h
      · exact hab.free t ht hs

section
variable {name a b : Text}

/-- in raw text no tag of a longer name comes first exactly when its content holds none -/
theorem IsRawContent.endsFirst_iff (h : IsRawContent name a b) :
    EndsFirst name (a ++ b) ↔ ∀ t, t ≠ [] → t <:+ a → ¬ IsLongerTag name (t ++ b) := by
  constructor
  · rintro hfirst t ht ⟨u, rfl⟩ hlonger
    obtain ⟨t', ht', hsuf, hend⟩ := hfirst u (t ++ b) (List.append_assoc u t b) hlonger
    obtain ⟨v, rfl⟩ := hsuf
    rw [← List.append_assoc] at hend
    refine h.free (t' ++ t) (by simp [ht']) ⟨v, by simp⟩ hend
  · intro hfree x y hxy hlonger
    have hy : y ≠ [] := by
      rintro rfl
      obtain ⟨c, rest, ⟨word, e, -⟩, -⟩ := hlonger
      cases e
    rcases List.append_eq_append_iff.1 hxy with ⟨t, rfl, rfl⟩ | ⟨t, rfl, rfl⟩
    · rcases h.ends with hb | hb
      · exact absurd (List.append_eq_nil_iff.1 hb).2 hy
      · by_cases ht : t = []
        · subst ht
          exact absurd hb hlonger.not_isEndTag
        · exact ⟨t, ht, List.suffix_append a t, hb⟩
    · by_cases ht : t = []
      · subst ht
        rcases h.ends with rfl | hb
        · exact absurd rfl hy
        · exact absurd hb hlonger.not_isEndTag
      · exact absurd hlonger (hfree t ht (List.suffix_append x t))

/-- **The search finds the end of raw text exactly when no tag of a longer name comes first.** -/
theorem IsRawContent.cutRawText_iff (h : IsRawContent name a b) :
    cutRawText name (a ++ b) = (a, b) ↔ EndsFirst name (a ++ b) := by
  rw [h.endsFirst_iff]
  constructor
  · intro hcut t ht hsuf hlonger
    have hno := Text.not_holds_of_cutAt hcut t ht hsuf
    rw [closesRawText_iff.2 (.inr hlonger)] at hno
    cases hno
  · intro hfree
    refine Text.cutAt_eq (fun t ht hsuf => ?_) (h.ends.imp_right fun hb => closesRawText_iff.2 (.inl hb))
    rw [← Bool.not_eq_true, closesRawText_iff, not_or]
    exact ⟨h.free t ht hsuf, hfree t ht hsuf⟩

end

/-! ## the place of the end -/

/-- the first place from `start` on where an end tag of the element begins, or the end of the text -/
structure IsRawEnd (html : Text) (start : Nat) (name : Text) (p : Nat) : Prop where
  start_le : start ≤ p
  ends : (∃ s, Text.dropBytes? p html = some s ∧ IsEndTag name s) ∨ p = Text.byteSize html
  least : ∀ q s, start ≤ q → q < p → Text.dropBytes? q html = some s → ¬ IsEndTag name s

theorem IsRawEnd.le {html name : Text} {start p q : Nat} (hp : IsRawEnd html start name p)
    (hq : IsRawEnd html start name q) : p ≤ q := by
  refine Nat.not_lt.1 fun hlt => ?_
  rcases hq.ends with ⟨s, hs, hend⟩ | rfl
  · exact hp.least q s hq.start_le hlt hs hend
  · rcases hp.ends with ⟨s, hs, -⟩ | rfl
    · obtain ⟨a, rfl, rfl⟩ := Text.dropBytes?_eq_some_iff.1 hs
      rw [Text.byteSize_append] at hlt
      omega
    · exact Nat.lt_irrefl _ hlt

/-- the end of raw text is one place -/
theorem IsRawEnd.unique {html name : Text} {start p q : Nat} (hp : IsRawEnd html start name p)
    (hq : IsRawEnd html start name q) : p = q := Nat.le_antisymm (hp.le hq) (hq.le hp)

/-- the end of raw text is where its content ends -/
theorem IsRawContent.isRawEnd {name a b : Text} (h : IsRawContent name a b) (x : Text) :
    IsRawEnd (x ++ (a ++ b)) (Text.byteSize x) name (Text.byteSize (x ++ a)) where
  start_le := by
    rw [Text.byteSize_append]
    exact Nat.le_add_right _ _
  ends := by
    rcases h.ends with rfl | hb
    · exact .inr (by rw [List.append_nil])
    · exact .inl ⟨b, by rw [← List.append_assoc]; exact Text.dropBytes?_byteSize _ _, hb⟩
  least := by
    intro q s hle hlt hs hend
    obtain ⟨u, hu, rfl⟩ := Text.dropBytes?_eq_some_iff.1 hs
    obtain ⟨y, rfl, hy⟩ := Text.append_of_byteSize_le hu hle
    rw [Text.byteSize_append, Text.byteSize_append] at hlt
    obtain ⟨t, rfl, rfl⟩ := Text.append_of_byteSize_le hy.symm (by omega)
    have ht : t ≠ [] := by
      rintro rfl
      rw [List.append_nil] at hlt
      exact Nat.lt_irrefl _ hlt
    exact h.free t ht (List.suffix_append y t) hend

theorem IsRawContent.isRawEnd_iff {name a b : Text} (h : IsRawContent name a b) (x : Text) (p : Nat) :
    IsRawEnd (x ++ (a ++ b)) (Text.byteSize x) name p ↔ p = Text.byteSize (x ++ a) :=
  ⟨fun hp => hp.unique (h.isRawEnd x), fun e => e ▸ h.isRawEnd x⟩

/-- the place that is found is the end of the raw text exactly when no tag of a longer name comes
first -/
theorem rawTextEnd?_iff {html s : Text} {start : Nat} (hs : Text.dropBytes? start html = some s)
    (name : Text) : ∃ p t, rawTextEnd? html start name = some p ∧ start ≤ p ∧
      Text.dropBytes? p html = some t ∧ (IsRawEnd html start name p ↔ EndsFirst name s) := by
  obtain ⟨x, rfl, rfl⟩ := Text.dropBytes?_eq_some_iff.1 hs
  obtain ⟨a, b, rfl, hab⟩ := exists_isRawContent name s
  have hcut := Text.cutAt_append (closesRawText name) (a ++ b)
  refine ⟨Text.byteSize x + Text.byteSize (cutRawText name (a ++ b)).1,
    (cutRawText name (a ++ b)).2, ?_, Nat.le_add_right _ _, ?_, ?_⟩
  · rw [rawTextEnd?, hs, Option.map_some]
  · rw [← Text.byteSize_append, Text.dropBytes?_eq_some_iff]
    exact ⟨x ++ (cutRawText name (a ++ b)).1, by rw [List.append_assoc, cutRawText, hcut], rfl⟩
  · rw [hab.isRawEnd_iff, ← hab.cutRawText_iff, Text.byteSize_append, Nat.add_left_cancel_iff]
    constructor
    · intro e
      obtain ⟨t, ht, hb⟩ := Text.append_of_byteSize_le hcut (Nat.le_of_eq e)
      have hnil : t = [] := Text.eq_nil_of_byteSize (by
        have hsize := congrArg Text.byteSize ht
        rw [Text.byteSize_append] at hsize
        rw [cutRawText] at e
        omega)
      rw [hnil, List.append_nil] at ht
      rw [hnil, List.nil_append] at hb
      exact Prod.ext ht.symm hb
    · intro e
      rw [e]

/-! ## scan and conversion -/

section
variable {n : TagName} {tail : TagTail} {a b : Text}

/-- the scan goes on at the end tag of a script -/
theorem startTagNames_rawContent (h : IsRawContent (Text.lower n.text) a b)
    (hfirst : EndsFirst (Text.lower n.text) (a ++ b)) (hn : isListed scriptNames n.text = true) :
    startTagNames (tagSource n tail ++ (a ++ b)) = n.text :: startTagNames b := by
  rw [startTagNames_tagSource, if_pos hn, h.cutRawText_iff.2 hfirst]

/-- the conversion writes the content of a raw element as a string and goes on at its end tag -/
theorem ofHtmlAt_rawContent (h : IsRawContent (Text.lower n.text) a b)
    (hfirst : EndsFirst (Text.lower n.text) (a ++ b)) (hn : isListed rawNames n.text = true)
    (ho : opensElement n.text (.ofText tail.text) = true) (depth : Nat) :
    ofHtmlAt depth (tagSource n tail ++ (a ++ b)) =
      writeStartTag n.text (.ofText tail.text) ++ writeRaw n.text a ++ ofHtmlAt depth b := by
  obtain ⟨hname, htail⟩ := span_tagSource n tail
  rw [tagSource_append, Jsx.ofHtmlAt_start depth (a ++ b) (n.head_append tail.text)
    (quiet_tagSource n tail), Jsx.startTagStep, hname, htail]
  dsimp only
  rw [ho, hn, h.cutRawText_iff.2 hfirst]
  rfl

end

/-- **Raw text ends at the end tag of its element exactly when no tag of a longer name comes first.**
The place that is found is a border of characters; where it is the end, the scan for start tags and the
conversion take what stands before it for content and go on at the end tag. -/
theorem rawText_ends_iff (name : Text) :
    (∀ html start s, Text.dropBytes? start html = some s →
      ∃ p t, rawTextEnd? html start name = some p ∧ start ≤ p ∧ Text.dropBytes? p html = some t ∧
        (IsRawEnd html start name p ↔ EndsFirst name s)) ∧
    ∀ (n : TagName) (tail : TagTail) (a b : Text), Text.lower n.text = name →
      IsRawContent name a b → EndsFirst name (a ++ b) →
      (isListed scriptNames n.text = true →
        startTagNames (tagSource n tail ++ (a ++ b)) = n.text :: startTagNames b) ∧
      (isListed rawNames n.text = true → opensElement n.text (.ofText tail.text) = true →
        ∀ depth, ofHtmlAt depth (tagSource n tail ++ (a ++ b)) =
          writeStartTag n.text (.ofText tail.text) ++ writeRaw n.text a ++ ofHtmlAt depth b) := by
  refine ⟨fun html start s hs => rawTextEnd?_iff hs name, ?_⟩
  rintro n tail a b rfl h hfirst
  exact ⟨startTagNames_rawContent h hfirst, ofHtmlAt_rawContent h hfirst⟩

/-- a script with another element's end tag in it, whose own end tag is written in another case -/
theorem rawText_ends_iff_spelled :
    let a := "a</b>".toList
    let b := "</ScRiPt >".toList
    (∃ p t, rawTextEnd? ("<SCRIPT>".toList ++ (a ++ b)) 8 "script".toList = some p ∧ 8 ≤ p ∧
        Text.dropBytes? p ("<SCRIPT>".toList ++ (a ++ b)) = some t ∧
        IsRawEnd ("<SCRIPT>".toList ++ (a ++ b)) 8 "script".toList p) ∧
      startTagNames ("<SCRIPT>".toList ++ (a ++ b)) = "SCRIPT".toList :: startTagNames b ∧
      ofHtmlAt 0 ("<SCRIPT>".toList ++ (a ++ b)) =
        "<script>\x7b\"a</b>\"\x7d".toList ++ ofHtmlAt 0 b := by
  intro a b
  let n : TagName := ⟨"SCRIPT".toList, by decide, List.all_eq_true.1 (by decide)⟩
  let tail : TagTail := { text := [], head := nofun, balanced := .nil }
  have hraw : IsRawContent "script".toList a b := by decide +kernel
  have hfirst : EndsFirst "script".toList (a ++ b) := hraw.cutRawText_iff.1 (by decide +kernel)
  obtain ⟨hplace, hread⟩ := rawText_ends_iff "script".toList
  obtain ⟨p, t, hp, hle, ht, hiff⟩ :=
    hplace ("<SCRIPT>".toList ++ (a ++ b)) 8 (a ++ b) (by decide +kernel)
  obtain ⟨hscan, hconvert⟩ := hread n tail a b (by decide) hraw hfirst
  refine ⟨⟨p, t, hp, hle, ht, hiff.2 hfirst⟩, hscan (by decide), ?_⟩
  have hjsx := hconvert (by decide) (by decide) 0
  have hwritten : writeStartTag n.text (.ofText tail.text) ++ writeRaw n.text a =
      "<script>\x7b\"a</b>\"\x7d".toList := by decide +kernel
  rwa [hwritten] at hjsx

/-- **The end tag of a longer name is taken for the end of a script**, and the rest of the script for
markup. -/
theorem rawText_ends_longer :
    let html := "<script></scripts><a-b></a-b></script>".toList
    rawTextEnd? html 8 "script".toList = some 8 ∧
      IsRawEnd html 8 "script".toList 29 ∧ ¬ IsRawEnd html 8 "script".toList 8 ∧
      startTagNames html = ["script".toList, "a-b".toList] := by
  intro html
  have hraw : IsRawContent "script".toList "</scripts><a-b></a-b>".toList "</script>".toList := by
    decide +kernel
  have hend : IsRawEnd html 8 "script".toList 29 := hraw.isRawEnd "<script>".toList
  exact ⟨by decide +kernel, hend, fun h => absurd (h.unique hend) (by decide), by decide +kernel⟩

end MarkdownModule.Html
