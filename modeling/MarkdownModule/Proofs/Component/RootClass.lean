import MarkdownModule.Framework.Component
import MarkdownModule.Proofs.Html.Decoding
import MarkdownModule.Proofs.Jsx.Reading
import MarkdownModule.Proofs.Outcome

/-!
# The class of the outermost element

The template of a document is one element, whose class a caller chooses.  A template of Vue writes the
class with references for the characters that have a meaning there.  A template of React writes it
between double quotes as it is, or as a string when it holds a double quote itself.

* `Html.Tag.read?_class`       a tag with a class, as the standard reads it
* `Jsx.Value.textBy?`          the text of a value to a reader of JSX
* `Framework.rootClass_iff`    the classes that are read from both templates
* `Framework.rootClass_reference`  a class that is read as another one
-/

namespace MarkdownModule

/-! ## readers -/

/-- an attribute whose value stands between double quotes -/
theorem Html.Tag.readAttribute?_class {value : Text} (h : '"' ∉ value) (rest : Text) :
    ∃ raw, Html.Tag.readAttribute? 'c' ("lass=\"".toList ++ (value ++ '"' :: rest)) =
      some (⟨"class".toList, value, raw⟩, rest) := by
  have hspan := Text.span_of_not_mem h rest
  have hquoted : Html.Tag.readQuoted? '"' (value ++ '"' :: rest) = some (value, rest) := by
    rw [Html.Tag.readQuoted?, hspan.1, hspan.2]
  let source : Text := 'c' :: ("lass=\"".toList ++ (value ++ '"' :: rest))
  refine ⟨source.take (source.length - rest.length), ?_⟩
  show (Html.Tag.readQuoted? '"' (value ++ '"' :: rest)).bind _ = _
  rw [hquoted]
  rfl

/-- a tag with one attribute, whose value stands between double quotes -/
theorem Html.Tag.read?_class {value : Text} (h : '"' ∉ value) (rest : Text) :
    ∃ raw, Html.Tag.read? ("div class=\"".toList ++ (value ++ '"' :: '>' :: rest)) =
      some (⟨"div".toList, [⟨"class".toList, value, raw⟩], false⟩, rest) := by
  obtain ⟨raw, hread⟩ := Html.Tag.readAttribute?_class h ('>' :: rest)
  refine ⟨raw, ?_⟩
  generalize hs : value ++ '"' :: '>' :: rest = s at hread
  have hattributes : ∀ n, Html.Tag.readAttributes? (n + 2) (" class=\"".toList ++ s) =
      some ([⟨"class".toList, value, raw⟩], false, rest) := by
    intro n
    show (Html.Tag.readAttribute? 'c' ("lass=\"".toList ++ s)).bind _ = _
    rw [hread]
    rfl
  show (Html.Tag.readAttributes? (_ + 2) (" class=\"".toList ++ s)).bind _ = _
  rw [hattributes]
  rfl

/-- the text of a value to a reader of JSX that knows some references; an object is none -/
def Jsx.Value.textBy? (known : Html.References) : Jsx.Value → Option Text
  | .quoted raw => some (known.decode raw)
  | .string s => some s
  | .object _ => none

namespace Framework

/-- the value that a template of React gives the class -/
def classValue (rootClass : Text) : Jsx.Value :=
  if rootClass.contains '"' then .string rootClass else .quoted rootClass

theorem template_react (rootClass html : Text) :
    Framework.react.template rootClass html =
      .ok ((Jsx.Token.openTag "div".toList [⟨"className".toList, some (classValue rootClass)⟩]
        false).source ++ (Jsx.ofHtml html ++ "</div>".toList)) := by
  have hvalue : classAttribute rootClass = "className=".toList ++ (classValue rootClass).source := by
    unfold classAttribute classValue
    split
    · rfl
    · rfl
  rw [template, hvalue]
  simp [Jsx.Token.source, Jsx.Token.write, Jsx.Property.write]

theorem closed_classValue (rootClass : Text) : (classValue rootClass).Closed := by
  unfold classValue
  split
  · trivial
  · next h => exact fun hm => h (List.contains_iff_mem.2 hm)

/-- the class is read from a template of React when it is written as a string, or has no reference -/
theorem textBy?_classValue (known : Html.References) (rootClass : Text) :
    (classValue rootClass).textBy? known = some rootClass ↔
      '"' ∈ rootClass ∨ known.AbsentFrom rootClass := by
  unfold classValue
  split
  · next h => exact iff_of_true rfl (.inl (List.contains_iff_mem.1 h))
  · next h =>
    rw [or_iff_right fun hm => h (List.contains_iff_mem.2 hm), ← known.decode_eq_self_iff]
    exact Option.some_inj

/-- **A template of Vue gives every class to a reader of HTML, and a template of React gives a class to
a reader of JSX exactly when it holds a double quote, or no reference that the reader knows.**  In both
templates the element has this attribute alone, and what follows its tag is the document. -/
theorem rootClass_iff {known : Html.References} (hknown : known.Basic) (jsx : Html.References)
    (rootClass html : Text) :
    (∀ template, Framework.vue.template rootClass html = .ok template →
      ∃ tag value raw marked, template = '<' :: tag ∧
        Html.Tag.read? tag = some (⟨"div".toList, [⟨"class".toList, value, raw⟩], false⟩,
          marked ++ "</div>".toList) ∧
        known.decode value = rootClass ∧ Html.markCode verbatimMark html = .ok marked) ∧
    ∃ template value, Framework.react.template rootClass html = .ok template ∧
      Jsx.readToken? template = some (.openTag "div".toList [⟨"className".toList, some value⟩] false,
        Jsx.ofHtml html ++ "</div>".toList) ∧
      (value.textBy? jsx = some rootClass ↔ '"' ∈ rootClass ∨ jsx.AbsentFrom rootClass) := by
  constructor
  · intro template h
    obtain ⟨marked, hmarked, h⟩ := ok_of_bind h
    obtain ⟨raw, hread⟩ := Html.Tag.read?_class
      (Html.References.quote_not_mem_encodeDoubleQuoted rootClass) (marked ++ "</div>".toList)
    refine ⟨"div class=\"".toList ++ (Html.encodeDoubleQuoted rootClass ++
      '"' :: '>' :: (marked ++ "</div>".toList)), _, raw, marked, ?_, hread,
      Html.References.decode_encodeDoubleQuoted hknown rootClass, ok_of_mapError hmarked⟩
    rw [← Except.ok.inj h]
    simp
  · have hplain : (Jsx.Token.openTag "div".toList
        [⟨"className".toList, some (classValue rootClass)⟩] false).Plain := by
      have hname : Jsx.IsPropertyName "className".toList := ⟨by decide, List.all_eq_true.1 rfl⟩
      refine ⟨⟨rfl, List.all_eq_true.1 rfl⟩, List.forall_mem_singleton.2 ⟨hname, fun v hv => ?_⟩⟩
      rw [← Option.mem_some_iff.1 hv]
      exact closed_classValue rootClass
    exact ⟨_, _, template_react rootClass html, Jsx.readToken?_source hplain _,
      textBy?_classValue jsx rootClass⟩

/-- a class with a double quote, a reference and a backslash, before a document with code -/
theorem rootClass_iff_quoted :
    let rootClass := "a\"\\&amp;b".toList
    let html := "<code>x</code>".toList
    let known := Html.References.all
    known.Basic ∧
      (∃ tag value raw marked,
        Html.Tag.read? tag = some (⟨"div".toList, [⟨"class".toList, value, raw⟩], false⟩,
          marked ++ "</div>".toList) ∧
        known.decode value = rootClass ∧ Html.markCode verbatimMark html = .ok marked) ∧
      ∃ template value, Framework.react.template rootClass html = .ok template ∧
        Jsx.readToken? template = some (.openTag "div".toList [⟨"className".toList, some value⟩] false,
          "<code>x</code></div>".toList) ∧
        value.textBy? known = some rootClass := by
  intro rootClass html known
  obtain ⟨hvue, template, value, ht, hread, hiff⟩ :=
    rootClass_iff Html.References.basic_all known rootClass html
  have hquote : '"' ∈ rootClass := by decide
  have hjsx : Jsx.ofHtml html = html := by decide +kernel
  rw [hjsx] at hread
  refine ⟨Html.References.basic_all, ?_, template, value, ht, hread, hiff.2 (.inl hquote)⟩
  obtain ⟨tag, value, raw, marked, -, htag⟩ := hvue _ rfl
  exact ⟨tag, value, raw, marked, htag⟩

/-- **A class with a reference and without a double quote is another class to a reader of JSX.** -/
theorem rootClass_reference :
    let rootClass := "a&amp;b".toList
    let template := "<div className=\"a&amp;b\"></div>".toList
    Framework.react.template rootClass [] = .ok template ∧
      Jsx.readToken? template =
        some (.openTag "div".toList [⟨"className".toList, some (.quoted rootClass)⟩] false,
          "</div>".toList) ∧
      (Jsx.Value.quoted rootClass).textBy? Html.References.all = some "a&b".toList ∧
      rootClass ≠ "a&b".toList := by
  refine ⟨by decide +kernel, by decide +kernel, ?_, by decide⟩
  rw [Jsx.Value.textBy?, Html.References.decode_all]
  decide +kernel

end Framework

end MarkdownModule
