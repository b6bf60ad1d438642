import MarkdownModule.Jsx.Convert
import MarkdownModule.Proofs.Html.AttributeByPlace
import MarkdownModule.Proofs.Html.ByPlace

/-!
# JSX by places

The conversion of a document to JSX over its bytes: a loop whose state is what has been written and how
deep in `pre` the place is.

* `Jsx.ByPlace.ofHtml`      the conversion by places
* `Jsx.ByPlace.step_eq`     a step of the loop takes the piece that a step by characters takes
* `Jsx.ByPlace.ofHtml_eq`   the conversion by places writes what the one by characters writes
-/

namespace MarkdownModule.Jsx

open Text (byteSize byteSize_cons byteSize_append dropBytes? slice bytesFrom testAt holdsAt runEnd
  runFrom loop Fault utf8)
open Html.ByPlace (afterTag afterComment rawTextEnd)

namespace ByPlace

/-! ## readers -/

/-- what has been written, and how deep in elements whose text is verbatim the place is -/
structure Output where
  written : Text
  depth : Nat

def Output.add (o : Output) (written : Text) (depth : Nat) : Output := ⟨o.written ++ written, depth⟩

def text (html : Text) (i : Nat) (o : Output) : Except Fault (Nat × Output) := do
  let stop ← runFrom (· ≠ '<') html i
  let text ← slice html i stop
  return (stop, o.add (if 0 < o.depth then writeVerbatim text else writeText text) o.depth)

/-- an end tag whose `>` is at the place `stop` -/
def endTag (name : Text) (stop : Nat) (o : Output) : Nat × Output :=
  (stop + 1, o.add (writeEndTag name)
    (if Html.isListed verbatimNames name then o.depth - 1 else o.depth))

/-- what follows a start tag, which is already written, when its `>` is at the place `stop` -/
def content (html name : Text) (stop : Nat) (o : Output) : Except Fault (Nat × Output) := do
  if Html.isListed rawNames name then
    let next ← rawTextEnd html (stop + 1) (Text.lower name)
    let raw ← slice html (stop + 1) next
    return (next, o.add (writeRaw name raw) o.depth)
  else return (stop + 1, o.add [] (if Html.isListed verbatimNames name then o.depth + 1 else o.depth))

/-- a start tag whose name ends at the place `nameEnd` and whose `>` is at the place `stop` -/
def startTag (html name : Text) (nameEnd stop : Nat) (o : Output) : Except Fault (Nat × Output) := do
  let inside ← slice html nameEnd stop
  let body := TagBody.ofText inside
  let attributes ← Html.ByPlace.readAttributes body.attributes
  let opened := '<' :: tagName name ++ attributes.flatMap writeAttribute
  if opensElement name body then content html name stop (o.add (opened ++ ['>']) o.depth)
  else return (stop + 1, o.add (opened ++ " />".toList) o.depth)

/-- a tag whose `<` is at the place `i` and whose name begins at the place `start` -/
def tag (html : Text) (i start : Nat) (closing : Bool) (o : Output) : Except Fault (Nat × Output) := do
  let bytes ← bytesFrom html i
  match Html.tagEnd? bytes with
  | none =>
    let rest ← slice html i (byteSize html)
    return (byteSize html, o.add (writeText rest) o.depth)
  | some e =>
    let nameEnd ← runEnd Html.isNameChar html start (i + e)
    let name ← slice html start nameEnd
    if closing then return endTag name (i + e) o else startTag html name nameEnd (i + e) o

/-- what begins with a `<`, followed by the name of a tag or not -/
def named (html : Text) (i start : Nat) (closing : Bool) (o : Output) :
    Except Fault (Nat × Output) := do
  if ← holdsAt Char.isAlpha html start then tag html i start closing o
  else return (i + 1, o.add strayLess o.depth)

def markup (html : Text) (i : Nat) (o : Output) : Except Fault (Nat × Output) := do
  let rest ← slice html i (byteSize html)
  if "<!--".toList.isPrefixOf rest then
    let inside ← slice rest 4 (byteSize rest)
    return (afterComment (byteSize html) i inside, o)
  else if "<!".toList.isPrefixOf rest || "<?".toList.isPrefixOf rest then
    let next ← afterTag html i
    return (next, o)
  else if "</".toList.isPrefixOf rest then named html i (i + 2) true o
  else named html i (i + 1) false o

def step (html : Text) (i : Nat) (o : Output) : Except Fault (Nat × Output) := do
  if ← testAt (· ≠ '<') html i then text html i o else markup html i o

def ofHtml (html : Text) : Except Fault Text :=
  (loop (byteSize html) (step html) 0 ⟨[], 0⟩).map Output.written

/-! ## pieces -/

/-- a step by places takes a piece: it goes on to the rest behind the piece, with what is written for
the piece -/
def Takes (html : Text) (o : Output) (s : Step) (r : Except Fault (Nat × Output)) : Prop :=
  ∃ j, r = .ok (j, o.add s.written s.depth) ∧ dropBytes? j html = some s.rest

section
variable {html r s t rest : Text} {i n : Nat} {o : Output}

theorem takes_text (h : dropBytes? i html = some r) :
    Takes html o (textStep o.depth r) (text html i o) := by
  refine ⟨_, ?_, Text.dropBytes?_run (· ≠ '<') h⟩
  rw [text, Text.runFrom_eq (Text.asciiTest_ne (d := '<') (by decide)) h, ok_bind,
    Text.slice_run (· ≠ '<') h]
  rfl

theorem takeWhile_append_dropWhile_append (t s : Text) :
    t.takeWhile Html.isNameChar ++ (t.dropWhile Html.isNameChar ++ s) = t ++ s := by
  rw [← List.append_assoc, List.takeWhile_append_dropWhile]

theorem slice_name (h : dropBytes? n html = some (t ++ s)) :
    slice html n (n + byteSize (t.takeWhile Html.isNameChar)) =
      .ok (t.takeWhile Html.isNameChar) :=
  Text.slice_cut h (takeWhile_append_dropWhile_append t s)

/-- between the end of the name of a tag and the end of the tag stands what follows the name -/
theorem slice_behindName (h : dropBytes? n html = some (t ++ s)) :
    slice html (n + byteSize (t.takeWhile Html.isNameChar)) (n + byteSize t) =
      .ok (t.dropWhile Html.isNameChar) := by
  have hwhole : byteSize (t.takeWhile Html.isNameChar) + byteSize (t.dropWhile Html.isNameChar) =
      byteSize t := by
    rw [← byteSize_append, List.takeWhile_append_dropWhile]
  have hslice := Text.slice_of (Text.dropBytes?_cut h (takeWhile_append_dropWhile_append t s))
  rwa [Nat.add_assoc, hwhole] at hslice

/-- what an output holds once a start tag is written and what follows it is taken -/
theorem takes_content {name opened : Text} (hstop : dropBytes? (n + 1) html = some rest) :
    Takes html o
      (if Html.isListed rawNames name then
        ⟨opened ++ writeRaw name (Html.cutRawText (Text.lower name) rest).1, o.depth,
          (Html.cutRawText (Text.lower name) rest).2⟩
      else ⟨opened, if Html.isListed verbatimNames name then o.depth + 1 else o.depth, rest⟩)
      (content html name n (o.add opened o.depth)) := by
  unfold content
  split
  · have hcut : (Html.cutRawText (Text.lower name) rest).1 ++
        (Html.cutRawText (Text.lower name) rest).2 = rest := Text.cutAt_append _ rest
    refine ⟨_, ?_, Html.ByPlace.dropBytes?_rawTextEnd hstop (Text.lower name)⟩
    rw [Html.ByPlace.rawTextEnd_eq hstop, ok_bind, Text.slice_cut hstop hcut, ok_bind]
    simp only [Output.add, List.append_assoc]
    rfl
  · refine ⟨n + 1, ?_, hstop⟩
    simp only [Output.add, List.append_nil]
    rfl

theorem takes_startTag (h : dropBytes? n html = some (t ++ '>' :: rest)) :
    Takes html o (startTagStep o.depth t rest)
      (startTag html (t.takeWhile Html.isNameChar)
        (n + byteSize (t.takeWhile Html.isNameChar)) (n + byteSize t) o) := by
  have hrest : dropBytes? (n + byteSize t + 1) html = some rest :=
    Text.dropBytes?_succ (by decide) (Text.dropBytes?_add h)
  rw [startTag, slice_behindName h, ok_bind]
  dsimp only
  rw [Html.ByPlace.readAttributes_eq, ok_bind]
  unfold startTagStep
  generalize t.takeWhile Html.isNameChar = name
  generalize TagBody.ofText (t.dropWhile Html.isNameChar) = body
  dsimp only
  cases hopens : opensElement name body with
  | false =>
    refine ⟨n + byteSize t + 1, ?_, hrest⟩
    simp only [writeStartTag, hopens]
    rfl
  | true =>
    have htag : writeStartTag name body =
        ('<' :: tagName name ++ (Html.readAttributes body.attributes).flatMap writeAttribute) ++
          ['>'] := by
      rw [writeStartTag, hopens]
      rfl
    rw [htag]
    exact takes_content hrest

theorem takes_tag_none (h : dropBytes? i html = some ('<' :: r)) (hnone : Html.closeTag r = none)
    (start : Nat) (closing : Bool) :
    Takes html o ⟨writeText ('<' :: r), o.depth, []⟩ (tag html i start closing o) := by
  refine ⟨byteSize html, ?_, Text.dropBytes?_size html⟩
  rw [tag, Text.bytesFrom_of h, ok_bind, Html.ByPlace.tagEnd?_of_closeTag_none hnone]
  dsimp only
  rw [Text.slice_rest h]
  rfl

/-- a tag that ends is read by its name, and by what stands between the name and the end -/
theorem tag_eq (h : dropBytes? i html = some ('<' :: r)) {inside : Text}
    (hsome : Html.closeTag r = some (inside, rest)) (start : Nat) (closing : Bool) :
    tag html i start closing o = (do
      let stop := i + byteSize ('<' :: inside)
      let nameEnd ← runEnd Html.isNameChar html start stop
      let name ← slice html start nameEnd
      if closing then return endTag name stop o else startTag html name nameEnd stop o) := by
  rw [tag, Text.bytesFrom_of h, ok_bind, Html.ByPlace.tagEnd?_of_closeTag hsome]

theorem takes_endTag (h : dropBytes? i html = some ('<' :: '/' :: t ++ '>' :: rest))
    (hsome : Html.closeTag ('/' :: t ++ '>' :: rest) = some ('/' :: t, rest)) :
    Takes html o (endTagStep o.depth t rest) (tag html i (i + 2) true o) := by
  have hname : dropBytes? (i + 2) html = some (t ++ '>' :: rest) :=
    Text.dropBytes?_add (a := "</".toList) h
  have hstop : i + byteSize ('<' :: '/' :: t) = i + 2 + byteSize t := by
    rw [Nat.add_assoc]
    exact congrArg (i + ·) (byteSize_append "</".toList t)
  rw [tag_eq h hsome, hstop]
  refine ⟨i + 2 + byteSize t + 1, ?_, Text.dropBytes?_succ (by decide) (Text.dropBytes?_add hname)⟩
  dsimp only
  rw [Text.runEnd_before Html.ByPlace.asciiTest_isNameChar hname, ok_bind, slice_name hname]
  rfl

theorem takes_openTag (h : dropBytes? i html = some ('<' :: t ++ '>' :: rest))
    (hsome : Html.closeTag (t ++ '>' :: rest) = some (t, rest)) :
    Takes html o (startTagStep o.depth t rest) (tag html i (i + 1) false o) := by
  have hname : dropBytes? (i + 1) html = some (t ++ '>' :: rest) :=
    Text.dropBytes?_succ (by decide) h
  have hstop : i + byteSize ('<' :: t) = i + 1 + byteSize t := by
    rw [Nat.add_assoc]
    exact congrArg (i + ·) (byteSize_append "<".toList t)
  rw [tag_eq h hsome, hstop]
  dsimp only
  rw [Text.runEnd_before Html.ByPlace.asciiTest_isNameChar hname, ok_bind, slice_name hname]
  exact takes_startTag hname

/-! ## steps -/

/-- the step over what begins with a `<` and is no comment or declaration -/
def namedStep (depth : Nat) (r : Text) : Step :=
  if (nameStart? r).any Char.isAlpha then
    match Html.closeTag r with
    | none => ⟨writeText ('<' :: r), depth, []⟩
    | some (inside, rest) => tagStep depth inside rest
  else ⟨strayLess, depth, r⟩

theorem takes_named (h : dropBytes? i html = some ('<' :: r)) {start : Nat} {closing : Bool}
    (hstart : dropBytes? start html = some s) (hhead : s.head? = nameStart? r)
    (htag : ∀ inside rest, Html.closeTag r = some (inside, rest) →
      Takes html o (tagStep o.depth inside rest) (tag html i start closing o)) :
    Takes html o (namedStep o.depth r) (named html i start closing o) := by
  rw [named, Text.holdsAt_eq Text.asciiTest_isAlpha hstart, ok_bind, hhead, namedStep]
  split
  · split
    · next hnone => exact takes_tag_none h hnone start closing
    · next inside rest hsome => exact htag inside rest hsome
  · exact ⟨i + 1, rfl, Text.dropBytes?_succ (by decide) h⟩

theorem takes_closing (h : dropBytes? i html = some ('<' :: '/' :: t)) :
    Takes html o (namedStep o.depth ('/' :: t)) (named html i (i + 2) true o) := by
  refine takes_named h (Text.dropBytes?_add (a := "</".toList) h) rfl fun inside rest hsome => ?_
  have hslash : (Html.closeTagIn none t).map (fun u => ('/' :: u.1, u.2)) = some (inside, rest) := hsome
  obtain ⟨⟨u, v⟩, -, huv⟩ := Option.map_eq_some_iff.1 hslash
  obtain ⟨rfl, rfl⟩ := Prod.mk.injEq .. ▸ huv
  have hr := Html.append_of_closeTag hsome
  rw [hr] at h hsome
  exact takes_endTag h hsome

theorem takes_opening (h : dropBytes? i html = some ('<' :: r)) (hno : ∀ t, r ≠ '/' :: t) :
    Takes html o (namedStep o.depth r) (named html i (i + 1) false o) := by
  have hhead : r.head? = nameStart? r := by
    unfold nameStart?
    split
    · next t => exact absurd rfl (hno t)
    · rfl
  refine takes_named h (Text.dropBytes?_succ (by decide) h) hhead fun inside rest hsome => ?_
  have hr := Html.append_of_closeTag hsome
  rw [hr] at h hsome
  unfold tagStep
  split
  · exact absurd hr (hno _)
  · exact takes_openTag h hsome

theorem isPrefixOf_pair (d : Char) (r : Text) :
    ['<', d].isPrefixOf ('<' :: r) = decide (r.head? = some d) := by
  cases r with
  | nil => rfl
  | cons c r =>
    simp only [List.isPrefixOf, Bool.and_true, List.head?_cons, Option.some.injEq, beq_self_eq_true,
      Bool.true_and]
    exact decide_eq_decide.2 eq_comm

theorem takes_comment (h : dropBytes? i html = some ('<' :: r))
    (hmark : "!--".toList.isPrefixOf r = true) :
    Takes html o ⟨[], o.depth, Html.afterComment r⟩ (markup html i o) := by
  obtain ⟨-, hrest⟩ := Html.ByPlace.afterComment_eq h hmark
  refine ⟨_, ?_, hrest⟩
  have hinside := Html.ByPlace.dropBytes?_comment (Text.dropBytes?_zero ('<' :: r)) hmark
  rw [markup, Text.slice_rest h, ok_bind]
  show (if "!--".toList.isPrefixOf r then do
      let inside ← slice ('<' :: r) (0 + 4) (byteSize ('<' :: r))
      return (afterComment (byteSize html) i inside, o)
    else _) = _
  rw [if_pos hmark, Text.slice_rest hinside, Output.add, List.append_nil]
  rfl

/-- what begins with a `<` and is no comment is a declaration, a tag or a stray `<` -/
theorem markup_eq (h : dropBytes? i html = some ('<' :: r))
    (hmark : ¬ "!--".toList.isPrefixOf r = true) :
    markup html i o =
      if r.head? = some '!' || r.head? = some '?' then do
        let next ← afterTag html i
        return (next, o)
      else if r.head? = some '/' then named html i (i + 2) true o
      else named html i (i + 1) false o := by
  rw [markup, Text.slice_rest h, ok_bind]
  show (if "!--".toList.isPrefixOf r then _
    else if ['<', '!'].isPrefixOf ('<' :: r) || ['<', '?'].isPrefixOf ('<' :: r) then _
    else if ['<', '/'].isPrefixOf ('<' :: r) then _ else _) = _
  rw [if_neg hmark, isPrefixOf_pair, isPrefixOf_pair, isPrefixOf_pair]
  simp only [decide_eq_true_eq]

theorem takes_markup (h : dropBytes? i html = some ('<' :: r)) :
    Takes html o (markupStep o.depth r) (markup html i o) := by
  unfold markupStep
  by_cases hmark : "!--".toList.isPrefixOf r = true
  · rw [if_pos hmark]
    exact takes_comment h hmark
  rw [if_neg hmark, markup_eq h hmark]
  by_cases hdeclaration : r.head? = some '!' || r.head? = some '?'
  · obtain ⟨j, hj, -, hrest⟩ := Html.ByPlace.afterTag_eq h
    rw [if_pos hdeclaration, if_pos hdeclaration, hj]
    refine ⟨j, ?_, hrest⟩
    rw [Output.add, List.append_nil]
    rfl
  rw [if_neg hdeclaration, if_neg hdeclaration]
  show Takes html o (namedStep o.depth r) _
  split
  · next hslash =>
    obtain ⟨t, rfl⟩ := List.head?_eq_some_iff.1 hslash
    exact takes_closing h
  · next hslash =>
    exact takes_opening h fun t ht => hslash (by rw [ht]; rfl)

/-- **A step by places takes the piece that a step by characters takes.** -/
theorem step_eq {c : Char} (h : dropBytes? i html = some (c :: r)) :
    Takes html o (Jsx.step o.depth c r) (step html i o) := by
  rw [step, Text.testAt_eq (Text.asciiTest_ne (d := '<') (by decide)) h, ok_bind, Jsx.step]
  by_cases hc : c = '<'
  · subst hc
    exact takes_markup h
  · rw [if_neg hc, if_pos (decide_eq_true hc)]
    exact takes_text h

end

/-! ## documents -/

/-- from a border of characters on, the conversion writes what the text that stands there is written as -/
theorem loop_step_eq (html : Text) {s : Text} {i : Nat} {o : Output} (h : dropBytes? i html = some s) :
    (loop (byteSize html) (step html) i o).map Output.written =
      .ok (o.written ++ ofHtmlAt o.depth s) := by
  generalize hdepth : o.depth = depth
  induction depth, s using ofHtmlAt.induct generalizing i o with
  | case1 depth =>
    have hsize := Text.byteSize_of_dropBytes? h
    rw [ofHtmlAt, List.append_nil, Text.loop_end (by rw [← hsize]; exact Nat.le_refl _)]
    rfl
  | case2 depth c r ih =>
    subst hdepth
    obtain ⟨j, hj, hrest⟩ := step_eq (o := o) h
    have hlt := Text.lt_of_length_lt h hrest (length_step_rest_lt o.depth c r)
    rw [Text.loop_step (Text.lt_byteSize h) hj hlt, ih hrest rfl, ofHtmlAt]
    exact congrArg Except.ok (List.append_assoc ..)

/-- **The conversion by places writes what the one by characters writes, and never fails.** -/
theorem ofHtml_eq (html : Text) : ofHtml html = .ok (Jsx.ofHtml html) :=
  loop_step_eq html (Text.dropBytes?_zero html)

end ByPlace

end MarkdownModule.Jsx
