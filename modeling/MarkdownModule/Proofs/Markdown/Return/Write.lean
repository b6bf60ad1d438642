import MarkdownModule.Markdown.Render
import MarkdownModule.Proofs.Markdown.Return.Inline

/-!
# Carriage returns in what is written

The tags that are written hold no carriage return, and neither does an address.  So the carriage
returns of inline content are those of the texts in it that references were replaced in.

* `ReturnsFrom`               the texts that the carriage returns come from
* `Inline.decodedTexts`       the texts that references were replaced in
* `Inline.Sound.write`        inline content in HTML
-/

namespace MarkdownModule.Markdown

/-! ## parts of what is written -/

/-- what is written holds a carriage return if and only if one of some texts does -/
def ReturnsFrom (ts : List Text) (w : Text) : Prop := '\r' ∈ w ↔ ∃ t ∈ ts, '\r' ∈ t

section
variable {a s v w : Text} {ts us : List Text} {c : Char}

namespace ReturnsFrom

theorem of_plain (h : Plain w) : ReturnsFrom [] w := iff_of_false h (by rintro ⟨t, ht, -⟩; cases ht)

theorem append (h : ReturnsFrom ts w) (h' : ReturnsFrom us v) : ReturnsFrom (ts ++ us) (w ++ v) := by
  unfold ReturnsFrom at h h' ⊢
  rw [List.mem_append, h, h']
  simp only [List.mem_append, or_and_right, exists_or]

theorem after (h : ReturnsFrom ts w) (ha : Plain a) : ReturnsFrom ts (a ++ w) :=
  (of_plain ha).append h

theorem before (h : ReturnsFrom ts w) (ha : Plain a) : ReturnsFrom ts (w ++ a) := by
  have hts := h.append (of_plain ha)
  rwa [List.append_nil] at hts

theorem of_before (h : ReturnsFrom ts (w ++ a)) (ha : Plain a) : ReturnsFrom ts w := by
  unfold ReturnsFrom at h ⊢
  rw [← h, List.mem_append, or_iff_left ha]

theorem behind (h : ReturnsFrom ts w) (hc : c ≠ '\r') : ReturnsFrom ts (c :: w) :=
  h.after (plain_single hc)

end ReturnsFrom

theorem mem_encodeChar (c : Char) : '\r' ∈ Html.encodeChar (keepChar c) ↔ c = '\r' := by
  have hkeep : keepChar c = '\r' ↔ c = '\r' := by
    unfold keepChar
    split
    · next h =>
      subst h
      decide
    · rfl
  rw [← hkeep]
  generalize keepChar c = d
  unfold Html.encodeChar
  split_ifs with hamp hless hgreater hquote
  · subst hamp
    decide
  · subst hless
    decide
  · subst hgreater
    decide
  · subst hquote
    decide
  · rw [List.mem_singleton, eq_comm]

theorem returns_escape (s : Text) : ReturnsFrom [s] (escape s) := by
  simp only [ReturnsFrom, escape, List.mem_flatMap, mem_encodeChar, List.mem_singleton, exists_eq_left,
    exists_eq_right]

theorem plain_escape (h : Plain s) : Plain (escape s) := by
  intro hmem
  obtain ⟨t, ht, hmem⟩ := (returns_escape s).1 hmem
  exact h (List.mem_singleton.1 ht ▸ hmem)

theorem plain_keep (h : Plain s) : Plain (keep s) := by
  intro hmem
  obtain ⟨c, hc, e⟩ := List.mem_map.1 hmem
  unfold keepChar at e
  split at e
  · cases e
  · exact h (e ▸ hc)

theorem plain_html (rawHtml : Bool) (h : Plain s) :
    Plain (if rawHtml = true then keep s else escape s) :=
  plain_ite (plain_keep h) (plain_escape h)

end

/-! ## addresses and numbers -/

namespace Address

theorem plain_encodeChar (c : Char) : Plain (encodeChar c) := by
  have hdigit : ∀ n < 16, upperHexDigit n ≠ '\r' := by decide
  intro hmem
  obtain ⟨byte, -, hmem⟩ := List.mem_flatMap.1 hmem
  have hbyte := byte.toNat_lt
  refine absurd hmem ((plain_single (hdigit _ ?_)).cons (hdigit _ ?_) |>.cons (by decide))
  · exact Nat.mod_lt _ (by decide)
  · omega

theorem plain_percentEncode (s : Text) : Plain (percentEncode s) := by
  have halnum : ∀ {c : Char}, c.isAlphanum = true → c ≠ '\r' := by
    rintro c h rfl
    revert h
    decide
  fun_induction percentEncode s with
  | case1 => exact List.not_mem_nil
  | case2 a b r h ih =>
    obtain ⟨ha, hb⟩ := Bool.and_eq_true_iff.1 h
    exact ((ih.cons (halnum hb)).cons (halnum ha)).cons (by decide)
  | case3 a b r _ ih => exact (plain_encodeChar '%').append ih
  | case4 c r _ ih =>
    refine Plain.append ?_ ih
    split
    · next h =>
      refine plain_single ?_
      rintro rfl
      revert h
      decide
    · exact plain_encodeChar c

theorem plain_write (anyProtocol : Bool) (u : Purpose) (address : Text) :
    Plain (write anyProtocol u address) := by
  exact plain_ite (plain_escape (plain_percentEncode address)) List.not_mem_nil

end Address

namespace Footnote

theorem plain_digits (n : Nat) : Plain (digits n) := by
  intro hmem
  rw [digits, Nat.toString_eq_repr, Nat.toList_repr] at hmem
  have hdigit := Nat.isDigit_of_mem_toDigits (by decide) (by decide) hmem
  revert hdigit
  decide

theorem plain_anchor (label : Text) : Plain (anchor label) :=
  plain_escape (Address.plain_percentEncode _)

theorem plain_ordinal (n : Nat) : Plain (ordinal n) :=
  plain_ite List.not_mem_nil ((plain_digits n).cons (by decide))

theorem plain_writeCall (label : Text) (cs : Calls) : Plain (writeCall label cs) := by
  have hanchor := plain_anchor label
  have hopen : Plain "<sup><a href=\"#user-content-fn-".toList := by decide
  have hid : Plain "\" id=\"user-content-fnref-".toList := by decide
  have hrole : Plain "\" data-footnote-ref=\"\" aria-describedby=\"footnote-label\">".toList := by decide
  have hclose : Plain "</a></sup>".toList := by decide
  exact ((((((hopen.append hanchor).append hid).append hanchor).append
    (plain_ordinal _)).append hrole).append (plain_digits _)).append hclose

theorem plain_backLink (label : Text) (n : Nat) : Plain (backLink label n) := by
  have hopen : Plain "<a href=\"#user-content-fnref-".toList := by decide
  have hrole : Plain ("\" data-footnote-backref=\"\" aria-label=\"Back to content\" "
      ++ "class=\"data-footnote-backref\">↩").toList := by decide
  have hsup : Plain "<sup>".toList ∧ Plain "</sup>".toList := by decide
  have hclose : Plain "</a>".toList := by decide
  have hnumber := plain_ite (p := n ≤ 1) List.not_mem_nil
    ((hsup.1.append (plain_digits n)).append hsup.2)
  exact ((((hopen.append (plain_anchor label)).append (plain_ordinal n)).append hrole).append
    hnumber).append hclose

theorem plain_backLinks (label : Text) (count : Nat) : Plain (backLinks label count) := by
  refine plain_intercalate (by decide) fun t ht => ?_
  obtain ⟨n, -, rfl⟩ := List.mem_map.1 ht
  exact plain_backLink label (n + 1)

end Footnote

/-! ## inline content -/

mutual

/-- the texts that references were replaced in and that inline content is written with: in the text
of an image no title is written -/
def Inline.decodedTexts (inImage : Bool) : Inline → List Text
  | .decoded s => [s]
  | .emphasis inner => decodedTextsIn inImage inner
  | .strong inner => decodedTextsIn inImage inner
  | .struck inner => decodedTextsIn inImage inner
  | .link _ title inner => (if inImage then [] else title.toList) ++ decodedTextsIn inImage inner
  | .image _ title inner => decodedTextsIn true inner ++ (if inImage then [] else title.toList)
  | _ => []

def decodedTextsIn (inImage : Bool) : List Inline → List Text
  | [] => []
  | i :: is => i.decodedTexts inImage ++ decodedTextsIn inImage is

end

section
variable {b : Prop} {ts : List Text} {s : Text}

theorem ReturnsFrom.tagged (h : ReturnsFrom ts s) (p : InlinePlace) {opening closing : String}
    (hopening : Plain opening.toList) (hclosing : Plain closing.toList) :
    ReturnsFrom ts (p.tagged opening closing s) := by
  unfold InlinePlace.tagged
  split
  · exact h
  · exact (h.after hopening).before hclosing

theorem returns_titleAttribute (title : Option Text) :
    ReturnsFrom title.toList (titleAttribute title) := by
  cases title with
  | none => exact .of_plain List.not_mem_nil
  | some t =>
    have hopen : Plain " title=\"".toList := by decide
    exact ((returns_escape t).after hopen).before (plain_single (by decide))

theorem returns_linkTag (o : MarkdownSettings) (destination : Text) (title : Option Text) :
    ReturnsFrom title.toList (linkTag o destination title) := by
  have hopen : Plain "<a href=\"".toList := by decide
  have haddress := hopen.append (Address.plain_write o.anyProtocol .link destination)
  exact (((returns_titleAttribute title).behind (by decide)).after haddress).before
    (plain_single (by decide))

theorem plain_writeAutolink (o : MarkdownSettings) (destination : Text) {shown : Text}
    (h : Plain shown) : Plain (writeAutolink o destination shown) := by
  have hclose : Plain "</a>".toList := by decide
  intro hmem
  have hwritten := ((returns_linkTag o destination none).before (plain_escape h)).before hclose
  obtain ⟨t, ht, -⟩ := hwritten.1 hmem
  cases ht

theorem returns_writeImage (o : MarkdownSettings) (destination : Text) {alt : Text}
    (halt : ReturnsFrom ts alt) (title : Option Text) :
    ReturnsFrom (ts ++ title.toList) (writeImage o destination alt title) := by
  have hopen : Plain "<img src=\"".toList := by decide
  have hmid : Plain "\" alt=\"".toList := by decide
  have hclose : Plain " />".toList := by decide
  have haddress := (hopen.append (Address.plain_write o.anyProtocol .image destination)).append hmid
  exact ((halt.after haddress).append ((returns_titleAttribute title).behind (by decide))).before hclose

theorem plain_writeCheckBox (checked : Bool) : Plain (writeCheckBox checked) := by
  cases checked <;> decide

theorem returns_writeInlines {o : MarkdownSettings} {is : List Inline}
    (h : ∀ i ∈ is, ∀ p cs, ReturnsFrom (i.decodedTexts p.inImage) (i.write o p cs).1)
    (p : InlinePlace) (cs : Calls) :
    ReturnsFrom (decodedTextsIn p.inImage is) (writeInlines o p cs is).1 := by
  induction is generalizing cs with
  | nil => exact .of_plain List.not_mem_nil
  | cons i is ih =>
    obtain ⟨hi, his⟩ := List.forall_mem_cons.1 h
    rw [writeInlines, decodedTextsIn]
    exact (hi p cs).append (ih his _)

/-- the carriage returns of inline content in HTML -/
theorem Inline.Sound.write {i : Inline} (h : i.Sound b) (o : MarkdownSettings) (p : InlinePlace)
    (cs : Calls) : ReturnsFrom (i.decodedTexts p.inImage) (i.write o p cs).1 := by
  have hnone : Plain "".toList := by decide
  have hcode : Plain "</code>".toList := by decide
  induction h generalizing p cs with
  | text h => exact .of_plain (plain_escape h)
  | decoded h => exact returns_escape _
  | softBreak place => exact .of_plain (plain_single (by decide))
  | hardBreak =>
    rw [Inline.write]
    exact ((ReturnsFrom.of_plain List.not_mem_nil).tagged p (by decide) hnone).before
      (plain_single (by decide))
  | code h | formula h =>
    rw [Inline.write]
    exact (ReturnsFrom.of_plain (plain_escape h)).tagged p (by decide) hcode
  | html h => exact .of_plain (plain_html o.rawHtml h)
  | emphasis h ih | strong h ih | struck h ih =>
    rw [Inline.write, Inline.decodedTexts]
    exact (returns_writeInlines ih p cs).tagged p (by decide) (by decide)
  | link destination ht h ih =>
    have hclose : Plain "</a>".toList := by decide
    have hinner := returns_writeInlines ih { p with inLink := true } cs
    rw [Inline.write, Inline.decodedTexts]
    dsimp only
    split
    · exact hinner
    · exact ((returns_linkTag o destination _).append hinner).before hclose
  | image destination ht h ih =>
    have hinner := returns_writeInlines ih { p with inImage := true } cs
    rw [Inline.write, Inline.decodedTexts]
    dsimp only
    split
    · rw [List.append_nil]
      exact hinner
    · exact returns_writeImage o destination hinner _
  | autolink destination h | bareLink destination h =>
    rw [Inline.write]
    exact .of_plain (plain_ite (plain_escape h) (plain_writeAutolink o destination h))
  | footnoteCall label =>
    rw [Inline.write]
    exact .of_plain (plain_ite List.not_mem_nil (Footnote.plain_writeCall label _))
  | checkBox checked =>
    rw [Inline.write]
    exact .of_plain (plain_ite List.not_mem_nil (plain_writeCheckBox checked))

theorem SoundInlines.write {is : List Inline} (h : SoundInlines b is) (o : MarkdownSettings)
    (p : InlinePlace) (cs : Calls) :
    ReturnsFrom (decodedTextsIn p.inImage is) (writeInlines o p cs is).1 :=
  returns_writeInlines (fun i hi => (h i hi).write o) p cs

end

end MarkdownModule.Markdown
