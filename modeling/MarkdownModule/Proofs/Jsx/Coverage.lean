import MarkdownModule.Proofs.Component.Firsts
import MarkdownModule.Proofs.Html.Settle
import MarkdownModule.Proofs.Jsx.Piece

/-!
# Component tags and their references

The conversion to JSX and the scan for components read the same document in two ways.  A document is
covered (`Jsx.Covers`) when the scan finds every component that the conversion writes a tag for.

* `Jsx.covers_of_calm`    a document is covered unless a quote is open in markup that is no start
                          tag, or a script or a style sheet closes itself
* `Jsx.covers_iff`        a document is covered exactly when the scan stands between two tokens at
                          every component tag, or finds the component elsewhere
* `Jsx.not_covers_quote`  a document that is not covered
-/

namespace MarkdownModule.Jsx

/-- every component that a tag is written for has a reference, whose binding names the tag -/
def Covers (html : Text) : Prop :=
  ∀ p ∈ pieces html, ∀ n, p.startName? = some n → Html.isCustom n = true →
    ∃ r ∈ ComponentReference.scan html, Script.bindingFor r.pascal = tagName n

theorem tagName_of_isCustom {n : Text} (h : Html.isCustom n = true) :
    tagName n = Script.bindingFor (Naming.pascal n) := if_pos h

theorem exists_mem_scan_tagName {n html : Text} (h : n ∈ Html.startTagNames html)
    (hn : Html.isCustom n = true) :
    ∃ r ∈ ComponentReference.scan html, Script.bindingFor r.pascal = tagName n := by
  obtain ⟨r, hr, e⟩ := ComponentReference.exists_mem_scan h hn
  exact ⟨r, hr, by rw [tagName_of_isCustom hn, e]⟩

/-! ## where a piece stands -/

theorem pieces_split {html : Text} {ps qs : List Piece} {p : Piece}
    (h : pieces html = ps ++ p :: qs) :
    ∃ c r, html = ps.flatMap Piece.source ++ c :: r ∧ pieceAt c r = p := by
  induction ps generalizing html with
  | nil =>
    cases html with
    | nil => rw [pieces_nil] at h; exact absurd h (by simp)
    | cons c r =>
      rw [pieces_cons] at h
      exact ⟨c, r, rfl, (List.cons.inj h).1⟩
  | cons q ps ih =>
    cases html with
    | nil => rw [pieces_nil] at h; exact absurd h (by simp)
    | cons c r =>
      rw [pieces_cons] at h
      obtain ⟨hq, h⟩ := List.cons.inj h
      obtain ⟨d, s, e, hp⟩ := ih h
      refine ⟨d, s, ?_, hp⟩
      rw [List.flatMap_cons, List.append_assoc, ← e, ← hq, source_pieceAt]

theorem head?_ne_slash {r inside rest : Text} (ht : Html.closeTag r = some (inside, rest))
    (hs : inside.head? ≠ some '/') : r.head? ≠ some '/' := by
  rw [Html.append_of_closeTag ht]
  cases inside with
  | nil => simp
  | cons c t => exact hs

theorem startName?_startPiece (inside rest : Text) :
    (startPiece inside rest).startName? = some (Piece.nameOf inside) := by
  unfold startPiece
  split
  · rfl
  · rfl

/-- a piece that is written as a start tag begins a start tag of the same name -/
theorem startName?_pieceAt {c : Char} {r n : Text} (h : (pieceAt c r).startName? = some n) :
    c = '<' ∧ Html.startName? '<' r = some n := by
  unfold pieceAt at h
  by_cases hc : c = '<'
  case neg =>
    rw [if_neg hc] at h
    exact absurd h (by simp [Piece.startName?])
  rw [if_pos hc] at h
  refine ⟨hc, ?_⟩
  unfold markupPiece at h
  split at h
  · exact absurd h (by simp [Piece.startName?])
  split at h
  · exact absurd h (by simp [Piece.startName?])
  split at h
  case isFalse => exact absurd h (by simp [Piece.startName?])
  next ha =>
  cases ht : Html.closeTag r with
  | none => rw [ht] at h; exact absurd h (by simp [Piece.startName?])
  | some t =>
    obtain ⟨inside, rest⟩ := t
    rw [ht] at h
    dsimp only at h
    by_cases hs : inside.head? = some '/'
    · obtain ⟨u, rfl⟩ := List.head?_eq_some_iff.1 hs
      exact absurd h (by simp [tagPiece, Piece.startName?])
    · rw [tagPiece_of_start hs, startName?_startPiece, Option.some.injEq] at h
      rw [nameStart?_eq (head?_ne_slash ht hs)] at ha
      rw [← h, Piece.nameOf, Html.takeWhile_inside ht]
      exact if_pos ⟨rfl, ha⟩

/-! ## documents of calm pieces -/

/-- a piece that leaves the scan for start tags between two tokens -/
def Calm : Piece → Prop
  | .declaration s => Html.Settled ('<' :: s)
  | .endTag inside => Html.Settled ('<' :: '/' :: inside ++ ['>'])
  | .startTag inside => Html.isListed Html.scriptNames (Piece.nameOf inside) = false
  | .rawElement inside content =>
    Html.isListed Html.scriptNames (Piece.nameOf inside) = false → Html.Settled content
  | _ => True

theorem startTagNames_text {s : Text} (h : '<' ∉ s) (t : Text) :
    Html.startTagNames (s ++ t) = Html.startTagNames t := by
  induction s with
  | nil => rfl
  | cons c s ih =>
    obtain ⟨hc, hs⟩ := not_or.1 (fun e => h (List.mem_cons.2 e))
    rw [List.cons_append, Html.startTagNames, if_pos (Ne.symm hc), ih hs]

theorem mem_append_of_settled {a s n : Text} (h : Html.Settled a) (ha : Html.Apart a s)
    (hn : n ∈ Html.startTagNames s) : n ∈ Html.startTagNames (a ++ s) := by
  rw [Html.startTagNames_append h ha]
  exact List.mem_append_right _ hn

/-- the scan behind a start tag -/
theorem startTagNames_tag {r inside rest : Text} (ha : r.head?.any Char.isAlpha = true)
    (ht : Html.closeTag r = some (inside, rest)) :
    Html.startTagNames ('<' :: r) =
      Piece.nameOf inside ::
        Html.startTagNames (if Html.isListed Html.scriptNames (Piece.nameOf inside) then
          (Html.cutRawText (Text.lower (Piece.nameOf inside)) rest).2 else rest) := by
  have hm : ¬ "!--".toList.isPrefixOf r = true :=
    fun hm => Bool.false_ne_true ((Html.head_of_comment hm).symm.trans ha)
  have hr : Html.afterTag (r.dropWhile Html.isNameChar) = rest := by
    rw [Html.closeTag_eq_map] at ht
    obtain ⟨u, hu, e⟩ := Option.map_eq_some_iff.1 ht
    rw [Html.afterTag_eq (a := u.1) (b := u.2) hu]
    exact (Prod.mk.inj e).2
  rw [Html.startTagNames, if_neg (not_not_intro rfl), if_neg hm, if_pos ha]
  dsimp only
  rw [Html.afterStartTag, hr, Piece.nameOf, Html.takeWhile_inside ht]

theorem apart_cutRawText (name s : Text) :
    Html.Apart (Html.cutRawText name s).1 (Html.cutRawText name s).2 := by
  have h := Text.holds_of_cutAt (Html.closesRawText name) s
  unfold Html.cutRawText
  cases e : (Text.cutAt (Html.closesRawText name) s).2 with
  | nil => exact Html.apart_nil _
  | cons c t =>
    rw [e] at h
    have hc := beq_iff_eq.1 (h (List.cons_ne_nil c t))
    rw [List.take_succ_cons, Text.lower, List.map_cons] at hc
    have hl : c.toLower = '<' := (List.cons.inj hc).1
    have hc : c = '<' := by
      by_cases hu : c.isUpper = true
      · have ha : c.toLower.isAlpha = true := by
          rw [Char.isAlpha_toLower_eq_isAlpha]
          exact Bool.or_eq_true_iff.2 (.inl hu)
        rw [hl] at ha
        exact absurd ha (by decide)
      · rw [Char.toLower_eq_of_not_isUpper hu] at hl
        exact hl
    rw [hc]
    exact Html.apart_lt _ t

theorem mem_of_mem_behind_tag {r inside rest n : Text} (ha : r.head?.any Char.isAlpha = true)
    (ht : Html.closeTag r = some (inside, rest)) (hs : inside.head? ≠ some '/')
    (hc : Calm (tagPiece inside rest))
    (hn : n ∈ Html.startTagNames (tagStep 0 inside rest).rest) :
    n ∈ Html.startTagNames ('<' :: r) := by
  rw [startTagNames_tag ha ht]
  refine List.mem_cons_of_mem _ ?_
  rw [tagPiece_of_start hs, startPiece] at hc
  rw [tagStep_of_start hs, startTagStep_eq] at hn
  dsimp only at hn
  by_cases hb : holdsRaw inside = true
  · rw [if_pos hb] at hc hn
    by_cases hl : Html.isListed Html.scriptNames (Piece.nameOf inside) = true
    · rw [if_pos hl]
      exact hn
    · rw [if_neg hl, ← Text.cutAt_append (Html.closesRawText _) rest]
      exact mem_append_of_settled (hc (Bool.eq_false_iff.2 hl)) (apart_cutRawText _ rest) hn
  · rw [if_neg hb] at hc hn
    rw [if_neg (Bool.eq_false_iff.1 hc)]
    exact hn

theorem mem_of_mem_behind_mark {s n : Text} (a : Text) (h : Html.Settled ('<' :: a ++ ['>']))
    (hn : n ∈ Html.startTagNames s) : n ∈ Html.startTagNames ('<' :: a ++ '>' :: s) := by
  have e : '<' :: a ++ '>' :: s = ('<' :: a ++ ['>']) ++ s := by simp
  rw [e]
  exact mem_append_of_settled h (Html.apart_gt ('<' :: a) s) hn

theorem mem_of_mem_behind_markup {r n : Text} (h : Calm (markupPiece r))
    (hn : n ∈ Html.startTagNames (markupStep 0 r).rest) : n ∈ Html.startTagNames ('<' :: r) := by
  unfold markupPiece at h
  unfold markupStep at hn
  by_cases hm : "!--".toList.isPrefixOf r = true
  · rw [if_pos hm] at hn
    rw [Html.startTagNames, if_neg (not_not_intro rfl), if_pos hm]
    exact hn
  rw [if_neg hm] at h hn
  by_cases hd : (decide (r.head? = some '!') || decide (r.head? = some '?')) = true
  · rw [if_pos hd] at h hn
    dsimp only at hn
    cases ht : Html.closeTag r with
    | none =>
      rw [Html.afterTag_eq_nil ht, Html.startTagNames_nil] at hn
      exact absurd hn List.not_mem_nil
    | some t =>
      have e := Html.append_of_closeTag (a := t.1) (b := t.2) ht
      rw [Html.afterTag_eq (a := t.1) (b := t.2) ht] at h hn
      have hb : before r t.2 = t.1 ++ ['>'] := by
        refine List.append_cancel_right (?_ : _ ++ t.2 = _ ++ t.2)
        rw [before_append ⟨t.1 ++ ['>'], by rw [e]; simp⟩, e]
        simp
      rw [hb] at h
      rw [e]
      exact mem_of_mem_behind_mark t.1 h hn
  rw [if_neg hd] at h hn
  by_cases ha : (nameStart? r).any Char.isAlpha = true
  · rw [if_pos ha] at h hn
    cases ht : Html.closeTag r with
    | none =>
      rw [ht] at hn
      rw [Html.startTagNames_nil] at hn
      exact absurd hn List.not_mem_nil
    | some t =>
      obtain ⟨inside, rest⟩ := t
      rw [ht] at h hn
      have e := Html.append_of_closeTag ht
      by_cases hs : inside.head? = some '/'
      · obtain ⟨u, rfl⟩ := List.head?_eq_some_iff.1 hs
        rw [e]
        exact mem_of_mem_behind_mark ('/' :: u) h hn
      · rw [nameStart?_eq (head?_ne_slash ht hs)] at ha
        exact mem_of_mem_behind_tag ha ht hs h hn
  · rw [if_neg ha] at hn
    have ha : ¬ r.head?.any Char.isAlpha = true := by
      intro h'
      apply ha
      rwa [nameStart?_eq]
      intro e
      rw [e] at h'
      exact absurd h' (by decide)
    rw [Html.startTagNames, if_neg (not_not_intro rfl), if_neg hm, if_neg ha]
    exact hn

/-- behind a calm piece the scan finds no more than before it -/
theorem mem_of_mem_behind {c : Char} {r n : Text} (h : Calm (pieceAt c r))
    (hn : n ∈ Html.startTagNames (behind c r)) : n ∈ Html.startTagNames (c :: r) := by
  unfold pieceAt at h
  unfold behind step at hn
  by_cases hc : c = '<'
  · rw [if_pos hc] at h hn
    rw [hc]
    exact mem_of_mem_behind_markup h hn
  · rw [if_neg hc] at hn
    rw [← List.takeWhile_append_dropWhile (p := (· ≠ '<')) (l := c :: r), startTagNames_text]
    · exact hn
    · exact fun hm => absurd (List.mem_takeWhile_imp hm) (by simp)

theorem mem_startTagNames_of_calm {html n : Text} {ps qs : List Piece} {p : Piece}
    (h : pieces html = ps ++ p :: qs) (hc : ∀ q ∈ ps, Calm q) (hp : p.startName? = some n) :
    n ∈ Html.startTagNames html := by
  induction ps generalizing html with
  | nil =>
    obtain ⟨c, r, rfl, rfl⟩ := pieces_split h
    obtain ⟨rfl, hn⟩ := startName?_pieceAt hp
    rw [List.flatMap_nil, List.nil_append, Html.startTagNames_cons, hn]
    exact List.mem_cons_self
  | cons q ps ih =>
    cases html with
    | nil => rw [pieces_nil] at h; exact absurd h (by simp)
    | cons c r =>
      rw [pieces_cons] at h
      obtain ⟨hq, hps⟩ := List.forall_mem_cons.1 hc
      obtain ⟨e, h⟩ := List.cons.inj h
      exact mem_of_mem_behind (by rw [e]; exact hq) (ih h hps)

/-- **A document of calm pieces is covered.** -/
theorem covers_of_calm {html : Text} (h : ∀ p ∈ pieces html, Calm p) : Covers html := by
  intro p hp n hn hc
  obtain ⟨ps, qs, e⟩ := List.append_of_mem hp
  refine exists_mem_scan_tagName (mem_startTagNames_of_calm e ?_ hn) hc
  intro q hq
  exact h q (by rw [e]; exact List.mem_append_left _ hq)

/-! ## all documents -/

/-- the scan reads a start tag of the name `n` behind the text `a` -/
def ReadsAt (html a n : Text) : Prop :=
  ∃ r, html = a ++ '<' :: r ∧ Html.startName? '<' r = some n ∧ Html.Settled a

theorem ReadsAt.mem {html a n : Text} (h : ReadsAt html a n) : n ∈ Html.startTagNames html := by
  obtain ⟨r, e, hn, ha⟩ := h
  exact Html.mem_startTagNames_iff.2 ⟨a, r, e, hn, ha⟩

/-- **A document is covered exactly when the scan stands between two tokens at each component tag, or
reads a tag with the same binding at another place.** -/
theorem covers_iff (html : Text) :
    ofHtml html = writePieces 0 (pieces html) ∧ (pieces html).flatMap Piece.source = html ∧
      (Covers html ↔
        ∀ ps p qs n, pieces html = ps ++ p :: qs → p.startName? = some n →
          Html.isCustom n = true →
          Html.Settled (ps.flatMap Piece.source) ∨
            ∃ a m, a ≠ ps.flatMap Piece.source ∧ ReadsAt html a m ∧ Html.isCustom m = true ∧
              tagName m = tagName n) := by
  refine ⟨ofHtml_eq_writePieces html, flatMap_source_pieces html, ?_⟩
  constructor
  · intro h ps p qs n e hp hn
    obtain ⟨r, hr, hb⟩ := h p (by rw [e]; simp) n hp hn
    obtain ⟨m, hm, hc, rfl⟩ := ComponentReference.exists_of_mem_scan hr
    obtain ⟨a, s, ha, hs, hset⟩ := Html.mem_startTagNames_iff.1 hm
    by_cases hap : a = ps.flatMap Piece.source
    · exact .inl (hap ▸ hset)
    · exact .inr ⟨a, m, hap, ⟨s, ha, hs, hset⟩, hc, by rw [tagName_of_isCustom hc]; exact hb⟩
  · intro h p hp n hn hc
    obtain ⟨ps, qs, e⟩ := List.append_of_mem hp
    rcases h ps p qs n e hn hc with hs | ⟨a, m, -, hr, hm, hb⟩
    · obtain ⟨c, r, he, rfl⟩ := pieces_split e
      obtain ⟨rfl, hs'⟩ := startName?_pieceAt hn
      exact exists_mem_scan_tagName (ReadsAt.mem ⟨r, he, hs', hs⟩) hc
    · rw [← hb]
      exact exists_mem_scan_tagName hr.mem hm

/-- **A quote that opens in a declaration hides the component behind it.** -/
theorem not_covers_quote :
    let html := "<!a \"<b \"><my-widget></my-widget>\">".toList
    ofHtml html = "<MyWidget></MyWidget>\"&gt;".toList ∧ ComponentReference.scan html = [] ∧
      ¬ Covers html := by
  intro html
  have hs : ComponentReference.scan html = [] := by decide +kernel
  refine ⟨by decide +kernel, hs, fun h => ?_⟩
  have hp : Piece.startTag "my-widget".toList ∈ pieces html := by decide +kernel
  obtain ⟨r, hr, -⟩ := h _ hp "my-widget".toList (by decide +kernel) (by decide +kernel)
  rw [hs] at hr
  exact absurd hr List.not_mem_nil

end MarkdownModule.Jsx
