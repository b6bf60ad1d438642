import Mathlib
import MarkdownModule.Html.StartTag
import MarkdownModule.Proofs.Html.RawText
import MarkdownModule.Proofs.Html.TagEnd
import MarkdownModule.Proofs.Text.Cut

/-!
# Where the scan for start tags stands

`Html.startTagNames` reads a document token by token: a character, a comment, or a start tag with
the raw content of a script or a style sheet.  `Html.finish?` is one such token, and `Settled a`
says that every token begun in `a` ends in `a`.

* `Html.startTagNames_cons`       the scan, one token at a time
* `Html.startTagNames_append`     behind a settled text the scan starts anew
* `Html.mem_startTagNames_iff`    the scan reads exactly the start tags that stand behind a settled
                                  text
-/

namespace MarkdownModule.Html

/-! ## one token -/

def afterMark? (mark s : Text) : Option Text :=
  match (Text.cutAt (mark.isPrefixOf ·) s).2 with
  | [] => none
  | c :: t => some ((c :: t).drop mark.length)

/-- the text from the end of raw content on, if the content ends -/
def afterRaw? (name s : Text) : Option Text :=
  match (cutRawText (Text.lower name) s).2 with
  | [] => none
  | c :: t => some (c :: t)

/-- the text after the token that begins with `c`, which `r` follows, if the token ends -/
def finish? (c : Char) (r : Text) : Option Text :=
  if c ≠ '<' then some r
  else if "!--".toList.isPrefixOf r then afterMark? "-->".toList (r.drop 3)
  else if r.head?.any Char.isAlpha then
    (closeTag (r.dropWhile isNameChar)).bind fun t =>
      if isListed scriptNames (r.takeWhile isNameChar) then
        afterRaw? (r.takeWhile isNameChar) t.2
      else some t.2
  else some r

/-- the name of the start tag that begins with `c`, which `r` follows, if there is one -/
def startName? (c : Char) (r : Text) : Option Text :=
  if c = '<' ∧ r.head?.any Char.isAlpha = true then some (r.takeWhile isNameChar) else none

/-- every token that is begun in the text ends in it -/
inductive Settled : Text → Prop where
  | nil : Settled []
  | token {c : Char} {r t : Text} (h : finish? c r = some t) (ht : Settled t) : Settled (c :: r)

/-! ## the scan as a run of tokens -/

theorem afterMark_eq (mark s : Text) : Text.afterMark mark s = (afterMark? mark s).getD [] := by
  unfold Text.afterMark afterMark?
  split
  · next h => rw [h]; exact List.drop_nil
  · next h => rw [h]; rfl

theorem afterRaw_eq (name s : Text) :
    (cutRawText (Text.lower name) s).2 = (afterRaw? name s).getD [] := by
  unfold afterRaw?
  split
  · next h => exact h
  · next h => exact h

theorem head_of_comment {r : Text} (h : "!--".toList.isPrefixOf r = true) :
    r.head?.any Char.isAlpha = false := by
  obtain ⟨t, rfl⟩ := List.isPrefixOf_iff_prefix.1 h
  rfl

theorem startTagNames_nil : startTagNames [] = [] := by rw [startTagNames]

theorem startTagNames_cons (c : Char) (r : Text) :
    startTagNames (c :: r) =
      (startName? c r).toList ++ startTagNames ((finish? c r).getD []) := by
  rw [startTagNames]
  unfold startName? finish?
  by_cases hc : c = '<'
  · rw [if_neg (not_not_intro hc), if_neg (not_not_intro hc)]
    by_cases hm : "!--".toList.isPrefixOf r = true
    · rw [if_pos hm, if_pos hm, if_neg (by rw [head_of_comment hm]; simp)]
      show startTagNames (Text.afterMark _ _) = _
      rw [afterMark_eq]; rfl
    · rw [if_neg hm, if_neg hm]
      by_cases ha : r.head?.any Char.isAlpha = true
      · rw [if_pos ha, if_pos ha, if_pos ⟨hc, ha⟩]
        show _ :: startTagNames (afterStartTag _ _) = [_] ++ _
        unfold afterStartTag
        cases ht : closeTag (r.dropWhile isNameChar) with
        | none =>
          rw [afterTag_eq_nil ht]
          split <;> rfl
        | some t =>
          rw [afterTag_eq (a := t.1) (b := t.2) ht, afterRaw_eq, Option.bind_some]
          split <;> rfl
      · rw [if_neg ha, if_neg ha, if_neg (fun h => ha h.2)]; rfl
  · rw [if_pos hc, if_pos hc, if_neg (fun h => hc h.1)]; rfl

theorem afterMark?_suffix {mark s t : Text} (h : afterMark? mark s = some t) : t <:+ s := by
  unfold afterMark? at h
  split at h
  · exact absurd h (by simp)
  · next e =>
    rw [Option.some.injEq] at h
    rw [← h, ← e]
    exact (List.drop_suffix _ _).trans (Text.cutAt_snd_suffix _ s)

theorem afterRaw?_suffix {name s t : Text} (h : afterRaw? name s = some t) : t <:+ s := by
  unfold afterRaw? at h
  split at h
  · exact absurd h (by simp)
  · next e =>
    rw [Option.some.injEq] at h
    rw [← h, ← e]
    exact Text.cutAt_snd_suffix _ s

theorem closeTag_suffix {s a b : Text} (h : closeTag s = some (a, b)) : b <:+ s :=
  ⟨a ++ ['>'], by rw [append_of_closeTag h, List.append_assoc]; rfl⟩

theorem finish?_suffix {c : Char} {r t : Text} (h : finish? c r = some t) : t <:+ r := by
  unfold finish? at h
  split at h
  · rw [Option.some.injEq] at h; exact h ▸ List.suffix_rfl
  split at h
  · exact (afterMark?_suffix h).trans (List.drop_suffix 3 r)
  split at h
  · obtain ⟨u, hu, h⟩ := Option.bind_eq_some_iff.1 h
    have hs := (closeTag_suffix (a := u.1) (b := u.2) hu).trans (List.dropWhile_suffix _)
    split at h
    · exact (afterRaw?_suffix h).trans hs
    · rw [Option.some.injEq] at h; rw [← h]; exact hs
  · rw [Option.some.injEq] at h; exact h ▸ List.suffix_rfl

/-! ## what follows a token -/

/-- no token that is begun in `a` is told apart by what `s` begins with -/
def Apart (a s : Text) : Prop :=
  ∀ t, '<' :: t <:+ a →
    "!--".toList.isPrefixOf (t ++ s) = "!--".toList.isPrefixOf t ∧
      (t ++ s).head?.any Char.isAlpha = t.head?.any Char.isAlpha

theorem Apart.of_suffix {a b s : Text} (h : Apart b s) (hab : a <:+ b) : Apart a s :=
  fun t ht => h t (ht.trans hab)

theorem apart_nil (a : Text) : Apart a [] := fun t _ => by rw [List.append_nil]; exact ⟨rfl, rfl⟩

/-- a text that begins with `<` goes on with no token -/
theorem apart_lt (a s : Text) : Apart a ('<' :: s) := by
  intro t _
  match t with
  | [] => exact ⟨rfl, rfl⟩
  | [c] => simp [List.isPrefixOf]
  | [c, d] => simp [List.isPrefixOf]
  | c :: d :: e :: t => simp [List.isPrefixOf]

/-- a text that ends with `>` ends with no open token -/
theorem apart_gt (a s : Text) : Apart (a ++ ['>']) s := by
  intro t ht
  obtain ⟨b, hb⟩ := ht
  have ht' : t ≠ [] := by
    rintro rfl
    have e := congrArg List.getLast? hb
    simp at e
  obtain ⟨u, c, rfl⟩ := (List.eq_nil_or_concat t).resolve_left ht'
  have hc : c = '>' := by
    have e : (b ++ '<' :: u) ++ [c] = a ++ ['>'] := by rw [← hb]; simp
    exact List.cons.inj (List.append_inj' e rfl).2 |>.1
  subst hc
  match u with
  | [] => simp [List.isPrefixOf]
  | [c] => simp [List.isPrefixOf]
  | c :: d :: u => cases u <;> simp [List.isPrefixOf]

theorem dropWhile_append_of_ne_nil {p : Char → Bool} {r s : Text} (h : r.dropWhile p ≠ []) :
    (r ++ s).dropWhile p = r.dropWhile p ++ s ∧ (r ++ s).takeWhile p = r.takeWhile p := by
  induction r with
  | nil => exact absurd rfl h
  | cons c r ih =>
    by_cases hc : p c = true
    · rw [List.dropWhile_cons_of_pos hc] at h
      rw [List.cons_append, List.dropWhile_cons_of_pos hc, List.dropWhile_cons_of_pos hc,
        List.takeWhile_cons_of_pos hc, List.takeWhile_cons_of_pos hc, (ih h).1, (ih h).2]
      exact ⟨rfl, rfl⟩
    · rw [List.cons_append, List.dropWhile_cons_of_neg hc, List.dropWhile_cons_of_neg hc,
        List.takeWhile_cons_of_neg hc, List.takeWhile_cons_of_neg hc]
      exact ⟨rfl, rfl⟩

theorem dropWhile_append_of_nil {p : Char → Bool} {r s : Text} (h : r.dropWhile p = []) :
    (r ++ s).dropWhile p = s.dropWhile p := by
  rw [List.dropWhile_append, h]; rfl

theorem closeTag_ne_nil {s : Text} {t : Text × Text} (h : closeTag s = some t) : s ≠ [] := by
  rintro rfl
  exact absurd h (by simp [closeTag, closeTagIn])

theorem afterMark?_append {mark a t : Text} (hm : mark ≠ []) (s : Text)
    (h : afterMark? mark a = some t) : afterMark? mark (a ++ s) = some (t ++ s) := by
  unfold afterMark? at h
  split at h
  · exact absurd h (by simp)
  · next c u e =>
    have hne : (Text.cutAt (mark.isPrefixOf ·) a).2 ≠ [] := by rw [e]; exact List.cons_ne_nil c u
    have hl := (Text.window_isPrefixOf mark hm).length_le _ (Text.holds_of_cutAt _ a hne)
    rw [Option.some.injEq] at h
    unfold afterMark?
    rw [Text.cutAt_append_right (Text.window_isPrefixOf mark hm) a s hne, e]
    rw [e] at hl
    show some (((c :: u) ++ s).drop mark.length) = _
    rw [List.drop_append_of_le_length hl, h]

theorem afterRaw?_append {name a t : Text} (s : Text) (h : afterRaw? name a = some t) :
    afterRaw? name (a ++ s) = some (t ++ s) := by
  unfold afterRaw? at h
  split at h
  · exact absurd h (by simp)
  · next c u e =>
    have hne : (cutRawText (Text.lower name) a).2 ≠ [] := by rw [e]; exact List.cons_ne_nil c u
    rw [Option.some.injEq] at h
    unfold afterRaw?
    unfold cutRawText at e hne ⊢
    rw [Text.cutAt_append_right (Text.window_closesRawText (Text.lower name)) a s hne, e, ← h]
    rfl

/-- a token that ends has the same end in a longer text -/
theorem finish?_append {c : Char} {r t s : Text} (ha : Apart (c :: r) s)
    (h : finish? c r = some t) :
    finish? c (r ++ s) = some (t ++ s) ∧ startName? c (r ++ s) = startName? c r := by
  unfold finish? startName? at *
  by_cases hc : c = '<'
  · subst hc
    obtain ⟨hm, hh⟩ := ha r List.suffix_rfl
    rw [if_neg (not_not_intro rfl)] at h ⊢
    rw [hm, hh]
    by_cases hp : "!--".toList.isPrefixOf r = true
    · rw [if_pos hp] at h ⊢
      have hl : 3 ≤ r.length := (List.isPrefixOf_iff_prefix.1 hp).length_le
      rw [List.drop_append_of_le_length hl, afterMark?_append (by decide) s h,
        if_neg (by rw [head_of_comment hp]; simp), if_neg (by rw [head_of_comment hp]; simp)]
      exact ⟨rfl, rfl⟩
    · rw [if_neg hp] at h ⊢
      by_cases hl : r.head?.any Char.isAlpha = true
      · rw [if_pos hl] at h ⊢
        obtain ⟨u, hu, h⟩ := Option.bind_eq_some_iff.1 h
        obtain ⟨hd, ht⟩ := dropWhile_append_of_ne_nil (s := s) (closeTag_ne_nil hu)
        rw [hd, ht, closeTag_append (a := u.1) (b := u.2) s hu, Option.bind_some]
        refine ⟨?_, rfl⟩
        by_cases hs : isListed scriptNames (r.takeWhile isNameChar) = true
        · rw [if_pos hs] at h ⊢
          exact afterRaw?_append s h
        · rw [if_neg hs] at h ⊢
          rw [Option.some.injEq] at h
          rw [h]
      · rw [if_neg hl] at h ⊢
        rw [Option.some.injEq] at h
        rw [h, if_neg (fun e => hl (h ▸ e.2)), if_neg (fun e => hl (h ▸ e.2))]
        exact ⟨rfl, rfl⟩
  · rw [if_pos hc] at h ⊢
    rw [Option.some.injEq] at h
    rw [h, if_neg (fun e => hc e.1), if_neg (fun e => hc e.1)]
    exact ⟨rfl, rfl⟩

/-- **Behind a settled text the scan starts anew.** -/
theorem startTagNames_append {a s : Text} (h : Settled a) (ha : Apart a s) :
    startTagNames (a ++ s) = startTagNames a ++ startTagNames s := by
  induction h with
  | nil => rw [startTagNames_nil]; rfl
  | @token c r t hf _ ih =>
    obtain ⟨hf', hn⟩ := finish?_append ha hf
    rw [List.cons_append, startTagNames_cons, startTagNames_cons c r, hf', hf, hn,
      Option.getD_some, Option.getD_some,
      ih (ha.of_suffix ((finish?_suffix hf).trans (List.suffix_cons c r))), List.append_assoc]

/-! ## what precedes a start tag -/

theorem afterMark?_of_append {mark a s t : Text} (hm : mark ≠ [])
    (h : afterMark? mark (a ++ s) = some (t ++ s)) : afterMark? mark a = some t := by
  have w := Text.window_isPrefixOf mark hm
  have hpos := w.pos
  unfold afterMark? at h ⊢
  generalize (mark.isPrefixOf ·) = p at w h ⊢
  split at h
  · exact absurd h (by simp)
  · next c u e =>
    have hl := w.length_le _ (Text.holds_of_cutAt p (a ++ s) (by rw [e]; exact List.cons_ne_nil c u))
    rw [Option.some.injEq, ← e] at h
    have hlen := congrArg List.length h
    simp only [List.length_drop, List.length_append] at hlen
    have hcut := Text.cutAt_of_append w a s (by omega)
    rw [hcut, List.length_append] at hlen hl
    have hl' : mark.length ≤ (Text.cutAt p a).2.length := by omega
    rw [hcut, List.drop_append_of_le_length hl', List.append_cancel_right_eq] at h
    split
    · next e' => rw [e', List.length_nil] at hl'; omega
    · next e' => rw [← e', h]

theorem lower_of_isListed_scriptNames {name : Text} (h : isListed scriptNames name = true) :
    Text.lower name = "script".toList ∨ Text.lower name = "style".toList := by
  simp only [isListed, scriptNames, List.contains_cons, List.contains_nil, Bool.or_false,
    Bool.or_eq_true, beq_iff_eq] at h
  rcases h with h | h
  · exact .inl (by rw [← h, String.toList_ofList])
  · exact .inr (by rw [← h, String.toList_ofList])

/-- no end tag begins where a start tag does -/
theorem not_closesRawText {name q : Text} (hq : q.head?.any Char.isAlpha = true) :
    ¬ closesRawText name ('<' :: q) = true := by
  intro h
  have e := beq_iff_eq.1 h
  cases q with
  | nil => exact absurd hq Bool.false_ne_true
  | cons c q =>
    simp only [Text.lower, List.take_succ_cons, List.map_cons, List.cons.injEq] at e
    have ha : c.toLower.isAlpha = true := by rw [Char.isAlpha_toLower_eq_isAlpha]; exact hq
    rw [e.2.1] at ha
    exact absurd ha (by decide)

theorem afterRaw?_of_append {name a t q : Text} (hn : '<' ∉ Text.lower name)
    (hq : q.head?.any Char.isAlpha = true)
    (h : afterRaw? name (a ++ '<' :: q) = some (t ++ '<' :: q)) : afterRaw? name a = some t := by
  have w := Text.window_closesRawText (Text.lower name)
  unfold afterRaw? cutRawText at h ⊢
  split at h
  · exact absurd h (by simp)
  · next c u e =>
    have hp := Text.holds_of_cutAt _ _ (by rw [e]; exact List.cons_ne_nil c u)
    rw [Option.some.injEq, ← e] at h
    rw [h] at hp
    have ht : t ≠ [] := by
      rintro rfl
      exact not_closesRawText hq hp
    have hl := length_le_of_closesRawText hn ht hp
    have hcut := Text.cutAt_of_append w a ('<' :: q) (by rw [h, List.length_append]; omega)
    rw [hcut, List.append_cancel_right_eq] at h
    rw [h]
    cases t with
    | nil => simp at hl
    | cons d t => rfl

/-- a token that ends before a start tag ends in the text before that tag -/
theorem finish?_of_append {c : Char} {r t q : Text} (hq : q.head?.any Char.isAlpha = true)
    (h : finish? c (r ++ '<' :: q) = some (t ++ '<' :: q)) : finish? c r = some t := by
  obtain ⟨hm, hh⟩ := apart_lt ('<' :: r) q r List.suffix_rfl
  unfold finish? at h ⊢
  by_cases hc : c = '<'
  · rw [if_neg (not_not_intro hc), hm] at h
    rw [if_neg (not_not_intro hc)]
    by_cases hp : "!--".toList.isPrefixOf r = true
    · rw [if_pos hp] at h ⊢
      have hl : 3 ≤ r.length := (List.isPrefixOf_iff_prefix.1 hp).length_le
      rw [List.drop_append_of_le_length hl] at h
      exact afterMark?_of_append (by decide) h
    · rw [if_neg hp, hh] at h
      rw [if_neg hp]
      by_cases ha : r.head?.any Char.isAlpha = true
      · rw [if_pos ha] at h ⊢
        obtain ⟨⟨x, y⟩, hu, h⟩ := Option.bind_eq_some_iff.1 h
        dsimp only at h
        have hy : ('<' :: q).length ≤ y.length := by
          split at h
          · have := (afterRaw?_suffix h).length_le
            rw [List.length_append] at this
            omega
          · rw [Option.some.injEq] at h
            rw [h, List.length_append]
            omega
        have hne : r.dropWhile isNameChar ≠ [] := by
          intro e
          have e' := dropWhile_append_of_nil (s := '<' :: q) e
          rw [e', List.dropWhile_cons_of_neg (by decide)] at hu
          have := congrArg List.length (append_of_closeTag hu)
          simp only [List.length_append, List.length_cons] at this hy
          omega
        obtain ⟨hd, hw⟩ := dropWhile_append_of_ne_nil (s := '<' :: q) hne
        rw [hd] at hu
        rw [hw] at h
        obtain ⟨y', rfl⟩ : ∃ y', y = y' ++ '<' :: q := by
          obtain ⟨z, hz⟩ := closeTag_suffix hu
          obtain ⟨y', hy'⟩ := List.suffix_of_suffix_length_le
            (List.suffix_append (r.dropWhile isNameChar) ('<' :: q)) ⟨z, hz⟩ hy
          exact ⟨y', hy'.symm⟩
        rw [closeTag_of_append hu, Option.bind_some]
        by_cases hs : isListed scriptNames (r.takeWhile isNameChar) = true
        · rw [if_pos hs] at h ⊢
          refine afterRaw?_of_append ?_ hq h
          rcases lower_of_isListed_scriptNames hs with e | e <;> rw [e] <;> decide
        · rw [if_neg hs, Option.some.injEq] at h
          rw [if_neg hs, List.append_cancel_right h]
      · rw [if_neg ha, Option.some.injEq] at h
        rw [if_neg ha, List.append_cancel_right h]
  · rw [if_pos hc, Option.some.injEq] at h
    rw [if_pos hc, List.append_cancel_right h]

/-- **The scan reads exactly the start tags that stand behind a settled text.** -/
theorem mem_startTagNames_iff {html n : Text} :
    n ∈ startTagNames html ↔
      ∃ a r, html = a ++ '<' :: r ∧ startName? '<' r = some n ∧ Settled a := by
  constructor
  · intro h
    induction hk : html.length using Nat.strong_induction_on generalizing html with
    | _ k ih =>
      cases html with
      | nil => rw [startTagNames_nil] at h; exact absurd h List.not_mem_nil
      | cons c r =>
        rw [startTagNames_cons] at h
        rcases List.mem_append.1 h with h | h
        · rw [Option.mem_toList] at h
          have hc : c = '<' := by
            unfold startName? at h
            split at h
            · next hc => exact hc.1
            · exact absurd h (by simp)
          exact ⟨[], r, by rw [hc]; rfl, by rw [← hc]; exact h, .nil⟩
        · cases hf : finish? c r with
          | none => rw [hf, Option.getD_none, startTagNames_nil] at h; exact absurd h List.not_mem_nil
          | some t =>
            rw [hf, Option.getD_some] at h
            have hl := (finish?_suffix hf).length_le
            obtain ⟨a, q, rfl, hq, ha⟩ := ih t.length (by rw [← hk, List.length_cons]; omega) h rfl
            obtain ⟨b, rfl⟩ := finish?_suffix hf
            refine ⟨c :: (b ++ a), q, by simp, hq, .token (t := a) ?_ ha⟩
            apply finish?_of_append (q := q)
            · unfold startName? at hq
              split at hq
              · next hq' => exact hq'.2
              · exact absurd hq (by simp)
            · rw [List.append_assoc]; exact hf
  · rintro ⟨a, r, rfl, hn, ha⟩
    rw [startTagNames_append ha (apart_lt a r), startTagNames_cons, hn]
    simp

end MarkdownModule.Html
