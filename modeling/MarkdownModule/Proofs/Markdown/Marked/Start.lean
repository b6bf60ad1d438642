import MarkdownModule.Proofs.Markdown.Marked.Container

/-!
# What lines with backslashes begin

A line that begins no other block begins none with a backslash at its end.

* `Start.ofLine?_alike`   what a line begins with its backslash and without
* `underline?_alike`      the headings that it underlines
* `Table.open?_alike`     the tables that two lines open
-/

namespace MarkdownModule.Markdown

/-! ## what lines begin -/

section
variable {breaks : Nat → Bool} {l l' : Line}

open Line (Alike mark mark_cases)

/-- a line that is not marked is the same line, but for its place -/
theorem Line.Alike.eq (h : Alike breaks l l') (hl : breaks l.stop = false) :
    l' = { l with stop := l'.stop } := by
  have hrest := h.rest
  rw [mark, hl] at hrest
  have hrest : l'.rest = l.rest := hrest.trans (List.append_nil _)
  rw [← h.spare, ← h.column, ← hrest]

variable (breaks) in
theorem runLength_mark (place : Nat) {c : Char} (hc : c ≠ '\\') (s : Text) :
    runLength c (s ++ mark breaks place) = runLength c s ∧
      (s ++ mark breaks place).drop (runLength c s) = s.drop (runLength c s) ++ mark breaks place := by
  have hspan := Line.span_mark breaks place (p := (· = c))
    (decide_eq_false hc.symm) s
  refine ⟨congrArg List.length hspan.1, ?_⟩
  exact List.drop_append_of_le_length (List.takeWhile_prefix _).length_le

theorem mem_mark {c : Char} (hc : c ≠ '\\') (s : Text) {place : Nat} :
    c ∈ s ++ mark breaks place ↔ c ∈ s := by
  rw [List.mem_append, or_iff_left]
  rcases mark_cases breaks place with ⟨hm, -⟩ | ⟨hm, -⟩
  · rw [hm]
    exact List.not_mem_nil
  · rw [hm, List.mem_singleton]
    exact hc

theorem Fence.open?_mark {o : MarkdownSettings} (h : Alike breaks l l')
    (hl : Fence.open? o l = none) : Fence.open? o l' = none := by
  unfold Fence.open? at hl ⊢
  rw [h.inner, h.indent]
  cases hinner : l.inner with
  | nil => rcases mark_cases breaks l.stop with ⟨hm, -⟩ | ⟨hm, -⟩ <;> rw [hm] <;> rfl
  | cons c r =>
    rw [hinner] at hl
    simp only [List.cons_append, List.head?_cons, Option.bind_eq_bind, Option.bind_some] at hl ⊢
    cases hfewest : Fence.fewest? o c with
    | none => rfl
    | some n =>
      have hc : c ≠ '\\' := by
        rintro rfl
        simp [Fence.fewest?] at hfewest
      obtain ⟨hsize, hafter⟩ := runLength_mark breaks l.stop hc (c :: r)
      rw [List.cons_append] at hsize hafter
      rw [hfewest] at hl
      simp only [Option.bind_some] at hl ⊢
      have hcontains : ((c :: r).drop (runLength c (c :: r)) ++ mark breaks l.stop).contains c =
          ((c :: r).drop (runLength c (c :: r))).contains c := by
        rw [Bool.eq_iff_iff, List.contains_iff_mem, List.contains_iff_mem, mem_mark hc]
      simp only [hsize, hafter, hcontains]
      split at hl
      · next hcond => exact if_pos hcond
      · cases hl

namespace RawHtml

theorem endsName_cons {c : Char} {s : Text} (h : ¬ ['/', '>'] <+: c :: s) :
    endsName (c :: s) = (isGap c || c = '>') := by
  unfold endsName
  split
  · next e => cases e
  · next r e => exact absurd ⟨r, e.symm⟩ h
  · next e => rw [(List.cons.inj e).1]

theorem endsName_of_mark {s : Text} (h : endsName (s ++ mark breaks l.stop) = true) :
    endsName s = true := by
  cases s with
  | nil => rfl
  | cons c s =>
    by_cases hslash : ['/', '>'] <+: c :: s
    · obtain ⟨r, hr⟩ := hslash
      rw [← hr]
      rfl
    · have hslash' := mt (Line.prefix_mark breaks l.stop (by decide) _).1 hslash
      rw [List.cons_append] at h hslash'
      rw [endsName_cons hslash'] at h
      rw [endsName_cons hslash, h]

/-- a tag is not alone on a line that ends with a backslash -/
theorem lone_of_mark {rest : Text → Option Text} (hrest : Tagged rest) {s : Text}
    (h : (rest (s ++ mark breaks l.stop)).any (·.all isGap) = true) :
    (rest s).any (·.all isGap) = true := by
  rcases mark_cases breaks l.stop with ⟨hm, -⟩ | ⟨hm, -⟩
  · rwa [hm, List.append_nil] at h
  · rw [hm] at h
    cases hr : rest (s ++ ['\\']) with
    | none =>
      rw [hr] at h
      cases h
    | some r =>
      rw [hr] at h
      have hgap : ∀ c ∈ r, isGap c = true := List.all_eq_true.1 h
      obtain ⟨w, hw, -⟩ := hrest hr
      rcases List.eq_nil_or_concat r with rfl | ⟨r, c, rfl⟩
      · exact absurd (List.append_inj' hw rfl).2 (by decide)
      · rw [List.concat_eq_append, ← List.cons_append, ← List.append_assoc] at hw
        have hc := hgap c (by simp)
        rw [← (List.cons.inj (List.append_inj' hw rfl).2).1] at hc
        exact absurd hc (by decide)

variable (breaks l) in
theorem ofTag?_mark {lone isEnd : Bool} {s : Text} (h : ofTag? lone isEnd s = none) :
    ofTag? lone isEnd (s ++ mark breaks l.stop) = none := by
  have hname := Line.span_mark breaks l.stop (p := RawTag.inName) (by decide) s
  have hhead : (s ++ mark breaks l.stop).head?.any Char.isAlpha = s.head?.any Char.isAlpha := by
    cases s with
    | nil => rcases mark_cases breaks l.stop with ⟨hm, -⟩ | ⟨hm, -⟩ <;> rw [hm] <;> rfl
    | cons c s => rfl
  unfold ofTag? at h ⊢
  dsimp only at h ⊢
  rw [drop_length_takeWhile] at h ⊢
  rw [hhead, hname.1, hname.2]
  generalize s.dropWhile RawTag.inName = after at h ⊢
  generalize s.takeWhile RawTag.inName = name at h ⊢
  have hslash : ((after ++ mark breaks l.stop).head? == some '/') = (after.head? == some '/') := by
    rw [Bool.eq_iff_iff, beq_iff_eq, beq_iff_eq]
    exact Line.head?_mark (by decide) after
  rw [hslash]
  split at h
  · next hno => exact if_pos hno
  · next halpha =>
    rw [if_neg halpha]
    split at h
    · cases h
    · next hraw =>
      have hraw' : ¬ (!isEnd && !(after.head? == some '/') && isAmong rawNames name &&
          endsName (after ++ mark breaks l.stop)) = true := fun e =>
        hraw (by
          rw [Bool.and_eq_true_iff] at e ⊢
          exact e.imp_right endsName_of_mark)
      rw [if_neg hraw']
      split at h
      · next hblock =>
        rw [if_pos hblock]
        split at h
        · cases h
        · next hends => exact if_neg (mt endsName_of_mark hends)
      · next hblock =>
        rw [if_neg hblock]
        have hlone : ∀ {rest : Text → Option Text}, Tagged rest →
            ¬(lone && (rest s).any (·.all isGap)) = true →
            ¬(lone && (rest (s ++ mark breaks l.stop)).any (·.all isGap)) = true := by
          intro rest hrest hno e
          rw [Bool.and_eq_true_iff] at e hno
          exact hno (e.imp_right (lone_of_mark hrest))
        cases isEnd with
        | true =>
          refine if_neg (hlone RawTag.tagged_endTagEnd? fun e => ?_)
          rw [if_pos rfl, if_pos e] at h
          cases h
        | false =>
          refine if_neg (hlone RawTag.tagged_startTagEnd? fun e => ?_)
          rw [if_neg Bool.false_ne_true, if_pos e] at h
          cases h

theorem ofDeclaration?_mark {s : Text} (h : ofDeclaration? s = none) :
    ofDeclaration? (s ++ mark breaks l.stop) = none := by
  cases s with
  | nil => rcases mark_cases breaks l.stop with ⟨hm, -⟩ | ⟨hm, -⟩ <;> rw [hm] <;> rfl
  | cons c s =>
    have hcomment : ¬ ['-', '-'] <+: c :: s := by
      rintro ⟨r, hr⟩
      rw [← hr] at h
      cases h
    have hcomment' := mt (Line.prefix_mark breaks l.stop (by decide) _).1 hcomment
    have hdata : ∀ t : Text, RawTag.dataMark.isPrefixOf t = true ↔ RawTag.dataMark <+: t :=
      fun t => List.isPrefixOf_iff_prefix
    have hcons : ∀ {t : Text}, ¬ ['-', '-'] <+: c :: t → ofDeclaration? (c :: t) =
        if RawTag.dataMark <+: c :: t then some .data
        else if c.isAlpha then some .declaration else none := by
      intro t ht
      unfold ofDeclaration?
      split
      · next r e => exact absurd ⟨r, e.symm⟩ ht
      · next e =>
        simp only [hdata]
        rw [(List.cons.inj e).1]
      · next e => cases e
    rw [List.cons_append] at hcomment' ⊢
    rw [hcons hcomment] at h
    rw [hcons hcomment', ← List.cons_append]
    simp only [Line.prefix_mark breaks l.stop
      (show '\\' ∉ RawTag.dataMark by decide) (c :: s)]
    exact h

theorem open?_mark {lone : Bool} (h : Alike breaks l l') (hl : open? lone l = none) :
    open? lone l' = none := by
  unfold open? at hl ⊢
  rw [h.indent, h.inner]
  by_cases hindent : mostIndent < l.indent
  · exact if_pos hindent
  rw [if_neg hindent] at hl ⊢
  rcases hinner : l.inner with _ | ⟨c, r⟩
  · rcases mark_cases breaks l.stop with ⟨hm, -⟩ | ⟨hm, -⟩ <;> rw [hm] <;> rfl
  rw [hinner] at hl
  by_cases hc : c = '<'
  · subst hc
    rcases r with _ | ⟨d, r⟩
    · have htag := ofTag?_mark breaks l (s := []) hl
      rcases mark_cases breaks l.stop with ⟨hm, -⟩ | ⟨hm, -⟩ <;> rw [hm] at htag ⊢ <;> exact htag
    · by_cases hmark : d = '!'
      · subst hmark
        exact ofDeclaration?_mark hl
      by_cases hquestion : d = '?'
      · subst hquestion
        cases hl
      by_cases hslash : d = '/'
      · subst hslash
        exact ofTag?_mark _ _ hl
      have htag : ofTag? lone false (d :: r) = none := by
        split at hl
        · next e => exact absurd (List.cons.inj (List.cons.inj e).2).1 hmark
        · next e => exact absurd (List.cons.inj (List.cons.inj e).2).1 hquestion
        · next e => exact absurd (List.cons.inj (List.cons.inj e).2).1 hslash
        · next e =>
          rw [(List.cons.inj e).2]
          exact hl
        · next hno => exact absurd rfl (hno (d :: r))
      split
      · next e => exact absurd (List.cons.inj (List.cons.inj e).2).1 hmark
      · next e => exact absurd (List.cons.inj (List.cons.inj e).2).1 hquestion
      · next e => exact absurd (List.cons.inj (List.cons.inj e).2).1 hslash
      · next e =>
        rw [← (List.cons.inj e).2]
        exact ofTag?_mark _ _ htag
      · rfl
  · split
    · next e => exact absurd (List.cons.inj e).1 hc
    · next e => exact absurd (List.cons.inj e).1 hc
    · next e => exact absurd (List.cons.inj e).1 hc
    · next e => exact absurd (List.cons.inj e).1 hc
    · rfl

end RawHtml

theorem readHeading?_mark (h : Alike breaks l l') (hl : readHeading? l = none) :
    readHeading? l' = none := by
  unfold readHeading? at hl ⊢
  dsimp only at hl ⊢
  obtain ⟨hlevel, hafter⟩ := runLength_mark breaks l.stop (c := '#') (by decide) l.inner
  rw [h.inner, h.indent, hlevel, hafter]
  split at hl
  · next hcond =>
    refine if_pos ?_
    simp only [Bool.or_eq_true, Bool.not_eq_true'] at hcond ⊢
    refine hcond.imp_right fun hhead => ?_
    cases hr : l.inner.drop (runLength '#' l.inner) with
    | nil =>
      rw [hr] at hhead
      cases hhead
    | cons c r =>
      rw [hr] at hhead
      exact hhead
  · cases hl

theorem isRule_mark (h : Alike breaks l l') (hl : isRule l = false) : isRule l' = false := by
  by_cases hb : breaks l.stop = true
  · rw [isRule, h.inner, Container.isRuleText_mark hb, Bool.and_false]
  · rw [h.eq (eq_false_of_ne_true hb)]
    exact hl

theorem Start.ofLine?_eq_none {o : MarkdownSettings} {lone : Bool} {l : Line} :
    Start.ofLine? o lone l = none ↔ Fence.open? o l = none ∧
      (o.htmlFlow = true → RawHtml.open? lone l = none) ∧ readHeading? l = none ∧
      isRule l = false := by
  unfold Start.ofLine?
  cases Fence.open? o l with
  | some f => simp
  | none =>
    cases o.htmlFlow with
    | true =>
      cases RawHtml.open? lone l with
      | some k => simp
      | none =>
        cases readHeading? l with
        | some t => simp
        | none => simp
    | false =>
      cases readHeading? l with
      | some t => simp
      | none => simp

/-- a line with a backslash begins the block that it begins without -/
theorem Start.ofLine?_alike {o : MarkdownSettings} {lone : Bool} (h : Alike breaks l l')
    (hl : breaks l.stop = true → Start.ofLine? o lone l = none) :
    Start.ofLine? o lone l' = Start.ofLine? o lone l := by
  by_cases hb : breaks l.stop = true
  · obtain ⟨hfence, hhtml, hheading, hrule⟩ := Start.ofLine?_eq_none.1 (hl hb)
    rw [hl hb]
    exact Start.ofLine?_eq_none.2 ⟨Fence.open?_mark h hfence,
      fun ho => RawHtml.open?_mark h (hhtml ho), readHeading?_mark h hheading, isRule_mark h hrule⟩
  · rw [h.eq (eq_false_of_ne_true hb)]
    rfl

/-! ## underlines -/

theorem underline?_eq_none {c : Char} (hlast : l.inner.getLast? = some c) (hgap : isGap c = false)
    (hequals : c ≠ '=') (hhyphen : c ≠ '-') : underline? l = none := by
  have hself : Text.dropEndWhile isGap l.inner = l.inner :=
    Text.dropEndWhile_eq_self fun d hd => by
      rw [hlast] at hd
      rw [← Option.some.inj hd]
      exact hgap
  have hmem := List.mem_of_getLast? hlast
  have hall : ∀ {d : Char}, c ≠ d → ¬ l.inner.all (· = d) = true := fun hd h =>
    hd (of_decide_eq_true (List.all_eq_true.1 h c hmem))
  unfold underline?
  dsimp only
  rw [hself, if_neg (hall hequals), if_neg (hall hhyphen)]
  split <;> rfl

/-- the character at the end of a line that gets a backslash -/
theorem Line.Alike.opens (h : Alike breaks l l') (hb : breaks l.stop = true) :
    ∀ c, l.inner.getLast? = some c → endsOpenly (some c) = true := by
  intro c hc
  obtain ⟨w, hw⟩ : l.inner <:+ l.rest := List.dropWhile_suffix _
  have hclean := h.clean hb
  rw [← hw, List.getLast?_append, hc] at hclean
  exact hclean

theorem endsOpenly_iff {c : Char} : endsOpenly (some c) = true ↔
    isGap c = false ∧ c ≠ '|' ∧ c ≠ '\\' ∧ c ≠ '=' ∧ c ≠ '-' := by
  simp [endsOpenly, takesBackslash, and_assoc]

theorem underline?_none (h : Alike breaks l l') (hb : breaks l.stop = true) : underline? l = none := by
  cases hlast : l.inner.getLast? with
  | none =>
    rw [List.getLast?_eq_none_iff] at hlast
    unfold underline?
    rw [hlast]
    exact if_pos (by simp [Text.dropEndWhile])
  | some c =>
    obtain ⟨hgap, -, -, hequals, hhyphen⟩ := endsOpenly_iff.1 (h.opens hb c hlast)
    exact underline?_eq_none hlast hgap hequals hhyphen

/-- a line with a backslash underlines what it underlines without -/
theorem underline?_alike (h : Alike breaks l l') : underline? l' = underline? l := by
  by_cases hb : breaks l.stop = true
  · rw [underline?_none h hb]
    refine underline?_eq_none (c := '\\') ?_ (by decide) (by decide) (by decide)
    rw [h.inner, mark, hb, if_pos rfl, List.getLast?_concat]
  · rw [h.eq (eq_false_of_ne_true hb)]
    rfl

/-! ## tables -/

namespace Table

/-- cells with a text before the first of them -/
def before (p : Text) : List Text → List Text
  | [] => [p]
  | w :: ws => (p ++ w) :: ws

theorem splitBars_escaped {c : Char} (hc : (c = '\\' || c = '|') = true) (r : Text) :
    splitBars ('\\' :: c :: r) = before ['\\', c] (splitBars r) := by
  rw [splitBars, if_pos hc]
  cases splitBars r <;> rfl

theorem splitBars_backslash {c : Char} (hc : ¬(c = '\\' || c = '|') = true) (r : Text) :
    splitBars ('\\' :: c :: r) = before ['\\'] (splitBars (c :: r)) := by
  rw [splitBars, if_neg hc]
  cases splitBars (c :: r) <;> rfl

theorem splitBars_bar (r : Text) : splitBars ('|' :: r) = [] :: splitBars r := by
  rw [splitBars, if_pos rfl]
  exact fun _ _ e _ => absurd e (by decide)

theorem splitBars_cons {c : Char} (hc : c ≠ '\\') (hbar : c ≠ '|') (r : Text) :
    splitBars (c :: r) = before [c] (splitBars r) := by
  rw [splitBars, if_neg hbar]
  · cases splitBars r <;> rfl
  · exact fun _ _ e _ => hc e

/-- a backslash at the end of a row belongs to its last cell, which ends with what the row ends with -/
structure Cut (s : Text) (ws : List Text) (w : Text) : Prop where
  cells : splitBars s = ws ++ [w]
  marked : splitBars (s ++ ['\\']) = ws ++ [w ++ ['\\']]
  last : ∀ c, s.getLast? = some c → c ≠ '|' → w.getLast? = some c
  nil : s = [] → ws = [] ∧ w = []

theorem Cut.before {s r p : Text} (hs : splitBars s = Table.before p (splitBars r))
    (hs' : splitBars (s ++ ['\\']) = Table.before p (splitBars (r ++ ['\\'])))
    (hp : p ≠ []) (hsr : s = p ++ r) {ws : List Text} {w : Text} (h : Cut r ws w) :
    ∃ ws w, Cut s ws w := by
  have hne : s ≠ [] := by simp [hsr, hp]
  cases ws with
  | nil =>
    refine ⟨[], p ++ w, by rw [hs, h.cells]; rfl, ?_, fun c hc hbar => ?_, fun e => absurd e hne⟩
    · rw [hs', h.marked]
      simp [Table.before]
    · rw [hsr, List.getLast?_append] at hc
      rw [List.getLast?_append]
      cases hr : r.getLast? with
      | none =>
        rw [List.getLast?_eq_none_iff] at hr
        rw [(h.nil hr).2]
        rw [hr] at hc
        exact hc
      | some d =>
        rw [hr] at hc
        cases hc
        rw [h.last c hr hbar]
        rfl
  | cons u ws =>
    refine ⟨(p ++ u) :: ws, w, by rw [hs, h.cells]; rfl, by rw [hs', h.marked]; rfl,
      fun c hc hbar => h.last c ?_ hbar, fun e => absurd e hne⟩
    have hr : r ≠ [] := fun e => absurd (h.nil e).1 (List.cons_ne_nil u ws)
    rwa [hsr, Text.getLast?_append_right p hr] at hc

theorem exists_cut {s : Text} (h : s.getLast? ≠ some '\\') : ∃ ws w, Cut s ws w := by
  have htail : ∀ {p r : Text}, (p ++ r).getLast? ≠ some '\\' → r.getLast? ≠ some '\\' := by
    intro p r h e
    exact h (by rw [List.getLast?_append, e]; rfl)
  induction s using splitBars.induct with
  | case1 => exact ⟨[], [], rfl, rfl, (fun c hc => by cases hc), fun _ => ⟨rfl, rfl⟩⟩
  | case2 c r hc hnil ih | case3 c r hc w ws hcells ih =>
    obtain ⟨ws, w, hcut⟩ := ih (htail (p := ['\\', c]) h)
    exact hcut.before (splitBars_escaped hc r) (splitBars_escaped hc _) (by simp) rfl
  | case4 c r hc hnil ih | case5 c r hc w ws hcells ih =>
    obtain ⟨ws, w, hcut⟩ := ih (htail (p := ['\\']) h)
    exact hcut.before (splitBars_backslash hc r) (splitBars_backslash hc _) (by simp) rfl
  | case6 r h1 ih =>
    obtain ⟨ws, w, hcut⟩ := ih (htail (p := ['|']) h)
    refine ⟨[] :: ws, w, by rw [splitBars_bar, hcut.cells]; rfl, ?_, fun c hc hbar => ?_,
      fun e => absurd e (List.cons_ne_nil _ _)⟩
    · rw [List.cons_append, splitBars_bar, hcut.marked]
      rfl
    · refine hcut.last c ?_ hbar
      cases r with
      | nil => exact absurd (Option.some.inj hc).symm hbar
      | cons d r => exact hc
  | case7 c r h1 hbar hnil ih | case8 c r h1 hbar w ws hcells ih =>
    have hc : c ≠ '\\' := by
      rintro rfl
      cases r with
      | nil => exact h rfl
      | cons d r => exact h1 d r rfl rfl
    obtain ⟨ws, w, hcut⟩ := ih (htail (p := [c]) h)
    exact hcut.before (splitBars_cons hc hbar r) (splitBars_cons hc hbar _) (by simp) rfl

theorem trim_eq {w : Text} {c : Char} (hc : w.getLast? = some c) (hgap : isGap c = false) :
    trim w = w.dropWhile isGap ∧ (trim w).getLast? = some c := by
  obtain ⟨u, hu⟩ : w.dropWhile isGap <:+ w := List.dropWhile_suffix _
  have hne : w.dropWhile isGap ≠ [] := by
    intro hnil
    have := List.dropWhile_eq_nil_iff.1 hnil c (List.mem_of_getLast? hc)
    rw [hgap] at this
    cases this
  have hlast : (w.dropWhile isGap).getLast? = some c := by
    rw [← hc, ← hu, Text.getLast?_append_right u hne]
    simp only [hu]
  have htrim : trim w = w.dropWhile isGap := Text.dropEndWhile_eq_self fun d hd => by
    rw [hlast] at hd
    rw [← Option.some.inj hd]
    exact hgap
  exact ⟨htrim, htrim ▸ hlast⟩

theorem dropEmptyLast_concat {ws : List Text} {w : Text} (h : w ≠ [] ∨ ws = []) :
    dropEmptyLast (ws ++ [w]) = ws ++ [w] := by
  induction ws with
  | nil => rfl
  | cons u ws ih =>
    have hw : w ≠ [] := h.resolve_right (List.cons_ne_nil u ws)
    have ih := ih (.inl hw)
    rw [List.cons_append, dropEmptyLast]
    · rw [ih]
    · intro e
      simp at e
    · intro e
      rcases ws with _ | ⟨v, ws⟩
      · exact hw (List.cons.inj e).1
      · simp at e

def body : Text → Text
  | '|' :: r => r
  | s => s

theorem cells_eq (s : Text) : cells s = dropEmptyLast ((splitBars (body s)).map trim) := by
  rfl

/-- the cells of a row with a backslash at its end -/
theorem cells_concat {s : Text} (h : ∀ c, s.getLast? = some c → endsOpenly (some c) = true) :
    ∃ ws w w', cells s = ws ++ [w] ∧ cells (s ++ ['\\']) = ws ++ [w'] ∧ w'.getLast? = some '\\' := by
  have hbody : body (s ++ ['\\']) = body s ++ ['\\'] ∧
      ∀ c, (body s).getLast? = some c → endsOpenly (some c) = true := by
    cases s with
    | nil => exact ⟨rfl, h⟩
    | cons d r =>
      by_cases hd : d = '|'
      · subst hd
        refine ⟨rfl, fun c hc => h c ?_⟩
        have hr : r ≠ [] := by
          rintro rfl
          cases hc
        exact (Text.getLast?_append_right ['|'] hr).trans hc
      · have hself : ∀ t, body (d :: t) = d :: t := by
          intro t
          unfold body
          split
          · next e => exact absurd (List.cons.inj e).1 hd
          · rfl
        rw [List.cons_append, hself, hself]
        exact ⟨rfl, h⟩
  obtain ⟨hbody, hopen⟩ := hbody
  obtain ⟨ws, w, hcut⟩ := exists_cut (s := body s) fun e => absurd (hopen _ e) (by decide)
  have hw' := trim_eq (w := w ++ ['\\']) List.getLast?_concat (by decide)
  refine ⟨ws.map trim, trim w, trim (w ++ ['\\']), ?_, ?_, hw'.2⟩
  · rw [cells_eq, hcut.cells, List.map_append, List.map_singleton]
    refine dropEmptyLast_concat ?_
    cases hlast : (body s).getLast? with
    | none =>
      rw [List.getLast?_eq_none_iff] at hlast
      exact .inr (by rw [(hcut.nil hlast).1]; rfl)
    | some c =>
      obtain ⟨hgap, hbar, -⟩ := endsOpenly_iff.1 (hopen c hlast)
      refine .inl fun e => ?_
      have := (trim_eq (hcut.last c hlast hbar) hgap).2
      rw [e] at this
      cases this
  · rw [cells_eq, hbody, hcut.marked, List.map_append, List.map_singleton]
    refine dropEmptyLast_concat (.inl fun e => ?_)
    rw [e] at hw'
    cases hw'.2

theorem column?_eq_none {s : Text} (h : s.getLast? = some '\\') : column? s = none := by
  have hdrop : ∀ {p : Char → Bool} {t : Text}, p '\\' = false → t.getLast? = some '\\' →
      (t.dropWhile p).getLast? = some '\\' := by
    intro p t hp ht
    have hne : t.dropWhile p ≠ [] := fun hnil => by
      have := List.dropWhile_eq_nil_iff.1 hnil '\\' (List.mem_of_getLast? ht)
      rw [hp] at this
      cases this
    obtain ⟨u, hu⟩ : t.dropWhile p <:+ t := List.dropWhile_suffix _
    rw [← ht, ← Text.getLast?_append_right u hne, hu]
  have hhyphens : ∀ {t : Text}, t.getLast? = some '\\' →
      (if t.head? ≠ some '-' then none
        else if (t.dropWhile (· = '-')).isEmpty then some (alignment (s.head? == some ':') false)
        else if t.dropWhile (· = '-') = [':'] then some (alignment (s.head? == some ':') true)
        else none) = none := by
    intro t ht
    have hlast := hdrop (p := (· = '-')) (by decide) ht
    have hne : ¬ (t.dropWhile (· = '-')).isEmpty = true := fun e => by
      rw [List.isEmpty_iff.1 e] at hlast
      cases hlast
    have hcolon : ¬ t.dropWhile (· = '-') = [':'] := fun e => by
      rw [e] at hlast
      exact absurd hlast (by decide)
    rw [if_neg hne, if_neg hcolon, ite_self]
  unfold column?
  dsimp only
  split
  · next hcolon =>
    refine hhyphens ?_
    obtain ⟨r, rfl⟩ := List.head?_eq_some_iff.1 (beq_iff_eq.1 hcolon)
    have hr : r ≠ [] := by
      rintro rfl
      exact absurd h (by decide)
    exact (Text.getLast?_append_right [':'] hr).symm.trans h
  · exact hhyphens h

theorem mapM_eq_none {α β : Type} {f : α → Option β} {as : List α} {a : α} (ha : a ∈ as)
    (h : f a = none) : as.mapM f = none := by
  induction as with
  | nil => cases ha
  | cons b as ih =>
    rw [List.mapM_cons]
    rcases List.mem_cons.1 ha with rfl | ha
    · rw [h]
      rfl
    · rw [ih ha]
      cases f b <;> rfl

theorem columns?_eq_none (h : Alike breaks l l') (hb : breaks l.stop = true) : columns? l' = none := by
  obtain ⟨ws, w, w', -, hcells, hlast⟩ := cells_concat (h.opens hb)
  unfold columns?
  dsimp only
  rw [h.inner, mark, hb, if_pos rfl, hcells]
  rw [mapM_eq_none (List.mem_append_right ws (List.mem_singleton_self w')) (column?_eq_none hlast),
    ite_self]

/-- two lines open the table with their backslashes that they open without -/
theorem open?_alike {head head' : Line} (hhead : Alike breaks head head') (h : Alike breaks l l')
    (hl : breaks l.stop = true → open? head l = none)
    (hopen : breaks head.stop = true → open? head l = none) :
    open? head' l' = open? head l := by
  by_cases hb : breaks l.stop = true
  · rw [hl hb, open?, columns?_eq_none h hb]
    rfl
  · rw [h.eq (eq_false_of_ne_true hb)]
    by_cases hb' : breaks head.stop = true
    · have hnone := hopen hb'
      rw [hnone]
      obtain ⟨ws, w, w', hcells, hcells', -⟩ := cells_concat (hhead.opens hb')
      unfold open? at hnone ⊢
      rw [hhead.indent, hhead.inner, mark, hb', if_pos rfl, hcells']
      rw [hcells] at hnone
      change (columns? l).bind _ = none
      change (columns? l).bind _ = none at hnone
      cases hcolumns : columns? l with
      | none => rfl
      | some columns =>
        rw [hcolumns, Option.bind_some] at hnone
        rw [Option.bind_some]
        dsimp only at hnone ⊢
        have hbar : ¬ trim head.inner = ['|'] := by
          intro e
          cases hlast : head.inner.getLast? with
          | none =>
            rw [List.getLast?_eq_none_iff] at hlast
            rw [hlast] at e
            cases e
          | some c =>
            obtain ⟨hgap, hc, -⟩ := endsOpenly_iff.1 (hhead.opens hb' c hlast)
            have htrim := (trim_eq hlast hgap).2
            rw [e] at htrim
            exact hc (Option.some.inj htrim).symm
        simp only [decide_eq_false hbar, Bool.or_false, List.length_append, List.length_singleton]
          at hnone ⊢
        split at hnone
        · next hcond =>
          refine if_pos ?_
          rw [Bool.or_eq_true_iff] at hcond ⊢
          exact hcond.imp_left fun hi => by rw [hi]; rfl
        · cases hnone
    · rw [hhead.eq (eq_false_of_ne_true hb')]
      rfl

end Table

end

end MarkdownModule.Markdown
