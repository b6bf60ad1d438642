import MarkdownModule.Render.Channel

/-!
# Spellings of line endings

A line ending is a line feed, a carriage return, or both in this order.  The renderer reads the three
alike, so that a document is rendered the same however each of its line endings is written.

* `Text.replaceAll`              a text with each occurrence of a mark replaced
* `Markdown.unifyLineEnds_eq`    the line endings are made one kind by two replacements
* `Markdown.Respelled`           a text with each of its line endings written in some way
* `Markdown.respelled_iff`       the texts that become a given one
* `Markdown.render_respelled`    they are rendered alike
-/

namespace MarkdownModule

/-! ## replacements -/

namespace Text

/-- the text with each occurrence of a mark, from left to right, replaced by another text -/
def replaceAll (mark new : Text) : Text → Text
  | [] => []
  | c :: r =>
    if mark.isPrefixOf (c :: r) then new ++ replaceAll mark new (r.drop (mark.length - 1))
    else c :: replaceAll mark new r
termination_by s => s.length
decreasing_by
  · simp only [List.length_drop, List.length_cons]
    omega
  · simp

variable {mark new : Text}

theorem replaceAll_nil : replaceAll mark new [] = [] := by rw [replaceAll]

theorem replaceAll_mark (c : Char) (m s : Text) :
    replaceAll (c :: m) new (c :: (m ++ s)) = new ++ replaceAll (c :: m) new s := by
  have hp : (c :: m).isPrefixOf (c :: (m ++ s)) = true :=
    List.isPrefixOf_iff_prefix.2 (List.prefix_append (c :: m) s)
  rw [replaceAll, if_pos hp, List.length_cons, Nat.add_sub_cancel, List.drop_left]

theorem replaceAll_cons {c : Char} {r : Text} (h : mark.isPrefixOf (c :: r) = false) :
    replaceAll mark new (c :: r) = c :: replaceAll mark new r := by
  rw [replaceAll, h, if_neg Bool.false_ne_true]

end Text

namespace Markdown

open Text (replaceAll)

/-! ## one kind of line ending -/

theorem head?_ne_of_forall {c : Char} {r : Text} (h : ∀ t, r = c :: t → False) : r.head? ≠ some c :=
  fun e => (List.head?_eq_some_iff.1 e).elim h

theorem unifyLineEnds_return {r : Text} (h : r.head? ≠ some '\n') :
    unifyLineEnds ('\r' :: r) = '\n' :: unifyLineEnds r := by
  rw [unifyLineEnds]
  rintro s rfl
  exact h rfl

theorem unifyLineEnds_cons {c : Char} (hc : c ≠ '\r') (r : Text) :
    unifyLineEnds (c :: r) = c :: unifyLineEnds r := by
  rw [unifyLineEnds]
  · exact fun _ h _ => hc h
  · exact hc

/-- **The line endings are made one kind by two replacements**, of which the first one takes the pairs
away before the second one takes what is left of their first marks. -/
theorem unifyLineEnds_eq (s : Text) :
    unifyLineEnds s = replaceAll ['\r'] ['\n'] (replaceAll ['\r', '\n'] ['\n'] s) := by
  induction s using unifyLineEnds.induct with
  | case1 => rw [unifyLineEnds, Text.replaceAll_nil, Text.replaceAll_nil]
  | case2 r ih =>
    have hpair : replaceAll ['\r', '\n'] ['\n'] ('\r' :: '\n' :: r) =
        '\n' :: replaceAll ['\r', '\n'] ['\n'] r := Text.replaceAll_mark '\r' ['\n'] r
    rw [unifyLineEnds, ih, hpair, Text.replaceAll_cons (c := '\n') rfl]
  | case3 r hr ih =>
    have hhead := head?_ne_of_forall hr
    have hlone : (['\r', '\n'] : Text).isPrefixOf ('\r' :: r) = false := by
      cases r with
      | nil => rfl
      | cons d r =>
        have hd : ('\n' == d) = false := beq_eq_false_iff_ne.2 fun e => hhead (by rw [← e]; rfl)
        simp [List.isPrefixOf, hd]
    rw [unifyLineEnds_return hhead, ih, Text.replaceAll_cons hlone]
    exact (@Text.replaceAll_mark ['\n'] '\r' [] _).symm
  | case4 c r _ hc ih =>
    have hother : ∀ m : Text, ('\r' :: m).isPrefixOf (c :: r) = false := fun m => by
      simp [List.isPrefixOf, Ne.symm hc]
    rw [unifyLineEnds_cons hc, ih, Text.replaceAll_cons (hother _)]
    refine (Text.replaceAll_cons ?_).symm
    simp [List.isPrefixOf, Ne.symm hc]

/-! ## spellings -/

/-- a text without carriage returns, and one in which each of its line feeds is written in one of
three ways -/
inductive Respelled : Text → Text → Prop
  | nil : Respelled [] []
  | char {c : Char} {b b' : Text} (feed : c ≠ '\n') (ret : c ≠ '\r') (h : Respelled b b') :
      Respelled (c :: b) (c :: b')
  /-- as a line feed -/
  | feed {b b' : Text} (h : Respelled b b') : Respelled ('\n' :: b) ('\n' :: b')
  /-- as a carriage return and a line feed -/
  | pair {b b' : Text} (h : Respelled b b') : Respelled ('\n' :: b) ('\r' :: '\n' :: b')
  /-- as a carriage return, behind which no line feed stands -/
  | lone {b b' : Text} (h : Respelled b b') (next : b'.head? ≠ some '\n') :
      Respelled ('\n' :: b) ('\r' :: b')

theorem Respelled.not_mem {b b' : Text} (h : Respelled b b') : '\r' ∉ b := by
  induction h with
  | nil => exact List.not_mem_nil
  | char _ ret _ ih => exact List.not_mem_cons_of_ne_of_not_mem (Ne.symm ret) ih
  | feed _ ih | pair _ ih | lone _ _ ih => exact List.not_mem_cons_of_ne_of_not_mem (by decide) ih

theorem Respelled.unify {b b' : Text} (h : Respelled b b') : unifyLineEnds b' = b := by
  induction h with
  | nil => rfl
  | char _ ret _ ih => rw [unifyLineEnds_cons ret, ih]
  | feed _ ih => rw [unifyLineEnds_cons (by decide), ih]
  | pair _ ih => rw [unifyLineEnds, ih]
  | lone _ next ih => rw [unifyLineEnds_return next, ih]

theorem respelled_unify (s : Text) : Respelled (unifyLineEnds s) s := by
  induction s using unifyLineEnds.induct with
  | case1 => exact .nil
  | case2 r ih => exact .pair ih
  | case3 r hr ih =>
    have hhead := head?_ne_of_forall hr
    rw [unifyLineEnds_return hhead]
    exact .lone ih hhead
  | case4 c r _ hc ih =>
    rw [unifyLineEnds_cons hc]
    by_cases hn : c = '\n'
    · rw [hn]
      exact .feed ih
    · exact .char hn hc ih

/-- **The spellings of a text are the texts whose line endings become its line feeds.** -/
theorem respelled_iff {b b' : Text} : Respelled b b' ↔ unifyLineEnds b' = b :=
  ⟨Respelled.unify, fun h => h ▸ respelled_unify b'⟩

theorem unifyLineEnds_of_not_mem {b : Text} (h : '\r' ∉ b) : unifyLineEnds b = b := by
  induction b with
  | nil => rfl
  | cons c r ih =>
    obtain ⟨hc, hr⟩ := List.ne_and_not_mem_of_not_mem_cons h
    rw [unifyLineEnds_cons (Ne.symm hc), ih hr]

/-- **A document is rendered the same however its line endings are written**, with every option: two
replacements give all its spellings one text. -/
theorem render_respelled (o : RendererOptions) {b b' : Text} (h : Respelled b b') :
    replaceAll ['\r'] ['\n'] (replaceAll ['\r', '\n'] ['\n'] b') = b ∧
      (RenderChannel.builtin o).render b' = (RenderChannel.builtin o).render b := by
  have hunify : unifyLineEnds b' = unifyLineEnds b := by
    rw [h.unify, unifyLineEnds_of_not_mem h.not_mem]
  have hprepare : prepare o b' = prepare o b := by rw [prepare, prepare, hunify]
  refine ⟨(unifyLineEnds_eq b').symm.trans h.unify, congrArg Except.ok ?_⟩
  rw [render, render, hprepare]

/-- a carriage return before a pair, and line breaks wanted -/
theorem render_respelled_mixed :
    Respelled "a\n\nb\nc\n".toList "a\r\r\nb\rc\n".toList ∧
      (RenderChannel.builtin { breaks := some true }).render "a\r\r\nb\rc\n".toList =
        (RenderChannel.builtin { breaks := some true }).render "a\n\nb\nc\n".toList := by
  have h : Respelled "a\n\nb\nc\n".toList "a\r\r\nb\rc\n".toList := respelled_iff.2 rfl
  exact ⟨h, (render_respelled { breaks := some true } h).2⟩

end Markdown

end MarkdownModule
