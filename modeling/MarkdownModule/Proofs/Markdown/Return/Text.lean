import MarkdownModule.Proofs.Markdown.Splice
import MarkdownModule.Proofs.Markdown.LineEnding
import MarkdownModule.Proofs.Markdown.Whole
import MarkdownModule.Proofs.Text.Split

/-!
# Carriage returns in the texts of a document

A document is read with one kind of line ending, so that a carriage return can only come from a
reference.  The parts that a document is cut into, and lines of it that are joined, refer to nothing
that the document does not refer to.

* `refersToReturn`     whether a text holds a reference that stands for the carriage return
* `Clean`              a part of a document
* `Clean.part`         parts of parts are parts
* `Clean.join`         so are parts with a character between them that is in no reference
* `Clean.decode`       what the references of a part stand for
* `clean_prepare`      the document that is rendered
-/

namespace MarkdownModule.Markdown

/-! ## references -/

/-- a text without carriage returns -/
def Plain (s : Text) : Prop := '\r' ∉ s

instance (s : Text) : Decidable (Plain s) := inferInstanceAs (Decidable ('\r' ∉ s))

/-- whether a reference begins a text that stands for the carriage return -/
def beginsReturn (c : Char) (r : Text) : Bool :=
  c = '&' && (readReference? r).any (·.1.contains '\r')

def refersToReturn : Text → Bool
  | [] => false
  | c :: r => beginsReturn c r || refersToReturn r

/-- whether a character is in no reference -/
def isOutside (c : Char) : Bool :=
  !(c.isAlphanum || Html.isHexDigit c || c = '#' || c = ';' || c = '&')

theorem isOutside_eq_false {c : Char}
    (h : c.isAlphanum = true ∨ Html.isHexDigit c = true ∨ c = '#' ∨ c = ';') :
    isOutside c = false := by
  rw [isOutside, Bool.not_eq_false', Bool.or_eq_true]
  exact .inl (by simpa only [Bool.or_eq_true, decide_eq_true_eq, or_assoc] using h)

theorem readNumber?_chars {base most : Nat} {digit : Char → Bool} {s v r : Text}
    (hdigit : ∀ c, digit c = true → isOutside c = false)
    (h : readNumber? base most digit s = some (v, r)) :
    ∃ w, s = w ++ r ∧ ∀ c ∈ w, isOutside c = false := by
  obtain ⟨rest, hrest, h⟩ := Option.bind_eq_some_iff.1 h
  obtain ⟨w, rfl, -, hw, -⟩ := cut_of_dropWhile (afterSemicolon?_eq_some.1 hrest)
  split at h
  · cases h
  · cases h
    refine ⟨w ++ [';'], by rw [List.append_assoc]; rfl, ?_⟩
    exact List.forall_mem_append.2 ⟨fun c hc => hdigit c (hw c hc), List.forall_mem_singleton.2 rfl⟩

/-- the characters of a reference -/
theorem readReference?_chars {s v r : Text} (h : readReference? s = some (v, r)) :
    ∃ w, s = w ++ r ∧ ∀ c ∈ w, isOutside c = false := by
  have hhex : ∀ c, Html.isHexDigit c = true → isOutside c = false :=
    fun c hc => isOutside_eq_false (.inr (.inl hc))
  have hdigit : ∀ c : Char, c.isDigit = true → isOutside c = false :=
    fun c hc => isOutside_eq_false (.inl (by rw [Char.isAlphanum, hc, Bool.or_true]))
  unfold readReference? at h
  split at h
  · obtain ⟨w, rfl, hw⟩ := readNumber?_chars hhex h
    exact ⟨'#' :: 'x' :: w, rfl, List.forall_mem_cons.2 ⟨rfl, List.forall_mem_cons.2 ⟨rfl, hw⟩⟩⟩
  · obtain ⟨w, rfl, hw⟩ := readNumber?_chars hhex h
    exact ⟨'#' :: 'X' :: w, rfl, List.forall_mem_cons.2 ⟨rfl, List.forall_mem_cons.2 ⟨rfl, hw⟩⟩⟩
  · obtain ⟨w, rfl, hw⟩ := readNumber?_chars hdigit h
    exact ⟨'#' :: w, rfl, List.forall_mem_cons.2 ⟨rfl, hw⟩⟩
  · obtain ⟨rest, hrest, h⟩ := Option.bind_eq_some_iff.1 h
    obtain ⟨value, -, e⟩ := Option.bind_eq_some_iff.1 h
    cases e
    obtain ⟨w, rfl, -, hw, -⟩ := cut_of_dropWhile (afterSemicolon?_eq_some.1 hrest)
    refine ⟨w ++ [';'], by rw [List.append_assoc]; rfl, ?_⟩
    exact List.forall_mem_append.2
      ⟨fun c hc => isOutside_eq_false (.inl (hw c hc)), List.forall_mem_singleton.2 rfl⟩

/-- a reference is read again before any other text -/
theorem readReference?_append {s v r : Text} (h : readReference? s = some (v, r)) (t : Text) :
    readReference? (s ++ t) = some (v, r ++ t) := by
  obtain ⟨w, rfl, hw⟩ := whole_readReference? h
  rw [List.append_assoc]
  exact hw (r ++ t)

/-- no reference goes on over a character that is in no reference -/
theorem readReference?_before {a r v rest : Text} {c : Char} (hc : isOutside c = true)
    (h : readReference? (a ++ c :: r) = some (v, rest)) : ∃ t, readReference? a = some (v, t) := by
  obtain ⟨w, hs, hw⟩ := whole_readReference? h
  obtain ⟨w', hs', hchars⟩ := readReference?_chars h
  obtain rfl : w = w' := List.append_cancel_right (hs.symm.trans hs')
  rcases List.append_eq_append_iff.1 hs with ⟨x, rfl, hx⟩ | ⟨x, rfl, -⟩
  · cases x with
    | nil =>
      refine ⟨[], ?_⟩
      have hread := hw []
      rwa [List.append_nil, List.append_nil] at hread
    | cons d x =>
      have hd := hchars d (List.mem_append_right a List.mem_cons_self)
      rw [← (List.cons.inj hx).1, hc] at hd
      cases hd
  · exact ⟨x, hw x⟩

section
variable {a s t : Text} {c : Char}

theorem beginsReturn_append (h : beginsReturn c s = true) (t : Text) :
    beginsReturn c (s ++ t) = true := by
  rw [beginsReturn, Bool.and_eq_true, Option.any_eq_true] at h ⊢
  obtain ⟨hc, ⟨v, r⟩, hread, hv⟩ := h
  exact ⟨hc, (v, r ++ t), readReference?_append hread t, hv⟩

theorem beginsReturn_before {d : Char} (hd : isOutside d = true)
    (h : beginsReturn c (a ++ d :: s) = true) : beginsReturn c a = true := by
  rw [beginsReturn, Bool.and_eq_true, Option.any_eq_true] at h ⊢
  obtain ⟨hc, ⟨v, r⟩, hread, hv⟩ := h
  obtain ⟨t, ht⟩ := readReference?_before hd hread
  exact ⟨hc, (v, t), ht, hv⟩

theorem refersToReturn_cons :
    refersToReturn (c :: s) = true ↔ beginsReturn c s = true ∨ refersToReturn s = true := by
  rw [refersToReturn, Bool.or_eq_true]

theorem refersToReturn_append_left (h : refersToReturn s = true) (a : Text) :
    refersToReturn (a ++ s) = true := by
  induction a with
  | nil => exact h
  | cons c a ih => exact refersToReturn_cons.2 (.inr ih)

theorem refersToReturn_append_right (h : refersToReturn s = true) (t : Text) :
    refersToReturn (s ++ t) = true := by
  induction s with
  | nil => cases h
  | cons c s ih =>
    exact refersToReturn_cons.2
      ((refersToReturn_cons.1 h).imp (fun h => beginsReturn_append h t) ih)

/-- a character that is in no reference divides the references of a text -/
theorem refersToReturn_join {d : Char} (hd : isOutside d = true)
    (h : refersToReturn (a ++ d :: s) = true) :
    refersToReturn a = true ∨ refersToReturn s = true := by
  induction a with
  | nil =>
    refine .inr ((refersToReturn_cons.1 h).resolve_left fun hbegins => ?_)
    rw [beginsReturn, Bool.and_eq_true, decide_eq_true_eq] at hbegins
    rw [hbegins.1] at hd
    cases hd
  | cons c a ih =>
    rcases refersToReturn_cons.1 h with h | h
    · exact .inl (refersToReturn_cons.2 (.inl (beginsReturn_before hd h)))
    · exact (ih h).imp_left fun h => refersToReturn_cons.2 (.inr h)

end

/-! ## parts of a document -/

/-- a part of a document: it holds no carriage return, and a reference in it stands for one only when
`b` holds -/
structure Clean (b : Prop) (s : Text) : Prop where
  plain : Plain s
  refers : refersToReturn s = true → b

/-- a text that references stand for: it holds a carriage return only when `b` holds -/
def Brings (b : Prop) (s : Text) : Prop := '\r' ∈ s → b

variable {b : Prop} {s t a : Text} {c : Char}

theorem Plain.brings (h : Plain s) : Brings b s := fun hs => absurd hs h

theorem Plain.part (h : Plain s) (ht : t <:+: s) : Plain t := fun hmem => h (ht.subset hmem)

theorem plain_append : Plain (a ++ s) ↔ Plain a ∧ Plain s := by
  rw [Plain, List.mem_append, not_or]
  rfl

theorem plain_cons : Plain (c :: s) ↔ c ≠ '\r' ∧ Plain s := by
  rw [Plain, List.mem_cons, not_or]
  exact and_congr_left fun _ => ne_comm

theorem plain_single (hc : c ≠ '\r') : Plain [c] := plain_cons.2 ⟨hc, List.not_mem_nil⟩

theorem Plain.append (ha : Plain a) (hs : Plain s) : Plain (a ++ s) := plain_append.2 ⟨ha, hs⟩

theorem Plain.cons (hc : c ≠ '\r') (h : Plain s) : Plain (c :: s) := plain_cons.2 ⟨hc, h⟩

theorem plain_ite {p : Prop} [Decidable p] (ha : Plain a) (hs : Plain s) :
    Plain (if p then a else s) := by
  split
  · exact ha
  · exact hs

theorem plain_intercalate (hc : c ≠ '\r') {ts : List Text} (h : ∀ t ∈ ts, Plain t) :
    Plain (List.intercalate [c] ts) := by
  induction ts with
  | nil => exact List.not_mem_nil
  | cons t ts ih =>
    obtain ⟨ht, hts⟩ := List.forall_mem_cons.1 h
    cases ts with
    | nil =>
      rw [List.intercalate_singleton]
      exact ht
    | cons u ts =>
      rw [List.intercalate_cons_cons]
      exact (ht.append (plain_single hc)).append (ih hts)

namespace Clean

theorem nil : Clean b [] := ⟨List.not_mem_nil, nofun⟩

theorem part (h : Clean b s) (ht : t <:+: s) : Clean b t := by
  obtain ⟨u, v, rfl⟩ := ht
  refine ⟨h.plain.part ⟨u, v, rfl⟩, fun hrefers => h.refers ?_⟩
  rw [List.append_assoc]
  exact refersToReturn_append_left (refersToReturn_append_right hrefers v) u

theorem rest (h : Clean b s) (ht : t <:+ s) : Clean b t := h.part ht.isInfix

theorem front (h : Clean b s) (ht : t <+: s) : Clean b t := h.part ht.isInfix

theorem tail (h : Clean b (c :: s)) : Clean b s := h.rest (List.suffix_cons c s)

theorem head_ne (h : Clean b (c :: s)) : c ≠ '\r' :=
  fun hc => h.plain (hc ▸ List.mem_cons_self)

/-- two parts with a character between them that is in no reference -/
theorem join (hc : isOutside c = true) (hne : c ≠ '\r') (ha : Clean b a) (hs : Clean b s) :
    Clean b (a ++ c :: s) where
  plain := ha.plain.append (hs.plain.cons hne)
  refers h := (refersToReturn_join hc h).elim ha.refers hs.refers

theorem line (ha : Clean b a) (hs : Clean b s) : Clean b (a ++ '\n' :: s) :=
  ha.join (by decide) (by decide) hs

theorem spaces (h : Clean b s) (n : Nat) : Clean b (List.replicate n ' ' ++ s) := by
  induction n with
  | zero => exact h
  | succ n ih => exact join (a := []) (c := ' ') (by decide) (by decide) nil ih

theorem intercalate (hc : isOutside c = true) (hne : c ≠ '\r') {ts : List Text}
    (h : ∀ t ∈ ts, Clean b t) : Clean b (List.intercalate [c] ts) := by
  induction ts with
  | nil => exact nil
  | cons t ts ih =>
    obtain ⟨ht, hts⟩ := List.forall_mem_cons.1 h
    cases ts with
    | nil =>
      rw [List.intercalate_singleton]
      exact ht
    | cons u ts =>
      rw [List.intercalate_cons_cons, List.append_assoc]
      exact ht.join hc hne (ih hts)

theorem lines {ts : List Text} (h : ∀ t ∈ ts, Clean b t) :
    Clean b (ts.flatMap (· ++ ['\n'])) := by
  induction ts with
  | nil => exact nil
  | cons t ts ih =>
    obtain ⟨ht, hts⟩ := List.forall_mem_cons.1 h
    rw [List.flatMap_cons, List.append_assoc]
    exact ht.line (ih hts)

end Clean

/-! ## decoding -/

theorem Brings.cons (hc : c ≠ '\r') (h : Brings b s) : Brings b (c :: s) :=
  fun hmem => h ((List.mem_cons.1 hmem).resolve_left (Ne.symm hc))

theorem Brings.append (ha : Brings b a) (hs : Brings b s) : Brings b (a ++ s) :=
  fun h => (List.mem_append.1 h).elim ha hs

/-- what a reference stands for that is in a part of a document -/
theorem Clean.reference {v r : Text} (h : Clean b ('&' :: s)) (hread : readReference? s = some (v, r)) :
    Brings b v := by
  intro hv
  refine h.refers (refersToReturn_cons.2 (.inl ?_))
  rw [beginsReturn, hread, Option.any_some, List.contains_iff_mem.2 hv]
  rfl

theorem readReference?_suffix {v r : Text} (h : readReference? s = some (v, r)) : r <:+ s := by
  obtain ⟨w, rfl, -⟩ := whole_readReference? h
  exact List.suffix_append w r

theorem Clean.decodeWith (h : Clean b s) (n : Nat) : Brings b (decodeWith n s) := by
  fun_induction Markdown.decodeWith n s with
  | case1 s => exact h.plain.brings
  | case2 n => exact nofun
  | case3 n c r hc ih => exact (ih h.tail.tail).cons h.tail.head_ne
  | case4 n c r hc ih => exact (ih h.tail).cons (by decide)
  | case5 n r v rest hread ih =>
    exact (h.reference hread).append (ih (h.tail.rest (readReference?_suffix hread)))
  | case6 n r hread ih => exact (ih h.tail).cons (by decide)
  | case7 n c r _ _ ih => exact (ih h.tail).cons h.head_ne

theorem exists_trimFollowing (l : Text) (ls : List Text) :
    ∃ s, trimFollowing (l :: ls) = '\n' :: s := by
  cases ls with
  | nil => exact ⟨_, rfl⟩
  | cons m ls => exact ⟨_, rfl⟩

theorem Clean.trimFollowing {ls : List Text} (h : ∀ l ∈ ls, Clean b l) :
    Clean b (trimFollowing ls) := by
  induction ls with
  | nil => exact .nil
  | cons l ls ih =>
    obtain ⟨hl, hls⟩ := List.forall_mem_cons.1 h
    have hgap := hl.rest (List.dropWhile_suffix isGap)
    cases ls with
    | nil => exact Clean.nil.line hgap
    | cons m ls =>
      obtain ⟨s, hs⟩ := exists_trimFollowing m ls
      have hbehind := ih hls
      rw [hs] at hbehind
      have hkept := hgap.front (Text.prefix_dropEndWhile isGap (l.dropWhile isGap))
      rw [Markdown.trimFollowing, hs]
      · exact Clean.nil.line (hkept.line hbehind.tail)
      · exact nofun

theorem Clean.splitOn (h : Clean b s) (ht : t ∈ Text.splitOn c s) : Clean b t :=
  h.part (Text.infix_of_mem_splitOn ht)

theorem Clean.trimLines (h : Clean b s) : Clean b (trimLines s) := by
  have hlines : ∀ l ∈ Text.splitOn '\n' s, Clean b l := fun l hl => h.splitOn hl
  unfold Markdown.trimLines
  split
  · exact .nil
  · next l hl => exact hlines l (hl ▸ List.mem_singleton_self l)
  · next l ls hno hl =>
    rw [hl] at hlines
    obtain ⟨hfirst, hls⟩ := List.forall_mem_cons.1 hlines
    have hkept := hfirst.front (Text.prefix_dropEndWhile isGap l)
    cases ls with
    | nil => exact (hno rfl).elim
    | cons m ls =>
      obtain ⟨r, hr⟩ := exists_trimFollowing m ls
      have hbehind := Clean.trimFollowing hls
      rw [hr] at hbehind ⊢
      exact hkept.line hbehind.tail

/-- what the references of a part of a document stand for -/
theorem Clean.decode (h : Clean b s) : Brings b (decode s) := h.trimLines.decodeWith _

/-! ## documents -/

/-- what begins a text and is no line ending begins each spelling of the text -/
theorem Respelled.prefix_of_not_mem {s s' w : Text} (h : Respelled s s') (hw : '\n' ∉ w)
    (hs : w <+: s) : w <+: s' := by
  induction h generalizing w with
  | nil => exact hs
  | char feed ret h ih =>
    cases w with
    | nil => exact List.nil_prefix
    | cons d w =>
      obtain ⟨rfl, hrest⟩ := List.cons_prefix_cons.1 hs
      exact List.cons_prefix_cons.2 ⟨rfl, ih (List.not_mem_of_not_mem_cons hw) hrest⟩
  | feed h ih | pair h ih | lone h next ih =>
    cases w with
    | nil => exact List.nil_prefix
    | cons d w =>
      obtain ⟨rfl, -⟩ := List.cons_prefix_cons.1 hs
      exact absurd List.mem_cons_self hw

theorem Respelled.beginsReturn {s s' : Text} (h : Respelled s s')
    (hs : beginsReturn c s = true) : beginsReturn c s' = true := by
  rw [Markdown.beginsReturn, Bool.and_eq_true, Option.any_eq_true] at hs ⊢
  obtain ⟨hc, ⟨v, r⟩, hread, hv⟩ := hs
  obtain ⟨w, rfl, hw⟩ := whole_readReference? hread
  obtain ⟨w', hs', hchars⟩ := readReference?_chars hread
  obtain rfl : w = w' := List.append_cancel_right hs'
  have hline : '\n' ∉ w := fun hmem => absurd (hchars _ hmem) (by decide)
  obtain ⟨t, rfl⟩ := h.prefix_of_not_mem hline (List.prefix_append w r)
  exact ⟨hc, (v, t), hw t, hv⟩

theorem Respelled.refersToReturn {s s' : Text} (h : Respelled s s')
    (hs : refersToReturn s = true) : refersToReturn s' = true := by
  induction h with
  | nil => exact hs
  | char feed ret h ih =>
    exact refersToReturn_cons.2 ((refersToReturn_cons.1 hs).imp h.beginsReturn ih)
  | feed h ih => exact ih hs
  | pair h ih => exact ih hs
  | lone h next ih => exact ih hs

theorem clean_unify (s : Text) : Clean (refersToReturn s = true) (unifyLineEnds s) where
  plain := (respelled_unify s).not_mem
  refers := (respelled_unify s).refersToReturn

/-- **The document that is rendered refers to nothing that the body does not refer to.** -/
theorem clean_prepare (o : RendererOptions) (body : Text) :
    Clean (refersToReturn body = true) (prepare o body) := by
  have hunify := clean_unify body
  unfold prepare
  dsimp only
  split
  · obtain ⟨parts, hbreaks, hparts, -⟩ :=
      exists_parts_hardBreaks (unifyLineEnds body) (outline (parse o.settings (unifyLineEnds body)))
    rw [hbreaks, Option.getD_some]
    refine .intercalate (by decide) (by decide) fun t ht => hunify.part ?_
    rw [← hparts]
    exact List.infix_of_mem_flatten ht
  · exact hunify

end MarkdownModule.Markdown
