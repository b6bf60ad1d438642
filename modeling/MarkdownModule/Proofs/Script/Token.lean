import MarkdownModule.Proofs.Script.ImportKey

/-!
# The tokens of a statement

A statement is a row of words, marks and string literals with white space between them.  A text
spells one row of tokens, and its key is the row written without any white space.

* `Script.Token`                what a statement is made of
* `Script.Spelled`              the texts that spell a row of tokens
* `Script.Spelled.unique`       a text spells one row of tokens
* `Script.Spelled.importKey_eq` the key of a text
* `Script.importKey_eq_iff`     two texts have one key when their tokens agree up to the borders of
                                words
-/

namespace MarkdownModule.Script

/-! ## words -/

/-- a character that stands for itself in a word: a letter, a digit, `_`, `$`, or a character beyond
ASCII that is no white space -/
def isWordChar (c : Char) : Bool :=
  c.isAlphanum || c = '_' || c = '$' || (!c.isAscii && !isBlank c && c ≠ '\uFEFF')

/-- a character of a word, or the backslash of an escape in it -/
def isWordPart (c : Char) : Bool := isWordChar c || c = '\\'

def isHex (c : Char) : Bool := (Json.hexDigit? c).isSome

/-- rows of characters and escapes -/
inductive WordText : Text → Prop
  | nil : WordText []
  | char {c : Char} {s : Text} (hc : isWordChar c = true) (hs : WordText s) : WordText (c :: s)
  /-- an escape of four digits; those behind the first one are characters -/
  | code {d : Char} {s : Text} (hd : isHex d = true) (hs : WordText (d :: s)) :
      WordText ('\\' :: 'u' :: d :: s)
  /-- an escape of any number of digits, in braces -/
  | braced {ds s : Text} (hds : ∀ d ∈ ds, isHex d = true) (hs : WordText s) :
      WordText ('\\' :: 'u' :: '\x7b' :: (ds ++ '\x7d' :: s))

/-- a keyword or an identifier -/
@[ext] structure Word where
  text : Text
  nonempty : text ≠ []
  chars : WordText text

/-- no word goes on at the start of the text -/
def EndsWord (s : Text) : Prop := ∀ c ∈ s.head?, isWordPart c = false

theorem WordText.append {s t : Text} (hs : WordText s) (ht : WordText t) : WordText (s ++ t) := by
  induction hs with
  | nil => exact ht
  | char hc _ ih => exact .char hc ih
  | code hd _ ih => exact .code hd ih
  | braced hds _ ih =>
    simp only [List.cons_append, List.append_assoc]
    exact .braced hds ih

theorem WordText.of_forall {s : Text} (h : ∀ c ∈ s, isWordChar c = true) : WordText s := by
  induction s with
  | nil => exact .nil
  | cons c s ih =>
    obtain ⟨hc, hs⟩ := List.forall_mem_cons.1 h
    exact .char hc (ih hs)

theorem WordText.head {c : Char} {s : Text} (h : WordText (c :: s)) : isWordPart c = true := by
  cases h with
  | char hc _ => exact Bool.or_eq_true_iff.2 (.inl hc)
  | code _ _ => rfl
  | braced _ _ => rfl

theorem not_isHex_brace : isHex '\x7b' = false ∧ isHex '\x7d' = false := by decide

theorem EndsWord.ne_append {s a : Text} {c : Char} (hs : EndsWord s) (ha : WordText (c :: a))
    (t : Text) : s ≠ c :: a ++ t := by
  rintro rfl
  have := hs c rfl
  rw [ha.head] at this
  exact nomatch this

/-- two words are the same, whatever follows, when they and what follows agree -/
theorem WordText.append_inj {a b s t : Text} (ha : WordText a) (hb : WordText b) (hs : EndsWord s)
    (ht : EndsWord t) (h : a ++ s = b ++ t) : a = b ∧ s = t := by
  induction ha generalizing b with
  | nil =>
    cases b with
    | nil => exact ⟨rfl, h⟩
    | cons c b => exact absurd h (hs.ne_append hb t)
  | @char c a hc ha ih =>
    cases hb with
    | nil => exact absurd h.symm (ht.ne_append (.char hc ha) s)
    | char _ hb =>
      obtain ⟨rfl, e⟩ := List.cons.inj h
      obtain ⟨rfl, e'⟩ := ih hb e
      exact ⟨rfl, e'⟩
    | code _ _ =>
      obtain ⟨rfl, -⟩ := List.cons.inj h
      exact absurd hc (by decide)
    | braced _ _ =>
      obtain ⟨rfl, -⟩ := List.cons.inj h
      exact absurd hc (by decide)
  | @code d a hd ha ih =>
    cases hb with
    | nil => exact absurd h.symm (ht.ne_append (.code hd ha) s)
    | char hc _ =>
      obtain ⟨rfl, -⟩ := List.cons.inj h
      exact absurd hc (by decide)
    | code _ hb =>
      obtain ⟨e, e'⟩ := ih hb (List.cons.inj (List.cons.inj h).2).2
      exact ⟨by rw [e], e'⟩
    | braced _ _ =>
      obtain ⟨rfl, -⟩ := List.cons.inj (List.cons.inj (List.cons.inj h).2).2
      rw [not_isHex_brace.1] at hd
      exact nomatch hd
  | @braced ds a hds ha ih =>
    cases hb with
    | nil => exact absurd h.symm (ht.ne_append (.braced hds ha) s)
    | char hc _ =>
      obtain ⟨rfl, -⟩ := List.cons.inj h
      exact absurd hc (by decide)
    | code hd _ =>
      obtain ⟨rfl, -⟩ := List.cons.inj (List.cons.inj (List.cons.inj h).2).2
      rw [not_isHex_brace.1] at hd
      exact nomatch hd
    | @braced es b hes hb =>
      have e : ds ++ '\x7d' :: (a ++ s) = es ++ '\x7d' :: (b ++ t) := by
        simpa using (List.cons.inj (List.cons.inj (List.cons.inj h).2).2).2
      have h1 := Text.span_cons_of_forall hds not_isHex_brace.2 (a ++ s)
      have h2 := Text.span_cons_of_forall hes not_isHex_brace.2 (b ++ t)
      rw [e] at h1
      obtain rfl := h1.1.symm.trans h2.1
      obtain ⟨rfl, e'⟩ := ih hb (List.cons.inj (List.append_cancel_left e)).2
      exact ⟨rfl, e'⟩

namespace Word

def ofChars (s : Text) (h : (!s.isEmpty && s.all isWordChar) = true) : Word where
  text := s
  nonempty := by
    rintro rfl
    exact nomatch h
  chars := .of_forall (List.all_eq_true.1 (Bool.and_eq_true_iff.1 h).2)

variable (a b : Word)

def append : Word := ⟨a.text ++ b.text, by simp [a.nonempty], a.chars.append b.chars⟩

theorem append_ne_left : a.append b ≠ a := fun h =>
  b.nonempty (List.append_cancel_left ((congrArg text h).trans (List.append_nil _).symm))

variable {a b}

theorem append_left_inj {c : Word} : a.append b = a.append c ↔ b = c :=
  ⟨fun h => Word.ext (List.append_cancel_left (congrArg text h)), fun h => by rw [h]⟩

theorem append_right_inj {c : Word} : a.append c = b.append c ↔ a = b :=
  ⟨fun h => Word.ext (List.append_cancel_right (congrArg text h)), fun h => by rw [h]⟩

end Word

/-! ## literals -/

/-- rows of characters and escapes in which no quote of the kind stands without a backslash -/
inductive LiteralText (q : Char) : Text → Prop
  | nil : LiteralText q []
  | char {c : Char} {s : Text} (hq : c ≠ q) (hb : c ≠ '\\') (hs : LiteralText q s) :
      LiteralText q (c :: s)
  | escape (c : Char) {s : Text} (hs : LiteralText q s) : LiteralText q ('\\' :: c :: s)

/-- a string literal in quotes of one kind -/
@[ext] structure Literal where
  quote : Char
  content : Text
  isQuote : quote = '\'' ∨ quote = '"'
  chars : LiteralText quote content

theorem Sealed.literalText {s : Text} (h : Sealed s) : LiteralText '"' s := by
  induction h with
  | nil => exact .nil
  | char hq hb _ ih => exact .char hq hb ih
  | escape c _ ih => exact .escape c ih

/-- two literals are the same, whatever follows, when they and what follows agree -/
theorem LiteralText.append_inj {q : Char} {a b s t : Text} (hq : q ≠ '\\') (ha : LiteralText q a)
    (hb : LiteralText q b) (h : a ++ q :: s = b ++ q :: t) : a = b ∧ s = t := by
  induction ha generalizing b with
  | nil =>
    cases hb with
    | nil => exact ⟨rfl, (List.cons.inj h).2⟩
    | char hq' _ _ => exact absurd (List.cons.inj h).1.symm hq'
    | escape _ _ => exact absurd (List.cons.inj h).1 hq
  | char hq' hb' _ ih =>
    cases hb with
    | nil => exact absurd (List.cons.inj h).1 hq'
    | char _ _ hb =>
      obtain ⟨rfl, e⟩ := List.cons.inj h
      obtain ⟨rfl, e'⟩ := ih hb e
      exact ⟨rfl, e'⟩
    | escape _ _ => exact absurd (List.cons.inj h).1 hb'
  | escape c _ ih =>
    cases hb with
    | nil => exact absurd (List.cons.inj h).1.symm hq
    | char _ hb' _ => exact absurd (List.cons.inj h).1.symm hb'
    | escape c hb =>
      obtain ⟨rfl, e⟩ := List.cons.inj (List.cons.inj h).2
      obtain ⟨rfl, e'⟩ := ih hb e
      exact ⟨rfl, e'⟩

namespace Literal

def text (l : Literal) : Text := l.quote :: (l.content ++ [l.quote])

theorem quote_ne (l : Literal) : l.quote ≠ '\\' := by
  rcases l.isQuote with h | h
  · rw [h]; decide
  · rw [h]; decide

theorem opensString_quote (l : Literal) : opensString l.quote = true := by
  rcases l.isQuote with h | h
  · rw [h]; decide
  · rw [h]; decide

theorem text_append (l : Literal) (s : Text) :
    l.text ++ s = l.quote :: (l.content ++ l.quote :: s) := by
  simp [text]

theorem text_append_inj {l m : Literal} {s t : Text} (h : l.text ++ s = m.text ++ t) :
    l = m ∧ s = t := by
  rw [text_append, text_append] at h
  obtain ⟨hq, h⟩ := List.cons.inj h
  obtain ⟨q, x, hl, hx⟩ := l
  obtain ⟨q', y, hm, hy⟩ := m
  obtain rfl : q = q' := hq
  obtain ⟨e, e'⟩ := LiteralText.append_inj (quote_ne ⟨q, x, hl, hx⟩) hx hy h
  exact ⟨Literal.ext rfl e, e'⟩

def ofPath (path : Text) : Literal :=
  ⟨'"', path.flatMap escapeChar, .inr rfl,
    (sealed_flatMap (fun c => (safe_escapeChar c).isSealed) path).literalText⟩

end Literal

/-! ## tokens -/

inductive Mark where
  | opening
  | closing
  | comma
  | star
  | colon
  | semicolon
deriving DecidableEq

def Mark.char : Mark → Char
  | .opening => '\x7b'
  | .closing => '\x7d'
  | .comma => ','
  | .star => '*'
  | .colon => ':'
  | .semicolon => ';'

inductive Token where
  | word (w : Word)
  | mark (m : Mark)
  | literal (l : Literal)

namespace Token

def text : Token → Text
  | word w => w.text
  | mark m => [m.char]
  | literal l => l.text

def isWord : Token → Bool
  | word _ => true
  | _ => false

end Token

/-- tokens written without white space -/
def glue (ts : List Token) : Text := ts.flatMap Token.text

/-- the white space of a script, and the control character U+0085, which no statement holds -/
def isGap (c : Char) : Bool := isBlank c || c = '\uFEFF'

section
variable {space : Char → Bool}

/-- the texts that spell a row of tokens, with white space of one class around them: between two
words there is some -/
inductive Spelled (space : Char → Bool) : List Token → Text → Prop
  | nil {gap : Text} (hg : ∀ c ∈ gap, space c = true) : Spelled space [] gap
  | cons {t : Token} {ts : List Token} {gap s : Text} (hg : ∀ c ∈ gap, space c = true)
      (apart : t.isWord = true → EndsWord s) (hs : Spelled space ts s) :
      Spelled space (t :: ts) (gap ++ (t.text ++ s))

theorem Spelled.mono {wider : Char → Bool} (hw : ∀ c, space c = true → wider c = true)
    {ts : List Token} {s : Text} (h : Spelled space ts s) : Spelled wider ts s := by
  induction h with
  | nil hg => exact .nil fun c hc => hw c (hg c hc)
  | cons hg apart _ ih => exact .cons (fun c hc => hw c (hg c hc)) apart ih

/-! ## a text spells one row of tokens -/

theorem Mark.char_inj {m n : Mark} (h : m.char = n.char) : m = n := by
  revert h
  cases m <;> cases n <;> decide

theorem Mark.classes (m : Mark) :
    isWordPart m.char = false ∧ opensString m.char = false ∧ isGap m.char = false := by
  cases m <;> decide

theorem isWordPart_of_opensString {c : Char} (h : opensString c = true) : isWordPart c = false := by
  simp only [opensString, Bool.or_eq_true, decide_eq_true_eq] at h
  rcases h with (rfl | rfl) | rfl <;> decide

theorem isGap_of_opensString {c : Char} (h : opensString c = true) : isGap c = false := by
  simp only [opensString, Bool.or_eq_true, decide_eq_true_eq] at h
  rcases h with (rfl | rfl) | rfl <;> decide

theorem isGap_of_isWordPart {c : Char} (h : isWordPart c = true) : isGap c = false := by
  simp only [isWordPart, isWordChar, Bool.or_eq_true, Bool.and_eq_true, Bool.not_eq_true',
    decide_eq_true_eq] at h
  rcases h with (((h | rfl) | rfl) | ⟨⟨-, hb⟩, hf⟩) | rfl
  · have hname : Html.isNameChar c = true := by simp [Html.isNameChar, h]
    have hf : c ≠ '\uFEFF' := by
      rintro rfl
      exact absurd h (by decide)
    simp [isGap, Html.isBlank_of_isNameChar hname, hf]
  · decide
  · decide
  · simp [isGap, hb, hf]
  · decide

theorem Word.exists_cons (w : Word) : ∃ c r, w.text = c :: r ∧ isWordPart c = true := by
  have h := w.chars
  cases e : w.text with
  | nil => exact absurd e w.nonempty
  | cons c r =>
    rw [e] at h
    exact ⟨c, r, rfl, h.head⟩

namespace Token

theorem exists_cons (t : Token) : ∃ c r, t.text = c :: r ∧ isGap c = false := by
  cases t with
  | word w =>
    obtain ⟨c, r, e, hc⟩ := w.exists_cons
    exact ⟨c, r, e, isGap_of_isWordPart hc⟩
  | mark m => exact ⟨m.char, [], rfl, m.classes.2.2⟩
  | literal l => exact ⟨l.quote, _, rfl, isGap_of_opensString l.opensString_quote⟩

/-- a token that is no word does not go on with a word before it -/
theorem endsWord {t : Token} (h : t.isWord = false) (s : Text) : EndsWord (t.text ++ s) := by
  cases t with
  | word w => exact nomatch h
  | mark m =>
    intro c hc
    rw [← Option.some.inj hc]
    exact m.classes.1
  | literal l =>
    intro c hc
    rw [← Option.some.inj hc]
    exact isWordPart_of_opensString l.opensString_quote

/-- two tokens are the same, whatever follows, when they and what follows agree -/
theorem text_append_inj {t u : Token} {s r : Text} (ht : t.isWord = true → EndsWord s)
    (hu : u.isWord = true → EndsWord r) (h : t.text ++ s = u.text ++ r) : t = u ∧ s = r := by
  have hne : ∀ {w : Word} {v : Token} {x y : Text}, v.isWord = false →
      w.text ++ x ≠ v.text ++ y := by
    intro w v x y hv e
    obtain ⟨c, a, ew, hc⟩ := w.exists_cons
    have := endsWord hv y c (by rw [← e, ew]; rfl)
    rw [hc] at this
    exact nomatch this
  have hopens : ∀ {m : Mark} {l : Literal}, m.char ≠ l.quote := by
    intro m l e
    have := m.classes.2.1
    rw [e, l.opensString_quote] at this
    exact nomatch this
  cases t with
  | word w =>
    cases u with
    | word v =>
      obtain ⟨e, e'⟩ := WordText.append_inj w.chars v.chars (ht rfl) (hu rfl) h
      exact ⟨congrArg word (Word.ext e), e'⟩
    | mark m => exact absurd h (hne rfl)
    | literal l => exact absurd h (hne rfl)
  | mark m =>
    cases u with
    | word v => exact absurd h.symm (hne rfl)
    | mark n =>
      obtain ⟨e, e'⟩ := List.cons.inj h
      exact ⟨congrArg mark (Mark.char_inj e), e'⟩
    | literal l => exact absurd (List.cons.inj h).1 hopens
  | literal l =>
    cases u with
    | word v => exact absurd h.symm (hne rfl)
    | mark n => exact absurd (List.cons.inj h).1.symm hopens
    | literal k =>
      obtain ⟨e, e'⟩ := Literal.text_append_inj h
      exact ⟨congrArg literal e, e'⟩

end Token

/-- **A text spells one row of tokens.** -/
theorem Spelled.unique (hspace : ∀ c, space c = true → isGap c = true) {ts us : List Token}
    {s : Text} (ht : Spelled space ts s) (hu : Spelled space us s) : ts = us := by
  have hend : ∀ {gap gap' r : Text} {t : Token}, (∀ c ∈ gap, space c = true) →
      gap ≠ gap' ++ (t.text ++ r) := by
    intro gap gap' r t hg e
    obtain ⟨c, a, et, hc⟩ := t.exists_cons
    have := hspace c (hg c (by rw [e, et]; simp))
    rw [hc] at this
    exact nomatch this
  have hhead : ∀ {t : Token} {r : Text}, ∀ c ∈ (t.text ++ r).head?, isGap c = false := by
    intro t r c hm
    obtain ⟨d, a, et, hd⟩ := t.exists_cons
    rw [et] at hm
    rw [← Option.some.inj hm]
    exact hd
  generalize e : s = r at hu
  induction ht generalizing us r with
  | nil hg =>
    cases hu with
    | nil _ => rfl
    | cons _ _ _ => exact absurd e (hend hg)
  | @cons t ts gap s hg apart _ ih =>
    cases hu with
    | nil hg' => exact absurd e.symm (hend hg')
    | @cons u us gap' s' hg' apart' hs' =>
      have h1 := Text.span_of_forall (fun c hc => hspace c (hg c hc)) (hhead (t := t) (r := s))
      have h2 := Text.span_of_forall (fun c hc => hspace c (hg' c hc)) (hhead (t := u) (r := s'))
      rw [e] at h1
      obtain ⟨rfl, e'⟩ := Token.text_append_inj apart apart' (h1.2.symm.trans h2.2)
      rw [ih s' e' hs']

/-! ## the key of a text -/

theorem plain_of_isWordPart {c : Char} (h : isWordPart c = true) :
    opensString c = false ∧ isBlank c = false := by
  constructor
  · cases ho : opensString c with
    | false => rfl
    | true =>
      rw [isWordPart_of_opensString ho] at h
      exact h.symm
  · exact (Bool.or_eq_false_iff.1 (isGap_of_isWordPart h)).1

theorem isWordPart_of_isHex {c : Char} (h : isHex c = true) : isWordPart c = true := by
  have halnum : c.isAlphanum = true := Json.isAlphanum_of_hexDigit? h
  simp [isWordPart, isWordChar, halnum]

theorem WordText.plain {s : Text} (h : WordText s) :
    ∀ c ∈ s, opensString c = false ∧ isBlank c = false := by
  have hescape : ∀ {r : Text}, (∀ c ∈ r, opensString c = false ∧ isBlank c = false) →
      ∀ c ∈ '\\' :: 'u' :: r, opensString c = false ∧ isBlank c = false := fun hr =>
    List.forall_mem_cons.2 ⟨by decide, List.forall_mem_cons.2 ⟨by decide, hr⟩⟩
  induction h with
  | nil => exact fun _ hc => absurd hc List.not_mem_nil
  | char hc _ ih =>
    have hpart : isWordPart _ = true := Bool.or_eq_true_iff.2 (.inl hc)
    exact List.forall_mem_cons.2 ⟨plain_of_isWordPart hpart, ih⟩
  | code _ _ ih => exact hescape ih
  | braced hds _ ih =>
    have hdigits := List.forall_mem_append.2
      ⟨fun d hd => plain_of_isWordPart (isWordPart_of_isHex (hds d hd)),
        List.forall_mem_cons.2 ⟨(by decide : opensString '\x7d' = false ∧ _), ih⟩⟩
    exact hescape (List.forall_mem_cons.2 ⟨by decide, hdigits⟩)

theorem Word.unspaced (w : Word) : Unspaced w.text where
  plain c hc := (w.chars.plain c hc).1
  nonblank c hc := (w.chars.plain c hc).2

theorem Mark.unspaced (m : Mark) : Unspaced [m.char] where
  plain c hc := by
    rw [List.mem_singleton.1 hc]
    exact m.classes.2.1
  nonblank c hc := by
    rw [List.mem_singleton.1 hc]
    exact (Bool.or_eq_false_iff.1 m.classes.2.2).1

theorem importKeyFrom_unspaced {s : Text} (h : Unspaced s) (t : Text) :
    importKeyFrom .plain (s ++ t) = s ++ importKeyFrom .plain t := by
  rw [importKeyFrom_plain h.plain, h.filter]

theorem importKeyFrom_literalText {q : Char} {s : Text} (h : LiteralText q s) (hq : q ≠ '\\')
    (t : Text) : importKeyFrom (.quoted q) (s ++ q :: t) = s ++ q :: importKeyFrom .plain t := by
  induction h with
  | nil => rw [List.nil_append, importKeyFrom, if_neg hq, if_pos rfl, List.nil_append]
  | char hq' hb _ ih => rw [List.cons_append, importKeyFrom, if_neg hb, if_neg hq', ih]; rfl
  | escape c _ ih =>
    rw [List.cons_append, importKeyFrom, if_pos rfl, List.cons_append, importKeyFrom, ih]
    rfl

theorem importKeyFrom_token (t : Token) (s : Text) :
    importKeyFrom .plain (t.text ++ s) = t.text ++ importKeyFrom .plain s := by
  cases t with
  | word w => exact importKeyFrom_unspaced w.unspaced s
  | mark m => exact importKeyFrom_unspaced m.unspaced s
  | literal l =>
    show importKeyFrom .plain (l.text ++ s) = l.text ++ _
    rw [l.text_append, l.text_append, importKeyFrom, if_pos l.opensString_quote,
      importKeyFrom_literalText l.chars l.quote_ne]

theorem importKeyFrom_gap {gap : Text} (h : ∀ c ∈ gap, isBlank c = true) (s : Text) :
    importKeyFrom .plain (gap ++ s) = importKeyFrom .plain s := by
  have hplain : ∀ c ∈ gap, opensString c = false := by
    intro c hc
    cases ho : opensString c with
    | false => rfl
    | true =>
      have := (Bool.or_eq_false_iff.1 (isGap_of_opensString ho)).1
      rw [h c hc] at this
      exact this
  rw [importKeyFrom_plain hplain, List.filter_eq_nil_iff.2 fun c hc => by rw [h c hc]; decide]
  rfl

/-- **The key of a text is the row of its tokens without white space.** -/
theorem Spelled.importKey_eq {ts : List Token} {s : Text} (h : Spelled isBlank ts s) :
    importKey s = glue ts := by
  unfold importKey
  induction h with
  | nil hg =>
    have := importKeyFrom_gap hg []
    rwa [List.append_nil] at this
  | cons hg _ _ ih => rw [importKeyFrom_gap hg, importKeyFrom_token, ih]; rfl

/-! ## the borders of words -/

/-- tokens with a word before them; a word that they begin with goes on with it -/
def joinWord (a : Word) : List Token → List Token
  | .word b :: us => .word (a.append b) :: us
  | us => .word a :: us

/-- tokens in which the words that follow each other are one word -/
def joinWords : List Token → List Token
  | [] => []
  | .word a :: ts => joinWord a (joinWords ts)
  | .mark m :: ts => .mark m :: joinWords ts
  | .literal l :: ts => .literal l :: joinWords ts

/-- the tokens stand side by side in the text -/
abbrev Glued (ts : List Token) (s : Text) : Prop := Spelled (fun _ => false) ts s

theorem glued_nil : Glued [] [] := .nil fun _ hc => absurd hc List.not_mem_nil

theorem glued_cons {t : Token} {ts : List Token} {s : Text} (apart : t.isWord = true → EndsWord s)
    (hs : Glued ts s) : Glued (t :: ts) (t.text ++ s) :=
  .cons (fun _ hc => absurd hc List.not_mem_nil) apart hs

theorem Glued.eq_nil {s : Text} (h : Glued [] s) : s = [] := by
  cases h with
  | nil hg => exact List.eq_nil_iff_forall_not_mem.2 fun c hc => absurd (hg c hc) Bool.false_ne_true

theorem Glued.exists_cons {t : Token} {ts : List Token} {s : Text} (h : Glued (t :: ts) s) :
    ∃ r, s = t.text ++ r ∧ (t.isWord = true → EndsWord r) ∧ Glued ts r := by
  cases h with
  | @cons _ _ gap r hg apart hr =>
    obtain rfl : gap = [] :=
      List.eq_nil_iff_forall_not_mem.2 fun c hc => absurd (hg c hc) Bool.false_ne_true
    exact ⟨r, rfl, apart, hr⟩

theorem glued_joinWord (a : Word) {us : List Token} {s : Text} (h : Glued us s) :
    Glued (joinWord a us) (a.text ++ s) := by
  have hother : ∀ {u : Token} {us : List Token}, u.isWord = false → Glued (u :: us) s →
      Glued (.word a :: u :: us) (a.text ++ s) := by
    intro u us hu h
    obtain ⟨r, rfl, -, -⟩ := h.exists_cons
    exact glued_cons (fun _ => Token.endsWord hu r) h
  match us with
  | [] =>
    obtain rfl := h.eq_nil
    exact glued_cons (fun _ c hc => nomatch hc) h
  | .word b :: us =>
    obtain ⟨r, rfl, apart, hr⟩ := h.exists_cons
    rw [← List.append_assoc]
    exact glued_cons apart hr
  | .mark m :: us => exact hother rfl h
  | .literal l :: us => exact hother rfl h

/-- joined tokens are told by the text in which they stand side by side -/
theorem glued_joinWords (ts : List Token) : Glued (joinWords ts) (glue ts) := by
  induction ts with
  | nil => exact glued_nil
  | cons t ts ih =>
    cases t with
    | word a => exact glued_joinWord a ih
    | mark m => exact glued_cons (fun h => nomatch h) ih
    | literal l => exact glued_cons (fun h => nomatch h) ih

theorem glue_joinWords (ts : List Token) : glue (joinWords ts) = glue ts := by
  have hjoin : ∀ a us, glue (joinWord a us) = a.text ++ glue us := by
    intro a us
    match us with
    | [] => rfl
    | .word b :: us => exact List.append_assoc ..
    | .mark m :: us => rfl
    | .literal l :: us => rfl
  induction ts with
  | nil => rfl
  | cons t ts ih =>
    cases t with
    | word a => exact (hjoin a _).trans (congrArg _ ih)
    | mark m => exact congrArg ([m.char] ++ ·) ih
    | literal l => exact congrArg (l.text ++ ·) ih

/-- **Two texts have one key when their tokens are the same up to the borders of words.** -/
theorem importKey_eq_iff {ts us : List Token} {s t : Text} (hs : Spelled isBlank ts s)
    (ht : Spelled isBlank us t) : importKey s = importKey t ↔ joinWords ts = joinWords us := by
  rw [hs.importKey_eq, ht.importKey_eq]
  constructor
  · intro e
    have h := glued_joinWords ts
    rw [e] at h
    exact h.unique (fun c hc => absurd hc Bool.false_ne_true) (glued_joinWords us)
  · intro e
    rw [← glue_joinWords ts, e, glue_joinWords]

end

end MarkdownModule.Script
