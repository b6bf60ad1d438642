import MarkdownModule.Proofs.Script.Run
import MarkdownModule.Proofs.Script.Token

/-!
# Import declarations

A statement that is an import declaration is told by its tokens.  Its key keeps all of them but the
border between `as` and the words around it, so the key tells the declaration up to this border.

* `Script.ImportDeclaration`           the declarations, and their tokens
* `Script.ImportDeclaration.joined`    the declaration with its renamed exports written as one word
* `Script.ImportDeclaration.key_iff`   two declarations have one key when they are joined to one
* `Script.Module.addImport_new_iff`    which declarations are new to a module
-/

namespace MarkdownModule.Script

/-! ## keywords -/

namespace Word

def importKeyword : Word := .ofChars "import".toList (by decide +kernel)

def fromKeyword : Word := .ofChars "from".toList (by decide +kernel)

def asKeyword : Word := .ofChars "as".toList (by decide +kernel)

def withKeyword : Word := .ofChars "with".toList (by decide +kernel)

end Word

/-! ## declarations -/

/-- a row in braces: nothing, a last member, or a member with a comma and what follows -/
inductive Braced (α : Type) where
  | nil
  | last (a : α)
  | cons (a : α) (rest : Braced α)

/-- an export that is bound to a local name -/
inductive Specifier where
  /-- under its own name -/
  | same (binding : Word)
  | renamed (name binding : Word)
  /-- an export whose name is written as a string -/
  | quoted (name : Literal) (binding : Word)

/-- a key with its value behind the path -/
inductive Attribute where
  | word (key : Word) (value : Literal)
  | quoted (key value : Literal)

/-- the names that a declaration binds beside the default export -/
inductive Bindings where
  | all (binding : Word)
  | named (specifiers : Braced Specifier)

inductive ImportClause where
  | default (binding : Word)
  | bindings (rest : Bindings)
  | both (binding : Word) (rest : Bindings)

structure ImportDeclaration where
  /-- nothing when the path alone is named -/
  clause : Option ImportClause
  path : Literal
  attributes : Option (Braced Attribute)
  semicolon : Bool

namespace Braced

variable {α β : Type}

def toList : Braced α → List α
  | nil => []
  | last a => [a]
  | cons a rest => a :: rest.toList

def map (f : α → β) : Braced α → Braced β
  | nil => nil
  | last a => last (f a)
  | cons a rest => cons (f a) (rest.map f)

theorem map_id (l : Braced α) : l.map id = l := by
  induction l with
  | nil => rfl
  | last a => rfl
  | cons a l ih => exact congrArg (cons a) ih

theorem eq_of_map_eq {g : α → β} {l k : Braced α} (h : l.map g = k.map g)
    (hg : ∀ x ∈ l.toList, ∀ y ∈ k.toList, g x = g y → x = y) : l = k := by
  induction l generalizing k with
  | nil =>
    cases k with
    | nil => rfl
    | last y => exact nomatch h
    | cons y k => exact nomatch h
  | last x =>
    cases k with
    | nil => exact nomatch h
    | last y => rw [hg x List.mem_cons_self y List.mem_cons_self (Braced.last.inj h)]
    | cons y k => exact nomatch h
  | cons x l ih =>
    cases k with
    | nil => exact nomatch h
    | last y => exact nomatch h
    | cons y k =>
      obtain ⟨e, e'⟩ := Braced.cons.inj h
      rw [hg x List.mem_cons_self y List.mem_cons_self e, ih e' fun z hz w hw =>
        hg z (List.mem_cons_of_mem _ hz) w (List.mem_cons_of_mem _ hw)]

/-- the tokens of a row without its braces -/
def tokens (f : α → List Token) : Braced α → List Token
  | nil => []
  | last a => f a
  | cons a rest => f a ++ .mark .comma :: rest.tokens f

end Braced

def Specifier.tokens : Specifier → List Token
  | same b => [.word b]
  | renamed n b => [.word n, .word .asKeyword, .word b]
  | quoted l b => [.literal l, .word .asKeyword, .word b]

def Attribute.tokens : Attribute → List Token
  | word k v => [.word k, .mark .colon, .literal v]
  | quoted k v => [.literal k, .mark .colon, .literal v]

def Bindings.tokens : Bindings → List Token
  | all b => [.mark .star, .word .asKeyword, .word b]
  | named l => .mark .opening :: (l.tokens Specifier.tokens ++ [.mark .closing])

def ImportClause.tokens : ImportClause → List Token
  | default b => [.word b]
  | bindings r => r.tokens
  | both b r => .word b :: .mark .comma :: r.tokens

def attributeTokens : Option (Braced Attribute) → List Token
  | none => []
  | some l =>
    .word .withKeyword :: .mark .opening :: (l.tokens Attribute.tokens ++ [.mark .closing])

def clauseTokens : Option ImportClause → List Token
  | none => []
  | some c => c.tokens ++ [.word .fromKeyword]

def endTokens (semicolon : Bool) : List Token := if semicolon then [.mark .semicolon] else []

def ImportDeclaration.tokens (d : ImportDeclaration) : List Token :=
  .word .importKeyword :: (clauseTokens d.clause ++
    .literal d.path :: (attributeTokens d.attributes ++ endTokens d.semicolon))

/-! ## names that are written together -/

/-- a renamed export with its words written as one -/
def Specifier.joined : Specifier → Specifier
  | renamed n b => same (n.append (Word.asKeyword.append b))
  | s => s

def Bindings.joined : Bindings → Bindings
  | all b => all b
  | named l => named (l.map Specifier.joined)

def ImportClause.joined : ImportClause → ImportClause
  | default b => default b
  | bindings r => bindings r.joined
  | both b r => both b r.joined

/-- the declaration with every renamed export written as one word -/
def ImportDeclaration.joined (d : ImportDeclaration) : ImportDeclaration :=
  { d with clause := d.clause.map ImportClause.joined }

def Bindings.specifiers : Bindings → List Specifier
  | all _ => []
  | named l => l.toList

def ImportClause.specifiers : ImportClause → List Specifier
  | default _ => []
  | bindings r | both _ r => r.specifiers

def ImportDeclaration.specifiers (d : ImportDeclaration) : List Specifier :=
  (d.clause.map ImportClause.specifiers).getD []

/-! ## keys -/

/-- words do not go on behind a mark -/
theorem joinWords_append_mark (ts : List Token) (m : Mark) (us : List Token) :
    joinWords (ts ++ .mark m :: us) = joinWords ts ++ .mark m :: joinWords us := by
  have hjoin : ∀ a us vs, joinWord a (us ++ .mark m :: vs) = joinWord a us ++ .mark m :: vs := by
    intro a us vs
    match us with
    | [] => rfl
    | .word b :: us => rfl
    | .mark n :: us => rfl
    | .literal l :: us => rfl
  induction ts with
  | nil => rfl
  | cons t ts ih =>
    cases t with
    | word a => exact (congrArg (joinWord a) ih).trans (hjoin a _ _)
    | mark n => exact congrArg (Token.mark n :: ·) ih
    | literal l => exact congrArg (Token.literal l :: ·) ih

namespace Braced

variable {α β : Type} {f : α → List Token} {g : α → β}

theorem joinWords_nil (ts : List Token) :
    joinWords ((nil : Braced α).tokens f ++ .mark .closing :: ts) =
      .mark .closing :: joinWords ts := rfl

theorem joinWords_last (a : α) (ts : List Token) :
    joinWords ((last a).tokens f ++ .mark .closing :: ts) =
      joinWords (f a) ++ .mark .closing :: joinWords ts := joinWords_append_mark ..

theorem joinWords_cons (a : α) (l : Braced α) (ts : List Token) :
    joinWords ((cons a l).tokens f ++ ts) =
      joinWords (f a) ++ .mark .comma :: joinWords (l.tokens f ++ ts) := by
  show joinWords (f a ++ .mark .comma :: l.tokens f ++ ts) = _
  rw [List.append_assoc]
  exact joinWords_append_mark ..

/-- the tokens of a row in braces tell its members, when those of a member do -/
theorem tokens_inj
    (hne : ∀ {a m ts us}, joinWords (f a) ++ .mark m :: ts ≠ .mark .closing :: us)
    (hinj : ∀ {a b m n ts us}, joinWords (f a) ++ .mark m :: ts = joinWords (f b) ++ .mark n :: us →
      g a = g b ∧ m = n ∧ ts = us)
    {l k : Braced α} {ts us : List Token}
    (h : joinWords (l.tokens f ++ .mark .closing :: ts) =
      joinWords (k.tokens f ++ .mark .closing :: us)) :
    l.map g = k.map g ∧ joinWords ts = joinWords us := by
  induction l generalizing k with
  | nil =>
    cases k with
    | nil => exact ⟨rfl, (List.cons.inj h).2⟩
    | last b =>
      rw [joinWords_nil, joinWords_last] at h
      exact absurd h.symm hne
    | cons b k =>
      rw [joinWords_nil, joinWords_cons] at h
      exact absurd h.symm hne
  | last a =>
    cases k with
    | nil =>
      rw [joinWords_nil, joinWords_last] at h
      exact absurd h hne
    | last b =>
      rw [joinWords_last, joinWords_last] at h
      obtain ⟨e, -, e'⟩ := hinj h
      exact ⟨congrArg last e, e'⟩
    | cons b k =>
      rw [joinWords_last, joinWords_cons] at h
      exact nomatch (hinj h).2.1
  | cons a l ih =>
    cases k with
    | nil =>
      rw [joinWords_nil, joinWords_cons] at h
      exact absurd h hne
    | last b =>
      rw [joinWords_last, joinWords_cons] at h
      exact nomatch (hinj h).2.1
    | cons b k =>
      rw [joinWords_cons, joinWords_cons] at h
      obtain ⟨e, -, e'⟩ := hinj h
      obtain ⟨hk, ht⟩ := ih e'
      exact ⟨by rw [map, map, e, hk], ht⟩

end Braced

namespace Specifier

theorem tokens_ne {a : Specifier} {m : Mark} {ts us : List Token} :
    joinWords a.tokens ++ .mark m :: ts ≠ .mark .closing :: us := by
  cases a <;> exact nofun

/-- the tokens of a specifier tell it up to the border of `as` -/
theorem tokens_inj {a b : Specifier} {m n : Mark} {ts us : List Token}
    (h : joinWords a.tokens ++ .mark m :: ts = joinWords b.tokens ++ .mark n :: us) :
    a.joined = b.joined ∧ m = n ∧ ts = us := by
  have hword : ∀ s : Specifier, (∃ w, joinWords s.tokens = [.word w] ∧ s.joined = same w) ∨
      ∃ l b, s = quoted l b := by
    intro s
    cases s with
    | same b => exact .inl ⟨b, rfl, rfl⟩
    | renamed n b => exact .inl ⟨_, rfl, rfl⟩
    | quoted l b => exact .inr ⟨l, b, rfl⟩
  rcases hword a with ⟨v, ea, ja⟩ | ⟨l, v, rfl⟩
  · rcases hword b with ⟨w, eb, jb⟩ | ⟨k, w, rfl⟩
    · rw [ea, eb] at h
      obtain ⟨e, h⟩ := List.cons.inj h
      obtain ⟨e', rfl⟩ := List.cons.inj h
      exact ⟨by rw [ja, jb, Token.word.inj e], Token.mark.inj e', rfl⟩
    · rw [ea] at h
      exact nomatch (List.cons.inj h).1
  · rcases hword b with ⟨w, eb, jb⟩ | ⟨k, w, rfl⟩
    · rw [eb] at h
      exact nomatch (List.cons.inj h).1
    · obtain ⟨e, h⟩ := List.cons.inj h
      obtain ⟨e', h⟩ := List.cons.inj h
      obtain ⟨e'', rfl⟩ := List.cons.inj h
      rw [Token.literal.inj e, Word.append_left_inj.1 (Token.word.inj e')]
      exact ⟨rfl, Token.mark.inj e'', rfl⟩

/-- the text of a specifier without white space is that of its joined form -/
theorem glue_joined (a : Specifier) : glue a.joined.tokens = glue a.tokens := by
  cases a with
  | same b => rfl
  | renamed n b =>
    show n.text ++ (Word.asKeyword.text ++ b.text) ++ [] =
      n.text ++ (Word.asKeyword.text ++ (b.text ++ []))
    rw [List.append_nil, List.append_nil]
  | quoted l b => rfl

end Specifier

namespace Attribute

theorem tokens_ne {a : Attribute} {m : Mark} {ts us : List Token} :
    joinWords a.tokens ++ .mark m :: ts ≠ .mark .closing :: us := by
  cases a <;> exact nofun

theorem tokens_inj {a b : Attribute} {m n : Mark} {ts us : List Token}
    (h : joinWords a.tokens ++ .mark m :: ts = joinWords b.tokens ++ .mark n :: us) :
    a = b ∧ m = n ∧ ts = us := by
  have hrow : ∀ {t u : Token} {v w : Literal},
      [t, .mark .colon, .literal v] ++ .mark m :: ts =
          [u, .mark .colon, .literal w] ++ .mark n :: us →
        t = u ∧ v = w ∧ m = n ∧ ts = us := by
    intro t u v w h
    simp only [List.cons_append, List.nil_append, List.cons.injEq, Token.literal.injEq,
      Token.mark.injEq, true_and] at h
    exact h
  cases a with
  | word k v =>
    cases b with
    | word k' v' =>
      obtain ⟨e, rfl, h'⟩ := hrow h
      exact ⟨by rw [Token.word.inj e], h'⟩
    | quoted k' v' => exact nomatch (hrow h).1
  | quoted k v =>
    cases b with
    | word k' v' => exact nomatch (hrow h).1
    | quoted k' v' =>
      obtain ⟨e, rfl, h'⟩ := hrow h
      exact ⟨by rw [Token.literal.inj e], h'⟩

end Attribute

/-! ## a key tells the joined declaration -/

theorem endTokens_inj {a b : Bool} (h : joinWords (endTokens a) = joinWords (endTokens b)) :
    a = b := by
  revert h
  cases a <;> cases b <;> simp [endTokens, joinWords]

/-- the tokens behind the path tell the attributes and the end -/
theorem attributeTokens_inj {l k : Option (Braced Attribute)} {a b : Bool}
    (h : joinWords (attributeTokens l ++ endTokens a) =
      joinWords (attributeTokens k ++ endTokens b)) : l = k ∧ a = b := by
  have hsome : ∀ (l : Braced Attribute) (a : Bool),
      joinWords (attributeTokens (some l) ++ endTokens a) = .word .withKeyword :: .mark .opening ::
        joinWords (l.tokens Attribute.tokens ++ .mark .closing :: endTokens a) := by
    intro l a
    rw [attributeTokens, List.cons_append, List.cons_append, List.append_assoc]
    rfl
  have hnone : ∀ a t us, joinWords (endTokens a) ≠ t :: Token.mark .opening :: us := by
    intro a t us
    cases a <;> exact nofun
  cases l with
  | none =>
    cases k with
    | none => exact ⟨rfl, endTokens_inj h⟩
    | some k =>
      rw [hsome] at h
      exact absurd h (hnone a _ _)
  | some l =>
    cases k with
    | none =>
      rw [hsome] at h
      exact absurd h.symm (hnone b _ _)
    | some k =>
      rw [hsome, hsome] at h
      obtain ⟨e, e'⟩ := Braced.tokens_inj (g := id) Attribute.tokens_ne Attribute.tokens_inj
        (List.cons.inj (List.cons.inj h).2).2
      rw [Braced.map_id, Braced.map_id] at e
      exact ⟨congrArg some e, endTokens_inj e'⟩

namespace Bindings

/-- the names are written behind a mark, which is no comma -/
theorem exists_mark (r : Bindings) (ts : List Token) :
    ∃ m us, m ≠ .comma ∧ joinWords (r.tokens ++ ts) = .mark m :: us := by
  cases r with
  | all b => exact ⟨.star, _, by decide, rfl⟩
  | named l => exact ⟨.opening, _, by decide, rfl⟩

theorem joinWords_word (a : Word) (r : Bindings) (ts : List Token) :
    joinWords (.word a :: (r.tokens ++ ts)) = .word a :: joinWords (r.tokens ++ ts) := by
  cases r with
  | all b => rfl
  | named l => rfl

/-- the tokens up to the path tell the names up to the borders of `as` -/
theorem tokens_inj {r q : Bindings} {k l : Literal} {ts us : List Token}
    (h : joinWords (r.tokens ++ .word .fromKeyword :: .literal k :: ts) =
      joinWords (q.tokens ++ .word .fromKeyword :: .literal l :: us)) :
    r.joined = q.joined ∧ k = l ∧ joinWords ts = joinWords us := by
  have hall : ∀ b k ts, joinWords ((all b).tokens ++ .word .fromKeyword :: .literal k :: ts) =
      .mark .star :: .word (Word.asKeyword.append (b.append .fromKeyword)) :: .literal k ::
        joinWords ts := fun _ _ _ => rfl
  have hnamed : ∀ l k ts, joinWords ((named l).tokens ++ .word .fromKeyword :: .literal k :: ts) =
      .mark .opening :: joinWords (l.tokens Specifier.tokens ++ .mark .closing ::
        .word .fromKeyword :: .literal k :: ts) := by
    intro l k ts
    rw [tokens, List.cons_append, List.append_assoc]
    rfl
  have hpath : ∀ k ts, joinWords (.word .fromKeyword :: .literal k :: ts) =
      .word .fromKeyword :: .literal k :: joinWords ts := fun _ _ => rfl
  cases r with
  | all b =>
    cases q with
    | all c =>
      rw [hall, hall] at h
      simp only [List.cons.injEq, Token.word.injEq, Token.literal.injEq, true_and,
        Word.append_left_inj, Word.append_right_inj] at h
      obtain ⟨rfl, rfl, h⟩ := h
      exact ⟨rfl, rfl, h⟩
    | named m =>
      rw [hall, hnamed] at h
      exact nomatch (List.cons.inj h).1
  | named l =>
    cases q with
    | all c =>
      rw [hall, hnamed] at h
      exact nomatch (List.cons.inj h).1
    | named m =>
      rw [hnamed, hnamed] at h
      obtain ⟨e, e'⟩ := Braced.tokens_inj Specifier.tokens_ne Specifier.tokens_inj
        (List.cons.inj h).2
      rw [hpath, hpath] at e'
      obtain ⟨hpath, h'⟩ := List.cons.inj (List.cons.inj e').2
      exact ⟨congrArg named e, Token.literal.inj hpath, h'⟩

end Bindings

namespace ImportDeclaration

section
variable (k : Literal) (ts : List Token)

/-- the tokens of a declaration before its attributes -/
def leading (c : Option ImportClause) : List Token :=
  .word .importKeyword :: (clauseTokens c ++ .literal k :: ts)

theorem joinWords_bare : joinWords (leading k ts none) =
    .word .importKeyword :: .literal k :: joinWords ts := rfl

theorem joinWords_default (b : Word) : joinWords (leading k ts (some (.default b))) =
    .word (Word.importKeyword.append (b.append .fromKeyword)) :: .literal k :: joinWords ts := rfl

theorem joinWords_bindings (r : Bindings) : joinWords (leading k ts (some (.bindings r))) =
    .word .importKeyword :: joinWords (r.tokens ++ .word .fromKeyword :: .literal k :: ts) := by
  show joinWords (.word .importKeyword ::
    (r.tokens ++ [.word .fromKeyword] ++ .literal k :: ts)) = _
  rw [List.append_assoc]
  exact r.joinWords_word _ _

theorem joinWords_both (b : Word) (r : Bindings) :
    joinWords (leading k ts (some (.both b r))) = .word (Word.importKeyword.append b) ::
      .mark .comma :: joinWords (r.tokens ++ .word .fromKeyword :: .literal k :: ts) := by
  show joinWords (.word .importKeyword :: .word b :: .mark .comma ::
    (r.tokens ++ [.word .fromKeyword] ++ .literal k :: ts)) = _
  rw [List.append_assoc]
  rfl

end

/-! The token behind the first word tells the forms apart, up to the word itself. -/

section
variable {v w : Word} {r : Bindings} {l m : Literal} {xs ys : List Token}

theorem Bindings.second_mark {t : Token}
    (h : .word v :: joinWords (r.tokens ++ xs) = .word w :: t :: ys) : ∃ m, m ≠ .comma ∧ t = .mark m := by
  obtain ⟨m, zs, hm, e⟩ := r.exists_mark xs
  rw [e] at h
  exact ⟨m, hm, (List.cons.inj (List.cons.inj h).2).1.symm⟩

theorem Bindings.second_ne_literal :
    .word v :: joinWords (r.tokens ++ xs) ≠ .word w :: .literal l :: ys := by
  intro h
  obtain ⟨m, -, e⟩ := second_mark h
  exact nomatch e

theorem Bindings.second_ne_comma :
    .word v :: joinWords (r.tokens ++ xs) ≠ .word w :: .mark .comma :: ys := by
  intro h
  obtain ⟨m, hm, e⟩ := second_mark h
  exact hm (Token.mark.inj e).symm

theorem word_literal_inj (h : Token.word v :: .literal l :: xs = .word w :: .literal m :: ys) :
    v = w ∧ l = m ∧ xs = ys := by
  simpa using h

end

theorem leading_inj {c c' : Option ImportClause} {k k' : Literal} {ts us : List Token}
    (h : joinWords (leading k ts c) = joinWords (leading k' us c')) :
    c.map ImportClause.joined = c'.map ImportClause.joined ∧ k = k' ∧
      joinWords ts = joinWords us := by
  rcases c with _ | b | r | ⟨b, r⟩
  · rw [joinWords_bare] at h
    rcases c' with _ | b' | r' | ⟨b', r'⟩
    · rw [joinWords_bare] at h
      exact ⟨rfl, (word_literal_inj h).2⟩
    · rw [joinWords_default] at h
      exact absurd (word_literal_inj h).1.symm (Word.append_ne_left _ _)
    · rw [joinWords_bindings] at h
      exact absurd h.symm Bindings.second_ne_literal
    · rw [joinWords_both] at h
      exact nomatch (List.cons.inj (List.cons.inj h).2).1
  · rw [joinWords_default] at h
    rcases c' with _ | b' | r' | ⟨b', r'⟩
    · rw [joinWords_bare] at h
      exact absurd (word_literal_inj h).1 (Word.append_ne_left _ _)
    · rw [joinWords_default] at h
      obtain ⟨e, h⟩ := word_literal_inj h
      rw [Word.append_right_inj.1 (Word.append_left_inj.1 e)]
      exact ⟨rfl, h⟩
    · rw [joinWords_bindings] at h
      exact absurd h.symm Bindings.second_ne_literal
    · rw [joinWords_both] at h
      exact nomatch (List.cons.inj (List.cons.inj h).2).1
  · rw [joinWords_bindings] at h
    rcases c' with _ | b' | r' | ⟨b', r'⟩
    · exact absurd h Bindings.second_ne_literal
    · exact absurd h Bindings.second_ne_literal
    · rw [joinWords_bindings] at h
      obtain ⟨e, h⟩ := Bindings.tokens_inj (List.cons.inj h).2
      exact ⟨congrArg (some <| ImportClause.bindings ·) e, h⟩
    · rw [joinWords_both] at h
      exact absurd h Bindings.second_ne_comma
  · rw [joinWords_both] at h
    rcases c' with _ | b' | r' | ⟨b', r'⟩
    · exact nomatch (List.cons.inj (List.cons.inj h).2).1
    · exact nomatch (List.cons.inj (List.cons.inj h).2).1
    · rw [joinWords_bindings] at h
      exact absurd h.symm Bindings.second_ne_comma
    · rw [joinWords_both] at h
      obtain ⟨hb, h⟩ := List.cons.inj h
      obtain ⟨e, h⟩ := Bindings.tokens_inj (List.cons.inj h).2
      rw [Word.append_left_inj.1 (Token.word.inj hb)]
      exact ⟨congrArg (some <| ImportClause.both b' ·) e, h⟩

/-- the words of a declaration, joined, tell the joined declaration -/
theorem joined_eq_of_joinWords_eq {d e : ImportDeclaration}
    (h : joinWords d.tokens = joinWords e.tokens) : d.joined = e.joined := by
  obtain ⟨c, k, l, a⟩ := d
  obtain ⟨c', k', l', a'⟩ := e
  obtain ⟨hc, rfl, ht⟩ := leading_inj h
  obtain ⟨rfl, rfl⟩ := attributeTokens_inj ht
  unfold joined
  rw [hc]

/-- the text of a declaration without white space is that of the joined declaration -/
theorem glue_joined (d : ImportDeclaration) : glue d.joined.tokens = glue d.tokens := by
  have happend : ∀ ts us, glue (ts ++ us) = glue ts ++ glue us := fun _ _ => List.flatMap_append
  have hcons : ∀ t ts, glue (t :: ts) = t.text ++ glue ts := fun _ _ => rfl
  have hbraced : ∀ l : Braced Specifier, glue ((l.map Specifier.joined).tokens Specifier.tokens) =
      glue (l.tokens Specifier.tokens) := by
    intro l
    induction l with
    | nil => rfl
    | last a => exact a.glue_joined
    | cons a l ih =>
      rw [Braced.map, Braced.tokens, Braced.tokens, happend, happend, hcons, hcons, ih,
        a.glue_joined]
  have hbindings : ∀ r : Bindings, glue r.joined.tokens = glue r.tokens := by
    intro r
    cases r with
    | all b => rfl
    | named l =>
      rw [Bindings.joined, Bindings.tokens, Bindings.tokens, hcons, hcons, happend, happend,
        hbraced]
  have hclause : glue (clauseTokens (d.clause.map ImportClause.joined)) =
      glue (clauseTokens d.clause) := by
    rcases d.clause with _ | b | r | ⟨b, r⟩
    · rfl
    · rfl
    · show glue (r.joined.tokens ++ _) = glue (r.tokens ++ _)
      rw [happend, happend, hbindings]
    · show glue (.word b :: .mark .comma :: r.joined.tokens ++ _) =
        glue (.word b :: .mark .comma :: r.tokens ++ _)
      simp only [happend, hcons, hbindings]
  unfold joined tokens
  rw [hcons, hcons, happend, happend, hclause]

/-- **Two declarations have one key when they are joined to one declaration.** -/
theorem key_iff {d e : ImportDeclaration} {s t : Text} (hs : Spelled isBlank d.tokens s)
    (ht : Spelled isBlank e.tokens t) : importKey s = importKey t ↔ d.joined = e.joined := by
  constructor
  · intro h
    exact joined_eq_of_joinWords_eq ((importKey_eq_iff hs ht).1 h)
  · intro h
    rw [hs.importKey_eq, ht.importKey_eq, ← glue_joined d, h, glue_joined]

/-- no export of one declaration reads like another export of the other when the words of each are
written together -/
def Apart (d e : ImportDeclaration) : Prop :=
  ∀ x ∈ d.specifiers, ∀ y ∈ e.specifiers, glue x.tokens = glue y.tokens → x = y

theorem Apart.eq_of_joined_eq {d e : ImportDeclaration} (hd : d.Apart e)
    (h : d.joined = e.joined) : d = e := by
  obtain ⟨c, k, l, a⟩ := d
  obtain ⟨c', k', l', a'⟩ := e
  simp only [joined, ImportDeclaration.mk.injEq] at h
  obtain ⟨hc, rfl, rfl, rfl⟩ := h
  have hinj : ∀ x ∈ specifiers ⟨c, k, l, a⟩, ∀ y ∈ specifiers ⟨c', k, l, a⟩,
      x.joined = y.joined → x = y := by
    intro x hx y hy e
    exact hd x hx y hy (by rw [← x.glue_joined, e, y.glue_joined])
  have hbindings : ∀ {r q : Bindings}, r.joined = q.joined →
      (∀ x ∈ r.specifiers, ∀ y ∈ q.specifiers, x.joined = y.joined → x = y) → r = q := by
    intro r q e hx
    cases r with
    | all b =>
      cases q with
      | all b' => rw [Bindings.all.inj e]
      | named m => exact nomatch e
    | named l =>
      cases q with
      | all b' => exact nomatch e
      | named m => rw [Braced.eq_of_map_eq (Bindings.named.inj e) hx]
  suffices c = c' by rw [this]
  rcases c with _ | b | r | ⟨b, r⟩ <;> rcases c' with _ | b' | r' | ⟨b', r'⟩
  case none.none => rfl
  case some.default.some.default =>
    rw [ImportClause.default.inj (Option.some.inj hc)]
  case some.bindings.some.bindings =>
    rw [hbindings (ImportClause.bindings.inj (Option.some.inj hc)) hinj]
  case some.both.some.both =>
    obtain ⟨rfl, e⟩ := ImportClause.both.inj (Option.some.inj hc)
    rw [hbindings e hinj]
  all_goals exact nomatch hc

/-! ## the declarations of a builder -/

def ofDefault (b : Word) (path : Text) : ImportDeclaration :=
  ⟨some (.default b), .ofPath path, none, true⟩

def ofNamed (n b : Word) (path : Text) : ImportDeclaration :=
  ⟨some (.bindings (.named (.last (if n.text = b.text then .same n else .renamed n b)))),
    .ofPath path, none, true⟩

end ImportDeclaration

section
variable {t : Token} {ts : List Token} {s : Text}

theorem spelled_nil : Spelled isBlank [] [] := .nil fun _ hc => absurd hc List.not_mem_nil

/-- a token in front of a text -/
theorem Spelled.glued (hs : Spelled isBlank ts s) (apart : t.isWord = true → EndsWord s) :
    Spelled isBlank (t :: ts) (t.text ++ s) :=
  .cons (fun _ hc => absurd hc List.not_mem_nil) apart hs

/-- a space and a token in front of a text -/
theorem Spelled.spaced (hs : Spelled isBlank ts s) (apart : t.isWord = true → EndsWord s) :
    Spelled isBlank (t :: ts) (' ' :: (t.text ++ s)) :=
  .cons (show ∀ c ∈ [' '], isBlank c = true by simp [isBlank]) apart hs

end

theorem endsWord_space (s : Text) : EndsWord (' ' :: s) := by
  intro c hc
  rw [← Option.some.inj hc]
  decide

/-- the path behind its keyword, and the end -/
theorem spelled_path (path : Text) :
    Spelled isBlank [.word .fromKeyword, .literal (.ofPath path), .mark .semicolon]
      (" from ".toList ++ stringLiteral path ++ [';']) := by
  have hend : Spelled isBlank [.mark .semicolon] [';'] := spelled_nil.glued fun h => nomatch h
  have e : " from ".toList ++ stringLiteral path ++ [';'] =
      ' ' :: (Word.fromKeyword.text ++ ' ' :: (stringLiteral path ++ [';'])) := by
    simp [Word.fromKeyword, Word.ofChars]
  rw [e]
  have hpath : Spelled isBlank [.literal (.ofPath path), .mark .semicolon]
      (' ' :: (stringLiteral path ++ [';'])) := hend.spaced fun h => nomatch h
  exact hpath.spaced fun _ => endsWord_space _

theorem spelled_defaultImport (b : Word) (path : Text) :
    Spelled isBlank (ImportDeclaration.ofDefault b path).tokens
      (Module.defaultImport b.text path) := by
  have e : Module.defaultImport b.text path = Word.importKeyword.text ++
      ' ' :: (b.text ++ (" from ".toList ++ stringLiteral path ++ [';'])) := by
    unfold Module.defaultImport
    simp [Word.importKeyword, Word.ofChars]
  rw [e]
  exact ((spelled_path path).spaced fun _ => endsWord_space _).glued fun _ => endsWord_space _

theorem spelled_namedImport (n b : Word) (path : Text) :
    Spelled isBlank (ImportDeclaration.ofNamed n b path).tokens
      (Module.namedImport n.text b.text path) := by
  have hclose : Spelled isBlank (.mark .closing ::
      [.word .fromKeyword, .literal (.ofPath path), .mark .semicolon])
        (" \x7d from ".toList ++ stringLiteral path ++ [';']) :=
    (spelled_path path).spaced nofun
  have hopen : ∀ {ts s}, Spelled isBlank ts (' ' :: s) →
      Spelled isBlank (.word .importKeyword :: .mark .opening :: ts)
        ("import \x7b ".toList ++ s) := by
    intro ts s h
    have e : "import \x7b ".toList ++ s = Word.importKeyword.text ++ ' ' :: '\x7b' :: ' ' :: s := by
      simp [Word.importKeyword, Word.ofChars]
    rw [e]
    exact (h.spaced (t := .mark .opening) nofun).glued fun _ => endsWord_space _
  have hend : EndsWord (" \x7d from ".toList ++ stringLiteral path ++ [';']) := endsWord_space _
  unfold Module.namedImport ImportDeclaration.ofNamed
  dsimp only
  by_cases h : n.text = b.text
  · rw [if_pos h, if_pos h, List.append_assoc, List.append_assoc, List.append_assoc,
      ← List.append_assoc _ _ [';']]
    exact hopen (hclose.spaced fun _ => hend)
  · have e : "import \x7b ".toList ++ (n.text ++ " as ".toList ++ b.text) ++ " \x7d from ".toList ++
        stringLiteral path ++ [';'] = "import \x7b ".toList ++ (n.text ++ ' ' ::
          (Word.asKeyword.text ++ ' ' :: (b.text ++
            (" \x7d from ".toList ++ stringLiteral path ++ [';'])))) := by
      simp [Word.asKeyword, Word.ofChars]
    rw [if_neg h, if_neg h, e]
    exact hopen (((hclose.spaced fun _ => hend).spaced fun _ => endsWord_space _).spaced
      fun _ => endsWord_space _)

/-- whether a call that adds an import adds a declaration -/
def Call.Declares : Call → Prop
  | .importStatement s => ∃ d : ImportDeclaration, Spelled isBlank d.tokens s
  | .importDefault binding _ => ∃ b : Word, b.text = binding
  | .importNamed name binding _ => (∃ n : Word, n.text = name) ∧ ∃ b : Word, b.text = binding
  | .statement _ | .exportConst _ _ => True

theorem Call.Declares.spelled {c : Call} (h : c.Declares) {s : Text} (hs : c.import? = some s) :
    ∃ d : ImportDeclaration, Spelled isBlank d.tokens s := by
  cases c with
  | importStatement t =>
    obtain rfl := Option.some.inj hs
    exact h
  | importDefault binding path =>
    obtain rfl := Option.some.inj hs
    obtain ⟨b, rfl⟩ := h
    exact ⟨_, spelled_defaultImport b path⟩
  | importNamed name binding path =>
    obtain rfl := Option.some.inj hs
    obtain ⟨⟨n, rfl⟩, b, rfl⟩ := h
    exact ⟨_, spelled_namedImport n b path⟩
  | statement t => exact nomatch hs
  | exportConst name expression => exact nomatch hs

namespace Module

/-- the imports of a run of declarations are declarations -/
theorem spelled_of_mem_run {cs : List Call} (h : ∀ c ∈ cs, c.Declares) {t : Text}
    (ht : t ∈ (empty.run cs).1.imports) : ∃ d : ImportDeclaration, Spelled isBlank d.tokens t := by
  rw [run_written] at ht
  obtain ⟨c, hc, e⟩ := List.mem_filterMap.1 (mem_of_mem_firstsBy ht)
  exact (h c hc).spelled e

/-- **Which declarations are not new to a module.**  Those that it has already, up to white space
and to the borders of `as`; when no two exports differ in these borders alone, those that it has
already, up to white space. -/
theorem addImport_known_iff {cs : List Call} (h : ∀ c ∈ cs, c.Declares) {s : Text}
    {d : ImportDeclaration} (hs : Spelled isBlank d.tokens s) :
    let m := (empty.run cs).1
    ((m.addImport s).2 = false ↔ ∃ t ∈ m.imports, ∃ e : ImportDeclaration,
        Spelled isBlank e.tokens t ∧ e.joined = d.joined) ∧
      ((∀ t ∈ m.imports, ∀ e : ImportDeclaration, Spelled isBlank e.tokens t → e.Apart d) →
        ((m.addImport s).2 = false ↔ ∃ t ∈ m.imports, Spelled isBlank d.tokens t)) := by
  intro m
  have hknown : (m.addImport s).2 = false ↔ m.hasImport s = true := by
    unfold addImport
    split <;> simp_all
  have hjoined : (m.addImport s).2 = false ↔ ∃ t ∈ m.imports, ∃ e : ImportDeclaration,
      Spelled isBlank e.tokens t ∧ e.joined = d.joined := by
    rw [hknown, hasImport_iff, List.mem_map]
    constructor
    · rintro ⟨t, ht, e⟩
      obtain ⟨d', hd'⟩ := spelled_of_mem_run h ht
      exact ⟨t, ht, d', hd', (ImportDeclaration.key_iff hd' hs).1 e⟩
    · rintro ⟨t, ht, e, he, hj⟩
      exact ⟨t, ht, (ImportDeclaration.key_iff he hs).2 hj⟩
  refine ⟨hjoined, fun hapart => hjoined.trans ?_⟩
  constructor
  · rintro ⟨t, ht, e, he, hj⟩
    obtain rfl := (hapart t ht e he).eq_of_joined_eq hj
    exact ⟨t, ht, he⟩
  · rintro ⟨t, ht, he⟩
    exact ⟨t, ht, d, he, rfl⟩

/-- an import that a module has is not new with other white space -/
theorem addImport_known_iff_react :
    ((empty.run [.importDefault "React".toList "react".toList]).1.addImport
      "import\nReact  from \"react\" ;".toList).2 = false := by
  let react : Word := .ofChars "React".toList (by decide +kernel)
  have hdeclares : ∀ c ∈ [Call.importDefault "React".toList "react".toList], c.Declares := by
    intro c hc
    rw [List.mem_singleton.1 hc]
    exact ⟨react, rfl⟩
  have hs : Spelled isBlank (ImportDeclaration.ofDefault react "react".toList).tokens
      "import\nReact  from \"react\" ;".toList := by
    have hend : Spelled isBlank [.mark .semicolon] [' ', ';'] :=
      spelled_nil.spaced fun h => nomatch h
    have hpath : Spelled isBlank [.literal (.ofPath "react".toList), .mark .semicolon]
        (' ' :: (stringLiteral "react".toList ++ [' ', ';'])) := hend.spaced fun h => nomatch h
    have hfrom : Spelled isBlank (.word .fromKeyword :: _)
        ("  ".toList ++ (Word.fromKeyword.text ++ _)) :=
      .cons (by simp [isBlank]) (fun _ => endsWord_space _) hpath
    have hname : Spelled isBlank (.word react :: _) ("\n".toList ++ (react.text ++ _)) :=
      .cons (by simp [isBlank]) (fun _ => endsWord_space _) hfrom
    have e : "import\nReact  from \"react\" ;".toList = Word.importKeyword.text ++
        ("\n".toList ++ (react.text ++ ("  ".toList ++ (Word.fromKeyword.text ++
          ' ' :: (stringLiteral "react".toList ++ [' ', ';']))))) := by
      decide +kernel
    rw [e]
    exact hname.glued fun _ c hc => by rw [← Option.some.inj hc]; decide
  refine ((addImport_known_iff hdeclares hs).2 ?_).2 ?_
  · intro t _ e _ x _ y hy
    exact absurd hy List.not_mem_nil
  · exact ⟨defaultImport react.text "react".toList, List.mem_singleton.2 rfl,
      spelled_defaultImport react _⟩

/-- **Two declarations may have one key, and one declaration two keys.**  The spaces around `as` are
not kept in a key, and the byte order mark, which is white space of a script, is. -/
theorem addImport_confused :
    (let d := ImportDeclaration.ofNamed (.ofChars "UI".toList (by decide +kernel))
        (.ofChars "Ui".toList (by decide +kernel)) "@ui/kit".toList
      let m := (empty.run [.importNamed "UIasUi".toList "UIasUi".toList "@ui/kit".toList]).1
      let s := "import \x7b UI as Ui \x7d from \"@ui/kit\";".toList
      Spelled isGap d.tokens s ∧ (∀ t ∈ m.imports, ¬ Spelled isGap d.tokens t) ∧
        (m.addImport s).2 = false) ∧
    (let d := ImportDeclaration.ofDefault (.ofChars "React".toList (by decide +kernel))
        "react".toList
      let m := (empty.run [.importDefault "React".toList "react".toList]).1
      let s := "import\uFEFFReact from \"react\";".toList
      Spelled isGap d.tokens s ∧ (∃ t ∈ m.imports, Spelled isGap d.tokens t) ∧
        (m.addImport s).2 = true) := by
  have hgap : ∀ c, isBlank c = true → isGap c = true := fun c hc => Bool.or_eq_true_iff.2 (.inl hc)
  constructor
  · intro d m s
    have hs : s = namedImport "UI".toList "Ui".toList "@ui/kit".toList := by decide +kernel
    have hm : m.imports = [namedImport "UIasUi".toList "UIasUi".toList "@ui/kit".toList] := rfl
    refine ⟨?_, ?_, by decide +kernel⟩
    · rw [hs]
      exact (spelled_namedImport (.ofChars "UI".toList _) (.ofChars "Ui".toList _) _).mono hgap
    · intro t ht hd
      rw [hm, List.mem_singleton] at ht
      subst ht
      let name : Word := .ofChars "UIasUi".toList (by decide +kernel)
      have e := ((spelled_namedImport name name "@ui/kit".toList).mono hgap).unique
        (fun _ hc => hc) hd
      exact absurd (congrArg List.length e) (by decide +kernel)
  · intro d m s
    refine ⟨?_, ⟨defaultImport "React".toList "react".toList, List.mem_singleton.2 rfl, ?_⟩,
      by decide +kernel⟩
    · have hname : Spelled isGap d.tokens.tail ("\uFEFF".toList ++ ("React".toList ++
          (" from ".toList ++ stringLiteral "react".toList ++ [';']))) :=
        .cons (t := .word (.ofChars "React".toList _)) (by simp [isGap])
          (fun _ => endsWord_space _) ((spelled_path "react".toList).mono hgap)
      have e : s = [] ++ (Word.importKeyword.text ++ ("\uFEFF".toList ++ ("React".toList ++
          (" from ".toList ++ stringLiteral "react".toList ++ [';'])))) := by
        decide +kernel
      rw [e]
      exact .cons (t := .word .importKeyword) (fun _ hc => absurd hc List.not_mem_nil)
        (fun _ c hc => by rw [← Option.some.inj hc]; decide) hname
    · exact (spelled_defaultImport (.ofChars "React".toList _) _).mono hgap

end Module

end MarkdownModule.Script
