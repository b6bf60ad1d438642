import MarkdownModule.Yaml.Node
import MarkdownModule.Yaml.Token.List

/-!
# Brackets that are opened and closed

A row of tokens is read as a node only if the brackets that are opened in it are closed in it.

* `Yaml.nesting`                how many brackets are open after some tokens
* `Yaml.Node.nesting_ofTokens`  the tokens of a whole document leave no bracket open
* `Yaml.Reader.Bracketed.next`  a reader of tokens knows how many brackets are open
-/

namespace MarkdownModule.Yaml

/-! ## nesting -/

def Token.nest (n : Nat) : Token → Nat
  | .flowSequenceStart | .flowMappingStart => n + 1
  | .flowSequenceEnd | .flowMappingEnd => n - 1
  | _ => n

/-- the number of open brackets after some tokens; a closing bracket too many does not count -/
def nesting (n : Nat) (ts : List Token) : Nat := ts.foldl Token.nest n

theorem nesting_cons (n : Nat) (t : Token) (ts : List Token) :
    nesting n (t :: ts) = nesting (t.nest n) ts := rfl

theorem nesting_append (n : Nat) (ts ts' : List Token) :
    nesting n (ts ++ ts') = nesting (nesting n ts) ts' := List.foldl_append

theorem Token.nest_mono {n m : Nat} (h : n ≤ m) (t : Token) : t.nest n ≤ t.nest m := by
  cases t with
  | flowSequenceStart => exact Nat.succ_le_succ h
  | flowMappingStart => exact Nat.succ_le_succ h
  | flowSequenceEnd => exact Nat.sub_le_sub_right h 1
  | flowMappingEnd => exact Nat.sub_le_sub_right h 1
  | _ => exact h

theorem nesting_mono {n m : Nat} (h : n ≤ m) (ts : List Token) : nesting n ts ≤ nesting m ts := by
  induction ts generalizing n m with
  | nil => exact h
  | cons t ts ih => exact ih (t.nest_mono h)

/-- what is read between two places closes its brackets, and `k` more -/
def Closes (k : Nat) (ts ts' : List Token) : Prop := ∀ n, nesting (n + k) ts ≤ nesting n ts'

theorem Closes.refl (ts : List Token) : Closes 0 ts ts := fun _ => Nat.le_refl _

theorem Closes.trans {k : Nat} {ts ts' ts'' : List Token} (h : Closes 0 ts ts')
    (h' : Closes k ts' ts'') : Closes k ts ts'' := fun n => Nat.le_trans (h (n + k)) (h' n)

/-- a token that is no opening bracket -/
theorem Closes.skip {t : Token} (ht : ∀ n, t.nest n ≤ n) (ts : List Token) : Closes 0 (t :: ts) ts :=
  fun n => nesting_mono (ht n) ts

/-- a token that is no bracket, and what is read after it -/
theorem Closes.after {k : Nat} {t : Token} {ts ts' : List Token} (h : Closes k ts ts')
    (ht : ∀ n, t.nest n = n) : Closes k (t :: ts) ts' :=
  (Closes.skip (fun n => Nat.le_of_eq (ht n)) ts).trans h

theorem Closes.flowEntry (ts : List Token) : Closes 0 (.flowEntry :: ts) ts :=
  fun _ => Nat.le_refl _

theorem Closes.flowSequenceEnd (ts : List Token) : Closes 1 (.flowSequenceEnd :: ts) ts :=
  fun _ => Nat.le_refl _

theorem Closes.flowMappingEnd (ts : List Token) : Closes 1 (.flowMappingEnd :: ts) ts :=
  fun _ => Nat.le_refl _

theorem Closes.flowSequence {ts ts' : List Token} (h : Closes 1 ts ts') :
    Closes 0 (.flowSequenceStart :: ts) ts' := h

theorem Closes.flowMapping {ts ts' : List Token} (h : Closes 1 ts ts') :
    Closes 0 (.flowMappingStart :: ts) ts' := h

/-! ## readers -/

/-- what a step gives if it succeeds -/
def Ensures {ε α : Type} (P : α → Prop) (x : Except ε α) : Prop := ∀ a, x = .ok a → P a

theorem Ensures.error {ε α : Type} {P : α → Prop} (e : ε) : Ensures P (.error e) := nofun

theorem Ensures.ok {ε α : Type} {P : α → Prop} {a : α} (h : P a) : Ensures P (.ok a : Except ε α) :=
  fun _ ha => Except.ok.inj ha ▸ h

theorem Ensures.mono {ε α : Type} {P Q : α → Prop} {x : Except ε α} (h : Ensures P x)
    (hq : ∀ a, P a → Q a) : Ensures Q x := fun a ha => hq a (h a ha)

theorem Ensures.bind {ε α β : Type} {P : α → Prop} {Q : β → Prop} {x : Except ε α}
    {f : α → Except ε β} (h : Ensures P x) (hf : ∀ a, P a → Ensures Q (f a)) :
    Ensures Q (x >>= f) := by
  cases x with
  | error e => exact nofun
  | ok a => exact hf a (h a rfl)

theorem Ensures.map {ε α β : Type} {P : α → Prop} {Q : β → Prop} {x : Except ε α} {f : α → β}
    (h : Ensures P x) (hf : ∀ a, P a → Q (f a)) : Ensures Q (x.map f) := by
  cases x with
  | error e => exact nofun
  | ok a => exact .ok (hf a (h a rfl))

theorem Ensures.ite {ε α : Type} {P : α → Prop} {c : Prop} [Decidable c] {x y : Except ε α}
    (hx : c → Ensures P x) (hy : ¬ c → Ensures P y) : Ensures P (if c then x else y) := by
  split
  · next h => exact hx h
  · next h => exact hy h

namespace Node

variable (hs : Handles)

theorem closes_readProperties (ts : List Token) :
    Ensures (fun r => Closes 0 ts r.2) (readProperties hs ts) := by
  have hskip {t : Token} (ht : ∀ n, t.nest n = n) (ts : List Token) : Closes 0 (t :: ts) ts :=
    .skip (fun n => Nat.le_of_eq (ht n)) ts
  unfold readProperties
  split
  · next a h s ts =>
    refine Ensures.bind (P := fun _ => True) (fun _ _ => trivial) fun _ _ => .ok ?_
    exact (hskip (fun _ => rfl) _).trans (hskip (fun _ => rfl) _)
  · next h s a ts =>
    refine Ensures.bind (P := fun _ => True) (fun _ _ => trivial) fun _ _ => .ok ?_
    exact (hskip (fun _ => rfl) _).trans (hskip (fun _ => rfl) _)
  · exact .ok (hskip (fun _ => rfl) _)
  · refine Ensures.bind (P := fun _ => True) (fun _ _ => trivial) fun _ _ => .ok ?_
    exact hskip (fun _ => rfl) _
  · exact .ok (.refl _)

/-- the items of a sequence inside of brackets, after the comma before them -/
def readItemsOn (fuel : Nat) : List Token → Except Error (List Node × List Token)
  | .flowSequenceEnd :: ts => .ok ([], ts)
  | ts => do
    let (item, ts) ← match ts with
      | .key :: ts => readFlowPair hs fuel ts
      | ts => read hs fuel .flow ts
    let (items, ts) ← readFlowItems hs fuel false ts
    .ok (item :: items, ts)

/-- the pairs of a mapping inside of brackets, after the comma before them -/
def readPairsOn (fuel : Nat) : List Token → Except Error (List (Node × Node) × List Token)
  | .flowMappingEnd :: ts => .ok ([], ts)
  | .key :: ts => do
    let (k, ts) ←
      match ts with
      | .value :: _ | .flowEntry :: _ | .flowMappingEnd :: _ => .ok (empty, ts)
      | ts => read hs fuel .flow ts
    let (v, ts) ← readFlowValue hs fuel ts
    let (pairs, ts) ← readFlowPairs hs fuel false ts
    .ok ((k, v) :: pairs, ts)
  | ts => do
    let (k, ts) ← read hs fuel .flow ts
    let (pairs, ts) ← readFlowPairs hs fuel false ts
    .ok ((k, empty) :: pairs, ts)

/-- what is read of nodes with some fuel closes its brackets -/
structure ClosesAll (fuel : Nat) : Prop where
  read : ∀ place ts, Ensures (fun r => Closes 0 ts r.2) (read hs fuel place ts)
  items : ∀ ts, Ensures (fun r => Closes 0 ts r.2) (readItems hs fuel ts)
  looseItems : ∀ ts, Ensures (fun r => Closes 0 ts r.2) (readLooseItems hs fuel ts)
  part : ∀ ts, Ensures (fun r => Closes 0 ts r.2) (readPart hs fuel ts)
  pairs : ∀ ts, Ensures (fun r => Closes 0 ts r.2) (readPairs hs fuel ts)
  flowValue : ∀ ts, Ensures (fun r => Closes 0 ts r.2) (readFlowValue hs fuel ts)
  flowPair : ∀ ts, Ensures (fun r => Closes 0 ts r.2) (readFlowPair hs fuel ts)
  flowItems : ∀ first ts, Ensures (fun r => Closes 1 ts r.2) (readFlowItems hs fuel first ts)
  flowPairs : ∀ first ts, Ensures (fun r => Closes 1 ts r.2) (readFlowPairs hs fuel first ts)

section
variable {hs} {fuel : Nat} (ih : ClosesAll hs fuel)
include ih

theorem ClosesAll.read_succ (place : Place) (ts : List Token) :
    Ensures (fun r => Closes 0 ts r.2) (Node.read hs (fuel + 1) place ts) := by
  unfold Node.read
  split
  · exact .ok (.skip (fun _ => Nat.le_refl _) _)
  · refine (closes_readProperties hs ts).bind ?_
    rintro ⟨p, ts'⟩ hp
    refine Ensures.mono ?_ fun r hr => hp.trans hr
    dsimp only
    split
    · exact (ih.looseItems _).bind fun r hr => .ok hr
    · exact .ok (.skip (fun _ => Nat.le_refl _) _)
    · exact (ih.flowItems _ _).bind fun r hr => .ok hr.flowSequence
    · exact (ih.flowPairs _ _).bind fun r hr => .ok hr.flowMapping
    · split
      · split
        · exact .error _
        · exact (ih.items _).bind fun r hr => .ok ((Closes.skip (fun _ => Nat.le_refl _) _).trans hr)
      · split
        · exact .error _
        · exact (ih.pairs _).bind fun r hr => .ok ((Closes.skip (fun _ => Nat.le_refl _) _).trans hr)
      · split
        · exact .error _
        · exact .ok (.refl _)

theorem ClosesAll.readItems_succ (ts : List Token) :
    Ensures (fun r => Closes 0 ts r.2) (Node.readItems hs (fuel + 1) ts) := by
  unfold Node.readItems
  split
  · exact .ok (.skip (fun _ => Nat.le_refl _) _)
  · next ts =>
    have hmore (r : Node × List Token) (hr : Closes 0 ts r.2) :
        Ensures (fun q => Closes 0 (.blockEntry :: ts) q.2)
          (Node.readItems hs fuel r.2 >>= fun q => .ok (r.1 :: q.1, q.2)) :=
      (ih.items r.2).bind fun q hq => .ok ((hr.trans hq).after fun _ => rfl)
    dsimp only
    split
    · exact hmore (empty, ts) (.refl _)
    · exact (ih.read _ _).bind hmore
  · exact .error _

theorem ClosesAll.readLooseItems_succ (ts : List Token) :
    Ensures (fun r => Closes 0 ts r.2) (Node.readLooseItems hs (fuel + 1) ts) := by
  unfold Node.readLooseItems
  split
  · next ts =>
    have hmore (r : Node × List Token) (hr : Closes 0 ts r.2) :
        Ensures (fun q => Closes 0 (.blockEntry :: ts) q.2)
          (Node.readLooseItems hs fuel r.2 >>= fun q => .ok (r.1 :: q.1, q.2)) :=
      (ih.looseItems r.2).bind fun q hq => .ok ((hr.trans hq).after fun _ => rfl)
    dsimp only
    split
    · exact hmore (empty, ts) (.refl _)
    · exact (ih.read _ _).bind hmore
  · exact .ok (.refl _)

theorem ClosesAll.readPart_succ (ts : List Token) :
    Ensures (fun r => Closes 0 ts r.2) (Node.readPart hs (fuel + 1) ts) := by
  unfold Node.readPart
  split
  · exact .ok (.refl _)
  · exact ih.read _ _

theorem ClosesAll.readPairs_succ (ts : List Token) :
    Ensures (fun r => Closes 0 ts r.2) (Node.readPairs hs (fuel + 1) ts) := by
  unfold Node.readPairs
  split
  · exact .ok (.skip (fun _ => Nat.le_refl _) _)
  · next ts =>
    refine (ih.part ts).bind ?_
    rintro ⟨key, ts'⟩ hkey
    have hmore (r : Node × List Token) (hr : Closes 0 ts' r.2) :
        Ensures (fun q => Closes 0 (.key :: ts) q.2)
          (Node.readPairs hs fuel r.2 >>= fun q => .ok ((key, r.1) :: q.1, q.2)) :=
      (ih.pairs r.2).bind fun q hq => .ok ((hkey.trans (hr.trans hq)).after fun _ => rfl)
    dsimp only
    split
    · exact (ih.part _).bind fun r hr => hmore r (hr.after fun _ => rfl)
    · exact hmore (empty, _) (.refl _)
  · exact .error _

theorem ClosesAll.readFlowValue_succ (ts : List Token) :
    Ensures (fun r => Closes 0 ts r.2) (Node.readFlowValue hs (fuel + 1) ts) := by
  unfold Node.readFlowValue
  split
  · split
    · exact .ok ((Closes.refl _).after fun _ => rfl)
    · exact (ih.read _ _).mono fun r hr => hr.after fun _ => rfl
  · exact .ok (.refl _)

theorem ClosesAll.readFlowPair_succ (ts : List Token) :
    Ensures (fun r => Closes 0 ts r.2) (Node.readFlowPair hs (fuel + 1) ts) := by
  have hmore (r : Node × List Token) (hr : Closes 0 ts r.2) :
      Ensures (fun q => Closes 0 ts q.2) (Node.readFlowValue hs fuel r.2 >>= fun q =>
        .ok (Node.mapping {} [(r.1, q.1)], q.2)) :=
    (ih.flowValue r.2).bind fun q hq => .ok (hr.trans hq)
  unfold Node.readFlowPair
  dsimp only
  split
  · exact hmore (empty, _) (.skip (fun _ => Nat.le_refl _) _)
  · exact hmore (empty, _) (.skip (fun _ => Nat.le_refl _) _)
  · exact hmore (empty, _) (.skip (t := .flowSequenceEnd) (fun n => Nat.sub_le n 1) _)
  · exact (ih.read _ _).bind hmore

theorem ClosesAll.readItemsOn (ts : List Token) :
    Ensures (fun r => Closes 1 ts r.2) (Node.readItemsOn hs fuel ts) := by
  have hmore (r : Node × List Token) (hr : Closes 0 ts r.2) : Ensures (fun q => Closes 1 ts q.2)
      (Node.readFlowItems hs fuel false r.2 >>= fun q => .ok (r.1 :: q.1, q.2)) :=
    (ih.flowItems false r.2).bind fun q hq => .ok (hr.trans hq)
  unfold Node.readItemsOn
  split
  · exact .ok (.flowSequenceEnd _)
  · dsimp only
    split
    · exact (ih.flowPair _).bind fun r hr => hmore r (hr.after fun _ => rfl)
    · exact (ih.read _ _).bind fun r hr => hmore r hr

theorem ClosesAll.readFlowItems_succ (first : Bool) (ts : List Token) :
    Ensures (fun r => Closes 1 ts r.2) (Node.readFlowItems hs (fuel + 1) first ts) := by
  unfold Node.readFlowItems
  split
  · exact .ok (.flowSequenceEnd _)
  · dsimp only
    split
    · exact ih.readItemsOn ts
    · split
      · exact (ih.readItemsOn _).mono fun r hr => (Closes.flowEntry _).trans hr
      · exact .error _

theorem ClosesAll.readPairsOn (ts : List Token) :
    Ensures (fun r => Closes 1 ts r.2) (Node.readPairsOn hs fuel ts) := by
  have hmore (ts' : List Token) (hts : Closes 0 ts ts') (key value : Node) :
      Ensures (fun q => Closes 1 ts q.2)
        (Node.readFlowPairs hs fuel false ts' >>= fun q => .ok ((key, value) :: q.1, q.2)) :=
    (ih.flowPairs false ts').bind fun q hq => .ok (hts.trans hq)
  have hvalue (r : Node × List Token) (hr : Closes 0 ts r.2) : Ensures (fun q => Closes 1 ts q.2)
      (Node.readFlowValue hs fuel r.2 >>= fun v =>
        Node.readFlowPairs hs fuel false v.2 >>= fun q => .ok ((r.1, v.1) :: q.1, q.2)) :=
    (ih.flowValue r.2).bind fun v hv => hmore v.2 (hr.trans hv) r.1 v.1
  unfold Node.readPairsOn
  split
  · exact .ok (.flowMappingEnd _)
  · next ts =>
    have hkey : Closes 0 (.key :: ts) ts := .skip (fun _ => Nat.le_refl _) ts
    dsimp only
    split
    · exact hvalue (empty, _) hkey
    · exact hvalue (empty, _) hkey
    · exact hvalue (empty, _) hkey
    · exact (ih.read _ _).bind fun r hr => hvalue r (hkey.trans hr)
  · exact (ih.read _ _).bind fun r hr => hmore r.2 hr r.1 empty

theorem ClosesAll.readFlowPairs_succ (first : Bool) (ts : List Token) :
    Ensures (fun r => Closes 1 ts r.2) (Node.readFlowPairs hs (fuel + 1) first ts) := by
  unfold Node.readFlowPairs
  split
  · exact .ok (.flowMappingEnd _)
  · dsimp only
    split
    · exact ih.readPairsOn ts
    · split
      · exact (ih.readPairsOn _).mono fun r hr => (Closes.flowEntry _).trans hr
      · exact .error _

end

/-- **What is read of nodes closes the brackets that it opens.** -/
theorem closesAll (fuel : Nat) : ClosesAll hs fuel := by
  induction fuel with
  | zero =>
    refine ⟨?_, ?_, ?_, ?_, ?_, ?_, ?_, ?_, ?_⟩ <;> intros <;> exact .error _
  | succ fuel ih =>
    exact {
      read := ih.read_succ
      items := ih.readItems_succ
      looseItems := ih.readLooseItems_succ
      part := ih.readPart_succ
      pairs := ih.readPairs_succ
      flowValue := ih.readFlowValue_succ
      flowPair := ih.readFlowPair_succ
      flowItems := ih.readFlowItems_succ
      flowPairs := ih.readFlowPairs_succ }

/-! ## documents -/

theorem closes_readDirectives (version : Bool) (ts : List Token) :
    Ensures (fun r => Closes 0 ts r.2) (readDirectives version hs ts) := by
  fun_induction readDirectives version hs ts with
  | case1 => exact .error _
  | case2 version hs major minor ts hversion ih => exact ih.mono fun r hr => hr.after fun _ => rfl
  | case3 => exact .error _
  | case4 version hs h s ts hnew ih => exact ih.mono fun r hr => hr.after fun _ => rfl
  | case5 => exact .ok (.refl _)

omit hs in
theorem closes_readDocument (ts : List Token) :
    Ensures (fun r => Closes 0 ts r.2) (readDocument ts) := by
  unfold readDocument
  dsimp only
  split
  · next hempty =>
    rw [List.isEmpty_iff.1 hempty]
    exact .ok (.refl _)
  · split
    · exact (closesAll _ _).read _ _
    · refine (closes_readDirectives [] false ts).bind ?_
      rintro ⟨hs, ts'⟩ hts
      refine Ensures.mono ?_ fun r hr => hts.trans hr
      dsimp only
      split
      · split
        · exact .ok ((Closes.refl _).after fun _ => rfl)
        · exact ((closesAll _ _).read _ _).mono fun r hr => hr.after fun _ => rfl
      · exact .error _

omit hs in
/-- **The tokens of a whole document leave no bracket open.** -/
theorem nesting_ofTokens {ts : List Token} {n : Node} (h : ofTokens ts = .ok n) :
    nesting 0 ts = 0 := by
  have hends : ∀ {ts : List Token}, (ts.dropWhile (· = .documentEnd)).isEmpty = true →
      nesting 0 ts = 0 := by
    intro ts hts
    induction ts with
    | nil => rfl
    | cons t ts ih =>
      by_cases ht : t = .documentEnd
      · rw [List.dropWhile_cons_of_pos (by simp [ht])] at hts
        rw [ht]
        exact ih hts
      · rw [List.dropWhile_cons_of_neg (by simp [ht])] at hts
        exact nomatch hts
  unfold ofTokens at h
  cases hr : readDocument ts with
  | error e =>
    rw [hr] at h
    exact nomatch h
  | ok r =>
    have hclose := closes_readDocument ts r hr 0
    rw [hr] at h
    change (if (r.2.dropWhile (· = .documentEnd)).isEmpty then _ else _) = _ at h
    split at h
    · next hrest =>
      rw [hends hrest] at hclose
      exact Nat.le_zero.1 hclose
    · exact nomatch h

end Node

/-! ## tokens of a text -/

/-- a token that is no bracket -/
def Token.Plain (t : Token) : Prop := ∀ n, t.nest n = n

theorem nesting_insert {t : Token} (ht : t.Plain) (n : Nat) (ts ts' : List Token) :
    nesting n (ts ++ t :: ts') = nesting n (ts ++ ts') := by
  rw [nesting_append, nesting_append, nesting_cons, ht]

theorem nesting_push {t : Token} (ht : t.Plain) (n : Nat) (ts : List Token) :
    nesting n (ts ++ [t]) = nesting n ts := by
  rw [nesting_insert ht, List.append_nil]

theorem Ensures.trivial {ε α : Type} (x : Except ε α) : Ensures (fun _ => True) x :=
  fun _ _ => True.intro

theorem plain_readTag (c : Cursor) : Ensures (fun p => p.1.Plain) (readTag c) := by
  unfold readTag
  dsimp only
  split
  · refine (Ensures.trivial _).bind fun p _ => ?_
    split
    · exact .ok fun _ => rfl
    · exact .error _
  · split
    · exact (Ensures.trivial _).bind fun p _ => .ok fun _ => rfl
    · refine (Ensures.trivial _).bind fun p _ => .ok fun n => ?_
      dsimp only
      split <;> rfl

theorem plain_readDirective (c : Cursor) : Ensures (fun p => p.1.Plain) (readDirective c) := by
  have hversion (c : Cursor) : Ensures (fun p => p.1.Plain) (readVersion c) := by
    refine (Ensures.trivial (readVersionNumber _)).bind fun p _ => ?_
    exact .ite (fun _ => (Ensures.trivial _).bind fun p _ => .ok fun _ => rfl) fun _ => .error _
  have htag (c : Cursor) : Ensures (fun p => p.1.Plain) (readTagDirective c) := by
    unfold readTagDirective
    dsimp only
    split
    · exact .error _
    · split
      · exact .error _
      · refine (Ensures.trivial _).bind fun p _ => ?_
        split
        · exact .ok fun _ => rfl
        · exact .error _
  have hend (p : Token × Cursor) (hp : p.1.Plain) : Ensures (fun q => q.1.Plain)
      (if atLineEnd p.2.skipComment.rest then .ok (p.1, p.2.skipComment.skipBreak)
        else .error .malformedDirective : Except Error (Token × Cursor)) := by
    split
    · exact .ok hp
    · exact .error _
  unfold readDirective
  dsimp only
  split
  · exact .error _
  · split
    · exact (hversion _).bind hend
    · split
      · exact (htag _).bind hend
      · exact .error _

namespace Reader

/-- the reader knows how many brackets are open, and has a place of a key in each and around them -/
structure Bracketed (r : Reader) : Prop where
  keys : r.keys.length = r.flowDepth + 1
  tokens : nesting 0 r.tokens = r.flowDepth

section
variable {r : Reader} (h : r.Bracketed)
include h

theorem Bracketed.setKeyPlace (k : Option KeyPlace) : (r.setKeyPlace k).Bracketed := by
  refine ⟨?_, h.tokens⟩
  show (k :: r.keys.drop 1).length = r.flowDepth + 1
  rw [List.length_cons, List.length_drop, h.keys]
  omega

theorem Bracketed.dropKey : Ensures Bracketed r.dropKey := by
  unfold Reader.dropKey
  split
  · split
    · exact .error _
    · exact .ok (h.setKeyPlace none)
  · exact .ok h

theorem Bracketed.saveKey : Ensures Bracketed r.saveKey := by
  unfold Reader.saveKey
  split
  · exact h.dropKey.bind fun r' h' => .ok (h'.setKeyPlace _)
  · exact .ok h

theorem Bracketed.push {t : Token} (ht : t.Plain) (c : Cursor) (b : Bool) :
    Bracketed { r.push t with cursor := c, keyAllowed := b } :=
  ⟨h.keys, (nesting_push ht 0 r.tokens).trans h.tokens⟩

theorem Bracketed.putIn {t : Token} (ht : t.Plain) (n : Nat) : (r.putIn n t).Bracketed := by
  refine ⟨h.keys, ?_⟩
  show nesting 0 (r.tokens.take n ++ t :: r.tokens.drop n) = r.flowDepth
  rw [nesting_insert ht, List.take_append_drop, h.tokens]

theorem Bracketed.openBlock {t : Token} (ht : t.Plain) (column place : Nat) :
    (r.openBlock column place t).Bracketed := by
  unfold Reader.openBlock
  split
  · exact ⟨(h.putIn ht place).keys, (h.putIn ht place).tokens⟩
  · exact h

theorem Bracketed.closeTo (column : Int) : (r.closeTo column).Bracketed := by
  unfold Reader.closeTo
  split
  · exact h
  · refine ⟨h.keys, ?_⟩
    show nesting 0 (r.tokens ++ List.replicate _ .blockEnd) = r.flowDepth
    rw [nesting_append, h.tokens]
    generalize (closeBlocks column r.indentation r.outer).2.2 = n
    induction n with
    | zero => rfl
    | succ n ih => exact ih

theorem Bracketed.openFlow {t : Token} (ht : ∀ n, t.nest n = n + 1) :
    Ensures Bracketed (r.openFlow t) := by
  refine h.saveKey.bind fun r' h' => .ok ⟨?_, ?_⟩
  · show (none :: r'.keys).length = r'.flowDepth + 1 + 1
    rw [List.length_cons, h'.keys]
  · show nesting 0 (r'.tokens ++ [t]) = r'.flowDepth + 1
    rw [nesting_append, h'.tokens]
    exact ht _

theorem Bracketed.closeFlow {t : Token} (ht : ∀ n, t.nest n = n - 1) :
    Ensures Bracketed (r.closeFlow t) := by
  refine h.dropKey.bind fun r' h' => .ok ⟨?_, ?_⟩
  · show (if r'.inFlow then r'.keys.drop 1 else r'.keys).length = r'.flowDepth - 1 + 1
    have hkeys := h'.keys
    unfold inFlow
    split
    · next hflow =>
      have hpos : 0 < r'.flowDepth := of_decide_eq_true hflow
      rw [List.length_drop]
      omega
    · next hflow =>
      have hzero : ¬ 0 < r'.flowDepth := fun hpos => hflow (decide_eq_true hpos)
      omega
  · show nesting 0 (r'.tokens ++ [t]) = r'.flowDepth - 1
    rw [nesting_append, h'.tokens]
    exact ht _

theorem Bracketed.outside : Ensures Bracketed r.outside :=
  (h.closeTo (-1)).dropKey.bind fun _ h' => .ok ⟨h'.keys, h'.tokens⟩

theorem Bracketed.flowEntry : Ensures Bracketed r.flowEntry :=
  h.dropKey.bind fun _ h' => .ok (h'.push (fun _ => rfl) _ _)

theorem Bracketed.blockEntry : Ensures Bracketed r.blockEntry :=
  .ite (fun _ => .error _) fun _ => (h.openBlock (fun _ => rfl) _ _).dropKey.bind fun _ h' =>
    .ok (h'.push (fun _ => rfl) _ _)

theorem Bracketed.keyMark : Ensures Bracketed r.keyMark :=
  .ite (fun _ => .error _) fun _ => (h.openBlock (fun _ => rfl) _ _).dropKey.bind fun _ h' =>
    .ok (h'.push (fun _ => rfl) _ _)

theorem Bracketed.named {t : Text → Token} (ht : ∀ name, (t name).Plain) :
    Ensures Bracketed (r.named t) :=
  h.saveKey.bind fun _ h' => (Ensures.trivial _).bind fun p _ => .ok (h'.push (ht p.1) _ _)

theorem Bracketed.tag : Ensures Bracketed r.tag :=
  h.saveKey.bind fun _ h' => (plain_readTag _).bind fun _ hp =>
    .ite (fun _ => .ok (h'.push hp _ _)) fun _ => .error _

theorem Bracketed.blockScalar (literal : Bool) : Ensures Bracketed (r.blockScalar literal) :=
  h.dropKey.bind fun _ h' => (Ensures.trivial _).bind fun _ _ => .ok (h'.push (fun _ => rfl) _ _)

theorem Bracketed.quotedScalar (q : Char) : Ensures Bracketed (r.quotedScalar q) :=
  h.saveKey.bind fun _ h' => (Ensures.trivial _).bind fun _ _ => .ok (h'.push (fun _ => rfl) _ _)

theorem Bracketed.plainScalar : Ensures Bracketed r.plainScalar :=
  h.saveKey.bind fun _ h' => (Ensures.trivial _).bind fun _ _ => .ok (h'.push (fun _ => rfl) _ _)

theorem Bracketed.valueMark : Ensures Bracketed r.valueMark := by
  have hkey : Token.key.Plain := fun _ => rfl
  have hvalue : Token.value.Plain := fun _ => rfl
  have hmap : Token.blockMappingStart.Plain := fun _ => rfl
  unfold Reader.valueMark
  split
  · next k _ =>
    have h' := ((h.putIn hkey k.tokenCount).openBlock hmap k.column k.tokenCount).setKeyPlace none
    exact .ok (h'.push hvalue _ _)
  · split
    · exact .error _
    · exact .ok ((h.openBlock hmap r.cursor.column r.tokens.length).push hvalue _ _)

theorem Bracketed.token (c : Char) (rest : Text) : Ensures Bracketed (r.token c rest) := by
  have hmark {t : Token} (ht : t.Plain) : Ensures Bracketed (r.outside.map (·.pushOver 3 t)) :=
    h.outside.map fun _ h' => h'.push ht _ _
  unfold Reader.token
  refine .ite (fun _ => ?_) fun _ => .ite (fun _ => hmark fun _ => rfl) fun _ =>
    .ite (fun _ => hmark fun _ => rfl) fun _ => ?_
  · refine h.outside.bind fun r' h' => (plain_readDirective _).bind fun p hp => ?_
    exact .ok (h'.push hp _ _)
  refine .ite (fun _ => h.openFlow fun _ => rfl) fun _ => .ite (fun _ => h.openFlow fun _ => rfl)
    fun _ => .ite (fun _ => h.closeFlow fun _ => rfl) fun _ =>
    .ite (fun _ => h.closeFlow fun _ => rfl) fun _ => ?_
  refine .ite (fun _ => h.flowEntry) fun _ => .ite (fun _ => h.blockEntry) fun _ =>
    .ite (fun _ => h.keyMark) fun _ => .ite (fun _ => h.valueMark) fun _ => ?_
  refine .ite (fun _ => h.named fun _ _ => rfl) fun _ => .ite (fun _ => h.named fun _ _ => rfl)
    fun _ => .ite (fun _ => h.tag) fun _ => ?_
  exact .ite (fun _ => h.blockScalar true) fun _ => .ite (fun _ => h.blockScalar false) fun _ =>
    .ite (fun _ => h.quotedScalar c) fun _ => .ite (fun _ => h.plainScalar) fun _ => .error _

omit h in
theorem Bracketed.skipGaps (h : r.Bracketed) (n : Nat) : (r.skipGaps n).Bracketed := by
  induction n generalizing r with
  | zero => exact h
  | succ n ih =>
    have hstep (c : Cursor) : Bracketed (if c.head?.any isBreak then
        Reader.skipGaps n { r with cursor := c.skipBreak, keyAllowed := r.keyAllowed || !r.inFlow }
        else { r with cursor := c }) := by
      split
      · exact ih ⟨h.keys, h.tokens⟩
      · exact ⟨h.keys, h.tokens⟩
    exact hstep _

omit h in
theorem length_dropStale (c : Cursor) (ks : List (Option KeyPlace)) :
    Ensures (fun ks' => ks'.length = ks.length) (dropStale c ks) := by
  have hcons (k : Option KeyPlace) {ks : List (Option KeyPlace)}
      (ih : Ensures (fun ks' => ks'.length = ks.length) (dropStale c ks)) (k' : Option KeyPlace) :
      Ensures (fun ks' => ks'.length = (k :: ks).length) ((dropStale c ks).map (k' :: ·)) :=
    ih.map fun ks' h => congrArg (· + 1) h
  induction ks with
  | nil => exact .ok rfl
  | cons k ks ih =>
    cases k with
    | none => exact hcons none ih none
    | some k =>
      unfold dropStale
      exact .ite (fun _ => .ite (fun _ => .error _) fun _ => hcons (some k) ih none)
        fun _ => hcons (some k) ih (some k)

/-- **One more token leaves the reader with its count of open brackets.** -/
theorem Bracketed.next : Ensures (fun s => ∀ r', s = .inl r' → r'.Bracketed) r.next := by
  unfold Reader.next
  dsimp only
  have hgaps := h.skipGaps (r.cursor.rest.length + 1)
  generalize r.skipGaps (r.cursor.rest.length + 1) = g at hgaps ⊢
  refine (length_dropStale g.cursor g.keys).bind fun ks hks => ?_
  have hfresh : Bracketed { g with keys := ks } := ⟨hks.trans hgaps.keys, hgaps.tokens⟩
  have hclose := Bracketed.closeTo hfresh g.cursor.column
  split
  · exact (Ensures.trivial _).bind fun r' _ => .ok fun _ h => absurd h Sum.inr_ne_inl
  · exact (hclose.token _ _).map fun r' h' r'' he => Sum.inl.inj he ▸ h'

end

end Reader

end MarkdownModule.Yaml
