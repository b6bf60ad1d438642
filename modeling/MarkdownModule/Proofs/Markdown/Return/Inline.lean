import MarkdownModule.Proofs.Markdown.Scan
import MarkdownModule.Proofs.Markdown.Return.Text

/-!
# Carriage returns in inline content

The pieces that a text is read into are put together to inline content.  A piece that stands for
itself holds no carriage return when the text holds none, and no step puts one to it.

* `Inline.Sound`         inline content without carriage returns, but for what is decoded
* `Piece.Sound`          a piece that comes to such content
* `sound_settleAll`      the inline content that pieces come to
* `sound_pairRuns`       pieces with their runs paired
* `readBareLink?_sound`  a link without brackets
* `sound_findMailAll`    addresses of mail
-/

namespace MarkdownModule.Markdown

/-! ## inline content -/

/-- what stands for itself holds no carriage return, and what is decoded holds one only when `b`
holds -/
inductive Inline.Sound (b : Prop) : Inline → Prop
  | text {s : Text} (h : Plain s) : Sound b (.text s)
  | decoded {s : Text} (h : Brings b s) : Sound b (.decoded s)
  | softBreak (place : Nat) : Sound b (.softBreak place)
  | hardBreak : Sound b .hardBreak
  | code {s : Text} (h : Plain s) : Sound b (.code s)
  | formula {s : Text} (h : Plain s) : Sound b (.formula s)
  | html {s : Text} (h : Plain s) : Sound b (.html s)
  | emphasis {inner : List Inline} (h : ∀ i ∈ inner, Sound b i) : Sound b (.emphasis inner)
  | strong {inner : List Inline} (h : ∀ i ∈ inner, Sound b i) : Sound b (.strong inner)
  | struck {inner : List Inline} (h : ∀ i ∈ inner, Sound b i) : Sound b (.struck inner)
  | link (destination : Text) {title : Option Text} {inner : List Inline}
      (ht : ∀ t ∈ title, Brings b t) (h : ∀ i ∈ inner, Sound b i) :
      Sound b (.link destination title inner)
  | image (destination : Text) {title : Option Text} {inner : List Inline}
      (ht : ∀ t ∈ title, Brings b t) (h : ∀ i ∈ inner, Sound b i) :
      Sound b (.image destination title inner)
  | autolink (destination : Text) {shown : Text} (h : Plain shown) :
      Sound b (.autolink destination shown)
  | bareLink (destination : Text) {shown : Text} (h : Plain shown) :
      Sound b (.bareLink destination shown)
  | footnoteCall (label : Text) : Sound b (.footnoteCall label)
  | checkBox (checked : Bool) : Sound b (.checkBox checked)

def SoundInlines (b : Prop) (is : List Inline) : Prop := ∀ i ∈ is, i.Sound b

/-- a piece that comes to inline content of that kind -/
inductive Piece.Sound (b : Prop) : Piece → Prop
  | data {s : Text} (h : Plain s) : Sound b (.data s)
  | node {n : Inline} (h : n.Sound b) : Sound b (.node n)
  | lineEnd (place : Nat) : Sound b (.lineEnd place)
  | brokenLine : Sound b .brokenLine
  | run {r : Run} (h : r.marker ≠ '\r') : Sound b (.run r)
  | bracket (k : Bracket) : Sound b (.bracket k)

def SoundPieces (b : Prop) (ps : List Piece) : Prop := ∀ p ∈ ps, p.Sound b

variable {b : Prop} {s t : Text} {ps qs : List Piece}

theorem SoundInlines.one {i : Inline} (hi : i.Sound b) : SoundInlines b [i] :=
  List.forall_mem_singleton.2 hi

theorem SoundInlines.cons {i : Inline} {is : List Inline} (hi : i.Sound b) (h : SoundInlines b is) :
    SoundInlines b (i :: is) :=
  List.forall_mem_cons.2 ⟨hi, h⟩

theorem SoundInlines.append {is js : List Inline} (h : SoundInlines b is) (h' : SoundInlines b js) :
    SoundInlines b (is ++ js) :=
  List.forall_mem_append.2 ⟨h, h'⟩

namespace SoundPieces

theorem nil : SoundPieces b [] := nofun

theorem cons {p : Piece} (hp : p.Sound b) (h : SoundPieces b ps) : SoundPieces b (p :: ps) :=
  List.forall_mem_cons.2 ⟨hp, h⟩

theorem append (h : SoundPieces b ps) (h' : SoundPieces b qs) : SoundPieces b (ps ++ qs) :=
  List.forall_mem_append.2 ⟨h, h'⟩

theorem reverse (h : SoundPieces b ps) : SoundPieces b ps.reverse :=
  fun p hp => h p (List.mem_reverse.1 hp)

end SoundPieces

/-! ## settling -/

theorem Plain.subset (h : Plain s) (ht : t ⊆ s) : Plain t := fun hmem => h (ht hmem)

theorem Plain.reverse (h : Plain s) : Plain s.reverse := fun hmem => h (List.mem_reverse.1 hmem)

theorem Plain.trimmed (h : Plain s) (p : Char → Bool) : Plain (Text.dropEndWhile p s) :=
  h.part (Text.prefix_dropEndWhile p s).isInfix

theorem Plain.dropped (h : Plain s) (p : Char → Bool) : Plain (s.dropWhile p) :=
  h.part (List.dropWhile_suffix p).isInfix

theorem plain_replicate {c : Char} (hc : c ≠ '\r') (n : Nat) : Plain (List.replicate n c) :=
  fun h => hc (List.eq_of_mem_replicate h).symm

theorem plain_bracket (k : BracketKind) : Plain k.text := by
  cases k <;> decide

theorem Piece.Sound.text? {p : Piece} (hp : p.Sound b) (h : p.text? = some s) : Plain s := by
  cases hp with
  | data hs =>
    cases h
    exact hs
  | run hr =>
    cases h
    exact plain_replicate hr _
  | bracket k =>
    cases h
    exact plain_bracket k.kind
  | node | lineEnd | brokenLine => cases h

theorem sound_merge (h : SoundPieces b ps) : SoundPieces b (merge ps) := by
  induction ps with
  | nil => exact .nil
  | cons p ps ih =>
    obtain ⟨hp, hps⟩ := List.forall_mem_cons.1 h
    have hrest := ih hps
    rw [merge]
    split
    · exact .cons hp hrest
    · next s hs =>
      have hplain := hp.text? hs
      split
      · next t rest hmerge =>
        rw [hmerge] at hrest
        obtain ⟨ht, hrest⟩ := List.forall_mem_cons.1 hrest
        cases ht with
        | data ht => exact .cons (.data (hplain.append ht)) hrest
      · exact .cons (.data hplain) hrest

theorem sound_textOf (h : Plain s) : SoundInlines b (textOf s) := by
  unfold textOf
  split
  · exact nofun
  · exact .one (.text h)

theorem sound_settleMerged (fresh : Bool) (h : SoundPieces b ps) :
    SoundInlines b (settleMerged fresh ps) := by
  have hfresh : ∀ {fresh : Bool} {s : Text}, Plain s →
      Plain (if fresh then s.dropWhile isGap else s) := fun hs => plain_ite (hs.dropped isGap) hs
  induction fresh, ps using settleMerged.induct with
  | case1 => exact List.forall_mem_nil _
  | case2 fresh s place ps ih =>
    obtain ⟨hs, hends⟩ := List.forall_mem_cons.1 h
    cases hs with
    | data hs =>
      have hrest := ih (List.forall_mem_cons.1 hends).2
      rw [settleMerged]
      refine (sound_textOf (hfresh (hs.trimmed isGap))).append (.cons ?_ hrest)
      split
      · exact .hardBreak
      · exact .softBreak place
  | case3 fresh s ps hno ih =>
    obtain ⟨hs, hps⟩ := List.forall_mem_cons.1 h
    cases hs with
    | data hs =>
      rw [settleMerged]
      · exact (sound_textOf (hfresh hs)).append (ih hps)
      · exact hno
  | case4 fresh place ps ih =>
    rw [settleMerged]
    exact .cons (.softBreak place) (ih (List.forall_mem_cons.1 h).2)
  | case5 fresh ps ih =>
    rw [settleMerged]
    exact .cons .hardBreak (ih (List.forall_mem_cons.1 h).2)
  | case6 fresh n ps ih =>
    obtain ⟨hn, hps⟩ := List.forall_mem_cons.1 h
    cases hn with
    | node hn =>
      rw [settleMerged]
      exact .cons hn (ih hps)
  | case7 fresh r ps ih =>
    obtain ⟨hr, hps⟩ := List.forall_mem_cons.1 h
    rw [settleMerged]
    exact .cons (.text (hr.text? rfl)) (ih hps)
  | case8 fresh k ps ih =>
    rw [settleMerged]
    exact .cons (.text (plain_bracket k.kind)) (ih (List.forall_mem_cons.1 h).2)

theorem sound_settle (h : SoundPieces b ps) : SoundInlines b (settle ps) :=
  sound_settleMerged false (sound_merge h)

theorem sound_dropEndBlanks (h : SoundPieces b ps) : SoundPieces b (dropEndBlanks ps) := by
  induction ps using dropEndBlanks.induct with
  | case1 => exact .nil
  | case2 s =>
    cases List.forall_mem_singleton.1 h with
    | data hs => exact .cons (.data (hs.trimmed isGap)) .nil
  | case3 p ps hno ih =>
    obtain ⟨hp, hps⟩ := List.forall_mem_cons.1 h
    rw [dropEndBlanks]
    · exact .cons hp (ih hps)
    · exact hno

theorem sound_settleAll (h : SoundPieces b ps) : SoundInlines b (settleAll ps) :=
  sound_settleMerged true (sound_dropEndBlanks (sound_merge h))

/-! ## emphasis -/

theorem sound_emphasize (marker : Char) (taken : Nat) {inner : List Inline}
    (h : SoundInlines b inner) : (emphasize marker taken inner).Sound b := by
  unfold emphasize
  split
  · exact .struck h
  · split
    · exact .emphasis h
    · exact .strong h

theorem sound_less {r : Run} (h : r.marker ≠ '\r') (taken : Nat) : SoundPieces b (r.less taken) := by
  unfold Run.less
  split
  · exact .nil
  · exact .cons (.run h) .nil

theorem sound_closeRun (n : Nat) {r : Run} (hr : r.marker ≠ '\r') {before : List Piece}
    (h : SoundPieces b before) : SoundPieces b (closeRun n r before) := by
  induction n generalizing r before with
  | zero => exact .cons (.run hr) h
  | succ n ih =>
    rw [closeRun]
    split
    · split
      · exact .cons (.run hr) h
      · next inner o rest hfound =>
        rw [findOpener?_eq hfound] at h
        obtain ⟨hinner, hrest⟩ := List.forall_mem_append.1 h
        obtain ⟨ho, hrest⟩ := List.forall_mem_cons.1 hrest
        cases ho with
        | run ho =>
          have hpaired : ∀ taken, SoundPieces b (.node (emphasize r.marker taken
              (settle inner.reverse)) :: (o.less taken ++ rest)) := fun taken =>
            .cons (.node (sound_emphasize _ _ (sound_settle (SoundPieces.reverse hinner))))
              ((sound_less ho taken).append hrest)
          dsimp only
          generalize (if (decide (1 < o.size) && decide (1 < r.size)) = true then 2 else 1) = taken
          split
          · exact hpaired taken
          · exact ih (r := { r with size := r.size - taken }) hr (hpaired taken)
    · exact .cons (.run hr) h

theorem sound_pairRuns (h : SoundPieces b ps) : SoundPieces b (pairRuns ps) := by
  have hstep : ∀ {p : Piece} {before : List Piece}, p.Sound b → SoundPieces b before →
      SoundPieces b (addPiece before p) := by
    intro p before hp hbefore
    cases hp with
    | run hr => exact sound_closeRun _ hr hbefore
    | data hs => exact .cons (.data hs) hbefore
    | node hn => exact .cons (.node hn) hbefore
    | lineEnd place => exact .cons (.lineEnd place) hbefore
    | brokenLine => exact .cons .brokenLine hbefore
    | bracket k => exact .cons (.bracket k) hbefore
  have hfold : ∀ {before : List Piece}, SoundPieces b before →
      SoundPieces b (ps.foldl addPiece before) := by
    induction ps with
    | nil => exact id
    | cons p ps ih =>
      intro before hbefore
      obtain ⟨hp, hps⟩ := List.forall_mem_cons.1 h
      exact ih hps (hstep hp hbefore)
  exact (hfold .nil).reverse

/-! ## links without brackets -/

theorem domainEnd?_suffix {d : DomainState} {r : Text} (h : domainEnd? d s = some r) : r <:+ s := by
  fun_induction domainEnd? d s with
  | case1 | case3 | case9 =>
    cases h
    exact List.suffix_rfl
  | case2 | case4 | case10 => cases h
  | case5 d u _ _ ih | case6 d c u _ _ _ ih | case7 d u _ ih | case8 d c u _ _ _ ih =>
    exact (ih h).trans (List.suffix_cons _ u)

theorem pathEnd_suffix (opened closed : Nat) (s : Text) : pathEnd opened closed s <:+ s := by
  fun_induction pathEnd opened closed s with
  | case1 | case3 | case5 => exact List.suffix_rfl
  | case2 opened closed r ih | case4 opened closed c r _ _ _ ih | case6 opened closed c r _ _ _ ih =>
    exact ih.trans (List.suffix_cons _ r)

theorem addressEnd?_suffix {r : Text} (h : addressEnd? s = some r) : r <:+ s := by
  obtain ⟨u, hu, rfl⟩ := Option.map_eq_some_iff.1 h
  exact (pathEnd_suffix 0 0 u).trans (domainEnd?_suffix hu)

theorem readBareLink?_sound {last : Option Char} {n : Inline} {r : Text} (hs : Plain s)
    (h : readBareLink? last s = some (n, r)) : n.Sound b ∧ r <:+ s := by
  have htake : ∀ n, Plain (s.take n) := fun n => hs.part (List.take_prefix n s).isInfix
  unfold readBareLink? at h
  split at h
  · next after hafter =>
    have hprotocol : after <:+ s := by
      unfold afterProtocol? at hafter
      split at hafter
      · cases hafter
        exact List.drop_suffix 7 s
      · split at hafter
        · cases hafter
          exact List.drop_suffix 8 s
        · cases hafter
    split at h
    · cases h
    · obtain ⟨rest, hrest, e⟩ := Option.bind_eq_some_iff.1 h
      cases e
      exact ⟨.bareLink _ (htake _), (addressEnd?_suffix hrest).trans hprotocol⟩
  · split at h
    · obtain ⟨rest, hrest, e⟩ := Option.bind_eq_some_iff.1 h
      cases e
      exact ⟨.bareLink _ (htake _), addressEnd?_suffix hrest⟩
    · cases h

/-! ## addresses of mail -/

theorem splitMailName?_subset {before rest name : Text} {k : MailKind}
    (h : splitMailName? before = some (rest, name, k)) : rest ⊆ before ∧ name ⊆ ':' :: before := by
  have hname : before.takeWhile inBareMailName ⊆ before := (List.takeWhile_prefix _).subset
  have hrest := List.drop_subset (before.takeWhile inBareMailName).length before
  unfold splitMailName? at h
  dsimp only at h
  generalize before.takeWhile inBareMailName = name' at h hname hrest
  generalize before.drop name'.length = rest' at h hrest
  have hplain : rest' ⊆ before ∧ name' ⊆ ':' :: before := ⟨hrest, List.subset_cons_of_subset _ hname⟩
  split at h
  · cases h
  · split at h
    · next r hr =>
      have hr : r ⊆ before := fun c hc => hrest (List.mem_cons_of_mem _ hc)
      have hprotocol : r.takeWhile Char.isAlphanum ⊆ r := (List.takeWhile_prefix _).subset
      have haddress : name' ++ ':' :: r.takeWhile Char.isAlphanum ⊆ ':' :: before :=
        List.append_subset.2 ⟨hplain.2, List.cons_subset_cons ':' (List.Subset.trans hprotocol hr)⟩
      split at h
      · cases h
        exact ⟨List.Subset.trans (List.drop_subset _ r) hr, haddress⟩
      · split at h
        · cases h
          exact ⟨List.Subset.trans (List.drop_subset _ r) hr, haddress⟩
        · cases h
          exact hplain
    · cases h
      exact hplain

theorem spanMailDomain_eq (slash : Bool) (s : Text) :
    (spanMailDomain slash s).1 ++ (spanMailDomain slash s).2.2 = s := by
  fun_induction spanMailDomain slash s with
  | case1 | case4 => rfl
  | case2 c r _ t ih | case3 c r _ _ t ih => exact congrArg (c :: ·) ih

theorem readMailDomain?_eq {slash : Bool} {domain r : Text}
    (h : readMailDomain? slash s = some (domain, r)) : s = domain ++ r := by
  unfold readMailDomain? at h
  dsimp only at h
  split at h
  · cases h
    exact (spanMailDomain_eq slash s).symm
  · cases h

/-- what an address of mail leaves before itself, what it shows and what it leaves behind itself -/
theorem plain_mailParts {before rest name domain after : Text} {kind k : MailKind}
    (hname : splitMailName? before = some (rest, name, kind))
    (hdomain : readMailDomain? (k = .xmpp) s = some (domain, after)) (hbefore : Plain before)
    (hs : Plain s) :
    Plain rest.reverse ∧ Plain (name.reverse ++ '@' :: domain) ∧ Plain after := by
  obtain ⟨hrest, hsub⟩ := splitMailName?_subset hname
  rw [readMailDomain?_eq hdomain] at hs
  obtain ⟨hdomain, hafter⟩ := plain_append.1 hs
  have hname : Plain name := (hbefore.cons (by decide)).subset hsub
  exact ⟨(hbefore.subset hrest).reverse, hname.reverse.append (hdomain.cons (by decide)), hafter⟩

theorem sound_linkMailFrom (n : Nat) {before : Text} (hbefore : Plain before) (hs : Plain s) :
    SoundInlines b (linkMailFrom n before s) := by
  induction n generalizing before s with
  | zero =>
    rw [linkMailFrom]
    exact sound_textOf (hbefore.reverse.append hs)
  | succ n ih =>
    cases s with
    | nil =>
      rw [linkMailFrom]
      exact sound_textOf hbefore.reverse
    | cons c r =>
      obtain ⟨hc, hr⟩ := plain_cons.1 hs
      rw [linkMailFrom]
      dsimp only
      split
      · next rest shown kind after hfound =>
        split at hfound
        · obtain ⟨⟨rest', name, k⟩, hname, hfound⟩ := Option.bind_eq_some_iff.1 hfound
          obtain ⟨⟨domain, u⟩, hdomain, e⟩ := Option.map_eq_some_iff.1 hfound
          cases e
          obtain ⟨hrest, hshown, hu⟩ := plain_mailParts hname hdomain hbefore hr
          refine (sound_textOf hrest).append (.cons (.bareLink _ hshown) ?_)
          dsimp only
          cases u with
          | nil =>
            rw [linkMailFrom.afterLink]
            exact List.forall_mem_nil _
          | cons d u =>
            obtain ⟨hd, hu⟩ := plain_cons.1 hu
            rw [linkMailFrom.afterLink]
            exact ih (Plain.cons hd List.not_mem_nil) hu
        · cases hfound
      · exact ih (hbefore.cons hc) hr

theorem findMailAll_eq (is : List Inline) : findMailAll is = is.flatMap Inline.findMail := by
  induction is with
  | nil => rfl
  | cons i is ih => rw [findMailAll, List.flatMap_cons, ih]

theorem sound_findMail {i : Inline} (h : i.Sound b) : SoundInlines b i.findMail := by
  have hinner : ∀ {inner : List Inline}, (∀ i ∈ inner, SoundInlines b i.findMail) →
      SoundInlines b (findMailAll inner) := by
    intro inner h i hi
    rw [findMailAll_eq] at hi
    obtain ⟨j, hj, hi⟩ := List.mem_flatMap.1 hi
    exact h j hj i hi
  induction h with
  | text h =>
    rw [Inline.findMail]
    exact sound_linkMailFrom _ List.not_mem_nil h
  | emphasis h ih => exact .one (.emphasis (hinner ih))
  | strong h ih => exact .one (.strong (hinner ih))
  | struck h ih => exact .one (.struck (hinner ih))
  | image destination ht h ih => exact .one (.image destination ht (hinner ih))
  | decoded h => exact .one (.decoded h)
  | softBreak place => exact .one (.softBreak place)
  | hardBreak => exact .one .hardBreak
  | code h => exact .one (.code h)
  | formula h => exact .one (.formula h)
  | html h => exact .one (.html h)
  | link destination ht h => exact .one (.link destination ht h)
  | autolink destination h => exact .one (.autolink destination h)
  | bareLink destination h => exact .one (.bareLink destination h)
  | footnoteCall label => exact .one (.footnoteCall label)
  | checkBox checked => exact .one (.checkBox checked)

theorem sound_findMailAll {is : List Inline} (h : SoundInlines b is) :
    SoundInlines b (findMailAll is) := by
  intro i hi
  rw [findMailAll_eq] at hi
  obtain ⟨j, hj, hi⟩ := List.mem_flatMap.1 hi
  exact sound_findMail (h j hj) i hi

end MarkdownModule.Markdown
