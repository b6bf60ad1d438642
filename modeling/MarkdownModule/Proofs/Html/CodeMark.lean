import MarkdownModule.Html.CodeMark
import MarkdownModule.Proofs.Outcome
import MarkdownModule.Proofs.Text.Cut

/-!
# What marking code changes

Every reader of a tag or of other markup leaves an end of its text.  So a marked document is the
document, piece by piece, but for the start tags of `code`: these are written again with one more
attribute.

* `Html.Tag.read?_suffix`  a tag is followed by an end of the text
* `Html.Marked`            a document, and the same with the attribute set
* `Html.marked_markCode`   what marking code makes of a document
-/

namespace MarkdownModule.Html

/-! ## tags -/

namespace Tag

theorem readQuoted?_suffix {q : Char} {s v rest : Text} (h : readQuoted? q s = some (v, rest)) :
    rest <:+ s := by
  unfold readQuoted? at h
  split at h
  · cases h
  · next e =>
    rw [← (Prod.mk.inj (Option.some.inj h)).2]
    exact (List.suffix_cons _ _).trans (e ▸ List.dropWhile_suffix _)

theorem readValue?_suffix {s v rest : Text} (h : readValue? s = some (v, rest)) : rest <:+ s := by
  unfold readValue? at h
  split at h
  · cases h
  · exact (readQuoted?_suffix h).trans (List.suffix_cons _ _)
  · exact (readQuoted?_suffix h).trans (List.suffix_cons _ _)
  · rw [← (Prod.mk.inj (Option.some.inj h)).2]
    exact List.dropWhile_suffix _

theorem readAttribute?_suffix {c : Char} {r rest : Text} {a : WrittenAttribute}
    (h : readAttribute? c r = some (a, rest)) : rest <:+ r := by
  unfold readAttribute? at h
  dsimp only at h
  have hname := List.dropWhile_suffix (l := r) (fun d => !(endsName d || d = '='))
  have hspace := List.dropWhile_suffix
    (l := r.dropWhile (fun d => !(endsName d || d = '='))) isSpace
  split at h
  · next after e =>
    have hafter : after <:+ r := (List.suffix_cons _ _).trans ((e ▸ hspace).trans hname)
    have hvalue := List.dropWhile_suffix (l := after) isSpace
    split at h
    · next e' =>
      rw [← (Prod.mk.inj (Option.some.inj h)).2]
      exact (e' ▸ hvalue).trans hafter
    · obtain ⟨p, hp, h⟩ := Option.bind_eq_some_iff.1 h
      rw [← (Prod.mk.inj (Option.some.inj h)).2]
      exact (readValue?_suffix hp).trans (hvalue.trans hafter)
  · rw [← (Prod.mk.inj (Option.some.inj h)).2]
    exact hname

theorem readAttributes?_suffix {n : Nat} {s rest : Text} {as : List WrittenAttribute} {b : Bool}
    (h : readAttributes? n s = some (as, b, rest)) : rest <:+ s := by
  induction n generalizing s as b rest with
  | zero => cases h
  | succ n ih =>
    have hspace := List.dropWhile_suffix (l := s) isSpace
    rw [readAttributes?] at h
    split at h
    · cases h
    · next e =>
      rw [← (Prod.mk.inj (Prod.mk.inj (Option.some.inj h)).2).2]
      exact (List.suffix_cons _ _).trans (e ▸ hspace)
    · next e =>
      rw [← (Prod.mk.inj (Prod.mk.inj (Option.some.inj h)).2).2]
      exact (List.suffix_cons _ _).trans ((List.suffix_cons _ _).trans (e ▸ hspace))
    · next e => exact (ih h).trans ((List.suffix_cons _ _).trans (e ▸ hspace))
    · next e =>
      obtain ⟨p, hp, h⟩ := Option.bind_eq_some_iff.1 h
      obtain ⟨q, hq, h⟩ := Option.bind_eq_some_iff.1 h
      rw [← (Prod.mk.inj (Prod.mk.inj (Option.some.inj h)).2).2]
      exact (ih hq).trans ((readAttribute?_suffix hp).trans ((List.suffix_cons _ _).trans (e ▸ hspace)))

theorem read?_suffix {s rest : Text} {t : Tag} (h : read? s = some (t, rest)) : rest <:+ s := by
  obtain ⟨p, hp, h⟩ := Option.bind_eq_some_iff.1 h
  rw [← (Prod.mk.inj (Option.some.inj h)).2]
  exact (readAttributes?_suffix hp).trans (List.dropWhile_suffix _)

end Tag

/-! ## other markup -/

theorem skipComment_suffix (s : Text) : skipComment s <:+ s := by
  have hcut := Text.cutAt_snd_suffix
    (fun t => "-->".toList.isPrefixOf t || "--!>".toList.isPrefixOf t) s
  unfold skipComment
  split
  · exact List.drop_suffix _ _
  split
  · exact List.drop_suffix _ _
  dsimp only
  split
  · exact (List.drop_suffix _ _).trans hcut
  · exact (List.drop_suffix _ _).trans hcut

theorem skipDeclaration_suffix (s : Text) : skipDeclaration s <:+ s :=
  (List.drop_suffix _ _).trans (List.dropWhile_suffix _)

theorem skipBang_suffix (v : Vocabulary) (s : Text) : skipBang v s <:+ s := by
  unfold skipBang
  split
  · exact (skipComment_suffix _).trans (List.drop_suffix _ _)
  split
  · have hcut := Text.cutAt_snd_suffix ("]]>".toList.isPrefixOf ·) (s.drop 7)
    exact (List.drop_suffix _ _).trans (hcut.trans (List.drop_suffix _ _))
  · exact skipDeclaration_suffix s

theorem skipOther?_suffix {v : Vocabulary} {s rest : Text} (h : skipOther? v s = some rest) :
    rest <:+ s := by
  unfold skipOther? at h
  split at h
  · rw [← Option.some.inj h]
    exact (skipBang_suffix v _).trans (List.suffix_cons _ _)
  · rw [← Option.some.inj h]
    exact (skipDeclaration_suffix _).trans (List.suffix_cons _ _)
  · rw [← Option.some.inj h]
    exact (skipDeclaration_suffix _).trans (List.suffix_cons _ _)
  · cases h

theorem Content.cutScript_append (p : ScriptPlace) (s : Text) :
    (cutScript p s).1 ++ (cutScript p s).2 = s := by
  induction s generalizing p with
  | nil => rfl
  | cons c r ih =>
    rw [cutScript]
    split
    · rfl
    · exact congrArg (c :: ·) (ih _)

theorem Content.cut_append (k : Content) (name s : Text) :
    (k.cut name s).1 ++ (k.cut name s).2 = s := by
  cases k with
  | markup => rfl
  | raw => exact Text.cutAt_append _ s
  | script => exact cutScript_append .code s
  | plain => exact List.append_nil s

theorem upTo_append {s rest : Text} (h : rest <:+ s) : upTo s rest ++ rest = s := by
  obtain ⟨a, rfl⟩ := h
  rw [upTo, List.length_append, Nat.add_sub_cancel, List.take_left]

/-! ## documents -/

/-- a document, and the same with its start tags of an element changed; all else is as it was -/
inductive Marked (element : Text) (change : Tag → Tag) : Text → Text → Prop
  | nil : Marked element change [] []
  | copy (a : Text) {s s' : Text} (h : Marked element change s s') :
      Marked element change (a ++ s) (a ++ s')
  | tag {r rest rest' : Text} {t : Tag} (read : Tag.read? r = some (t, rest))
      (name : Text.lower t.name = element) (h : Marked element change rest rest') :
      Marked element change ('<' :: r) ((change t).write ++ rest')

section
variable {element : Text} {change : Tag → Tag}

theorem Marked.rfl (s : Text) : Marked element change s s := by
  have h : Marked element change (s ++ []) (s ++ []) := .copy s .nil
  rwa [List.append_nil] at h

theorem marked_mapTags {n : Nat} {x : Context} {s s' : Text}
    (h : mapTags element change n x s = .ok s') : Marked element change s s' := by
  induction n generalizing x s s' with
  | zero =>
    rw [mapTags] at h
    cases h
    exact .rfl s
  | succ n ih =>
    have hcopy : ∀ {x : Context} {a rest : Text}, a ++ rest = s →
        (mapTags element change n x rest).map (a ++ ·) = .ok s' → Marked element change s s' := by
      intro x a rest e h
      obtain ⟨t, ht, rfl⟩ := ok_of_map h
      rw [← e]
      exact .copy a (ih ht)
    cases s with
    | nil =>
      rw [mapTags] at h
      · cases h
        exact .nil
      · exact nofun
    | cons c r =>
      rw [mapTags] at h
      split at h
      · exact hcopy (a := [c]) rfl h
      next hlt =>
      obtain rfl : c = '<' := Decidable.not_not.1 hlt
      split at h
      · split at h
        · cases h
          exact .rfl _
        next t rest ht =>
        split at h
        · cases h
        next y kind hy =>
        have hcut := kind.cut_append (Text.lower t.name) rest
        generalize kind.cut (Text.lower t.name) rest = content at h hcut
        obtain ⟨more, hmore, h⟩ := ok_of_bind h
        have hrest : Marked element change rest (content.1 ++ more) := by
          have hcopied := Marked.copy content.1 (ih hmore)
          rwa [hcut] at hcopied
        rw [← Except.ok.inj h, List.append_assoc]
        split
        · next hname => exact .tag ht hname hrest
        · have hpiece : '<' :: r = ('<' :: upTo r rest) ++ rest := by
            rw [List.cons_append, upTo_append (Tag.read?_suffix ht)]
          rw [hpiece]
          exact .copy _ hrest
      split at h
      · split at h
        · cases h
          exact .rfl _
        next t rest ht =>
        have hsuffix := (Tag.read?_suffix ht).trans (List.drop_suffix 1 r)
        refine hcopy ?_ h
        rw [List.cons_append, upTo_append hsuffix]
      · split at h
        · exact hcopy (a := ['<']) rfl h
        next rest hrest =>
        refine hcopy ?_ h
        rw [List.cons_append, upTo_append (skipOther?_suffix hrest)]

end

/-- **Marking code changes nothing but the start tags of `code`.** -/
theorem marked_markCode {mark html marked : Text} (h : markCode mark html = .ok marked) :
    Marked "code".toList (·.set mark []) html marked := marked_mapTags h

end MarkdownModule.Html
