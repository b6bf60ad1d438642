import MarkdownModule.Text.Blank

/-!
# The attributes of a tag

`Html.readAttributes` splits what stands between the name and the end of a tag into attributes.
Spaces and slashes separate them; a value is quoted, or lasts to the next space.
-/

namespace MarkdownModule.Html

/-- an attribute as it is written; its value is absent when it has no `=` -/
structure Attribute where
  name : Text
  value : Option Text
deriving DecidableEq

def separatesAttributes (c : Char) : Bool := isSpace c || c = '/'

def isAttributeNameChar (c : Char) : Bool := !isSpace c && c ≠ '=' && c ≠ '/'

/-- the value after an `=`, and the text after it -/
def readAttributeValue (s : Text) : Text × Text :=
  match s.dropWhile isSpace with
  | '"' :: r => (r.takeWhile (· ≠ '"'), (r.dropWhile (· ≠ '"')).drop 1)
  | '\'' :: r => (r.takeWhile (· ≠ '\''), (r.dropWhile (· ≠ '\'')).drop 1)
  | r => (r.takeWhile (!isSpace ·), r.dropWhile (!isSpace ·))

theorem length_readAttributeValue_le (s : Text) : (readAttributeValue s).2.length ≤ s.length := by
  have h := (List.dropWhile_suffix (l := s) isSpace).length_le
  unfold readAttributeValue
  split
  · next r e =>
    have h' := (List.dropWhile_suffix (l := r) (· ≠ '"')).length_le
    simp only [e, List.length_cons, List.length_drop] at h ⊢; omega
  · next r e =>
    have h' := (List.dropWhile_suffix (l := r) (· ≠ '\'')).length_le
    simp only [e, List.length_cons, List.length_drop] at h ⊢; omega
  · have h' := (List.dropWhile_suffix (l := s.dropWhile isSpace) (!isSpace ·)).length_le
    exact Nat.le_trans h' h

def readAttribute (s : Text) : Attribute × Text :=
  let name := s.takeWhile isAttributeNameChar
  let rest := s.dropWhile isAttributeNameChar
  match rest.dropWhile isSpace with
  | '=' :: r => (⟨name, some (readAttributeValue r).1⟩, (readAttributeValue r).2)
  | _ => (⟨name, none⟩, rest)

theorem length_readAttribute_lt {c : Char} (s : Text) (h : separatesAttributes c = false) :
    (readAttribute (c :: s)).2.length < (c :: s).length := by
  have hd := (List.dropWhile_suffix (l := (c :: s).dropWhile isAttributeNameChar) isSpace).length_le
  have hn := (List.dropWhile_suffix (l := (c :: s)) isAttributeNameChar).length_le
  unfold readAttribute
  dsimp only
  split
  · next r e =>
    have h' := length_readAttributeValue_le r
    simp only [e, List.length_cons] at hd hn ⊢; omega
  · next e =>
    by_cases hc : isAttributeNameChar c = true
    · have h' := (List.dropWhile_suffix (l := s) isAttributeNameChar).length_le
      simp only [List.dropWhile_cons, hc, if_true, List.length_cons]; omega
    · exfalso
      simp only [separatesAttributes, Bool.or_eq_false_iff, decide_eq_false_iff_not] at h
      have he : c = '=' := by
        by_cases hq : c = '='
        · exact hq
        · exact absurd (by simp [isAttributeNameChar, h.1, h.2, hq]) hc
      subst he
      exact e s (by simp [isAttributeNameChar, isSpace])

def readAttributes : Text → List Attribute
  | [] => []
  | c :: r =>
    if _h : separatesAttributes c then readAttributes r
    else (readAttribute (c :: r)).1 :: readAttributes (readAttribute (c :: r)).2
termination_by s => s.length
decreasing_by
  · simp
  · exact length_readAttribute_lt r (Bool.eq_false_iff.2 ‹_›)

end MarkdownModule.Html
