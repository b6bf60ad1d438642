import MarkdownModule.Jsx.Convert

/-!
# The pieces of a document

The conversion to JSX reads a document piece by piece: text, comments, declarations, end tags, start
tags, and elements whose content is no markup.  Here the pieces are data.

* `Jsx.flatMap_source_pieces`  the pieces of a document put together are the document
* `Jsx.ofHtml_eq_writePieces`  the document in JSX is what is written for its pieces
-/

namespace MarkdownModule.Jsx

inductive Piece where
  | text (s : Text)
  | comment (s : Text)
  /-- a document type or a processing instruction, from behind its `<` on -/
  | declaration (s : Text)
  | stray
  /-- an end tag, from behind its `</` up to its `>` -/
  | endTag (inside : Text)
  /-- a start tag, from behind its `<` up to its `>` -/
  | startTag (inside : Text)
  /-- a start tag and the content behind it that is no markup -/
  | rawElement (inside content : Text)
  /-- a tag that does not end, from behind its `<` on -/
  | unfinished (s : Text)
deriving DecidableEq

namespace Piece

def source : Piece → Text
  | text s => s
  | comment s => '<' :: s
  | declaration s => '<' :: s
  | stray => ['<']
  | endTag inside => '<' :: '/' :: inside ++ ['>']
  | startTag inside => '<' :: inside ++ ['>']
  | rawElement inside content => '<' :: inside ++ '>' :: content
  | unfinished s => '<' :: s

def nameOf (inside : Text) : Text := inside.takeWhile Html.isNameChar

def bodyOf (inside : Text) : TagBody := .ofText (inside.dropWhile Html.isNameChar)

/-- the name of the start tag that is written for a piece, if one is -/
def startName? : Piece → Option Text
  | startTag inside => some (nameOf inside)
  | rawElement inside _ => some (nameOf inside)
  | _ => none

def written (depth : Nat) : Piece → Text
  | text s => if 0 < depth then writeVerbatim s else writeText s
  | comment _ => []
  | declaration _ => []
  | stray => strayLess
  | endTag inside => writeEndTag (nameOf inside)
  | startTag inside => writeStartTag (nameOf inside) (bodyOf inside)
  | rawElement inside content =>
    writeStartTag (nameOf inside) (bodyOf inside) ++ writeRaw (nameOf inside) content
  | unfinished s => writeText ('<' :: s)

def depthAfter (depth : Nat) : Piece → Nat
  | endTag inside => if Html.isListed verbatimNames (nameOf inside) then depth - 1 else depth
  | startTag inside =>
    if opensElement (nameOf inside) (bodyOf inside) && Html.isListed verbatimNames (nameOf inside)
    then depth + 1 else depth
  | _ => depth

end Piece

/-! ## reading pieces -/

/-- the part of a text before its tail `rest` -/
def before (s rest : Text) : Text := s.take (s.length - rest.length)

/-- whether content that is no markup follows a start tag -/
def holdsRaw (inside : Text) : Bool :=
  opensElement (Piece.nameOf inside) (Piece.bodyOf inside) &&
    Html.isListed rawNames (Piece.nameOf inside)

/-- the content behind a start tag, and the text from its end on -/
def cutContent (inside rest : Text) : Text × Text :=
  Html.cutRawText (Text.lower (Piece.nameOf inside)) rest

def startPiece (inside rest : Text) : Piece :=
  if holdsRaw inside then .rawElement inside (cutContent inside rest).1 else .startTag inside

/-- the piece of a tag, of which `inside` stands between `<` and `>`, before `rest` -/
def tagPiece (inside rest : Text) : Piece :=
  match inside with
  | '/' :: t => .endTag t
  | t => startPiece t rest

def markupPiece (r : Text) : Piece :=
  if "!--".toList.isPrefixOf r then .comment (before r (Html.afterComment r))
  else if r.head? = some '!' || r.head? = some '?' then .declaration (before r (Html.afterTag r))
  else if (nameStart? r).any Char.isAlpha then
    match Html.closeTag r with
    | none => .unfinished r
    | some (inside, rest) => tagPiece inside rest
  else .stray

def pieceAt (c : Char) (r : Text) : Piece :=
  if c = '<' then markupPiece r else .text ((c :: r).takeWhile (· ≠ '<'))

def behind (c : Char) (r : Text) : Text := (step 0 c r).rest

def pieces : Text → List Piece
  | [] => []
  | c :: r => pieceAt c r :: pieces (behind c r)
termination_by s => s.length
decreasing_by exact length_step_rest_lt 0 c r

def writePieces (depth : Nat) : List Piece → Text
  | [] => []
  | p :: ps => p.written depth ++ writePieces (p.depthAfter depth) ps

theorem pieces_nil : pieces [] = [] := by rw [pieces]
theorem pieces_cons (c : Char) (r : Text) : pieces (c :: r) = pieceAt c r :: pieces (behind c r) := by
  rw [pieces]

theorem ofHtmlAt_nil (depth : Nat) : ofHtmlAt depth [] = [] := by rw [ofHtmlAt]
theorem ofHtmlAt_cons (depth : Nat) (c : Char) (r : Text) :
    ofHtmlAt depth (c :: r) =
      (step depth c r).written ++ ofHtmlAt (step depth c r).depth (step depth c r).rest := by
  rw [ofHtmlAt]

/-! ## one piece -/

theorem nameStart?_eq {r : Text} (h : r.head? ≠ some '/') : nameStart? r = r.head? := by
  unfold nameStart?
  split
  · exact absurd rfl h
  · rfl

theorem startTagStep_eq (depth : Nat) (inside rest : Text) :
    startTagStep depth inside rest =
      ⟨(startPiece inside rest).written depth, (startPiece inside rest).depthAfter depth,
        if holdsRaw inside then (cutContent inside rest).2 else rest⟩ := by
  unfold startTagStep startPiece holdsRaw cutContent
  change (if !opensElement (Piece.nameOf inside) (Piece.bodyOf inside) then _ else if
    Html.isListed rawNames (Piece.nameOf inside) then _ else _) = _
  by_cases ho : opensElement (Piece.nameOf inside) (Piece.bodyOf inside) = true
  · by_cases hr : Html.isListed rawNames (Piece.nameOf inside) = true
    · rw [ho, hr]; rfl
    · have hd : (Piece.startTag inside).depthAfter depth =
          if Html.isListed verbatimNames (Piece.nameOf inside) then depth + 1 else depth := by
        simp [Piece.depthAfter, ho]
      rw [ho, Bool.eq_false_iff.2 hr]
      show Step.mk _ _ rest = ⟨_, (Piece.startTag inside).depthAfter depth, rest⟩
      rw [hd]
      rfl
  · have hd : (Piece.startTag inside).depthAfter depth = depth := by
      simp [Piece.depthAfter, ho]
    rw [Bool.eq_false_iff.2 ho]
    show Step.mk _ depth rest = ⟨_, (Piece.startTag inside).depthAfter depth, rest⟩
    rw [hd]
    rfl

theorem tagPiece_of_start {inside : Text} (h : inside.head? ≠ some '/') (rest : Text) :
    tagPiece inside rest = startPiece inside rest := by
  unfold tagPiece
  split
  · exact absurd rfl h
  · rfl

theorem tagStep_of_start {inside : Text} (h : inside.head? ≠ some '/') (depth : Nat)
    (rest : Text) : tagStep depth inside rest = startTagStep depth inside rest := by
  unfold tagStep
  split
  · exact absurd rfl h
  · rfl

theorem tagStep_eq (depth : Nat) (inside rest : Text) :
    tagStep depth inside rest =
      ⟨(tagPiece inside rest).written depth, (tagPiece inside rest).depthAfter depth,
        (tagStep 0 inside rest).rest⟩ := by
  by_cases h : inside.head? = some '/'
  · obtain ⟨t, rfl⟩ := List.head?_eq_some_iff.1 h
    rfl
  · rw [tagPiece_of_start h, tagStep_of_start h, tagStep_of_start h, startTagStep_eq depth,
      startTagStep_eq 0]

theorem markupStep_eq (depth : Nat) (r : Text) :
    markupStep depth r =
      ⟨(markupPiece r).written depth, (markupPiece r).depthAfter depth, (markupStep 0 r).rest⟩ := by
  unfold markupStep markupPiece
  split
  · rfl
  split
  · rfl
  split
  · cases Html.closeTag r with
    | none => rfl
    | some t => exact tagStep_eq depth t.1 t.2
  · rfl

theorem step_eq (depth : Nat) (c : Char) (r : Text) :
    step depth c r =
      ⟨(pieceAt c r).written depth, (pieceAt c r).depthAfter depth, behind c r⟩ := by
  unfold behind step pieceAt
  split
  · exact markupStep_eq depth r
  · rfl

/-! ## all pieces -/

/-- **The document in JSX is what is written for its pieces.** -/
theorem ofHtmlAt_eq_writePieces (depth : Nat) (html : Text) :
    ofHtmlAt depth html = writePieces depth (pieces html) := by
  induction hk : html.length using Nat.strongRecOn generalizing html depth with
  | _ k ih =>
    cases html with
    | nil => rw [ofHtmlAt_nil, pieces_nil]; rfl
    | cons c r =>
      have hl := length_step_rest_lt 0 c r
      rw [ofHtmlAt_cons, pieces_cons, step_eq depth c r, writePieces]
      dsimp only
      rw [ih (behind c r).length (by rw [← hk]; exact hl) _ _ rfl]

theorem ofHtml_eq_writePieces (html : Text) : ofHtml html = writePieces 0 (pieces html) :=
  ofHtmlAt_eq_writePieces 0 html

theorem before_append {s rest : Text} (h : rest <:+ s) : before s rest ++ rest = s := by
  obtain ⟨t, rfl⟩ := h
  unfold before
  rw [List.length_append, Nat.add_sub_cancel, List.take_left']
  rfl

theorem afterComment_suffix (r : Text) : Html.afterComment r <:+ r :=
  ((List.drop_suffix _ _).trans ⟨_, Text.cutAt_append _ _⟩).trans (List.drop_suffix 3 r)

theorem afterTag_suffix (r : Text) : Html.afterTag r <:+ r := by
  unfold Html.afterTag
  cases h : Html.closeTag r with
  | none => exact List.nil_suffix
  | some t => exact ⟨t.1 ++ ['>'], by rw [Html.append_of_closeTag (a := t.1) (b := t.2) h]; simp⟩

theorem source_tagPiece (inside rest : Text) :
    (tagPiece inside rest).source ++ (tagStep 0 inside rest).rest = '<' :: inside ++ '>' :: rest := by
  by_cases h : inside.head? = some '/'
  · obtain ⟨t, rfl⟩ := List.head?_eq_some_iff.1 h
    simp [tagPiece, tagStep, endTagStep, Piece.source]
  · rw [tagPiece_of_start h, tagStep_of_start h, startTagStep_eq, startPiece]
    by_cases hr : holdsRaw inside = true
    · have hc : (cutContent inside rest).1 ++ (cutContent inside rest).2 = rest :=
        Text.cutAt_append _ _
      rw [if_pos hr, if_pos hr]
      simp [Piece.source, hc]
    · rw [if_neg hr, if_neg hr]
      simp [Piece.source]

theorem source_markupPiece (r : Text) :
    (markupPiece r).source ++ (markupStep 0 r).rest = '<' :: r := by
  unfold markupPiece markupStep
  split
  · exact congrArg ('<' :: ·) (before_append (afterComment_suffix r))
  split
  · exact congrArg ('<' :: ·) (before_append (afterTag_suffix r))
  split
  · cases h : Html.closeTag r with
    | none => exact List.append_nil _
    | some t =>
      refine (source_tagPiece t.1 t.2).trans ?_
      rw [Html.append_of_closeTag (a := t.1) (b := t.2) h, List.cons_append]
  · rfl

theorem source_pieceAt (c : Char) (r : Text) : (pieceAt c r).source ++ behind c r = c :: r := by
  unfold pieceAt behind step
  split
  · next h => rw [source_markupPiece, h]
  · exact List.takeWhile_append_dropWhile

/-- **The pieces of a document put together are the document.** -/
theorem flatMap_source_pieces (html : Text) : (pieces html).flatMap Piece.source = html := by
  induction hk : html.length using Nat.strongRecOn generalizing html with
  | _ k ih =>
    cases html with
    | nil => rw [pieces_nil]; rfl
    | cons c r =>
      have hl := length_step_rest_lt 0 c r
      rw [pieces_cons, List.flatMap_cons, ih (behind c r).length (by rw [← hk]; exact hl) _ rfl,
        source_pieceAt]

/-- what holds of the first piece of every document holds of all pieces -/
theorem forall_mem_pieces {P : Piece → Prop} (h : ∀ c r, P (pieceAt c r)) (html : Text) :
    ∀ p ∈ pieces html, P p := by
  induction hk : html.length using Nat.strongRecOn generalizing html with
  | _ k ih =>
    cases html with
    | nil =>
      rw [pieces_nil]
      exact fun p hp => absurd hp List.not_mem_nil
    | cons c r =>
      have hl := length_step_rest_lt 0 c r
      rw [pieces_cons]
      exact List.forall_mem_cons.2
        ⟨h c r, ih (behind c r).length (by rw [← hk]; exact hl) _ rfl⟩

end MarkdownModule.Jsx
