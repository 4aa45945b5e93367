import Stencil.Proofs.Forms

/-!
# Reading written texts

What has been written as pieces, texts and commands, is cut into tokens that stand for the
same pieces: each command is read back whole, a text comes back in parts, its begin marks
as escapes, and no part of a text is taken for a directive.

Tokens stand for pieces (`Token.pieces`): texts and escapes in a row are one text.  What
is read of a text does not depend on the line on which it begins, only on whether a
command stands directly before it.

**Results.**
* `readPieces_of_head?`, `readPieces_cons`: a text is read directive by directive and
  character by character.
* `readPieces_protect`: a protected text is read as itself.
* `readPieces_charsOf`: written pieces are read back.
-/

namespace Stencil

namespace Piece

/-- Puts text before pieces, into the first of them if that is a text. -/
def consText (s : String) : List Piece → List Piece
  | .text t :: ps => .text (s ++ t) :: ps
  | ps => .text s :: ps

/-- Puts characters before pieces; no characters leave no text. -/
def prepend (cs : List Char) (ps : List Piece) : List Piece :=
  if cs = [] then ps else consText (String.ofList cs) ps

theorem consText_consText (s t : String) (ps : List Piece) :
    consText s (consText t ps) = consText (s ++ t) ps := by
  cases ps with
  | nil => rfl
  | cons p ps =>
      cases p with
      | text u => simp [consText, String.append_assoc]
      | command args => rfl

@[simp] theorem prepend_nil (ps : List Piece) : prepend [] ps = ps :=
  rfl

theorem prepend_append (as bs : List Char) (ps : List Piece) :
    prepend (as ++ bs) ps = prepend as (prepend bs ps) := by
  by_cases ha : as = []
  · simp [ha]
  by_cases hb : bs = []
  · simp [hb]
  have hab : as ++ bs ≠ [] := by simp [ha]
  rw [prepend, if_neg hab, prepend, if_neg ha, prepend, if_neg hb, consText_consText,
    String.ofList_append]

end Piece

def Token.pieces : List Token → List Piece
  | [] => []
  | ⟨.text s, _⟩ :: ts => Piece.consText s (pieces ts)
  | ⟨.escape mark, _⟩ :: ts => Piece.consText mark (pieces ts)
  | ⟨.comment, _⟩ :: ts => pieces ts
  | ⟨.command args _, _⟩ :: ts => .command args :: pieces ts

/-- The pieces that are read of a segment before those of the rest. -/
def segmentPieces (m : Marks) (drop : Bool) (rest : List Piece) : Segment → List Piece
  | .text chars => Piece.prepend (keptText drop chars) rest
  | .command body => .command ((Argument.split body).map String.ofList) :: rest
  | .escape => Piece.prepend m.opening rest
  | .comment _ => rest

section Reading

variable (m : Marks) (trim : Bool)

theorem pieces_ofSegment_append (drop : Bool) (line : Nat) (s : Segment) (ts : List Token) :
    Token.pieces (Token.ofSegment m drop line s ++ ts) =
      segmentPieces m drop (Token.pieces ts) s := by
  cases s with
  | text chars =>
      simp only [Token.ofSegment, Token.ofText, segmentPieces, keptText, Piece.prepend]
      cases drop with
      | false =>
          by_cases h : chars = []
          · simp [h]
          · simp [h, Token.pieces]
      | true =>
          by_cases h : (splitLineBreak chars).2 = []
          · simp [h]
          · simp [h, Token.pieces]
  | command body => rfl
  | escape =>
      rw [segmentPieces, Piece.prepend, if_neg m.opening_ne_nil]
      rfl
  | comment body => rfl

/-- The line on which a text begins does not matter for its pieces. -/
theorem pieces_ofSegments_line (drop : Bool) (line line' : Nat) (segments : List Segment) :
    Token.pieces (Token.ofSegments m trim drop line segments) =
      Token.pieces (Token.ofSegments m trim drop line' segments) := by
  induction segments generalizing drop line line' with
  | nil => rfl
  | cons s rest ih =>
      rw [Token.ofSegments, Token.ofSegments, pieces_ofSegment_append, pieces_ofSegment_append]
      rw [ih _ (line + lineFeeds (s.source m)) (line' + lineFeeds (s.source m))]

/-- The pieces of segments; `drop` says whether a command stands directly before them. -/
def piecesOfSegments (drop : Bool) (segments : List Segment) : List Piece :=
  Token.pieces (Token.ofSegments m trim drop 1 segments)

theorem piecesOfSegments_cons (drop : Bool) (s : Segment) (rest : List Segment) :
    piecesOfSegments m trim drop (s :: rest) =
      segmentPieces m drop (piecesOfSegments m trim (trim && Token.isCommand s) rest) s := by
  rw [piecesOfSegments, Token.ofSegments, pieces_ofSegment_append, piecesOfSegments]
  rw [pieces_ofSegments_line m trim _ (1 + lineFeeds (s.source m)) 1]

def readPieces (drop : Bool) (cs : List Char) : List Piece :=
  piecesOfSegments m trim drop (Segment.split m cs)

theorem readPieces_nil (drop : Bool) : readPieces m trim drop [] = [] := by
  rw [readPieces, Segment.split]
  rfl

/-- A directive is read first, if there is one. -/
theorem readPieces_of_head? {cs : List Char} {r : Segment × List Char}
    (h : Segment.head? m cs = some r) (drop : Bool) :
    readPieces m trim drop cs =
      segmentPieces m drop (readPieces m trim (trim && Token.isCommand r.1) r.2) r.1 := by
  rw [readPieces, Segment.split_of_head? h, piecesOfSegments_cons, readPieces]

/-- A character before segments is the first of a text. -/
theorem exists_consChar_eq (c : Char) (segments : List Segment) :
    ∃ chars rest, Segment.consChar c segments = .text (c :: chars) :: rest ∧
      piecesOfSegments m trim false segments =
        Piece.prepend chars (piecesOfSegments m trim false rest) := by
  cases segments with
  | nil => exact ⟨[], [], rfl, rfl⟩
  | cons s rest =>
      cases s with
      | text chars =>
          have htext : Token.isCommand (.text chars) = false := rfl
          refine ⟨chars, rest, rfl, ?_⟩
          rw [piecesOfSegments_cons, htext, Bool.and_false]
          rfl
      | command body => exact ⟨[], _, rfl, rfl⟩
      | escape => exact ⟨[], _, rfl, rfl⟩
      | comment body => exact ⟨[], _, rfl, rfl⟩

/-- A character that begins no directive belongs to a text, and only the begin of that
text may be dropped. -/
theorem exists_readPieces_eq {c : Char} {cs : List Char}
    (h : Segment.head? m (c :: cs) = none) :
    ∃ chars ps, readPieces m trim false cs = Piece.prepend chars ps ∧
      ∀ drop, readPieces m trim drop (c :: cs) =
        Piece.prepend (keptText drop (c :: chars)) ps := by
  obtain ⟨chars, rest, hcons, hps⟩ := exists_consChar_eq m trim c (Segment.split m cs)
  have htext : Token.isCommand (.text (c :: chars)) = false := rfl
  refine ⟨chars, piecesOfSegments m trim false rest, hps, fun drop => ?_⟩
  rw [readPieces, Segment.split_of_head?_eq_none h, hcons, piecesOfSegments_cons, htext,
    Bool.and_false]
  rfl

/-- A character that begins no directive is read as itself. -/
theorem readPieces_cons {c : Char} {cs : List Char} (h : Segment.head? m (c :: cs) = none) :
    readPieces m trim false (c :: cs) = Piece.prepend [c] (readPieces m trim false cs) := by
  obtain ⟨chars, ps, hcs, hccs⟩ := exists_readPieces_eq m trim h
  rw [hccs, hcs, ← Piece.prepend_append]
  rfl

/-- A line feed directly after a command is dropped. -/
theorem readPieces_lineFeed {cs : List Char} (h : Segment.head? m ('\n' :: cs) = none) :
    readPieces m trim true ('\n' :: cs) = readPieces m trim false cs := by
  obtain ⟨chars, ps, hcs, hccs⟩ := exists_readPieces_eq m trim h
  rw [hccs, hcs]
  rfl

/-- Text that begins with no line break is kept whole. -/
theorem readPieces_of_not_break {c : Char} {cs : List Char}
    (h : Segment.head? m (c :: cs) = none) (hc : c ≠ '\n' ∧ c ≠ '\r') (drop : Bool) :
    readPieces m trim drop (c :: cs) = readPieces m trim false (c :: cs) := by
  obtain ⟨chars, ps, _, hccs⟩ := exists_readPieces_eq m trim h
  have hkept : keptText drop (c :: chars) = c :: chars := by
    cases drop with
    | false => rfl
    | true =>
        rw [keptText, if_pos rfl, splitLineBreak_of_ne hc]
  rw [hccs, hccs, hkept]
  rfl

end Reading

/-! ## Protected texts -/

section Protected

variable {m : Marks} (hm : m.OpensApart)

/-- Whether a text is over or goes on with a begin mark. -/
def AtMark (m : Marks) (tail : List Char) : Prop :=
  tail = [] ∨ ∃ rest, tail = m.opening ++ rest

/-- The rest of a begin mark behind its first character cannot run over into what is
written behind a text. -/
theorem exists_eq_append_of_protect {c : Char} {cs : List Char} (hopen : m.opening = c :: cs)
    {os : List Char} (hos : c ∉ os) {text tail left : List Char} (htail : AtMark m tail)
    (h : Piece.protect m text ++ tail = os ++ left) : ∃ rest, text = os ++ rest := by
  induction os generalizing text with
  | nil => exact ⟨text, rfl⟩
  | cons o os ih =>
      have ho : o ≠ c := fun he => hos (by simp [he])
      cases text with
      | nil =>
          rw [Piece.protect_nil, List.nil_append] at h
          rcases htail with rfl | ⟨rest, rfl⟩
          · cases h
          · rw [hopen] at h
            exact absurd (List.cons.inj h).1.symm ho
      | cons d ds =>
          cases hd : afterMark? m.opening (d :: ds) with
          | some rest =>
              rw [Piece.protect_of_afterMark? hd, Segment.source, hopen] at h
              exact absurd (List.cons.inj h).1.symm ho
          | none =>
              rw [Piece.protect_cons hd, List.cons_append, List.cons_append] at h
              have hhead : d = o := (List.cons.inj h).1
              obtain ⟨rest, hrest⟩ := ih (fun hmem => hos (by simp [hmem])) (List.cons.inj h).2
              exact ⟨rest, by rw [hhead, hrest, List.cons_append]⟩

include hm

/-- No directive begins at a character of a text that begins no begin mark. -/
theorem head?_protect_cons {c : Char} {cs tail : List Char}
    (h : afterMark? m.opening (c :: cs) = none) (htail : AtMark m tail) :
    Segment.head? m (c :: (Piece.protect m cs ++ tail)) = none := by
  obtain ⟨o, os, hopen, _, _, _, hos⟩ := hm
  have hmark : afterMark? m.opening (c :: (Piece.protect m cs ++ tail)) = none := by
    cases hr : afterMark? m.opening (c :: (Piece.protect m cs ++ tail)) with
    | none => rfl
    | some left =>
        have heq := afterMark?_eq_some_iff.1 hr
        rw [hopen, List.cons_append] at heq
        have hhead : c = o := (List.cons.inj heq).1
        obtain ⟨rest, hrest⟩ := exists_eq_append_of_protect hopen hos htail (List.cons.inj heq).2
        have hsome : afterMark? m.opening (c :: cs) = some rest := by
          rw [afterMark?_eq_some_iff, hopen, hhead, hrest, List.cons_append]
        rw [hsome] at h
        cases h
  rw [Segment.head?, hmark]
  rfl

/-- **A protected text is read as itself.** -/
theorem readPieces_protect (trim : Bool) (text : List Char) {tail : List Char}
    (htail : AtMark m tail) :
    readPieces m trim false (Piece.protect m text ++ tail) =
      Piece.prepend text (readPieces m trim false tail) := by
  fun_induction Piece.protect m text with
  | case1 => rfl
  | case2 c cs rest h ih =>
      have hsource := afterMark?_eq_some_iff.1 h
      rw [List.append_assoc, readPieces_of_head? m trim (hm.opensNoArgument.head?_escape _),
        hsource, Piece.prepend_append]
      simp only [Token.isCommand, Bool.and_false, segmentPieces]
      rw [ih]
  | case3 c cs h ih =>
      rw [List.cons_append, readPieces_cons m trim (head?_protect_cons hm h htail), ih,
        ← Piece.prepend_append]
      rfl

end Protected

/-! ## Written pieces -/

/-- Whether pieces do not begin with a text. -/
def Piece.NoTextFirst (ps : List Piece) : Prop :=
  ∀ p ∈ ps.head?, p.isCommand = true

/-- Whether pieces can be read back: commands have arguments, and texts are neither empty
nor in a row. -/
def Piece.Readable : List Piece → Prop
  | [] => True
  | .text s :: ps => s ≠ "" ∧ NoTextFirst ps ∧ Readable ps
  | .command args :: ps =>
      args ≠ [] ∧ (∀ arg ∈ args, IsArgument arg.toList) ∧ Readable ps

/-- Arguments with one space between them are a body. -/
theorem isBody_intercalate {args : List String} (hne : args ≠ [])
    (h : ∀ arg ∈ args, IsArgument arg.toList) :
    IsBody (" ".intercalate args).toList (args.map String.toList) := by
  induction args with
  | nil => exact absurd rfl hne
  | cons arg rest ih =>
      have harg : IsArgument arg.toList := h arg (by simp)
      by_cases hrest : rest = []
      · rw [hrest, String.intercalate_singleton]
        exact .single harg
      · rw [String.intercalate_cons_of_ne_nil hrest, String.toList_append, String.toList_append]
        exact .more harg (by simp) (by simp [Text.isBlank])
          (ih hrest (fun a ha => h a (by simp [ha])))

section Pieces

variable {m : Marks} (hm : m.OpensApart) (hc : m.ClosesApart) (trim : Bool)

/-- Behind a text the writing is over or goes on with a begin mark. -/
theorem atMark_charsOf {ps : List Piece} (h : Piece.NoTextFirst ps) (after : Bool) :
    AtMark m (Piece.charsOf m trim after ps) := by
  cases ps with
  | nil => exact Or.inl rfl
  | cons p ps =>
      cases p with
      | text s => cases h (.text s) rfl
      | command args =>
          refine Or.inr ⟨(" ".intercalate args).toList ++ m.closing ++
            Piece.charsOf m trim true ps, ?_⟩
          simp [Piece.charsOf, Piece.chars, Piece.isCommand]

include hm

theorem head?_lineFeed (cs : List Char) : Segment.head? m ('\n' :: cs) = none := by
  obtain ⟨c, os, hopen, _, _, hline, _⟩ := hm
  refine Segment.head?_eq_none_of_ne ?_ cs
  rw [hopen]
  simp [hline]

/-- A text that is written after a command loses no line break of its own. -/
theorem readPieces_text (after : Bool) (text : List Char) {tail : List Char}
    (htail : AtMark m tail) (hne : text ≠ []) :
    readPieces m trim (trim && after)
        (Piece.spare trim after text ++ Piece.protect m text ++ tail) =
      Piece.prepend text (readPieces m trim false tail) := by
  rw [← readPieces_protect hm trim text htail]
  cases hd : trim && after with
  | false =>
      rw [Piece.spare, hd, Bool.false_and]
      rfl
  | true =>
      cases hbreak : (splitLineBreak text).1.isEmpty with
      | false =>
          rw [Piece.spare, hd, hbreak]
          exact readPieces_lineFeed m trim (head?_lineFeed hm _)
      | true =>
          rw [Piece.spare, hd, hbreak]
          cases text with
          | nil => exact absurd rfl hne
          | cons c cs =>
              simp only [Bool.not_true, Bool.and_false, Bool.false_eq_true, if_false,
                List.nil_append]
              cases hmark : afterMark? m.opening (c :: cs) with
              | some rest =>
                  rw [Piece.protect_of_afterMark? hmark, List.append_assoc,
                    readPieces_of_head? m trim (hm.opensNoArgument.head?_escape _),
                    readPieces_of_head? m trim (hm.opensNoArgument.head?_escape _)]
                  rfl
              | none =>
                  have hc : c ≠ '\n' ∧ c ≠ '\r' :=
                    ne_of_fst_splitLineBreak (List.isEmpty_iff.1 hbreak)
                  rw [Piece.protect_cons hmark, List.cons_append]
                  exact readPieces_of_not_break m trim (head?_protect_cons hm hmark htail) hc true

include hc

/-- **Written pieces are read back.** -/
theorem readPieces_charsOf {ps : List Piece} (h : Piece.Readable ps) (after : Bool) :
    readPieces m trim (trim && after) (Piece.charsOf m trim after ps) = ps := by
  induction ps generalizing after with
  | nil => exact readPieces_nil m trim _
  | cons p ps ih =>
      cases p with
      | text s =>
          obtain ⟨hne, hnext, hrest⟩ := h
          have hs : s.toList ≠ [] := by simpa using hne
          have htail := ih hrest false
          rw [Bool.and_false] at htail
          rw [Piece.charsOf, Piece.chars, Piece.isCommand,
            readPieces_text hm trim after s.toList (atMark_charsOf trim hnext false) hs, htail,
            Piece.prepend, if_neg hs, String.ofList_toList]
          cases ps with
          | nil => rfl
          | cons q qs =>
              cases q with
              | text t => cases hnext (.text t) rfl
              | command args => rfl
      | command args =>
          obtain ⟨hne, hargs, hrest⟩ := h
          have hbody := isBody_intercalate hne hargs
          have hhead := hbody.head?_command hc.stopsArguments (Piece.charsOf m trim true ps)
          have hrec : readPieces m trim (trim && true) (Piece.charsOf m trim true ps) = ps :=
            ih hrest true
          rw [Piece.charsOf, Piece.chars, Piece.isCommand, readPieces_of_head? m trim hhead]
          simp only [Token.isCommand, segmentPieces, hrec, hbody.split_eq, List.map_map]
          simp

end Pieces

end Stencil
