import Stencil.Proofs.Printed
import Stencil.Proofs.Segments

/-!
# Templates on one line

A text that is written on one line as pieces, commands of names and texts that begin no begin
mark, is read as these pieces.  No text needs an escape, no line break is there to be dropped, and
so each piece is one token, as it was written and on the line of all of them.

**Results.**
* `Segment.split_text_append`: a text is one segment up to the next directive.
* `Piece.split_flatMap_source`: pieces on one line are the segments of their text.
* `Piece.ofChars_flatMap_source`: and its tokens.
-/

namespace Stencil

namespace Segment

/-- Characters that begin no begin mark are one literal text up to a directive. -/
theorem split_text_append {m : Marks} {cs rest : List Char} (hne : cs ≠ [])
    (hclear : ∀ c ∈ cs, c ∉ m.opening.head?)
    (hrest : ∀ s ∈ (split m rest).head?, s.isText = false) :
    split m (cs ++ rest) = text cs :: split m rest := by
  induction cs with
  | nil => exact absurd rfl hne
  | cons c cs ih =>
      obtain ⟨hc, hcs⟩ := List.forall_mem_cons.1 hclear
      rw [List.cons_append, split_of_head?_eq_none (head?_eq_none_of_ne hc _)]
      by_cases hnil : cs = []
      · rw [hnil, List.nil_append, consChar_of_isText_eq_false hrest]
      · rw [ih hnil hcs]
        rfl

end Segment

namespace Piece

/-- The segment as which a piece is read. -/
def segment : Piece → Segment
  | text s => .text s.toList
  | command args => .command (" ".intercalate args).toList

/-- The token of a piece on a line. -/
def token (m : Marks) (line : Nat) : Piece → Token
  | text s => ⟨.text s, line⟩
  | command args => ⟨.command args (String.ofList ((command args).segment.source m)), line⟩

/-- Whether pieces can stand on one line as they are: the arguments of commands are names, and
texts are apart and hold neither the begin of a begin mark nor that of a line break. -/
def OnLine (m : Marks) : List Piece → Prop
  | [] => True
  | text s :: ps =>
      (s ≠ "" ∧ ∀ c ∈ s.toList, c ∉ m.opening.head? ∧ c ≠ '\n' ∧ c ≠ '\r') ∧
        NoTextFirst ps ∧ OnLine m ps
  | command args :: ps => (args ≠ [] ∧ ∀ arg ∈ args, IsName arg) ∧ OnLine m ps

variable {m : Marks}

theorem isText_head?_map_segment {ps : List Piece} (h : NoTextFirst ps) :
    ∀ s ∈ (ps.map segment).head?, s.isText = false := by
  intro s hs
  cases ps with
  | nil => cases hs
  | cons p ps =>
      cases hs
      cases p with
      | text s => cases h _ rfl
      | command args => rfl

theorem isBody_of_isName {args : List String} (hne : args ≠ []) (h : ∀ arg ∈ args, IsName arg) :
    IsBody (" ".intercalate args).toList (args.map String.toList) :=
  isBody_intercalate hne (fun arg harg => (h arg harg).isArgument)

/-- **Pieces on one line are read one by one.** -/
theorem split_flatMap_source (hm : m.StopsArguments) {ps : List Piece} (h : OnLine m ps) :
    Segment.split m (ps.flatMap (fun p => p.segment.source m)) = ps.map segment := by
  induction ps with
  | nil =>
      rw [List.flatMap_nil, Segment.split]
      rfl
  | cons p ps ih =>
      rw [List.flatMap_cons, List.map_cons]
      cases p with
      | text s =>
          obtain ⟨⟨hne, hclear⟩, hfirst, hps⟩ := h
          have hrest := isText_head?_map_segment hfirst
          rw [← ih hps] at hrest ⊢
          have hchars : s.toList ≠ [] := by simpa using hne
          exact Segment.split_text_append hchars (fun c hc => (hclear c hc).1) hrest
      | command args =>
          obtain ⟨⟨hne, hargs⟩, hps⟩ := h
          have hhead := (isBody_of_isName hne hargs).head?_command hm
            (ps.flatMap (fun p => p.segment.source m))
          rw [← ih hps]
          exact Segment.split_of_head? hhead

/-- Names with spaces between them hold no line feed. -/
theorem not_mem_intercalate {args : List String} (h : ∀ arg ∈ args, IsName arg) :
    '\n' ∉ (" ".intercalate args).toList := by
  have hname {arg : String} (harg : IsName arg) : '\n' ∉ arg.toList := by
    intro hmem
    have hitem := harg.2 '\n' hmem
    revert hitem
    decide
  induction args with
  | nil => decide
  | cons arg rest ih =>
      obtain ⟨harg, hrest⟩ := List.forall_mem_cons.1 h
      by_cases hnil : rest = []
      · rw [hnil, String.intercalate_singleton]
        exact hname harg
      · rw [String.intercalate_cons_of_ne_nil hnil, String.toList_append, String.toList_append,
          List.mem_append, List.mem_append]
        rintro ((hmem | hmem) | hmem)
        · exact hname harg hmem
        · revert hmem
          decide
        · exact ih hrest hmem

/-- A piece on one line loses nothing, even directly after a command. -/
theorem ofSegment_segment {p : Piece} {ps : List Piece} (h : OnLine m (p :: ps)) (drop : Bool)
    (line : Nat) : Token.ofSegment m drop line p.segment = [p.token m line] := by
  cases p with
  | text s =>
      obtain ⟨⟨hne, hclear⟩, _⟩ := h
      obtain ⟨c, cs, hs⟩ := List.exists_cons_of_ne_nil (show s.toList ≠ [] by simpa using hne)
      have hofList : String.ofList (c :: cs) = s := by rw [← hs, String.ofList_toList]
      have hbreak := splitLineBreak_of_ne (hclear c (by simp [hs])).2 cs
      rw [segment, Token.ofSegment, Token.ofText, hs]
      cases drop with
      | false => simp [lineFeeds, hofList, token]
      | true => simp [lineFeeds, hbreak, hofList, token]
  | command args =>
      obtain ⟨⟨hne, hargs⟩, _⟩ := h
      have hsplit := (isBody_of_isName hne hargs).split_eq
      rw [segment, Token.ofSegment, hsplit, List.map_map]
      simp [token, segment]

theorem OnLine.tail {p : Piece} {ps : List Piece} (h : OnLine m (p :: ps)) : OnLine m ps := by
  cases p with
  | text s => exact h.2.2
  | command args => exact h.2

section Tokens

variable (hopen : '\n' ∉ m.opening) (hclose : '\n' ∉ m.closing)
include hopen hclose

/-- A piece on one line ends no line. -/
theorem lineFeeds_source_segment {p : Piece} {ps : List Piece} (h : OnLine m (p :: ps)) :
    lineFeeds (p.segment.source m) = 0 := by
  refine List.count_eq_zero.2 ?_
  cases p with
  | text s =>
      obtain ⟨⟨_, hclear⟩, _⟩ := h
      intro hmem
      exact (hclear '\n' hmem).2.1 rfl
  | command args =>
      obtain ⟨⟨_, hargs⟩, _⟩ := h
      have hbody := not_mem_intercalate hargs
      simp only [segment, Segment.source, List.mem_append, not_or]
      exact ⟨⟨hopen, hbody⟩, hclose⟩

/-- The tokens of pieces on one line stand for the pieces, all of them on this line. -/
theorem ofSegments_map_segment (trim drop : Bool) (line : Nat) {ps : List Piece}
    (h : OnLine m ps) :
    Token.ofSegments m trim drop line (ps.map segment) = ps.map (token m line) := by
  induction ps generalizing drop with
  | nil => rfl
  | cons p ps ih =>
      rw [List.map_cons, List.map_cons, Token.ofSegments, ofSegment_segment h,
        lineFeeds_source_segment hopen hclose h, Nat.add_zero, ih _ h.tail]
      rfl

/-- **Pieces on one line are read as their tokens.** -/
theorem ofChars_flatMap_source (hm : m.StopsArguments) (trim : Bool) {ps : List Piece}
    (h : OnLine m ps) :
    Token.ofChars m trim (ps.flatMap (fun p => p.segment.source m)) = ps.map (token m 1) := by
  rw [Token.ofChars, split_flatMap_source hm h,
    ofSegments_map_segment hopen hclose trim false 1 h]

end Tokens

end Piece

end Stencil
