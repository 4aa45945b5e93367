import Stencil.Text.Escape

/-!
# Text of a TOML file

Blanks are spaces and tabs.  A line ends with a line feed, which a carriage return may
precede; a comment reaches to the end of its line.  Basic strings know escapes, literal
strings do not, and both come in a short form on one line and a long form that begins and
ends with three quotes and keeps the ends of its lines as they are.

**Results.**
* `skipBlanks_suffix`, `skipFill_suffix`, `lineEnd?_suffix`: what is skipped is the beginning
  of the text.
* `isRest_string?`, `isRest_key?`: a string and a key are the beginning of the text too, and
  take up at least one character.
* `skipFill_skipFill`: nothing that could be skipped is left in front.
-/

namespace Stencil
namespace Toml

open Text (codePoint? consChar? rest_of_consChar?)

/-- Whether a text is what is left of another one after at least one character was read. -/
structure IsRest (rest cs : List Char) : Prop where
  suffix : rest <:+ cs
  shorter : rest.length < cs.length

namespace IsRest

theorem of_suffix {rest cs : List Char} (h : rest <:+ cs) (c : Char) : IsRest rest (c :: cs) :=
  ⟨h.trans (List.suffix_cons c cs), Nat.lt_succ_of_le h.length_le⟩

theorem cons {rest cs : List Char} (h : IsRest rest cs) (c : Char) : IsRest rest (c :: cs) :=
  .of_suffix h.suffix c

theorem trans_suffix {rest mid cs : List Char} (h : IsRest rest mid) (hmid : mid <:+ cs) :
    IsRest rest cs :=
  ⟨h.suffix.trans hmid, Nat.lt_of_lt_of_le h.shorter hmid.length_le⟩

theorem suffix_trans {rest mid cs : List Char} (hrest : rest <:+ mid) (h : IsRest mid cs) :
    IsRest rest cs :=
  ⟨hrest.trans h.suffix, Nat.lt_of_le_of_lt hrest.length_le h.shorter⟩

theorem of_cons_suffix {c : Char} {rest cs : List Char} (h : c :: rest <:+ cs) :
    IsRest rest cs :=
  (of_suffix (List.suffix_refl rest) c).trans_suffix h

theorem of_consChar? {c : Option Char} {p : Option (List Char × List Char)}
    {q : List Char × List Char} {cs : List Char} (h : consChar? c p = some q)
    (hp : ∀ {r}, p = some r → IsRest r.2 cs) : IsRest q.2 cs :=
  rest_of_consChar? (P := fun rest => IsRest rest cs) h hp

theorem dropWhile {p : Char → Bool} {cs : List Char} (h : cs.takeWhile p ≠ []) :
    IsRest (cs.dropWhile p) cs := by
  refine ⟨List.dropWhile_suffix p, ?_⟩
  have hlen := congrArg List.length (List.takeWhile_append_dropWhile (p := p) (l := cs))
  have hpos := List.length_pos_iff.2 h
  rw [List.length_append] at hlen
  omega

end IsRest

/-! ## Blanks, line ends and comments -/

/-- A space or a tab. -/
def isBlank (c : Char) : Bool :=
  c == ' ' || c == '\t'

/-- Characters that may stand in comments and strings. -/
def isTextChar (c : Char) : Bool :=
  c == '\t' || (0x20 ≤ c.toNat && c.toNat != 0x7F)

def skipBlanks (cs : List Char) : List Char :=
  cs.dropWhile isBlank

theorem skipBlanks_suffix (cs : List Char) : skipBlanks cs <:+ cs :=
  List.dropWhile_suffix isBlank

/-- Skips the end of a line. -/
def lineFeed? : List Char → Option (List Char)
  | '\n' :: cs => some cs
  | '\r' :: '\n' :: cs => some cs
  | _ => none

theorem isRest_lineFeed? {cs rest : List Char} (h : lineFeed? cs = some rest) :
    IsRest rest cs := by
  unfold lineFeed? at h
  split at h
  · cases h
    exact .of_suffix (List.suffix_refl rest) _
  · cases h
    exact .of_suffix (List.suffix_cons _ rest) _
  · cases h

def skipComment : List Char → List Char
  | '#' :: cs => cs.dropWhile isTextChar
  | cs => cs

theorem skipComment_suffix (cs : List Char) : skipComment cs <:+ cs := by
  unfold skipComment
  split
  · exact (List.dropWhile_suffix isTextChar).trans (List.suffix_cons _ _)
  · exact List.suffix_refl _

/-- Skips blanks and a comment to the next line, or to the end of the text. -/
def lineEnd? (cs : List Char) : Option (List Char) :=
  let rest := skipComment (skipBlanks cs)
  if rest = [] then some [] else lineFeed? rest

theorem lineEnd?_suffix {cs rest : List Char} (h : lineEnd? cs = some rest) : rest <:+ cs := by
  simp only [lineEnd?] at h
  split at h
  · cases h
    exact List.nil_suffix
  · exact (isRest_lineFeed? h).suffix.trans
      ((skipComment_suffix _).trans (skipBlanks_suffix cs))

/-- Skips blanks, comments and line ends; `inComment` says where it begins. -/
def skipFill (inComment : Bool) : List Char → List Char
  | [] => []
  | c :: cs =>
      if c = '\n' then skipFill false cs
      else if c = '\r' ∧ cs.head? = some '\n' then skipFill inComment cs
      else if inComment then if isTextChar c then skipFill true cs else c :: cs
      else if isBlank c then skipFill false cs
      else if c = '#' then skipFill true cs
      else c :: cs

theorem skipFill_suffix (inComment : Bool) (cs : List Char) : skipFill inComment cs <:+ cs := by
  fun_induction skipFill inComment cs with
  | case1 => exact List.suffix_refl []
  | case2 _ cs ih | case3 _ _ cs _ _ ih | case4 c cs _ _ _ ih | case6 _ c cs _ _ _ _ ih
  | case7 _ cs _ _ _ _ ih => exact ih.trans (List.suffix_cons _ cs)
  | case5 c cs | case8 _ c cs => exact List.suffix_refl _

/-- Nothing that could be skipped is left in front. -/
theorem skipFill_skipFill (inComment : Bool) (cs : List Char) :
    skipFill false (skipFill inComment cs) = skipFill inComment cs := by
  fun_induction skipFill inComment cs with
  | case1 => rfl
  | case2 _ cs ih | case3 _ _ cs _ _ ih | case4 c cs _ _ _ ih | case6 _ c cs _ _ _ _ ih
  | case7 _ cs _ _ _ _ ih => exact ih
  | case5 c cs hfeed hreturn htext =>
      -- what ends a comment within its line is neither a blank nor the mark of a comment
      have hblank : isBlank c = false := by
        cases h : isBlank c with
        | false => rfl
        | true =>
            refine absurd ?_ htext
            simp only [isBlank, Bool.or_eq_true, beq_iff_eq] at h
            rcases h with rfl | rfl <;> rfl
      have hmark : c ≠ '#' := by
        rintro rfl
        exact htext rfl
      simp [skipFill, hfeed, hreturn, hblank, hmark]
  | case8 _ c cs hfeed hreturn _ hblank hmark => simp [skipFill, hfeed, hreturn, hblank, hmark]

/-! ## Strings -/

def shortEscape? (c : Char) : Option Char :=
  if c = 'b' then some '\x08'
  else if c = 't' then some '\t'
  else if c = 'n' then some '\n'
  else if c = 'f' then some '\x0c'
  else if c = 'r' then some '\r'
  else if c = 'e' then some '\x1b'
  else if c = '"' then some '"'
  else if c = '\\' then some '\\'
  else none

/-- A basic string after its opening quote, and the text after the closing one. -/
def basic? : List Char → Option (List Char × List Char)
  | [] => none
  | c :: cs =>
      if c = '"' then some ([], cs)
      else if c = '\\' then
        match cs with
        | 'x' :: a₁ :: a₂ :: r => consChar? (codePoint? [a₁, a₂]) (basic? r)
        | 'u' :: a₁ :: a₂ :: a₃ :: a₄ :: r =>
            consChar? (codePoint? [a₁, a₂, a₃, a₄]) (basic? r)
        | 'U' :: a₁ :: a₂ :: a₃ :: a₄ :: a₅ :: a₆ :: a₇ :: a₈ :: r =>
            consChar? (codePoint? [a₁, a₂, a₃, a₄, a₅, a₆, a₇, a₈]) (basic? r)
        | d :: r => consChar? (shortEscape? d) (basic? r)
        | [] => none
      else if isTextChar c then consChar? (some c) (basic? cs)
      else none

theorem isRest_basic? {cs : List Char} {p : List Char × List Char} (h : basic? cs = some p) :
    IsRest p.2 cs := by
  fun_induction basic? cs generalizing p with
  | case1 | case7 | case9 => cases h
  | case2 cs =>
      cases h
      exact .of_suffix (List.suffix_refl cs) _
  | case3 a₁ a₂ r _ ih => exact (IsRest.of_consChar? h ih).trans_suffix ⟨[_, _, _, _], rfl⟩
  | case4 a₁ a₂ a₃ a₄ r _ ih =>
      exact (IsRest.of_consChar? h ih).trans_suffix ⟨[_, _, _, _, _, _], rfl⟩
  | case5 a₁ a₂ a₃ a₄ a₅ a₆ a₇ a₈ r _ ih =>
      exact (IsRest.of_consChar? h ih).trans_suffix ⟨[_, _, _, _, _, _, _, _, _, _], rfl⟩
  | case6 d r _ _ _ _ ih => exact (IsRest.of_consChar? h ih).trans_suffix ⟨[_, _], rfl⟩
  | case8 c cs _ _ _ ih => exact (IsRest.of_consChar? h ih).cons c

/-- A literal string after its opening quote, and the text after the closing one. -/
def literal? : List Char → Option (List Char × List Char)
  | [] => none
  | c :: cs =>
      if c = '\x27' then some ([], cs)
      else if isTextChar c then consChar? (some c) (literal? cs)
      else none

theorem isRest_literal? {cs : List Char} {p : List Char × List Char}
    (h : literal? cs = some p) : IsRest p.2 cs := by
  fun_induction literal? cs generalizing p with
  | case1 | case4 => cases h
  | case2 cs =>
      cases h
      exact .of_suffix (List.suffix_refl cs) _
  | case3 c cs _ _ ih => exact (IsRest.of_consChar? h ih).cons c

/-- Where the reading of a long string stands. -/
inductive LongPlace where
  | text
  /-- After a backslash, before the end of its line. -/
  | gap
  /-- On the lines after it, before the next word. -/
  | margin
  deriving DecidableEq

/-- The end of a long string after three quotes: up to two more belong to the string. -/
def closeLong (quote : Char) : List Char → List Char × List Char
  | a :: b :: cs =>
      if a = quote then if b = quote then ([a, b], cs) else ([a], b :: cs) else ([], a :: b :: cs)
  | [a] => if a = quote then ([a], []) else ([], [a])
  | [] => ([], [])

theorem closeLong_suffix (quote : Char) (cs : List Char) : (closeLong quote cs).2 <:+ cs := by
  unfold closeLong
  split
  · split
    · split
      · exact ⟨[_, _], rfl⟩
      · exact List.suffix_cons _ _
    · exact List.suffix_refl _
  · split
    · exact List.nil_suffix
    · exact List.suffix_refl _
  · exact List.suffix_refl _

/-- Whether a character begins an escape. -/
def beginsEscape (hasEscapes : Bool) (c : Char) : Bool :=
  hasEscapes && c == '\\'

/-- A long string after its opening quotes, and the text after the closing ones. -/
def long? (quote : Char) (hasEscapes : Bool) : LongPlace → List Char →
    Option (List Char × List Char)
  | _, [] => none
  | place, c :: cs =>
      if c = '\r' ∧ cs.head? = some '\n' then
        if place = .text then consChar? (some c) (long? quote hasEscapes .text cs)
        else long? quote hasEscapes place cs
      else if place = .gap ∧ isBlank c then long? quote hasEscapes .gap cs
      else if place = .gap then if c = '\n' then long? quote hasEscapes .margin cs else none
      else if place = .margin ∧ (isBlank c ∨ c = '\n') then long? quote hasEscapes .margin cs
      else if c = quote then
        match cs with
        | a :: b :: r =>
            if a = quote ∧ b = quote then some (closeLong quote r)
            else consChar? (some c) (long? quote hasEscapes .text cs)
        | _ => none
      else if beginsEscape hasEscapes c then
        match cs with
        | 'x' :: a₁ :: a₂ :: r => consChar? (codePoint? [a₁, a₂]) (long? quote hasEscapes .text r)
        | 'u' :: a₁ :: a₂ :: a₃ :: a₄ :: r =>
            consChar? (codePoint? [a₁, a₂, a₃, a₄]) (long? quote hasEscapes .text r)
        | 'U' :: a₁ :: a₂ :: a₃ :: a₄ :: a₅ :: a₆ :: a₇ :: a₈ :: r =>
            consChar? (codePoint? [a₁, a₂, a₃, a₄, a₅, a₆, a₇, a₈])
              (long? quote hasEscapes .text r)
        | d :: r =>
            if isBlank d ∨ d = '\n' ∨ d = '\r' then long? quote hasEscapes .gap (d :: r)
            else consChar? (shortEscape? d) (long? quote hasEscapes .text r)
        | [] => none
      else if c = '\n' ∨ isTextChar c then
        consChar? (some c) (long? quote hasEscapes .text cs)
      else none

theorem isRest_long? {quote : Char} {hasEscapes : Bool} {place : LongPlace} {cs : List Char}
    {p : List Char × List Char} (h : long? quote hasEscapes place cs = some p) :
    IsRest p.2 cs := by
  fun_induction long? quote hasEscapes place cs generalizing p with
  | case1 | case6 | case10 | case16 | case18 => cases h
  -- the character belongs to the string
  | case2 c cs _ ih => exact (IsRest.of_consChar? h ih).cons c
  | case9 _ _ a b r _ _ _ _ ih => exact (IsRest.of_consChar? h ih).cons _
  | case17 _ c cs _ _ _ _ _ _ _ ih => exact (IsRest.of_consChar? h ih).cons c
  -- the character is skipped
  | case3 _ c cs _ _ ih => exact (ih h).cons c
  | case4 _ c cs _ _ ih => exact (ih h).cons c
  | case5 cs _ _ ih => exact (ih h).cons _
  | case7 _ c cs _ _ _ _ ih => exact (ih h).cons c
  | case14 _ c _ _ _ _ _ d r _ _ _ _ _ ih => exact (ih h).cons c
  -- the closing quotes
  | case8 _ _ a b r =>
      cases h
      exact .suffix_trans (closeLong_suffix quote r) (.of_suffix ⟨[a, b], rfl⟩ _)
  -- an escape
  | case11 _ c _ _ _ _ _ a₁ a₂ r _ ih =>
      exact (IsRest.of_consChar? h ih).trans_suffix ⟨[_, _, _, _], rfl⟩
  | case12 _ c _ _ _ _ _ a₁ a₂ a₃ a₄ r _ ih =>
      exact (IsRest.of_consChar? h ih).trans_suffix ⟨[_, _, _, _, _, _], rfl⟩
  | case13 _ c _ _ _ _ _ a₁ a₂ a₃ a₄ a₅ a₆ a₇ a₈ r _ ih =>
      exact (IsRest.of_consChar? h ih).trans_suffix ⟨[_, _, _, _, _, _, _, _, _, _], rfl⟩
  | case15 _ c _ _ _ _ _ d r _ _ _ _ _ ih =>
      exact (IsRest.of_consChar? h ih).trans_suffix ⟨[_, _], rfl⟩

/-- A string from its opening quotes on, and the text after it. -/
def string? : List Char → Option (String × List Char)
  | '"' :: '"' :: '"' :: cs =>
      (long? '"' true .text ((lineFeed? cs).getD cs)).map (fun p => (String.ofList p.1, p.2))
  | '\x27' :: '\x27' :: '\x27' :: cs =>
      (long? '\x27' false .text ((lineFeed? cs).getD cs)).map
        (fun p => (String.ofList p.1, p.2))
  | '"' :: cs => (basic? cs).map (fun p => (String.ofList p.1, p.2))
  | '\x27' :: cs => (literal? cs).map (fun p => (String.ofList p.1, p.2))
  | _ => none

theorem isRest_string? {cs : List Char} {p : String × List Char} (h : string? cs = some p) :
    IsRest p.2 cs := by
  -- a line end behind the opening quotes is skipped
  have hopen (cs : List Char) : (lineFeed? cs).getD cs <:+ cs := by
    cases hfeed : lineFeed? cs with
    | none => exact List.suffix_refl cs
    | some rest => exact (isRest_lineFeed? hfeed).suffix
  unfold string? at h
  split at h
  · next cs =>
      obtain ⟨q, hq, rfl⟩ := Option.map_eq_some_iff.1 h
      exact (isRest_long? hq).trans_suffix ((hopen cs).trans ⟨[_, _, _], rfl⟩)
  · next cs =>
      obtain ⟨q, hq, rfl⟩ := Option.map_eq_some_iff.1 h
      exact (isRest_long? hq).trans_suffix ((hopen cs).trans ⟨[_, _, _], rfl⟩)
  · obtain ⟨q, hq, rfl⟩ := Option.map_eq_some_iff.1 h
    exact (isRest_basic? hq).cons _
  · obtain ⟨q, hq, rfl⟩ := Option.map_eq_some_iff.1 h
    exact (isRest_literal? hq).cons _
  · cases h

/-! ## Keys -/

def isKeyChar (c : Char) : Bool :=
  c.isAlphanum || c == '_' || c == '-'

/-- One part of a key; it may be a short string. -/
def keyPart? : List Char → Option (String × List Char)
  | '"' :: cs => (basic? cs).map (fun p => (String.ofList p.1, p.2))
  | '\x27' :: cs => (literal? cs).map (fun p => (String.ofList p.1, p.2))
  | cs =>
      if cs.takeWhile isKeyChar = [] then none
      else some (String.ofList (cs.takeWhile isKeyChar), cs.dropWhile isKeyChar)

theorem isRest_keyPart? {cs : List Char} {p : String × List Char} (h : keyPart? cs = some p) :
    IsRest p.2 cs := by
  unfold keyPart? at h
  split at h
  · obtain ⟨q, hq, rfl⟩ := Option.map_eq_some_iff.1 h
    exact (isRest_basic? hq).cons _
  · obtain ⟨q, hq, rfl⟩ := Option.map_eq_some_iff.1 h
    exact (isRest_literal? hq).cons _
  · split at h
    · cases h
    · next hbare =>
        cases h
        exact .dropWhile hbare

/-- A key with the keys of the tables around it. -/
structure Key where
  lead : List String
  last : String
  deriving DecidableEq

/-- A key of at most so many parts with points between them, and the text after the
blanks behind it. -/
def key? : Nat → List Char → Option (Key × List Char)
  | 0, _ => none
  | parts + 1, cs =>
      (keyPart? (skipBlanks cs)).bind (fun p =>
        match skipBlanks p.2 with
        | '.' :: rest => (key? parts rest).map (fun q => (⟨p.1 :: q.1.lead, q.1.last⟩, q.2))
        | rest => some (⟨[], p.1⟩, rest))

theorem isRest_key? {parts : Nat} {cs : List Char} {p : Key × List Char}
    (h : key? parts cs = some p) : IsRest p.2 cs := by
  induction parts generalizing cs p with
  | zero => cases h
  | succ parts ih =>
      obtain ⟨part, hpart, h⟩ := Option.bind_eq_some_iff.1 h
      have hrest : IsRest (skipBlanks part.2) cs :=
        .suffix_trans (skipBlanks_suffix part.2)
          ((isRest_keyPart? hpart).trans_suffix (skipBlanks_suffix cs))
      split at h
      · next rest heq =>
          rw [heq] at hrest
          obtain ⟨q, hq, rfl⟩ := Option.map_eq_some_iff.1 h
          exact .suffix_trans (((ih hq).cons _).suffix) hrest
      · cases h
        exact hrest

end Toml
end Stencil
