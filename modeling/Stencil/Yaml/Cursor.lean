/-!
# Positions in a YAML text

A cursor is the rest of a text with its position: how many octets and lines lie before
it, and its column in characters.  Blanks are spaces and tabs.  A line ends with a carriage
return, a line feed, both, a next-line character, or a line or paragraph separator; all
but the separators are read as a line feed.

**Results.**
* `Leads.trans`, `Passes.place_lt`: reading goes on, and later places are on a later line or in a
  later column.
* `leads_skip`, `leads_skipWhile`, `leads_moveTo`, `leads_readBreak`, `leads_skipLineRest?`: all
  ways to move count what is read.
-/

namespace Stencil
namespace Yaml

/-- A space or a tab. -/
def isBlank (c : Char) : Bool :=
  c == ' ' || c == '\t'

/-- A line or paragraph separator. -/
def isSeparator (c : Char) : Bool :=
  c.toNat == 0x2028 || c.toNat == 0x2029

/-- A character that ends a line. -/
def isBreak (c : Char) : Bool :=
  c == '\r' || c == '\n' || c.toNat == 0x85 || isSeparator c

/-- A blank or a character that ends a line. -/
def isSpace (c : Char) : Bool :=
  isBlank c || isBreak c

/-- A letter, a digit, an underscore or a hyphen. -/
def isNameChar (c : Char) : Bool :=
  c.isAlphanum || c == '_' || c == '-'

/-- Whether a text is at its end or begins with a blank or the end of a line. -/
def startsWithSpace : List Char → Bool
  | [] => true
  | c :: _ => isSpace c

/-- Characters that may stand in a YAML text. -/
def isAllowed (c : Char) : Bool :=
  let n := c.toNat
  n == 0x09 || n == 0x0A || n == 0x0D || (0x20 ≤ n && n ≤ 0x7E) || n == 0x85 ||
    (0xA0 ≤ n && n ≤ 0xFFFD) || 0x10000 ≤ n

/-- The rest of a text with its position. -/
structure Cursor where
  rest : List Char
  /-- The number of octets before the rest. -/
  index : Nat
  line : Nat
  column : Nat

namespace Cursor

/-- The number of octets of a text. -/
def octetCount (cs : List Char) : Nat :=
  cs.foldl (fun n c => n + c.utf8Size) 0

theorem foldl_add_utf8Size (n : Nat) (cs : List Char) :
    cs.foldl (fun n c => n + c.utf8Size) n = n + octetCount cs := by
  induction cs generalizing n with
  | nil => rfl
  | cons c cs ih =>
      rw [octetCount, List.foldl_cons, List.foldl_cons, ih, ih (0 + c.utf8Size)]
      omega

theorem octetCount_append (as bs : List Char) :
    octetCount (as ++ bs) = octetCount as + octetCount bs := by
  rw [octetCount, List.foldl_append, foldl_add_utf8Size]
  rfl

/-- The beginning of a text. -/
def start (cs : List Char) : Cursor :=
  ⟨cs, 0, 0, 0⟩

/-- Whether one gets from a cursor to another one by reading characters.  All their octets are
counted, and as long as the line is the same they are columns. -/
def Leads (c d : Cursor) : Prop :=
  ∃ taken, c.rest = taken ++ d.rest ∧ d.index = c.index + octetCount taken ∧
    (c.line < d.line ∨ c.line = d.line ∧ d.column = c.column + taken.length)

/-- Whether one gets from a cursor to another one by reading at least one character. -/
structure Passes (c d : Cursor) : Prop where
  leads : c.Leads d
  shorter : d.rest.length < c.rest.length

section

variable {c d e : Cursor}

theorem Leads.refl (c : Cursor) : c.Leads c :=
  ⟨[], rfl, rfl, .inr ⟨rfl, rfl⟩⟩

theorem Leads.trans (h : c.Leads d) (h' : d.Leads e) : c.Leads e := by
  obtain ⟨as, hrest, hindex, hplace⟩ := h
  obtain ⟨bs, hrest', hindex', hplace'⟩ := h'
  refine ⟨as ++ bs, ?_, ?_, ?_⟩
  · rw [hrest, hrest', List.append_assoc]
  · rw [hindex', hindex, octetCount_append, Nat.add_assoc]
  · rw [List.length_append]
    omega

theorem Leads.suffix (h : c.Leads d) : d.rest <:+ c.rest := by
  obtain ⟨taken, hrest, _⟩ := h
  exact ⟨taken, hrest.symm⟩

theorem Leads.trans_passes (h : c.Leads d) (h' : d.Passes e) : c.Passes e :=
  ⟨h.trans h'.leads, Nat.lt_of_lt_of_le h'.shorter h.suffix.length_le⟩

theorem Passes.trans_leads (h : c.Passes d) (h' : d.Leads e) : c.Passes e :=
  ⟨h.leads.trans h', Nat.lt_of_le_of_lt h'.suffix.length_le h.shorter⟩

/-- The next place is on a later line, or in a later column of the same line. -/
theorem Passes.place_lt (h : c.Passes d) :
    c.line < d.line ∨ c.line = d.line ∧ c.column < d.column := by
  obtain ⟨⟨taken, hrest, _, hplace⟩, hshorter⟩ := h
  have hlength := congrArg List.length hrest
  rw [List.length_append] at hlength
  omega

end

/-- Skips characters within a line. -/
def skip (c : Cursor) (n : Nat) : Cursor :=
  ⟨c.rest.drop n, c.index + octetCount (c.rest.take n), c.line, c.column + n⟩

theorem leads_skip {c : Cursor} {n : Nat} (h : n ≤ c.rest.length) : c.Leads (c.skip n) := by
  refine ⟨c.rest.take n, (List.take_append_drop n c.rest).symm, rfl, .inr ⟨rfl, ?_⟩⟩
  rw [List.length_take, Nat.min_eq_left h]
  rfl

theorem passes_skip {c : Cursor} {n : Nat} (hpos : 0 < n) (h : n ≤ c.rest.length) :
    c.Passes (c.skip n) := by
  refine ⟨leads_skip h, ?_⟩
  show (c.rest.drop n).length < c.rest.length
  rw [List.length_drop]
  omega

theorem passes_skip_one {c : Cursor} {x : Char} {rest : List Char} (h : c.rest = x :: rest) :
    c.Passes (c.skip 1) :=
  passes_skip Nat.one_pos (by rw [h]; exact Nat.succ_pos _)

/-- Skips to a later rest of the same line. -/
def moveTo (c : Cursor) (rest : List Char) : Cursor :=
  c.skip (c.rest.length - rest.length)

theorem leads_moveTo (c : Cursor) (rest : List Char) : c.Leads (c.moveTo rest) :=
  leads_skip (Nat.sub_le _ _)

theorem rest_moveTo {c : Cursor} {rest : List Char} (h : rest <:+ c.rest) :
    (c.moveTo rest).rest = rest := by
  obtain ⟨taken, htaken⟩ := h
  show c.rest.drop (c.rest.length - rest.length) = rest
  have hlength : c.rest.length - rest.length = taken.length := by
    rw [← htaken, List.length_append, Nat.add_sub_cancel_right]
  rw [hlength, ← htaken, List.drop_left]

theorem passes_moveTo {c : Cursor} {rest : List Char} (h : rest <:+ c.rest)
    (hshorter : rest.length < c.rest.length) : c.Passes (c.moveTo rest) :=
  ⟨leads_moveTo c rest, by rwa [rest_moveTo h]⟩

def skipWhile (c : Cursor) (p : Char → Bool) : Cursor :=
  c.skip (c.rest.takeWhile p).length

theorem leads_skipWhile (c : Cursor) (p : Char → Bool) : c.Leads (c.skipWhile p) :=
  leads_skip (List.takeWhile_prefix p).length_le

/-- Reads the end of a line: the text it stands for, and the next line. -/
def readBreak (c : Cursor) : List Char × Cursor :=
  match c.rest with
  | '\r' :: '\n' :: rest => (['\n'], ⟨rest, c.index + 2, c.line + 1, 0⟩)
  | x :: rest =>
      if isBreak x then
        ([if isSeparator x then x else '\n'], ⟨rest, c.index + x.utf8Size, c.line + 1, 0⟩)
      else ([], c)
  | [] => ([], c)

theorem passes_readBreak {c : Cursor} {x : Char} {rest : List Char} (h : c.rest = x :: rest)
    (hx : isBreak x = true) : c.Passes c.readBreak.2 := by
  unfold readBreak
  split
  · next rest' heq =>
      refine ⟨⟨['\r', '\n'], heq, rfl, .inl (Nat.lt_succ_self _)⟩, ?_⟩
      rw [heq]
      exact Nat.lt_add_of_pos_right Nat.two_pos
  · next x' rest' _ heq =>
      rw [h] at heq
      cases heq
      rw [if_pos hx]
      refine ⟨⟨[x], h, by simp [octetCount], .inl (Nat.lt_succ_self _)⟩, ?_⟩
      rw [h, List.length_cons]
      exact Nat.lt_succ_self _
  · next heq =>
      rw [h] at heq
      cases heq

/-- Where no line ends, nothing is read. -/
theorem leads_readBreak (c : Cursor) : c.Leads c.readBreak.2 := by
  cases hrest : c.rest with
  | nil =>
      have hstays : c.readBreak.2 = c := by
        unfold readBreak
        rw [hrest]
      rw [hstays]
      exact .refl c
  | cons x rest =>
      cases hx : isBreak x with
      | true => exact (passes_readBreak hrest hx).leads
      | false =>
          have hne : x ≠ '\r' := by
            rintro rfl
            cases hx
          have hstays : c.readBreak.2 = c := by
            unfold readBreak
            rw [hrest]
            simp [hne, hx]
          rw [hstays]
          exact .refl c

def atLineEnd (c : Cursor) : Bool :=
  match c.rest with
  | [] => true
  | x :: _ => isBreak x

/-- Whether the rest begins with a character. -/
def startsWith (c : Cursor) (x : Char) : Bool :=
  c.rest.head? == some x

/-- Whether a line of three equal characters begins here, followed by a blank. -/
def atMarker (c : Cursor) (x : Char) : Bool :=
  c.column == 0 && c.rest.take 3 == [x, x, x] && startsWithSpace (c.rest.drop 3)

/-- Whether a line that separates documents begins here. -/
def atDocumentMarker (c : Cursor) : Bool :=
  c.atMarker '-' || c.atMarker '.'

/-- Skips blanks and a comment up to the end of the line, if nothing else is there. -/
def skipLineRest? (c : Cursor) : Option Cursor :=
  let d := c.skipWhile isBlank
  let e := if d.startsWith '#' then d.skipWhile (fun x => !isBreak x) else d
  if e.atLineEnd then some e.readBreak.2 else none

/-- A comment is skipped up to the end of its line. -/
theorem leads_comment (c : Cursor) :
    c.Leads (if c.startsWith '#' then c.skipWhile (fun x => !isBreak x) else c) := by
  split
  · exact leads_skipWhile c _
  · exact .refl c

theorem leads_skipLineRest? {c d : Cursor} (h : c.skipLineRest? = some d) : c.Leads d := by
  simp only [skipLineRest?, Option.ite_none_right_eq_some, Option.some.injEq] at h
  obtain ⟨_, rfl⟩ := h
  exact (leads_skipWhile c isBlank).trans ((leads_comment _).trans (leads_readBreak _))

end Cursor

end Yaml
end Stencil
