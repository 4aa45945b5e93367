import Stencil.Yaml.Scalar

/-!
# Tokens of a YAML text

Besides scalars, names and indicators there are tokens for what indentation says: the
beginning of a block collection and the end of a block.  A key before a colon is only
known to be one when the colon comes; then its tokens are put in front of it.

A `Scanner` reads one token after the other.  Tokens wait in a queue while one of them
may still turn out to be a key, and are released from it in order.
-/

namespace Stencil
namespace Yaml

/-- A token of a YAML text. -/
inductive Token where
  | streamEnd
  | version (major minor : Nat)
  | tagHandle (handle lead : List Char)
  | documentStart
  | documentEnd
  | blockSequence
  | blockMapping
  | blockEnd
  | openSequence
  | closeSequence
  | openMapping
  | closeMapping
  | blockEntry
  | flowEntry
  | key
  | value
  | alias (name : List Char)
  | anchor (name : List Char)
  | tag (handle suffix : List Char)
  | scalar (text : List Char) (isPlain : Bool)
  deriving DecidableEq

/-! ## Names, tags and document headers -/

/-- A decimal number of at most nine digits, and the text after it. -/
def versionPart? (cs : List Char) : Option (Nat × List Char) :=
  let digits := cs.takeWhile Char.isDigit
  if digits = [] ∨ digits.length > 9 then none
  else some (Decimal.ofDigits 0 digits, cs.dropWhile Char.isDigit)

theorem suffix_of_versionPart? {cs : List Char} {p : Nat × List Char}
    (h : versionPart? cs = some p) : p.2 <:+ cs := by
  simp only [versionPart?, Option.ite_none_left_eq_some, Option.some.injEq] at h
  obtain ⟨_, rfl⟩ := h
  exact List.dropWhile_suffix _

/-- The name after an ampersand or an asterisk; a space or an indicator must follow it. -/
def name? (c : Cursor) : Option (List Char × Cursor) :=
  let name := (c.skip 1).rest.takeWhile isNameChar
  let d := c.skip (name.length + 1)
  let isEnd := startsWithSpace d.rest ||
    (match d.rest with
      | x :: _ => ['?', ':', ',', ']', '\x7d', '%', '@', '\x60'].contains x
      | [] => true)
  if name ≠ [] ∧ isEnd then some (name, d) else none

theorem passes_name? {c : Cursor} {p : List Char × Cursor} (h : name? c = some p) :
    c.Passes p.2 := by
  simp only [name?, Option.ite_none_right_eq_some, Option.some.injEq] at h
  obtain ⟨⟨hname, _⟩, rfl⟩ := h
  have hle := (List.takeWhile_prefix (p := isNameChar) (l := (c.skip 1).rest)).length_le
  have hpos := List.length_pos_iff.2 hname
  have hlength : (c.skip 1).rest.length = c.rest.length - 1 := List.length_drop
  exact Cursor.passes_skip (Nat.succ_pos _) (by omega)

/-- The handle of a tag: an exclamation mark, or a name between two of them.  A text that
is no handle is given back with what was read of it. -/
def tagHandle (cs : List Char) : List Char × List Char :=
  let name := (cs.drop 1).takeWhile isNameChar
  let rest := (cs.drop 1).dropWhile isNameChar
  match rest with
  | '!' :: r => ('!' :: name ++ ['!'], r)
  | r => ('!' :: name, r)

theorem suffix_tagHandle (cs : List Char) : (tagHandle cs).2 <:+ cs.drop 1 := by
  have hname : (cs.drop 1).dropWhile isNameChar <:+ cs.drop 1 := List.dropWhile_suffix _
  simp only [tagHandle]
  split
  · next r heq => exact (List.suffix_cons _ r).trans (heq ▸ hname)
  · exact hname

/-- Characters of a tag; in angle brackets and headers also indicators. -/
def isTagChar (isWide : Bool) (c : Char) : Bool :=
  isNameChar c ||
    [';', '/', '?', ':', '@', '&', '=', '+', '$', '.', '!', '~', '*', '\x27', '(',
      ')'].contains c ||
    (isWide && [',', '[', ']'].contains c)

/-- The length of an encoded character by its first octet. -/
def octets? (n : Nat) : Option Nat :=
  if n < 0x80 then some 1
  else if 0xC0 ≤ n ∧ n < 0xE0 then some 2
  else if 0xE0 ≤ n ∧ n < 0xF0 then some 3
  else if 0xF0 ≤ n ∧ n < 0xF8 then some 4
  else none

/-- How many octets an escaped character lacks after one more. -/
def stillMissing? (missing octet : Nat) : Option Nat :=
  if missing = 0 then (octets? octet).map (· - 1)
  else if 0x80 ≤ octet ∧ octet < 0xC0 then some (missing - 1)
  else none

/-- The characters of a tag, an escaped octet standing for itself; `missing` counts the
octets that an escaped character still lacks. -/
def tagChars? (isWide : Bool) (missing : Nat) : List Char → Option (List Char × List Char)
  | [] => if missing = 0 then some ([], []) else none
  | '%' :: a :: b :: cs =>
      (Decimal.natural? 16 [a, b]).bind (fun octet =>
        (stillMissing? missing octet).bind (fun m =>
          (tagChars? isWide m cs).map (fun p => (Char.ofNat octet :: p.1, p.2))))
  | c :: cs =>
      if missing ≠ 0 ∨ c = '%' then none
      else if isTagChar isWide c then
        (tagChars? isWide 0 cs).map (fun p => (c :: p.1, p.2))
      else some ([], c :: cs)

theorem suffix_of_tagChars? {isWide : Bool} {missing : Nat} {cs : List Char}
    {p : List Char × List Char} (h : tagChars? isWide missing cs = some p) : p.2 <:+ cs := by
  fun_induction tagChars? isWide missing cs generalizing p with
  | case1 | case6 =>
      cases h
      exact List.suffix_refl _
  | case2 | case4 => cases h
  | case3 missing a b cs ih =>
      obtain ⟨octet, _, h⟩ := Option.bind_eq_some_iff.1 h
      obtain ⟨m, _, h⟩ := Option.bind_eq_some_iff.1 h
      obtain ⟨q, hq, rfl⟩ := Option.map_eq_some_iff.1 h
      exact (ih m hq).trans ⟨[_, _, _], rfl⟩
  | case5 missing c cs _ _ _ ih =>
      obtain ⟨q, hq, rfl⟩ := Option.map_eq_some_iff.1 h
      exact (ih hq).trans (List.suffix_cons c cs)

/-- What counts of a tag: nothing from a null character on. -/
def tagText (cs : List Char) : List Char :=
  cs.takeWhile (fun c => c.toNat != 0)

/-- A tag in angle brackets, after the opening one. -/
def verbatimTag? (cs : List Char) : Option (Token × List Char) :=
  (tagChars? true 0 cs).bind (fun p =>
    match p.1, p.2 with
    | _ :: _, '>' :: rest => some (.tag [] (tagText p.1), rest)
    | _, _ => none)

theorem suffix_of_verbatimTag? {cs : List Char} {p : Token × List Char}
    (h : verbatimTag? cs = some p) : p.2 <:+ cs := by
  obtain ⟨q, hq, h⟩ := Option.bind_eq_some_iff.1 h
  split at h
  · next rest _ heq =>
      cases h
      have hsuffix := suffix_of_tagChars? hq
      rw [heq] at hsuffix
      exact (List.suffix_cons _ _).trans hsuffix
  · cases h

/-- A tag that begins with an exclamation mark. -/
def shortTag? (cs : List Char) : Option (Token × List Char) :=
  let h := tagHandle cs
  if h.1.length > 1 ∧ h.1.getLast? = some '!' then
    (tagChars? false 0 h.2).bind (fun p =>
      if p.1 = [] then none else some (.tag h.1 (tagText p.1), p.2))
  else
    (tagChars? false 0 h.2).map (fun p =>
      let suffix := h.1.drop 1 ++ tagText p.1
      (if suffix = [] then .tag [] ['!'] else .tag ['!'] suffix, p.2))

theorem suffix_of_shortTag? {cs : List Char} {p : Token × List Char}
    (h : shortTag? cs = some p) : p.2 <:+ cs.drop 1 := by
  have hhandle := suffix_tagHandle cs
  simp only [shortTag?] at h
  split at h
  · obtain ⟨q, hq, h⟩ := Option.bind_eq_some_iff.1 h
    split at h
    · cases h
    · cases h
      exact (suffix_of_tagChars? hq).trans hhandle
  · obtain ⟨q, hq, rfl⟩ := Option.map_eq_some_iff.1 h
    exact (suffix_of_tagChars? hq).trans hhandle

/-- A tag; a space must follow it, or in a flow collection a comma. -/
def tag? (inFlow : Bool) (c : Cursor) : Option (Token × Cursor) :=
  (match (c.rest.drop 1) with
    | '<' :: cs => verbatimTag? cs
    | _ => shortTag? c.rest).bind (fun p =>
      if startsWithSpace p.2 || (inFlow && p.2.head? == some ',') then some (p.1, c.moveTo p.2)
      else none)

theorem passes_tag? {inFlow : Bool} {c : Cursor} {p : Token × Cursor} {x : Char}
    {rest : List Char} (h : tag? inFlow c = some p) (hrest : c.rest = x :: rest) :
    c.Passes p.2 := by
  obtain ⟨q, hq, h⟩ := Option.bind_eq_some_iff.1 h
  have hsuffix : q.2 <:+ c.rest.drop 1 := by
    split at hq
    · next cs heq =>
        rw [heq]
        exact (suffix_of_verbatimTag? hq).trans (List.suffix_cons _ cs)
    · exact suffix_of_shortTag? hq
  rw [hrest, List.drop_succ_cons, List.drop_zero] at hsuffix
  have hmove : c.Passes (c.moveTo q.2) := by
    refine Cursor.passes_moveTo ?_ ?_
    · rw [hrest]
      exact hsuffix.trans (List.suffix_cons x rest)
    · rw [hrest]
      exact Nat.lt_succ_of_le hsuffix.length_le
  split at h
  · cases h
    exact hmove
  · cases h

def versionHeader? (cs : List Char) : Option (Token × List Char) :=
  (versionPart? (cs.dropWhile isBlank)).bind (fun p =>
    match p.2 with
    | '.' :: r => (versionPart? r).map (fun q => (.version p.1 q.1, q.2))
    | _ => none)

theorem suffix_of_versionHeader? {cs : List Char} {p : Token × List Char}
    (h : versionHeader? cs = some p) : p.2 <:+ cs := by
  obtain ⟨q, hq, h⟩ := Option.bind_eq_some_iff.1 h
  have hmajor := (suffix_of_versionPart? hq).trans (List.dropWhile_suffix _)
  split at h
  · next r heq =>
      obtain ⟨q', hq', rfl⟩ := Option.map_eq_some_iff.1 h
      rw [heq] at hmajor
      exact (suffix_of_versionPart? hq').trans ((List.suffix_cons _ r).trans hmajor)
  · cases h

def tagHeader? (cs : List Char) : Option (Token × List Char) :=
  let start := cs.dropWhile isBlank
  if start.head? ≠ some '!' then none
  else
    let h := tagHandle start
    if h.1.length > 1 ∧ h.1.getLast? ≠ some '!' then none
    else
      match h.2 with
      | x :: _ =>
          if isBlank x then
            (tagChars? true 0 (h.2.dropWhile isBlank)).bind (fun p =>
              if p.1 = [] ∨ ¬ startsWithSpace p.2 then none
              else some (.tagHandle h.1 (tagText p.1), p.2))
          else none
      | [] => none

theorem suffix_of_tagHeader? {cs : List Char} {p : Token × List Char}
    (h : tagHeader? cs = some p) : p.2 <:+ cs := by
  have hhandle : (tagHandle (cs.dropWhile isBlank)).2 <:+ cs :=
    (suffix_tagHandle _).trans ((List.drop_suffix 1 _).trans (List.dropWhile_suffix _))
  simp only [tagHeader?] at h
  split at h
  · cases h
  split at h
  · cases h
  split at h
  · split at h
    · obtain ⟨q, hq, h⟩ := Option.bind_eq_some_iff.1 h
      split at h
      · cases h
      · cases h
        exact (suffix_of_tagChars? hq).trans ((List.dropWhile_suffix _).trans hhandle)
    · cases h
  · cases h

/-- A header before a document: a percent sign, a name and its value on one line. -/
def header? (c : Cursor) : Option (Token × Cursor) :=
  let name := (c.skip 1).rest.takeWhile isNameChar
  let rest := (c.skip 1).rest.dropWhile isNameChar
  if ¬ startsWithSpace rest then none
  else
    (if name = ['Y', 'A', 'M', 'L'] then versionHeader? rest
      else if name = ['T', 'A', 'G'] then tagHeader? rest
      else none).bind (fun p =>
        ((c.moveTo p.2).skipLineRest?).map (fun d => (p.1, d)))

theorem passes_header? {c : Cursor} {p : Token × Cursor} {x : Char} {rest : List Char}
    (h : header? c = some p) (hrest : c.rest = x :: rest) : c.Passes p.2 := by
  have hskip := Cursor.passes_skip_one hrest
  have hname : (c.skip 1).rest.dropWhile isNameChar <:+ (c.skip 1).rest :=
    List.dropWhile_suffix _
  simp only [header?] at h
  split at h
  · cases h
  obtain ⟨q, hq, h⟩ := Option.bind_eq_some_iff.1 h
  obtain ⟨d, hd, rfl⟩ := Option.map_eq_some_iff.1 h
  have hsuffix : q.2 <:+ (c.skip 1).rest := by
    split at hq
    · exact (suffix_of_versionHeader? hq).trans hname
    split at hq
    · exact (suffix_of_tagHeader? hq).trans hname
    · cases hq
  have hmove : c.Passes (c.moveTo q.2) :=
    Cursor.passes_moveTo (hsuffix.trans hskip.leads.suffix)
      (Nat.lt_of_le_of_lt hsuffix.length_le hskip.shorter)
  exact hmove.trans_leads (Cursor.leads_skipLineRest? hd)

/-! ## The scanner -/

/-- A token that may turn out to be a key. -/
structure KeyCandidate where
  /-- The number of the token. -/
  number : Nat
  /-- Whether nothing but a key may stand here. -/
  isRequired : Bool
  index : Nat
  line : Nat
  column : Nat

/-- The state between two tokens. -/
structure Scanner where
  cursor : Cursor
  /-- The tokens that were read and not released, in order. -/
  queue : List Token := []
  /-- The number of released tokens. -/
  released : Nat := 0
  /-- The column of the innermost block collection. -/
  indent : Int := -1
  /-- The columns of the block collections around it. -/
  outer : List Int := []
  /-- The key candidates of the open flow collections, the innermost first, and of the
  block around them. -/
  candidates : List (Option KeyCandidate) := [none]
  /-- Whether a key may begin here. -/
  allowsKey : Bool := true

namespace Scanner

def inFlow (s : Scanner) : Bool :=
  s.candidates.length > 1

/-- Adds a token at the end of the queue. -/
def add (s : Scanner) (t : Token) : Scanner :=
  { s with queue := s.queue ++ [t] }

def addBefore (s : Scanner) (number : Nat) (t : Token) : Scanner :=
  { s with queue :=
      s.queue.take (number - s.released) ++ t :: s.queue.drop (number - s.released) }

def skip (s : Scanner) (n : Nat) : Scanner :=
  { s with cursor := s.cursor.skip n }

/-- Says whether a key may begin next. -/
def allowKey (s : Scanner) (b : Bool) : Scanner :=
  { s with allowsKey := b }

/-- Begins a block collection at a column to the right of the current one. -/
def indentTo (s : Scanner) (column : Nat) (t : Token) (number : Option Nat) : Scanner :=
  if s.inFlow || decide ((column : Int) ≤ s.indent) then s
  else
    let u := { s with indent := column, outer := s.indent :: s.outer }
    match number with
    | some n => u.addBefore n t
    | none => u.add t

/-- Ends block collections to the right of a column. -/
def unindent (column : Int) (indent : Int) : List Int → List Token × Int × List Int
  | [] => ([], indent, [])
  | i :: is =>
      if indent > column then
        ((.blockEnd :: (unindent column i is).1), (unindent column i is).2)
      else ([], indent, i :: is)

/-- Ends the block collections to the right of a column, outside of flow collections. -/
def unindentTo (s : Scanner) (column : Int) : Scanner :=
  if s.inFlow then s
  else
    let p := unindent column s.indent s.outer
    { s with queue := s.queue ++ p.1, indent := p.2.1, outer := p.2.2 }

/-- Forgets the innermost key candidate; a required one may not be forgotten. -/
def dropCandidate? (s : Scanner) : Option Scanner :=
  match s.candidates with
  | some k :: rest => if k.isRequired then none else some { s with candidates := none :: rest }
  | _ => some s

/-- The candidate that the next token is; in a block it is required in the column of the
collection. -/
def candidateHere (s : Scanner) : KeyCandidate :=
  { number := s.released + s.queue.length,
    isRequired := !s.inFlow && decide (s.indent = (s.cursor.column : Int)),
    index := s.cursor.index,
    line := s.cursor.line,
    column := s.cursor.column }

/-- Remembers that the next token may be a key, if keys are allowed here. -/
def saveCandidate? (s : Scanner) : Option Scanner :=
  if s.allowsKey then
    (s.dropCandidate?).map (fun u =>
      { u with candidates := some u.candidateHere :: u.candidates.tail })
  else some s

/-- Whether a candidate can no longer be a key: its line is over, or it began more than 1024
octets before. -/
def isStale (c : Cursor) (k : KeyCandidate) : Bool :=
  decide (k.line < c.line) || decide (k.index + 1024 < c.index)

/-- Forgets the candidates that can no longer be keys. -/
def dropStale? (s : Scanner) : Option Scanner :=
  if s.candidates.any (fun k => k.any (fun k => k.isRequired && isStale s.cursor k)) then none
  else
    some { s with candidates :=
      s.candidates.map (fun k => k.filter (fun k => !isStale s.cursor k)) }

/-- Skips spaces, comments and line ends up to the next token.  A line may begin with a byte
order mark; the mark takes a column. -/
def skipSpace : Nat → Scanner → Scanner
  | 0, s => s
  | fuel + 1, s =>
      let atMark := s.cursor.column == 0 &&
        (s.cursor.rest.head?.any (fun x => x.toNat == 0xFEFF))
      let c₁ := if atMark then s.cursor.skip 1 else s.cursor
      let c₂ := c₁.skipWhile (fun x => x == ' ' || ((s.inFlow || !s.allowsKey) && x == '\t'))
      let c₃ := if c₂.startsWith '#' then c₂.skipWhile (fun x => !isBreak x) else c₂
      match c₃.rest with
      | x :: _ =>
          if isBreak x then
            skipSpace fuel
              { s with cursor := c₃.readBreak.2, allowsKey := s.allowsKey || !s.inFlow }
          else { s with cursor := c₃ }
      | [] => { s with cursor := c₃ }

/-- Reads the end of the stream, which stands on a line of its own. -/
def fetchEnd? (s : Scanner) : Option Scanner :=
  let c := s.cursor
  let u : Scanner :=
    if c.column = 0 then s else { s with cursor := ⟨c.rest, c.index, c.line + 1, 0⟩ }
  ((u.unindentTo (-1)).dropCandidate?).map (fun v => (v.allowKey false).add .streamEnd)

def fetchBoundary? (s : Scanner) (read : Cursor → Option (Token × Cursor)) : Option Scanner :=
  ((s.unindentTo (-1)).dropCandidate?).bind (fun u =>
    (read u.cursor).map (fun p => { u.allowKey false with cursor := p.2 }.add p.1))

/-- Reads the beginning of a flow collection. -/
def fetchOpen? (s : Scanner) (t : Token) : Option Scanner :=
  (s.saveCandidate?).map (fun u =>
    ({ u.allowKey true with candidates := none :: u.candidates }.skip 1).add t)

/-- Reads the end of a flow collection. -/
def fetchClose? (s : Scanner) (t : Token) : Option Scanner :=
  (s.dropCandidate?).map (fun u =>
    let outer := if u.inFlow then u.candidates.tail else u.candidates
    ({ u.allowKey false with candidates := outer }.skip 1).add t)

/-- Reads a comma of a flow collection. -/
def fetchComma? (s : Scanner) : Option Scanner :=
  (s.dropCandidate?).map (fun u => ((u.allowKey true).skip 1).add .flowEntry)

/-- Begins a block collection at the cursor, if one may begin here. -/
def beginBlock? (s : Scanner) (t : Token) : Option Scanner :=
  if s.inFlow then some s
  else if s.allowsKey then some (s.indentTo s.cursor.column t none)
  else none

/-- Reads the hyphen of a block sequence. -/
def fetchEntry? (s : Scanner) : Option Scanner :=
  (s.beginBlock? .blockSequence).bind (fun u =>
    (u.dropCandidate?).map (fun v => ((v.allowKey true).skip 1).add .blockEntry))

/-- Reads the question mark before a key. -/
def fetchKey? (s : Scanner) : Option Scanner :=
  (s.beginBlock? .blockMapping).bind (fun u =>
    (u.dropCandidate?).map (fun v => ((v.allowKey (!v.inFlow)).skip 1).add .key))

/-- Reads the colon before a value; a key candidate before it becomes a key. -/
def fetchValue? (s : Scanner) : Option Scanner :=
  match s.candidates with
  | some k :: rest =>
      let u := s.addBefore k.number .key
      let v := u.indentTo k.column .blockMapping (some k.number)
      some ((({ v with candidates := none :: rest }.allowKey false).skip 1).add .value)
  | _ =>
      (s.beginBlock? .blockMapping).map (fun u =>
        ((u.allowKey (!u.inFlow)).skip 1).add .value)

def fetchNode? (s : Scanner) (read : Cursor → Option (Token × Cursor)) : Option Scanner :=
  (s.saveCandidate?).bind (fun u =>
    (read u.cursor).map (fun p => { u.allowKey false with cursor := p.2 }.add p.1))

def fetchBlockScalar? (s : Scanner) (isLiteral : Bool) : Option Scanner :=
  (s.dropCandidate?).bind (fun u =>
    (blockScalar isLiteral u.indent u.cursor).map (fun p =>
      { u.allowKey true with cursor := p.2 }.add (.scalar p.1 false)))

/-- Reads a plain scalar; a key may begin on the line after it. -/
def fetchPlain? (s : Scanner) : Option Scanner :=
  (s.saveCandidate?).bind (fun u =>
    (plainScalar u.inFlow (u.indent + 1).toNat u.cursor).map (fun p =>
      { u.allowKey p.isBroken with cursor := p.cursor }.add (.scalar p.text true)))

/-- Characters that begin no plain scalar, unless a rule below says so. -/
def isIndicator (c : Char) : Bool :=
  ['-', '?', ':', ',', '[', ']', '\x7b', '\x7d', '#', '&', '*', '!', '|', '>', '\x27', '"', '%',
    '@', '\x60'].contains c

def beginsPlain (inFlow : Bool) (c : Char) (cs : List Char) : Bool :=
  if isIndicator c then
    (c == '-' && !(cs.head?.any isBlank)) ||
      (!inFlow && (c == '?' || c == ':') && !startsWithSpace cs)
  else !isSpace c

/-- Reads the token that begins with a character. -/
def fetchAt? (s : Scanner) (c : Char) (cs : List Char) : Option Scanner :=
  if s.cursor.column = 0 ∧ c = '%' then s.fetchBoundary? header?
  else if s.cursor.atMarker '-' then
    s.fetchBoundary? (fun d => some (.documentStart, d.skip 3))
  else if s.cursor.atMarker '.' then
    s.fetchBoundary? (fun d => some (.documentEnd, d.skip 3))
  else if c = '[' then s.fetchOpen? .openSequence
  else if c = '\x7b' then s.fetchOpen? .openMapping
  else if c = ']' then s.fetchClose? .closeSequence
  else if c = '\x7d' then s.fetchClose? .closeMapping
  else if c = ',' then s.fetchComma?
  else if c = '-' ∧ startsWithSpace cs then s.fetchEntry?
  else if c = '?' ∧ (s.inFlow ∨ startsWithSpace cs) then s.fetchKey?
  else if c = ':' ∧ (s.inFlow ∨ startsWithSpace cs) then s.fetchValue?
  else if c = '*' then s.fetchNode? (fun d => (name? d).map (fun p => (.alias p.1, p.2)))
  else if c = '&' then s.fetchNode? (fun d => (name? d).map (fun p => (.anchor p.1, p.2)))
  else if c = '!' then s.fetchNode? (tag? s.inFlow)
  else if c = '|' ∧ ¬ s.inFlow then s.fetchBlockScalar? true
  else if c = '>' ∧ ¬ s.inFlow then s.fetchBlockScalar? false
  else if c = '\x27' ∨ c = '"' then
    s.fetchNode? (fun d =>
      (quotedScalar (c == '\x27') d).map (fun p => (.scalar p.1 false, p.2)))
  else if beginsPlain s.inFlow c cs then s.fetchPlain?
  else none

/-- Reads the next token. -/
def fetch? (s : Scanner) : Option Scanner :=
  ((skipSpace (s.cursor.rest.length + 1) s).dropStale?).bind (fun u =>
    let v := u.unindentTo u.cursor.column
    match v.cursor.rest with
    | [] => v.fetchEnd?
    | c :: cs => v.fetchAt? c cs)

/-- The number of tokens at the head of the queue that cannot become keys. -/
def releasable (s : Scanner) : Nat :=
  s.candidates.foldl (fun n k =>
    match k with
    | some k => min n (k.number - s.released)
    | none => n) s.queue.length

/-- Reads tokens and releases them as soon as they are settled; at an error the released
tokens are all there is. -/
def scan : Nat → Scanner → List Token
  | 0, _ => []
  | fuel + 1, s =>
      match s.fetch? with
      | none => []
      | some u =>
          match u.dropStale? with
          | none => []
          | some v =>
              let n := v.releasable
              let ts := v.queue.take n
              if ts.getLast? = some .streamEnd then ts
              else ts ++ scan fuel { v with queue := v.queue.drop n, released := v.released + n }

end Scanner

/-- The tokens of a text as far as it is well-formed; only a well-formed text has the end
of the stream among them. -/
def tokens (cs : List Char) : List Token :=
  if cs.all isAllowed then Scanner.scan (cs.length + 2) { cursor := Cursor.start cs }
  else []

end Yaml
end Stencil
