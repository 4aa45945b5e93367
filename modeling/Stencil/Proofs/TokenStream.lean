import Stencil.Proofs.Segments
import Stencil.Token

/-!
# The token stream accounts for the text

Each token takes up a stretch of the text: the characters it is spelled with, and behind a
command the line break that is dropped there.  The stretches follow one another without a
gap and make up the whole text, and the line of a token is found by counting the line feeds
before its stretch.

A line break is dropped by the text behind a command, but it belongs to the stretch of the
command.  So what tokens account for begins behind the line break that is dropped before
them (`leadingBreak`), and this is what the induction over the segments carries.

**Results.**
* `fst_splitLineBreak`: the line break that is dropped is the longest one.
* `Tiles.accounts`: stretches that follow one another account for the whole text.
* `covers_ofSegments`: the tokens of segments account for their characters.
* `Token.exists_accounts`: the tokens of a text account for the text.
-/

namespace Stencil

/-! ## What a token stream has to account for -/

/-- The longest line break at the beginning of a text. -/
def lineBreak (cs : List Char) : List Char :=
  if ['\r', '\n'] <+: cs then ['\r', '\n']
  else if ['\n'] <+: cs then ['\n']
  else if ['\r'] <+: cs then ['\r']
  else []

def TokenKind.isText : TokenKind → Bool
  | text _ => true
  | _ => false

def TokenKind.isCommand : TokenKind → Bool
  | command _ _ => true
  | _ => false

/-- A token with the characters that it takes up and those that are dropped behind it. -/
structure Stretch where
  token : Token
  source : List Char
  dropped : List Char

namespace Stretch

def chars (s : Stretch) : List Char :=
  s.source ++ s.dropped

/-- Whether the characters that a token takes up are those it is spelled with. -/
def Spelled (m : Marks) (s : Stretch) : Prop :=
  match s.token.kind with
  | .text t => t ≠ "" ∧ s.source = t.toList
  | .command _ raw =>
      s.source = raw.toList ∧ ∃ body, raw.toList = m.opening ++ body ++ m.closing
  | .escape mark =>
      mark.toList = m.opening ∧ s.source = m.opening ++ m.opening ++ m.closing
  | .comment =>
      ∃ body, s.source = m.opening ++ '#' :: body ++ m.closing ∧
        ∀ pre post, body ++ m.closing = pre ++ m.closing ++ post → pre = body

def literal : List Stretch → List Char
  | ⟨⟨.text t, _⟩, _, _⟩ :: _ => t.toList
  | _ => []

/-- The line break that is dropped behind a token before other stretches: that of the text
up to the next directive, which is the dropped part and what is left of it as a token. -/
def due (trim : Bool) (s : Stretch) (after : List Stretch) : List Char :=
  if trim = true ∧ s.token.kind.isCommand = true then lineBreak (s.dropped ++ literal after)
  else []

end Stretch

/-- Whether stretches account for a text. -/
structure Accounts (m : Marks) (trim : Bool) (cs : List Char) (stretches : List Stretch) :
    Prop where
  /-- The stretches are the text. -/
  chars_eq : stretches.flatMap Stretch.chars = cs
  /-- Each token takes up what it is spelled with. -/
  spelled : ∀ s ∈ stretches, s.Spelled m
  /-- The line of a token counts the line feeds before it. -/
  line_eq : ∀ before s after, stretches = before ++ s :: after →
    s.token.line = 1 + lineFeeds (before.flatMap Stretch.chars)
  /-- What is dropped is one line break behind a command. -/
  dropped_eq : ∀ before s after, stretches = before ++ s :: after →
    s.dropped = s.due trim after
  /-- No two texts stand next to each other. -/
  apart : ∀ before s t after, stretches = before ++ s :: t :: after →
    ¬ (s.token.kind.isText = true ∧ t.token.kind.isText = true)

/-- Stretches that account for a text from a line on, one after the other. -/
inductive Tiles (m : Marks) (trim : Bool) : Nat → List Char → List Stretch → Prop where
  | nil (line : Nat) : Tiles m trim line [] []
  | cons {line : Nat} {s : Stretch} {cs cs' : List Char} {rest : List Stretch}
      (chars_eq : cs = s.chars ++ cs') (spelled : s.Spelled m) (line_eq : s.token.line = line)
      (dropped_eq : s.dropped = s.due trim rest)
      (apart : s.token.kind.isText = true → Stretch.literal rest = [])
      (tail : Tiles m trim (line + lineFeeds s.chars) cs' rest) : Tiles m trim line cs (s :: rest)

namespace Tiles

variable {m : Marks} {trim : Bool} {line : Nat} {cs : List Char}

theorem chars_eq {stretches : List Stretch} (h : Tiles m trim line cs stretches) :
    stretches.flatMap Stretch.chars = cs := by
  induction h with
  | nil line => rfl
  | cons chars_eq spelled line_eq dropped_eq apart tail ih =>
      rw [List.flatMap_cons, ih, chars_eq]

theorem spelled_of_mem {stretches : List Stretch} (h : Tiles m trim line cs stretches) :
    ∀ s ∈ stretches, s.Spelled m := by
  induction h with
  | nil line => simp
  | cons chars_eq spelled line_eq dropped_eq apart tail ih =>
      exact List.forall_mem_cons.2 ⟨spelled, ih⟩

/-- Later stretches account for the rest of the text, from the line on that is reached. -/
theorem exists_of_append {before rest : List Stretch}
    (h : Tiles m trim line cs (before ++ rest)) :
    ∃ cs', Tiles m trim (line + lineFeeds (before.flatMap Stretch.chars)) cs' rest := by
  induction before generalizing line cs with
  | nil => exact ⟨cs, h⟩
  | cons s before ih =>
      cases h with
      | cons chars_eq spelled line_eq dropped_eq apart tail =>
          obtain ⟨cs', h'⟩ := ih tail
          refine ⟨cs', ?_⟩
          rw [List.flatMap_cons, lineFeeds_append, ← Nat.add_assoc]
          exact h'

/-- A text behind which no literal text stands is followed by no text. -/
theorem not_isText_of_literal {s : Stretch} {rest : List Stretch} (hs : s.Spelled m)
    (h : Stretch.literal (s :: rest) = []) : s.token.kind.isText ≠ true := by
  obtain ⟨⟨kind, tokenLine⟩, source, dropped⟩ := s
  cases kind with
  | text t => exact absurd (String.toList_eq_nil_iff.1 h) hs.1
  | _ => exact Bool.false_ne_true

/-- Stretches that follow one another account for the whole text. -/
theorem accounts {stretches : List Stretch} (h : Tiles m trim 1 cs stretches) :
    Accounts m trim cs stretches := by
  refine ⟨h.chars_eq, h.spelled_of_mem, ?_, ?_, ?_⟩
  · rintro before s after rfl
    obtain ⟨_, hrest⟩ := h.exists_of_append
    cases hrest with
    | cons chars_eq spelled line_eq dropped_eq apart tail => exact line_eq
  · rintro before s after rfl
    obtain ⟨_, hrest⟩ := h.exists_of_append
    cases hrest with
    | cons chars_eq spelled line_eq dropped_eq apart tail => exact dropped_eq
  · rintro before s t after rfl ⟨hs, ht⟩
    obtain ⟨_, hrest⟩ := h.exists_of_append
    cases hrest with
    | cons chars_eq spelled line_eq dropped_eq apart tail =>
        have hspelled := tail.spelled_of_mem t (by simp)
        exact not_isText_of_literal hspelled (apart hs) ht

end Tiles

/-! ## The tokens of segments -/

theorem fst_splitLineBreak (cs : List Char) : (splitLineBreak cs).1 = lineBreak cs := by
  unfold splitLineBreak
  split
  · simp [lineBreak]
  · simp [lineBreak]
  · next rest hcrlf =>
      have hnot : ¬ ['\n'] <+: rest := by
        rintro ⟨tail, rfl⟩
        exact hcrlf tail rfl
      simp [lineBreak, hnot]
  · next hcrlf hlf hcr =>
      cases cs with
      | nil => rfl
      | cons c cs =>
          have hne : c ≠ '\n' ∧ c ≠ '\r' :=
            ⟨fun hc => hlf cs (by rw [hc]), fun hc => hcr cs (by rw [hc])⟩
          simp [lineBreak, Ne.symm hne.1, Ne.symm hne.2]

/-- The line break that is dropped of a text. -/
def leadingBreak (drop : Bool) (chars : List Char) : List Char :=
  if drop then lineBreak chars else []

@[simp] theorem leadingBreak_false (chars : List Char) : leadingBreak false chars = [] :=
  rfl

@[simp] theorem leadingBreak_nil (drop : Bool) : leadingBreak drop [] = [] := by
  cases drop <;> rfl

theorem leadingBreak_append_keptText (drop : Bool) (chars : List Char) :
    leadingBreak drop chars ++ keptText drop chars = chars := by
  cases drop with
  | false => rfl
  | true =>
      have h := splitLineBreak_append chars
      rw [fst_splitLineBreak] at h
      exact h

namespace Segment

def literal : List Segment → List Char
  | text chars :: _ => chars
  | _ => []

theorem literal_of_isText_eq_false {s : Segment} (h : s.isText = false) (rest : List Segment) :
    literal (s :: rest) = [] := by
  cases s with
  | text chars => cases h
  | _ => rfl

/-- Behind a text there is a directive or nothing. -/
theorem literal_of_isChain {s : Segment} {rest : List Segment} (hs : s.isText = true)
    (h : (s :: rest).IsChain meets) : literal rest = [] := by
  cases rest with
  | nil => rfl
  | cons t rest =>
      have ht : t.isText = false := Bool.eq_false_iff.2 (fun ht => h.rel ⟨hs, ht⟩)
      exact literal_of_isText_eq_false ht rest

end Segment

/-- The tokens of a literal text. -/
theorem Token.ofText_eq (drop : Bool) (line : Nat) (chars : List Char) :
    Token.ofText drop line chars =
      if keptText drop chars = [] then []
      else [⟨.text (String.ofList (keptText drop chars)),
        line + lineFeeds (leadingBreak drop chars)⟩] := by
  cases drop with
  | false => rfl
  | true =>
      rw [leadingBreak, if_pos rfl, ← fst_splitLineBreak]
      rfl

namespace Segment

/-- What a segment stands for as a token. -/
def tokenKind (m : Marks) : Segment → TokenKind
  | text chars => .text (String.ofList chars)
  | command body =>
      .command ((Argument.split body).map String.ofList)
        (String.ofList ((command body).source m))
  | escape => .escape (String.ofList m.opening)
  | comment _ => .comment

theorem isText_tokenKind (m : Marks) (s : Segment) : (s.tokenKind m).isText = s.isText := by
  cases s <;> rfl

theorem isCommand_tokenKind (m : Marks) (s : Segment) :
    (s.tokenKind m).isCommand = Token.isCommand s := by
  cases s <;> rfl

/-- A directive is one token. -/
theorem ofSegment_eq_tokenKind {m : Marks} {s : Segment} (hs : s.isText = false) (drop : Bool)
    (line : Nat) : Token.ofSegment m drop line s = [⟨s.tokenKind m, line⟩] := by
  cases s with
  | text chars => cases hs
  | _ => rfl

/-- The token of a directive is spelled with its characters. -/
theorem spelled_tokenKind {m : Marks} {s : Segment} (hs : s.isText = false) (h : s.IsProper m)
    (line : Nat) (dropped : List Char) :
    Stretch.Spelled m ⟨⟨s.tokenKind m, line⟩, s.source m, dropped⟩ := by
  cases s with
  | text chars => cases hs
  | command body =>
      refine ⟨String.toList_ofList.symm, body, ?_⟩
      rw [String.toList_ofList]
      rfl
  | escape => exact ⟨String.toList_ofList, rfl⟩
  | comment body => exact ⟨body, rfl, h⟩

end Segment

namespace Stretch

/-- Puts what is left of a literal text before stretches. -/
def consText (drop : Bool) (line : Nat) (chars : List Char) (rest : List Stretch) :
    List Stretch :=
  if keptText drop chars = [] then rest
  else ⟨⟨.text (String.ofList (keptText drop chars)),
    line + lineFeeds (leadingBreak drop chars)⟩, keptText drop chars, []⟩ :: rest

/-- The stretches of segments from a line on; `drop` says whether a line break at the
beginning of the first one is dropped. -/
def ofSegments (m : Marks) (trim : Bool) : Bool → Nat → List Segment → List Stretch
  | _, _, [] => []
  | drop, line, s :: rest =>
      let after :=
        ofSegments m trim (trim && Token.isCommand s) (line + lineFeeds (s.source m)) rest
      if s.isText then consText drop line (s.source m) after
      else ⟨⟨s.tokenKind m, line⟩, s.source m,
        leadingBreak (trim && Token.isCommand s) (Segment.literal rest)⟩ :: after

end Stretch

section Tokens

variable {m : Marks} {trim : Bool}

/-- The characters of segments are those that stretches account for, behind the line break
that is dropped before them; what is left of a literal text is a token. -/
def Covers (m : Marks) (trim drop : Bool) (line : Nat) (segments : List Segment)
    (stretches : List Stretch) : Prop :=
  Token.ofSegments m trim drop line segments = stretches.map Stretch.token ∧
    Segment.literal segments =
      leadingBreak drop (Segment.literal segments) ++ Stretch.literal stretches ∧
    ∃ cs, segments.flatMap (Segment.source m) =
        leadingBreak drop (Segment.literal segments) ++ cs ∧
      Tiles m trim (line + lineFeeds (leadingBreak drop (Segment.literal segments))) cs stretches

/-- A literal text before a directive adds a stretch if some of it is left. -/
theorem covers_consText (drop : Bool) (line : Nat) {chars : List Char}
    {rest : List Segment} {stretches : List Stretch} (hliteral : Segment.literal rest = [])
    (h : Covers m trim false (line + lineFeeds chars) rest stretches) :
    Covers m trim drop line (.text chars :: rest)
      (Stretch.consText drop line chars stretches) := by
  obtain ⟨htokens, hrest, cs, hcs, htiles⟩ := h
  have hzero : lineFeeds [] = 0 := rfl
  rw [leadingBreak_false, List.nil_append] at hrest hcs
  rw [leadingBreak_false, hzero, Nat.add_zero] at htiles
  have hsplit := leadingBreak_append_keptText drop chars
  have hbehind : Stretch.literal stretches = [] := by rw [← hrest, hliteral]
  have htext : Token.ofSegments m trim drop line (.text chars :: rest) =
      Token.ofText drop line chars ++ stretches.map Stretch.token := by
    have hcommand : Token.isCommand (.text chars) = false := rfl
    rw [← htokens, Token.ofSegments, hcommand, Bool.and_false]
    rfl
  have hflat : (Segment.text chars :: rest).flatMap (Segment.source m) =
      leadingBreak drop chars ++ (keptText drop chars ++ cs) := by
    rw [List.flatMap_cons, hcs, ← List.append_assoc, hsplit]
    rfl
  have hline : line + lineFeeds chars =
      line + lineFeeds (leadingBreak drop chars) + lineFeeds (keptText drop chars) := by
    rw [Nat.add_assoc, ← lineFeeds_append, hsplit]
  rw [hline] at htiles
  rw [Token.ofText_eq] at htext
  rw [Stretch.consText]
  by_cases hkept : keptText drop chars = []
  · rw [if_pos hkept] at htext
    rw [hkept] at hsplit hflat htiles
    rw [if_pos hkept]
    refine ⟨htext, ?_, cs, hflat, htiles⟩
    rw [hbehind]
    exact hsplit.symm
  · rw [if_neg hkept] at htext
    rw [if_neg hkept]
    refine ⟨htext, ?_, keptText drop chars ++ cs, hflat, ?_⟩
    · rw [Stretch.literal, String.toList_ofList]
      exact hsplit.symm
    · have hchars (t : Token) : keptText drop chars ++ cs =
          Stretch.chars ⟨t, keptText drop chars, []⟩ ++ cs := by
        rw [Stretch.chars, List.append_nil]
      refine .cons (hchars _) ⟨?_, String.toList_ofList.symm⟩ rfl ?_ (fun _ => hbehind) ?_
      · simpa using hkept
      · simp [Stretch.due, TokenKind.isCommand]
      · rw [Stretch.chars, List.append_nil]
        exact htiles

/-- A directive adds a stretch, with the line break that is dropped behind it. -/
theorem covers_cons (drop : Bool) (line : Nat) {s : Segment}
    (hs : s.isText = false) (hproper : s.IsProper m) {rest : List Segment}
    {stretches : List Stretch}
    (h : Covers m trim (trim && Token.isCommand s) (line + lineFeeds (s.source m)) rest stretches) :
    Covers m trim drop line (s :: rest)
      (⟨⟨s.tokenKind m, line⟩, s.source m,
        leadingBreak (trim && Token.isCommand s) (Segment.literal rest)⟩ :: stretches) := by
  obtain ⟨htokens, hrest, cs, hcs, htiles⟩ := h
  generalize hdropped : leadingBreak (trim && Token.isCommand s) (Segment.literal rest) = dropped
    at hrest hcs htiles ⊢
  have htext : (s.tokenKind m).isText = false := (Segment.isText_tokenKind m s).trans hs
  have hbefore : leadingBreak drop (Segment.literal (s :: rest)) = [] := by
    rw [Segment.literal_of_isText_eq_false hs, leadingBreak_nil]
  have hliteral : Stretch.literal (⟨⟨s.tokenKind m, line⟩, s.source m, dropped⟩ :: stretches) =
      [] := by
    generalize s.tokenKind m = kind at htext ⊢
    cases kind with
    | text t => cases htext
    | _ => rfl
  refine ⟨?_, ?_, s.source m ++ dropped ++ cs, ?_, ?_⟩
  · rw [Token.ofSegments, Segment.ofSegment_eq_tokenKind hs, htokens]
    rfl
  · rw [hbefore, hliteral, Segment.literal_of_isText_eq_false hs]
    rfl
  · rw [hbefore, List.flatMap_cons, hcs, List.append_assoc]
    rfl
  · have hchars : s.source m ++ dropped ++ cs =
        Stretch.chars ⟨⟨s.tokenKind m, line⟩, s.source m, dropped⟩ ++ cs := rfl
    rw [hbefore]
    refine .cons hchars (Segment.spelled_tokenKind hs hproper line dropped) rfl ?_ ?_ ?_
    · rw [Stretch.due, ← hrest, Segment.isCommand_tokenKind, ← hdropped, leadingBreak]
      simp
    · intro ht
      rw [htext] at ht
      cases ht
    · rw [Stretch.chars, lineFeeds_append, ← Nat.add_assoc]
      exact htiles

/-- **The stretches of segments account for their characters.** -/
theorem covers_ofSegments {segments : List Segment} (hproper : ∀ s ∈ segments, s.IsProper m)
    (hchain : segments.IsChain Segment.meets) (trim drop : Bool) (line : Nat) :
    Covers m trim drop line segments (Stretch.ofSegments m trim drop line segments) := by
  induction segments generalizing drop line with
  | nil =>
      refine ⟨rfl, ?_, [], ?_, .nil _⟩
      · simp [Segment.literal, Stretch.literal, Stretch.ofSegments]
      · simp [Segment.literal]
  | cons s rest ih =>
      obtain ⟨hs, hrest⟩ := List.forall_mem_cons.1 hproper
      have h := ih hrest hchain.of_cons (trim && Token.isCommand s) (line + lineFeeds (s.source m))
      rw [Stretch.ofSegments]
      cases ht : s.isText with
      | false =>
          rw [if_neg Bool.false_ne_true]
          exact covers_cons drop line ht hs h
      | true =>
          have hliteral := Segment.literal_of_isChain ht hchain
          rw [if_pos rfl]
          cases s with
          | text chars =>
              rw [show Token.isCommand (.text chars) = false from rfl, Bool.and_false] at h ⊢
              exact covers_consText drop line hliteral h
          | _ => cases ht

/-- There are stretches that account for the characters of segments. -/
theorem exists_covers {segments : List Segment} (hproper : ∀ s ∈ segments, s.IsProper m)
    (hchain : segments.IsChain Segment.meets) (drop : Bool) (line : Nat) :
    ∃ stretches, Covers m trim drop line segments stretches :=
  ⟨_, covers_ofSegments hproper hchain trim drop line⟩

end Tokens

/-- **The tokens of a text account for the text.** -/
theorem Token.exists_accounts {config : Config} {m : Marks} (hm : config.marks = .ok m)
    (text : String) : ∃ stretches,
      Token.tokenize config text = .ok (stretches.map Stretch.token) ∧
        Accounts m config.trimNewline text.toList stretches := by
  have hcovers : ∃ stretches,
      Covers m config.trimNewline false 1 (Segment.split m text.toList) stretches :=
    exists_covers (Segment.isProper_of_mem_split text.toList)
      (Segment.isChain_split text.toList) false 1
  obtain ⟨stretches, htokens, _, cs, hcs, htiles⟩ := hcovers
  refine ⟨stretches, ?_, Tiles.accounts ?_⟩
  · rw [Token.tokenize, hm, Except.map, Token.ofChars, htokens]
  · rw [Segment.flatMap_source_split] at hcs
    have htext : text.toList = cs := hcs
    rw [htext]
    exact htiles

/-- Commands before line breaks of each kind, an escape, and a comment over two lines. -/
theorem Token.exists_accounts_brackets : ∃ stretches,
    Token.tokenize {} "[x]\r\n[y]\r[z]\n\n[[][#[\n]\nend" = .ok (stretches.map Stretch.token) ∧
      Accounts ⟨['['], [']'], by decide, by decide, by decide, by decide⟩ true
        "[x]\r\n[y]\r[z]\n\n[[][#[\n]\nend".toList stretches :=
  @exists_accounts {} _ rfl _

end Stencil
