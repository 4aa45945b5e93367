import Stencil.Argument
import Stencil.Segment
import Stencil.Text.Quoted

/-!
# Tokens of a template text

The segments of a text become tokens: each is given the line on which it starts, and
the line break directly after a command is dropped if the settings say so.  Only a
line feed ends a line.  Text that vanishes leaves no token.

**Results.**
* `lineFeeds_append`: lines add up.
* `splitLineBreak_append`, `splitLineBreak_of_ne`: a text is its line break and the rest.
-/

namespace Stencil

/-- What a token stands for. -/
inductive TokenKind where
  /-- Literal text. -/
  | text (text : String)
  /-- A command: its arguments, and the whole directive as it stands in the text. -/
  | command (args : List String) (raw : String)
  /-- A literal begin mark. -/
  | escape (mark : String)
  /-- A comment, which leaves nothing behind. -/
  | comment
  deriving DecidableEq

/-- A token, with the line on which it starts. -/
structure Token where
  kind : TokenKind
  line : Nat
  deriving DecidableEq

def lineFeeds (cs : List Char) : Nat :=
  cs.count '\n'

@[simp] theorem lineFeeds_append (as bs : List Char) :
    lineFeeds (as ++ bs) = lineFeeds as + lineFeeds bs :=
  List.count_append

/-- The line break at the beginning of a text, and the text after it. -/
def splitLineBreak : List Char → List Char × List Char
  | '\r' :: '\n' :: cs => (['\r', '\n'], cs)
  | '\n' :: cs => (['\n'], cs)
  | '\r' :: cs => (['\r'], cs)
  | cs => ([], cs)

theorem splitLineBreak_append (cs : List Char) :
    (splitLineBreak cs).1 ++ (splitLineBreak cs).2 = cs := by
  unfold splitLineBreak
  split <;> rfl

/-- A text that begins with neither part of a line break keeps all of it. -/
theorem splitLineBreak_of_ne {c : Char} (h : c ≠ '\n' ∧ c ≠ '\r') (cs : List Char) :
    splitLineBreak (c :: cs) = ([], c :: cs) := by
  unfold splitLineBreak
  split
  · next he => exact absurd (List.cons.inj he).1 h.2
  · next he => exact absurd (List.cons.inj he).1 h.1
  · next he => exact absurd (List.cons.inj he).1 h.2
  · rfl

theorem ne_of_fst_splitLineBreak {c : Char} {cs : List Char}
    (h : (splitLineBreak (c :: cs)).1 = []) : c ≠ '\n' ∧ c ≠ '\r' := by
  unfold splitLineBreak at h
  split at h
  · cases h
  · cases h
  · cases h
  · next hcrlf hlf hcr =>
      exact ⟨fun hc => hlf cs (by rw [hc]), fun hc => hcr cs (by rw [hc])⟩

/-- The part of a literal text that is kept. -/
def keptText (drop : Bool) (chars : List Char) : List Char :=
  if drop then (splitLineBreak chars).2 else chars

namespace Token

/-- The token of a literal text that starts on a line, if any of it is left. -/
def ofText (drop : Bool) (line : Nat) (chars : List Char) : List Token :=
  let parts := if drop then splitLineBreak chars else ([], chars)
  if parts.2 = [] then []
  else [⟨.text (String.ofList parts.2), line + lineFeeds parts.1⟩]

/-- The tokens of a segment that starts on a line; `drop` says whether a line break at
its beginning is dropped. -/
def ofSegment (m : Marks) (drop : Bool) (line : Nat) : Segment → List Token
  | .text chars => ofText drop line chars
  | .command body =>
      [⟨.command ((Argument.split body).map String.ofList)
          (String.ofList ((Segment.command body).source m)), line⟩]
  | .escape => [⟨.escape (String.ofList m.opening), line⟩]
  | .comment _ => [⟨.comment, line⟩]

def isCommand : Segment → Bool
  | .command _ => true
  | _ => false

def ofSegments (m : Marks) (trim : Bool) : Bool → Nat → List Segment → List Token
  | _, _, [] => []
  | drop, line, s :: rest =>
      ofSegment m drop line s ++
        ofSegments m trim (trim && isCommand s) (line + lineFeeds (s.source m)) rest

def ofChars (m : Marks) (trim : Bool) (cs : List Char) : List Token :=
  ofSegments m trim false 1 (Segment.split m cs)

/-- The tokens of a template text. -/
def tokenize (config : Config) (text : String) : Except ConfigError (List Token) :=
  config.marks.map (fun m => ofChars m config.trimNewline text.toList)

/-- How a token is shown in messages. -/
def display (t : Token) : String :=
  match t.kind with
  | .text text => "Text(" ++ Text.quoted text ++ ") at line " ++ toString t.line
  | .command _ raw => "Command(" ++ raw ++ ") at line " ++ toString t.line
  | .escape mark => "Escape(" ++ mark ++ ") at line " ++ toString t.line
  | .comment => "Comment at line " ++ toString t.line

end Token

end Stencil
