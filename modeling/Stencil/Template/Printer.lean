import Stencil.Template.Basic
import Stencil.Token

/-!
# Writing templates

A tree is written as texts and commands, which tokens read back.  Between the marks stand
the arguments of a command, one space apart; a literal is quoted, with a backslash before
each quote and backslash.  In a text each begin mark is written as an escape, and a line
break after a command is preceded by one that may be dropped.

**Results.**
* `unquote_quote`: a quoted literal stands for itself.
-/

namespace Stencil

namespace Argument

/-- A character of a literal, after a backslash if it needs one. -/
def quotedChar (c : Char) : List Char :=
  if c = '"' ∨ c = '\\' then ['\\', c] else [c]

/-- A literal between double quotes. -/
def quote (s : String) : String :=
  String.ofList ('"' :: s.toList.flatMap quotedChar ++ ['"'])

theorem unescape_cons {c : Char} (h : c ≠ '\\') (cs : List Char) :
    unescape (c :: cs) = c :: unescape cs := by
  rw [unescape.eq_def]
  simp [h]

theorem unescape_quotedChar_append (c : Char) (cs : List Char) :
    unescape (quotedChar c ++ cs) = c :: unescape cs := by
  unfold quotedChar
  split
  · next h => rcases h with rfl | rfl <;> simp [unescape]
  · next h => exact unescape_cons (fun hc => h (Or.inr hc)) cs

theorem unescape_flatMap_quotedChar (cs : List Char) :
    unescape (cs.flatMap quotedChar) = cs := by
  induction cs with
  | nil => rfl
  | cons c cs ih => simp [unescape_quotedChar_append, ih]

theorem unquote_quote (s : String) : unquote (quote s) = s := by
  have h : inner? (quote s).toList = some (s.toList.flatMap quotedChar) := by
    simp only [quote, String.toList_ofList, List.cons_append, inner?]
    rw [if_pos (by simp), List.dropLast_concat]
  simp [unquote, h, unescape_flatMap_quotedChar]

end Argument

namespace Marks

/-- Whether the begin mark stands out of any text: it begins with a character that occurs
only once in it and that neither an argument nor a spare line break begins with. -/
def OpensApart (m : Marks) : Prop :=
  ∃ c cs, m.opening = c :: cs ∧ Text.isItem c = false ∧ c ≠ '"' ∧ c ≠ '\n' ∧ c ∉ cs

/-- Whether the end mark cannot be part of arguments: it holds no double quote, and some
character of it is neither an item character nor a blank. -/
def ClosesApart (m : Marks) : Prop :=
  '"' ∉ m.closing ∧ ∃ c ∈ m.closing, Text.isItem c = false ∧ Text.isBlank c = false

end Marks

/-- A text or a command of a written template. -/
inductive Piece where
  | text (text : String)
  | command (args : List String)
  deriving DecidableEq

/-- The word or number of a predicate. -/
def IndexPredicate.text : IndexPredicate → String
  | first => "first"
  | last => "last"
  | even => "even"
  | odd => "odd"
  | nth n => toString n

/-- The arguments of a test, in the first branch or in a later one. -/
def Test.args (isFirst : Bool) : Test → List String
  | is key literal => [if isFirst then "if" else "elif", key, "is", Argument.quote literal]
  | index var predicate =>
      [if isFirst then "if-index" else "elif-index", var, "is", predicate.text]
  | any key => [if isFirst then "if-any" else "elif-any", key]

mutual

def Node.pieces : Node → List Piece
  | .text s => [.text s]
  | .lookup key _ => [.command [key]]
  | .loop var key reverse body _ =>
      .command [if reverse then "for-inv" else "for", var, "in", key] ::
        bodyPieces body ++ [.command ["endfor"]]
  | .conditional branches otherwise =>
      branchPieces true branches ++ otherwisePieces otherwise ++ [.command ["endif"]]
  | .last _ => [.command ["last"]]

def bodyPieces : List Node → List Piece
  | [] => []
  | n :: ns => n.pieces ++ bodyPieces ns

def branchPieces (isFirst : Bool) : List Branch → List Piece
  | [] => []
  | .mk test body _ :: bs =>
      .command (test.args isFirst) :: bodyPieces body ++ branchPieces false bs

def otherwisePieces : Option (List Node) → List Piece
  | none => []
  | some body => .command ["else"] :: bodyPieces body

end

namespace Piece

/-- A text in which each begin mark is written as an escape. -/
def protect (m : Marks) : List Char → List Char
  | [] => []
  | c :: cs =>
      match _h : afterMark? m.opening (c :: cs) with
      | some rest => Segment.escape.source m ++ protect m rest
      | none => c :: protect m cs
termination_by cs => cs.length
decreasing_by
  · have hlen := congrArg List.length (afterMark?_eq_some_iff.1 _h)
    have hpos := List.length_pos_iff.2 m.opening_ne_nil
    simp only [List.length_append] at hlen
    omega
  · simp

theorem protect_nil (m : Marks) : protect m [] = [] := by
  rw [protect]

theorem protect_of_afterMark? {m : Marks} {cs rest : List Char}
    (h : afterMark? m.opening cs = some rest) :
    protect m cs = Segment.escape.source m ++ protect m rest := by
  cases cs with
  | nil =>
      have := afterMark?_eq_some_iff.1 h
      simp [m.opening_ne_nil] at this
  | cons c cs =>
      rw [protect]
      split
      · next r hr =>
          rw [h] at hr
          cases hr
          rfl
      · next hr =>
          rw [h] at hr
          cases hr

theorem protect_cons {m : Marks} {c : Char} {cs : List Char}
    (h : afterMark? m.opening (c :: cs) = none) : protect m (c :: cs) = c :: protect m cs := by
  rw [protect]
  split
  · next r hr =>
      rw [h] at hr
      cases hr
  · rfl

/-- The line break before a text that begins with one, where it would be dropped. -/
def spare (trim afterCommand : Bool) (cs : List Char) : List Char :=
  if trim && afterCommand && !(splitLineBreak cs).1.isEmpty then ['\n'] else []

def chars (m : Marks) (trim afterCommand : Bool) : Piece → List Char
  | text s => spare trim afterCommand s.toList ++ protect m s.toList
  | command args => m.opening ++ (" ".intercalate args).toList ++ m.closing

def isCommand : Piece → Bool
  | command _ => true
  | text _ => false

def charsOf (m : Marks) (trim : Bool) : Bool → List Piece → List Char
  | _, [] => []
  | afterCommand, p :: ps => p.chars m trim afterCommand ++ charsOf m trim p.isCommand ps

end Piece

/-- The text of a template between given marks. -/
def Template.print (m : Marks) (trim : Bool) (t : Template) : String :=
  String.ofList (Piece.charsOf m trim false (bodyPieces t.nodes))

end Stencil
