import Stencil.Directive
import Stencil.Error
import Stencil.Token

/-!
# Assembling a template from tokens

Tokens are taken from left to right.  An `Assembly` holds the blocks that are still open,
the innermost first, and the nodes of the innermost body, the latest first.  A directive
that opens a block puts the current body aside; one that closes it makes a node of the
block and goes on with the body that was put aside.

**Results.**
* `run_append`: assembling is determined token by token.
-/

namespace Stencil

/-- What an open block becomes when it is closed. -/
inductive Block where
  | loop (var key : String) (reverse : Bool)
  /-- In the body of a tested branch, after the branches that are done. -/
  | branch (done : List Branch) (test : Test) (line : Nat)
  /-- In the else body. -/
  | otherwise (done : List Branch)

/-- An open block, with the directive that opened it and the nodes before it. -/
structure Frame where
  block : Block
  opener : String
  line : Nat
  outer : List Node

def Block.varName? : Block → Option String
  | loop var _ _ => some var
  | _ => none

/-- The state between two tokens; frames innermost first, nodes latest first. -/
structure Assembly where
  frames : List Frame
  nodes : List Node

namespace Assembly

/-- The state before the first token. -/
def start : Assembly :=
  ⟨[], []⟩

/-- The variables of the open loops. -/
def vars (a : Assembly) : List String :=
  a.frames.filterMap (fun f => f.block.varName?)

/-- Adds a node to the innermost body. -/
def push (a : Assembly) (n : Node) : Assembly :=
  ⟨a.frames, n :: a.nodes⟩

/-- Adds text to the innermost body. -/
def pushText (a : Assembly) (s : String) : Assembly :=
  ⟨a.frames, appendText a.nodes s⟩

def enter (a : Assembly) (block : Block) (opener : String) (line : Nat) : Assembly :=
  ⟨⟨block, opener, line, a.nodes⟩ :: a.frames, []⟩

def closeLoop? (a : Assembly) : Option Assembly :=
  match a.frames with
  | ⟨.loop var key reverse, _, line, outer⟩ :: frames =>
      some ⟨frames, .loop var key reverse a.nodes.reverse line :: outer⟩
  | _ => none

def closeConditional? (a : Assembly) : Option Assembly :=
  match a.frames with
  | ⟨.branch done test line, _, _, outer⟩ :: frames =>
      some ⟨frames,
        .conditional (Branch.mk test a.nodes.reverse line :: done).reverse none :: outer⟩
  | ⟨.otherwise done, _, _, outer⟩ :: frames =>
      some ⟨frames, .conditional done.reverse (some a.nodes.reverse) :: outer⟩
  | _ => none

/-- Starts the else body of the innermost conditional. -/
def beginOtherwise? (a : Assembly) : Option Assembly :=
  match a.frames with
  | ⟨.branch done test line, opener, first, outer⟩ :: frames =>
      some ⟨⟨.otherwise (.mk test a.nodes.reverse line :: done), opener, first, outer⟩ :: frames,
        []⟩
  | _ => none

/-- Starts the next branch of the innermost conditional. -/
def beginBranch? (a : Assembly) (next : Test) (nextLine : Nat) : Option Assembly :=
  match a.frames with
  | ⟨.branch done test line, opener, first, outer⟩ :: frames =>
      if next.kind = test.kind then
        some ⟨⟨.branch (.mk test a.nodes.reverse line :: done) next nextLine, opener, first,
          outer⟩ :: frames, []⟩
      else none
  | _ => none

/-- Adds an exit from the innermost loop. -/
def pushLast? (a : Assembly) (line : Nat) : Option Assembly :=
  if a.vars = [] then none else some (a.push (.last line))

/-- What a directive does, unless it does not fit the open blocks. -/
def advance? (a : Assembly) (raw : String) (line : Nat) : Directive → Option Assembly
  | .lookup key => some (a.push (.lookup key line))
  | .loop var key reverse => some (a.enter (.loop var key reverse) raw line)
  | .endLoop => a.closeLoop?
  | .condition test => some (a.enter (.branch [] test line) raw line)
  | .alternative test => a.beginBranch? test line
  | .otherwise => a.beginOtherwise?
  | .endCondition => a.closeConditional?
  | .last => a.pushLast? line

def command (a : Assembly) (args : List String) (raw : String) (line : Nat) :
    Except ParseError Assembly :=
  match Directive.ofArgs? a.vars args with
  | none => .error ⟨line, .invalidDirective raw⟩
  | some directive =>
      match a.advance? raw line directive with
      | none => .error ⟨line, .unmatchedBlock raw⟩
      | some b => .ok b

def step (a : Assembly) (t : Token) : Except ParseError Assembly :=
  match t.kind with
  | .text s => .ok (a.pushText s)
  | .escape mark => .ok (a.pushText mark)
  | .comment => .ok a
  | .command args raw => a.command args raw t.line

/-- What tokens do, up to the first that does not fit. -/
def run : Assembly → List Token → Except ParseError Assembly
  | a, [] => .ok a
  | a, t :: ts =>
      match a.step t with
      | .error e => .error e
      | .ok b => run b ts

/-- The template, if no block is still open. -/
def finish (a : Assembly) : Except ParseError Template :=
  match a.frames with
  | [] => .ok ⟨a.nodes.reverse⟩
  | f :: _ => .error ⟨f.line, .unclosedBlock f.opener⟩

def template (tokens : List Token) : Except ParseError Template :=
  (start.run tokens).bind finish

theorem run_append (a : Assembly) (as bs : List Token) :
    a.run (as ++ bs) = (a.run as).bind (fun b => b.run bs) := by
  induction as generalizing a with
  | nil => rfl
  | cons t ts ih =>
      simp only [List.cons_append, run]
      cases a.step t with
      | error e => rfl
      | ok b => exact ih b

end Assembly

end Stencil
