import Stencil.Decimal.Reader
import Stencil.Error
import Stencil.Template.Basic
import Stencil.Token

/-!
# Nesting of blocks

Whether tokens make up a template depends only on how their blocks are nested.  The open
blocks are a stack; each command is first judged by its arguments and then by the stack,
and the first that does not fit decides.
-/

namespace Stencil

/-- What a command does to the open blocks. -/
inductive Role where
  /-- Nothing: it stands for a text. -/
  | inert
  | openLoop (var : String)
  | closeLoop
  | openConditional (kind : ConditionKind)
  | nextBranch (kind : ConditionKind)
  | beginElse
  | closeConditional
  /-- It leaves the innermost loop. -/
  | exit
  deriving DecidableEq

namespace Role

/-- Whether an argument is not in double quotes. -/
def isBare (arg : String) : Bool :=
  arg.toList.head? != some '"'

/-- Whether an argument can be the variable of a loop. -/
def isVariable (arg : String) : Bool :=
  isBare arg && !arg.toList.contains '.'

/-- Whether an argument names positions: a word, or a number below `2 ^ 64` in digits. -/
def isPosition (arg : String) : Bool :=
  ["first", "last", "even", "odd"].contains arg ||
    (arg.toList != [] && arg.toList.all Char.isDigit &&
      Decimal.ofDigits 0 arg.toList < Nat.pow 2 64)

/-- The role of a command with some arguments inside of the loops of some variables; there
is none if the arguments have no shape of a directive. -/
def ofArgs? (vars : List String) : List String → Option Role
  | ["endfor"] => some closeLoop
  | ["else"] => some beginElse
  | ["last"] => some exit
  | ["endif"] => some closeConditional
  | [key] => if isBare key then some inert else none
  | ["if-any", key] => if isBare key then some (openConditional .any) else none
  | ["elif-any", key] => if isBare key then some (nextBranch .any) else none
  | ["for", var, "in", key] =>
      if isVariable var && isBare key then some (openLoop var) else none
  | ["for-inv", var, "in", key] =>
      if isVariable var && isBare key then some (openLoop var) else none
  | ["if", key, "is", _] => if isBare key then some (openConditional .is) else none
  | ["elif", key, "is", _] => if isBare key then some (nextBranch .is) else none
  | ["if-index", var, "is", position] =>
      if isVariable var && vars.contains var && isPosition position then
        some (openConditional .index)
      else none
  | ["elif-index", var, "is", position] =>
      if isVariable var && vars.contains var && isPosition position then
        some (nextBranch .index)
      else none
  | _ => none

end Role

/-- The kind of an open block. -/
inductive OpenBlock where
  | loop (var : String)
  | conditional (kind : ConditionKind) (hasElse : Bool)
  deriving DecidableEq

/-- An open block, with the directive that opened it. -/
structure Opening where
  block : OpenBlock
  directive : String
  line : Nat
  deriving DecidableEq

/-- The open blocks, the innermost first. -/
abbrev Nesting := List Opening

namespace Nesting

/-- The variable of a loop. -/
def var? (o : Opening) : Option String :=
  match o.block with
  | .loop var => some var
  | .conditional _ _ => none

/-- The variables of the open loops. -/
def vars (n : Nesting) : List String :=
  n.filterMap var?

/-- The open blocks after a command of some role, unless it does not fit them. -/
def after? (n : Nesting) (raw : String) (line : Nat) : Role → Option Nesting
  | .inert => some n
  | .openLoop var => some (⟨.loop var, raw, line⟩ :: n)
  | .openConditional kind => some (⟨.conditional kind false, raw, line⟩ :: n)
  | .closeLoop =>
      match n with
      | ⟨.loop _, _, _⟩ :: outer => some outer
      | _ => none
  | .closeConditional =>
      match n with
      | ⟨.conditional _ _, _, _⟩ :: outer => some outer
      | _ => none
  | .beginElse =>
      match n with
      | ⟨.conditional kind false, opener, first⟩ :: outer =>
          some (⟨.conditional kind true, opener, first⟩ :: outer)
      | _ => none
  | .nextBranch next =>
      match n with
      | ⟨.conditional kind false, _, _⟩ :: _ => if next = kind then some n else none
      | _ => none
  | .exit => if n.vars = [] then none else some n

/-- The open blocks after a command, or what is wrong with it. -/
def afterCommand (n : Nesting) (args : List String) (raw : String) (line : Nat) :
    Except ParseError Nesting :=
  match Role.ofArgs? n.vars args with
  | none => .error ⟨line, .invalidDirective raw⟩
  | some role =>
      match n.after? raw line role with
      | none => .error ⟨line, .unmatchedBlock raw⟩
      | some n => .ok n

/-- The first thing that is wrong with tokens, given the blocks that are open. -/
def verdict : Nesting → List Token → Except ParseError Unit
  | [], [] => .ok ()
  | o :: _, [] => .error ⟨o.line, .unclosedBlock o.directive⟩
  | n, t :: ts =>
      match t.kind with
      | .command args raw => (n.afterCommand args raw t.line).bind (fun n => verdict n ts)
      | _ => verdict n ts

end Nesting

end Stencil
