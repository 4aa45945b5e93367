import Stencil.Argument
import Stencil.Template.Basic

/-!
# Directives

The arguments of a command make a directive: their number and the words at fixed places
decide which.  Keys and variables are bare arguments, a variable is a single segment
without a full stop, and a test of a position names the variable of an open loop.

**Results.**
* `ofArgs?_singleton`: a single bare argument that is no terminator is a lookup.
-/

namespace Stencil

/-- What a command says. -/
inductive Directive where
  | lookup (key : String)
  | loop (var key : String) (reverse : Bool)
  | endLoop
  | condition (test : Test)
  | alternative (test : Test)
  | otherwise
  | endCondition
  | last
  deriving DecidableEq

/-- The directive of a test, in the first branch or in a later one. -/
def Test.directive (isFirst : Bool) (test : Test) : Directive :=
  if isFirst then .condition test else .alternative test

namespace Directive

/-- A bare argument. -/
def name? (arg : String) : Option String :=
  if arg.toList.head? = some '"' then none else some arg

/-- A bare argument that is a single segment. -/
def varName? (arg : String) : Option String :=
  if arg.toList.contains '.' then none else name? arg

/-- The test of a position in a loop whose variable is among those of the open loops. -/
def indexTest? (vars : List String) (subject object : String) : Option Test :=
  (varName? subject).bind (fun var =>
    if vars.contains var then (IndexPredicate.ofText? object).map (Test.index var) else none)

/-- The test of a key's text against a literal. -/
def isTest? (subject object : String) : Option Test :=
  (name? subject).map (fun key => Test.is key (Argument.unquote object))

def ofFour? (vars : List String) (keyword subject word object : String) : Option Directive :=
  if word = "in" then
    if keyword = "for" ∨ keyword = "for-inv" then
      (varName? subject).bind (fun var =>
        (name? object).map (fun key => loop var key (keyword = "for-inv")))
    else none
  else if word = "is" then
    if keyword = "if" then (isTest? subject object).map condition
    else if keyword = "elif" then (isTest? subject object).map alternative
    else if keyword = "if-index" then (indexTest? vars subject object).map condition
    else if keyword = "elif-index" then (indexTest? vars subject object).map alternative
    else none
  else none

/-- The directive of a command, given the variables of the open loops. -/
def ofArgs? (vars : List String) : List String → Option Directive
  | [keyword] =>
      if keyword = "endfor" then some endLoop
      else if keyword = "else" then some otherwise
      else if keyword = "last" then some last
      else if keyword = "endif" then some endCondition
      else (name? keyword).map lookup
  | [keyword, key] =>
      if keyword = "if-any" then (name? key).map (fun k => condition (.any k))
      else if keyword = "elif-any" then (name? key).map (fun k => alternative (.any k))
      else none
  | [keyword, subject, word, object] => ofFour? vars keyword subject word object
  | _ => none

/-- The test of a branch. -/
def test? : Directive → Option Test
  | condition test => some test
  | alternative test => some test
  | _ => none

/-- The key whose text a directive asks for. -/
def textKey? : Directive → Option String
  | lookup key => some key
  | condition (.is key _) => some key
  | alternative (.is key _) => some key
  | _ => none

/-- The key whose items a directive asks for. -/
def itemsKey? : Directive → Option String
  | loop _ key _ => some key
  | _ => none

theorem ofArgs?_singleton {vars : List String} {key : String}
    (h : key ∉ ["endfor", "else", "last", "endif"]) (hk : key.toList.head? ≠ some '"') :
    ofArgs? vars [key] = some (lookup key) := by
  simp only [List.mem_cons, List.not_mem_nil, or_false, not_or] at h
  simp [ofArgs?, h, name?, hk]

end Directive

end Stencil
