import Stencil.Decimal.Reader

/-!
# Template trees

A parsed template is a list of nodes: text, lookups, loops, conditionals and exits from
the innermost loop.  Directives carry the line on which they stand.

**Results.**
* `IndexPredicate.ofText?_digits`: a run of digits names the position of its value.
* `directives_append`: the directives of two bodies add up.
* `appendText_appendText`, `directives_appendText`: texts join to one, which is no directive.
-/

namespace Stencil

/-- A test of a position in a loop. -/
inductive IndexPredicate where
  | first
  | last
  | even
  | odd
  | nth (n : Nat)
  deriving DecidableEq

namespace IndexPredicate

/-- The predicate that a text names: a word, or a position below `2 ^ 64` in digits. -/
def ofText? (text : String) : Option IndexPredicate :=
  if text = "first" then some first
  else if text = "last" then some last
  else if text = "even" then some even
  else if text = "odd" then some odd
  else ((Decimal.natural? 10 text.toList).filter (· < Nat.pow 2 64)).map nth

/-- Whether a position, counted from zero, in a loop of some length passes the test. -/
def holds : IndexPredicate → Nat → Nat → Bool
  | first, index, _ => index == 0
  | last, index, count => index + 1 == count
  | even, index, _ => index % 2 == 0
  | odd, index, _ => index % 2 == 1
  | nth n, index, _ => index == n

theorem ofText?_digits {text : String} {n : Nat}
    (h : Decimal.natural? 10 text.toList = some n) (hn : n < Nat.pow 2 64)
    (hw : text ∉ ["first", "last", "even", "odd"]) : ofText? text = some (nth n) := by
  simp only [List.mem_cons, List.not_mem_nil, or_false, not_or] at hw
  obtain ⟨h₁, h₂, h₃, h₄⟩ := hw
  have kept : (some n).filter (fun m => decide (m < Nat.pow 2 64)) = some n :=
    Option.filter_some_pos (decide_eq_true hn)
  rw [ofText?, if_neg h₁, if_neg h₂, if_neg h₃, if_neg h₄, h, kept]
  rfl

end IndexPredicate

/-- The condition of one branch. -/
inductive Test where
  /-- The text of a key equals a literal. -/
  | is (key literal : String)
  /-- The position in the loop of a variable passes a test. -/
  | index (var : String) (predicate : IndexPredicate)
  /-- A key can be resolved. -/
  | any (key : String)
  deriving DecidableEq

/-- The kinds of conditionals; all branches of one conditional are of one kind. -/
inductive ConditionKind where
  | is
  | index
  | any
  deriving DecidableEq

def Test.kind : Test → ConditionKind
  | is _ _ => .is
  | index _ _ => .index
  | any _ => .any

mutual

/-- A node of a template. -/
inductive Node where
  /-- Literal text. -/
  | text (text : String)
  /-- The text of a key. -/
  | lookup (key : String) (line : Nat)
  /-- A body for each item of a sequence, from the front or from the back. -/
  | loop (var key : String) (reverse : Bool) (body : List Node) (line : Nat)
  /-- The body of the first branch whose test holds, else the last body if there is one. -/
  | conditional (branches : List Branch) (otherwise : Option (List Node))
  /-- Leaves the innermost loop. -/
  | last (line : Nat)

/-- A tested body. -/
inductive Branch where
  | mk (test : Test) (body : List Node) (line : Nat)

end

instance : Inhabited Node :=
  ⟨.text ""⟩

def Branch.test : Branch → Test
  | mk test _ _ => test

def Branch.body : Branch → List Node
  | mk _ body _ => body

def Branch.line : Branch → Nat
  | mk _ _ line => line

mutual

/-- The number of directives of a node; each branch counts, and so does an else. -/
def Node.directives : Node → Nat
  | .text _ => 0
  | .lookup _ _ => 1
  | .loop _ _ _ body _ => 1 + bodyDirectives body
  | .conditional branches otherwise =>
      branchDirectives branches + otherwiseDirectives otherwise
  | .last _ => 1

def bodyDirectives : List Node → Nat
  | [] => 0
  | n :: ns => n.directives + bodyDirectives ns

def branchDirectives : List Branch → Nat
  | [] => 0
  | .mk _ body _ :: bs => 1 + bodyDirectives body + branchDirectives bs

def otherwiseDirectives : Option (List Node) → Nat
  | none => 0
  | some body => 1 + bodyDirectives body

end

theorem directives_append (as bs : List Node) :
    bodyDirectives (as ++ bs) = bodyDirectives as + bodyDirectives bs := by
  induction as with
  | nil => simp [bodyDirectives]
  | cons n ns ih =>
      simp only [List.cons_append, bodyDirectives, ih]
      omega

theorem directives_reverse (nodes : List Node) :
    bodyDirectives nodes.reverse = bodyDirectives nodes := by
  induction nodes with
  | nil => rfl
  | cons n nodes ih =>
      rw [List.reverse_cons, directives_append, ih, bodyDirectives, bodyDirectives, bodyDirectives]
      omega

def Node.isText : Node → Bool
  | .text _ => true
  | _ => false

/-- Adds text to the nodes of a body, which are given latest first: to the end of a text
if there is one. -/
def appendText : List Node → String → List Node
  | .text before :: rest, s => .text (before ++ s) :: rest
  | nodes, s => .text s :: nodes

theorem appendText_appendText (nodes : List Node) (s u : String) :
    appendText (appendText nodes s) u = appendText nodes (s ++ u) := by
  cases nodes with
  | nil => rfl
  | cons n nodes =>
      cases n with
      | text before => simp [appendText, String.append_assoc]
      | _ => rfl

theorem directives_appendText (nodes : List Node) (s : String) :
    bodyDirectives (appendText nodes s) = bodyDirectives nodes := by
  cases nodes with
  | nil => rfl
  | cons n nodes =>
      cases n with
      | text before => rfl
      | _ => simp [appendText, bodyDirectives, Node.directives]

/-- A parsed template. -/
structure Template where
  nodes : List Node

namespace Template

/-- The number of directives: lookups, loops, branches, elses and loop exits. -/
def directiveCount (t : Template) : Nat :=
  bodyDirectives t.nodes

/-- Whether a template holds no directives at all. -/
def isStatic (t : Template) : Bool :=
  t.nodes.all Node.isText

end Template

end Stencil
