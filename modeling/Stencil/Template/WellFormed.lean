import Stencil.Template.Basic
import Stencil.Text.Word

/-!
# Well-formed templates

A template that a text can be read as has no empty texts and no two texts in a row,
conditionals with branches of one kind, names of item characters, and exits and tests of
positions only inside of loops.  Its lines start at one and never go back.

**Results.**
* `bodyWellFormed_append`: well-formed bodies that do not meet in two texts join to one.
-/

namespace Stencil

/-- A bare argument. -/
def IsName (s : String) : Prop :=
  s ≠ "" ∧ ∀ c ∈ s.toList, Text.isItem c = true

/-- A bare argument that is a single segment. -/
def IsVariable (s : String) : Prop :=
  IsName s ∧ '.' ∉ s.toList

/-- Names that are directives of their own. -/
def reservedNames : List String :=
  ["endfor", "else", "last", "endif"]

/-- Whether two nodes in a row are not both text. -/
def Node.meets (a b : Node) : Prop :=
  ¬ (a.isText = true ∧ b.isText = true)

/-- Whether no two nodes in a row are text. -/
def textsApart : List Node → Prop
  | a :: b :: ns => a.meets b ∧ textsApart (b :: ns)
  | _ => True

/-- Whether the position of a predicate, if it names one, is below `2 ^ 64`. -/
def IndexPredicate.InRange : IndexPredicate → Prop
  | nth n => n < Nat.pow 2 64
  | _ => True

/-- Names in a test, its position, and the loops around it. -/
def Test.WellFormed (vars : List String) : Test → Prop
  | is key _ => IsName key
  | index var predicate => IsVariable var ∧ var ∈ vars ∧ predicate.InRange
  | any key => IsName key

mutual

/-- Whether a node inside of the loops of some variables is well-formed. -/
def Node.WellFormed (vars : List String) : Node → Prop
  | .text s => s ≠ ""
  | .lookup key _ => IsName key ∧ key ∉ reservedNames
  | .loop var key _ body _ =>
      IsVariable var ∧ IsName key ∧ bodyWellFormed (var :: vars) body ∧ textsApart body
  | .conditional branches otherwise =>
      (∃ kind, branches ≠ [] ∧ branchesWellFormed vars kind branches) ∧
        otherwiseWellFormed vars otherwise
  | .last _ => vars ≠ []

def bodyWellFormed (vars : List String) : List Node → Prop
  | [] => True
  | n :: ns => n.WellFormed vars ∧ bodyWellFormed vars ns

def branchesWellFormed (vars : List String) (kind : ConditionKind) : List Branch → Prop
  | [] => True
  | .mk test body _ :: bs =>
      test.kind = kind ∧ test.WellFormed vars ∧ bodyWellFormed vars body ∧ textsApart body ∧
        branchesWellFormed vars kind bs

def otherwiseWellFormed (vars : List String) : Option (List Node) → Prop
  | none => True
  | some body => bodyWellFormed vars body ∧ textsApart body

end

theorem bodyWellFormed_append (vars : List String) (as bs : List Node) :
    bodyWellFormed vars (as ++ bs) ↔ bodyWellFormed vars as ∧ bodyWellFormed vars bs := by
  induction as with
  | nil => simp [bodyWellFormed]
  | cons n ns ih => simp [bodyWellFormed, ih, and_assoc]

mutual

/-- The lines of a node's directives in their order. -/
def Node.lines : Node → List Nat
  | .text _ => []
  | .lookup _ line => [line]
  | .loop _ _ _ body line => line :: bodyLines body
  | .conditional branches otherwise => branchLines branches ++ otherwiseLines otherwise
  | .last line => [line]

def bodyLines : List Node → List Nat
  | [] => []
  | n :: ns => n.lines ++ bodyLines ns

def branchLines : List Branch → List Nat
  | [] => []
  | .mk _ body line :: bs => line :: bodyLines body ++ branchLines bs

/-- The lines of the directives in an else. -/
def otherwiseLines : Option (List Node) → List Nat
  | none => []
  | some body => bodyLines body

end

mutual

/-- A node without its lines. -/
def Node.unlined : Node → Node
  | .text s => .text s
  | .lookup key _ => .lookup key 0
  | .loop var key reverse body _ => .loop var key reverse (bodyUnlined body) 0
  | .conditional branches otherwise =>
      .conditional (branchesUnlined branches) (otherwiseUnlined otherwise)
  | .last _ => .last 0

/-- A body without its lines. -/
def bodyUnlined : List Node → List Node
  | [] => []
  | n :: ns => n.unlined :: bodyUnlined ns

/-- Branches without their lines. -/
def branchesUnlined : List Branch → List Branch
  | [] => []
  | .mk test body _ :: bs => .mk test (bodyUnlined body) 0 :: branchesUnlined bs

/-- An else without its lines. -/
def otherwiseUnlined : Option (List Node) → Option (List Node)
  | none => none
  | some body => some (bodyUnlined body)

end

namespace Template

/-- A template without its lines: two trees that differ only in where their directives
stand are the same without them. -/
def unlined (t : Template) : Template :=
  ⟨bodyUnlined t.nodes⟩

/-- Whether a template is one that a text can be read as. -/
def WellFormed (t : Template) : Prop :=
  bodyWellFormed [] t.nodes ∧ textsApart t.nodes

/-- Whether the lines of a template start at one and never go back. -/
def LinesAscend (t : Template) : Prop :=
  (∀ line ∈ bodyLines t.nodes, 1 ≤ line) ∧ (bodyLines t.nodes).Pairwise (· ≤ ·)

end Template

end Stencil
