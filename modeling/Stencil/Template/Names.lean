import Stencil.Render.Scope

/-!
# Names in a template

The keys that a template asks for, the names of its loops and tests, and what becomes of
them when a loop variable is renamed.  A key is guarded if a branch around it is only
taken when the key can be resolved.

**Results.**
* `Path.ofKey_toKey`: a path can be read off its key.
* `renameKey_of_ne`: only keys that begin with the variable change.
-/

namespace Stencil

def Test.key? : Test → Option String
  | is key _ => some key
  | index _ _ => none
  | any key => some key

/-- The variable whose position a test is about. -/
def Test.var? : Test → Option String
  | index var _ => some var
  | _ => none

mutual

def Node.keys : Node → List String
  | .text _ => []
  | .lookup key _ => [key]
  | .loop _ key _ body _ => key :: bodyKeys body
  | .conditional branches otherwise => branchKeys branches ++ otherwiseKeys otherwise
  | .last _ => []

def bodyKeys : List Node → List String
  | [] => []
  | n :: ns => n.keys ++ bodyKeys ns

def branchKeys : List Branch → List String
  | [] => []
  | .mk test body _ :: bs => test.key?.toList ++ bodyKeys body ++ branchKeys bs

def otherwiseKeys : Option (List Node) → List String
  | none => []
  | some body => bodyKeys body

end

def Template.rootKeys (t : Template) : List String :=
  (bodyKeys t.nodes).map (fun key => (Path.ofKey key).first)

mutual

def Node.loopVars : Node → List String
  | .loop var _ _ body _ => var :: bodyLoopVars body
  | .conditional branches otherwise => branchLoopVars branches ++ otherwiseLoopVars otherwise
  | _ => []

def bodyLoopVars : List Node → List String
  | [] => []
  | n :: ns => n.loopVars ++ bodyLoopVars ns

def branchLoopVars : List Branch → List String
  | [] => []
  | .mk _ body _ :: bs => bodyLoopVars body ++ branchLoopVars bs

/-- The variables of the loops in an else. -/
def otherwiseLoopVars : Option (List Node) → List String
  | none => []
  | some body => bodyLoopVars body

end

mutual

/-- The variables whose positions a node tests. -/
def Node.testedVars : Node → List String
  | .loop _ _ _ body _ => bodyTestedVars body
  | .conditional branches otherwise =>
      branchTestedVars branches ++ otherwiseTestedVars otherwise
  | _ => []

/-- The variables whose positions a body tests. -/
def bodyTestedVars : List Node → List String
  | [] => []
  | n :: ns => n.testedVars ++ bodyTestedVars ns

/-- The variables whose positions branches test. -/
def branchTestedVars : List Branch → List String
  | [] => []
  | .mk test body _ :: bs => test.var?.toList ++ bodyTestedVars body ++ branchTestedVars bs

/-- The variables whose positions an else tests. -/
def otherwiseTestedVars : Option (List Node) → List String
  | none => []
  | some body => bodyTestedVars body

end

/-! ## Guards -/

/-- The keys that are known to be resolved where a test holds. -/
def Test.guards : Test → List String
  | any key => [key]
  | _ => []

/-- Whether a test asks only for keys that are known to be resolved; to ask whether a key
can be resolved needs no guard. -/
def Test.Guarded (known : List String) : Test → Prop
  | is key _ => key ∈ known
  | _ => True

mutual

/-- Whether a node asks only for keys that are known to be resolved. -/
def Node.Guarded (known : List String) : Node → Prop
  | .text _ => True
  | .lookup key _ => key ∈ known
  | .loop _ key _ body _ => key ∈ known ∧ bodyGuarded known body
  | .conditional branches otherwise =>
      branchesGuarded known branches ∧ otherwiseGuarded known otherwise
  | .last _ => True

/-- Whether a body asks only for keys that are known to be resolved. -/
def bodyGuarded (known : List String) : List Node → Prop
  | [] => True
  | n :: ns => n.Guarded known ∧ bodyGuarded known ns

/-- Whether branches ask only for keys that are known to be resolved. -/
def branchesGuarded (known : List String) : List Branch → Prop
  | [] => True
  | .mk test body _ :: bs =>
      test.Guarded known ∧ bodyGuarded (test.guards ++ known) body ∧ branchesGuarded known bs

/-- Whether an else asks only for keys that are known to be resolved. -/
def otherwiseGuarded (known : List String) : Option (List Node) → Prop
  | none => True
  | some body => bodyGuarded known body

end

/-! ## Renaming -/

def Path.toKey (p : Path) : String :=
  String.ofList (p.first.toList ++ p.rest.flatMap (fun s => '.' :: s.toList))

/-- Segments that have no full stop are those of the key that they make. -/
theorem Path.ofKey_toKey {p : Path} (h : ∀ s ∈ p.segments, '.' ∉ s.toList) :
    Path.ofKey p.toKey = p := by
  obtain ⟨first, rest⟩ := p
  obtain ⟨hfirst, hrest⟩ := List.forall_mem_cons.1 h
  have hchars : ∀ cs ∈ rest.map String.toList, '.' ∉ cs := List.forall_mem_map.2 hrest
  have hcut := cut_flatMap hchars
  rw [List.flatMap_map] at hcut
  rw [ofKey, toKey, String.toList_ofList, cut_append hfirst, hcut]
  simp

def renameKey (x y key : String) : String :=
  let p := Path.ofKey key
  if p.first = x then Path.toKey ⟨y, p.rest⟩ else key

theorem renameKey_of_ne {x key : String} (y : String) (h : (Path.ofKey key).first ≠ x) :
    renameKey x y key = key := by
  simp [renameKey, h]

def Test.rename (x y : String) : Test → Test
  | is key literal => is (renameKey x y key) literal
  | index var predicate => index (if var = x then y else var) predicate
  | any key => any (renameKey x y key)

mutual

/-- A node with the variable of a loop around it renamed. -/
def Node.rename (x y : String) : Node → Node
  | .text s => .text s
  | .lookup key line => .lookup (renameKey x y key) line
  | .loop var key reverse body line =>
      .loop var (renameKey x y key) reverse (renameBody x y body) line
  | .conditional branches otherwise =>
      .conditional (renameBranches x y branches) (renameOtherwise x y otherwise)
  | .last line => .last line

/-- A body with the variable of a loop around it renamed. -/
def renameBody (x y : String) : List Node → List Node
  | [] => []
  | n :: ns => n.rename x y :: renameBody x y ns

/-- Branches with the variable of a loop around them renamed. -/
def renameBranches (x y : String) : List Branch → List Branch
  | [] => []
  | .mk test body line :: bs =>
      .mk (test.rename x y) (renameBody x y body) line :: renameBranches x y bs

/-- An else with the variable of a loop around it renamed. -/
def renameOtherwise (x y : String) : Option (List Node) → Option (List Node)
  | none => none
  | some body => some (renameBody x y body)

end

mutual

/-- A node in which the loops of a variable bind another one instead. -/
def Node.renameLoop (x y : String) : Node → Node
  | .loop var key reverse body line =>
      if var = x then .loop y key reverse (renameBody x y body) line
      else .loop var key reverse (renameLoopBody x y body) line
  | .conditional branches otherwise =>
      .conditional (renameLoopBranches x y branches) (renameLoopOtherwise x y otherwise)
  | n => n

/-- A body in which the loops of a variable bind another one instead. -/
def renameLoopBody (x y : String) : List Node → List Node
  | [] => []
  | n :: ns => n.renameLoop x y :: renameLoopBody x y ns

/-- Branches in which the loops of a variable bind another one instead. -/
def renameLoopBranches (x y : String) : List Branch → List Branch
  | [] => []
  | .mk test body line :: bs =>
      .mk test (renameLoopBody x y body) line :: renameLoopBranches x y bs

/-- An else in which the loops of a variable bind another one instead. -/
def renameLoopOtherwise (x y : String) : Option (List Node) → Option (List Node)
  | none => none
  | some body => some (renameLoopBody x y body)

end

end Stencil
