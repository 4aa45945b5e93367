import Stencil.Directive
import Stencil.Template.WellFormed

/-!
# Sites

A directive of a tree stands on a line and inside of some loops.  The sites of a tree are
its directives in the order in which they are written, each with its line and the variables
of the loops around it.  An else has no line of its own and no site.

**Results.**
* `bodySites_append`, `branchSites_append`: the sites of bodies and of branches follow one
  another.
* `bodyLines_eq`: the lines of a body are those of its sites.
-/

namespace Stencil

/-- A directive at its place in a tree. -/
structure Site where
  /-- The variables of the loops around it, the innermost first. -/
  vars : List String
  directive : Directive
  line : Nat

mutual

/-- The sites of a node inside of the loops of some variables. -/
def Node.sites (vars : List String) : Node → List Site
  | .text _ => []
  | .lookup key line => [⟨vars, .lookup key, line⟩]
  | .loop var key reverse body line =>
      ⟨vars, .loop var key reverse, line⟩ :: bodySites (var :: vars) body
  | .conditional branches otherwise =>
      branchSites vars true branches ++ otherwiseSites vars otherwise
  | .last line => [⟨vars, .last, line⟩]

def bodySites (vars : List String) : List Node → List Site
  | [] => []
  | n :: ns => n.sites vars ++ bodySites vars ns

/-- The sites of branches; `isFirst` says whether the conditional begins with them. -/
def branchSites (vars : List String) (isFirst : Bool) : List Branch → List Site
  | [] => []
  | .mk test body line :: bs =>
      ⟨vars, test.directive isFirst, line⟩ :: bodySites vars body ++ branchSites vars false bs

/-- The sites in an else. -/
def otherwiseSites (vars : List String) : Option (List Node) → List Site
  | none => []
  | some body => bodySites vars body

end

theorem bodySites_append (vars : List String) (as bs : List Node) :
    bodySites vars (as ++ bs) = bodySites vars as ++ bodySites vars bs := by
  induction as with
  | nil => simp [bodySites]
  | cons n ns ih => simp [bodySites, ih]

/-- Behind some branch there is no first one. -/
theorem branchSites_append (vars : List String) (isFirst : Bool) (as bs : List Branch) :
    branchSites vars isFirst (as ++ bs) =
      branchSites vars isFirst as ++ branchSites vars (isFirst && as.isEmpty) bs := by
  induction as generalizing isFirst with
  | nil => simp [branchSites]
  | cons b as ih =>
      obtain ⟨test, body, line⟩ := b
      simp [branchSites, ih]

mutual

theorem Node.lines_eq : ∀ (vars : List String) (n : Node), n.lines = (n.sites vars).map Site.line
  | _, .text _ => rfl
  | _, .lookup _ _ => rfl
  | vars, .loop var key reverse body line => by
      rw [Node.lines, Node.sites, List.map_cons, bodyLines_eq (var :: vars) body]
  | vars, .conditional branches otherwise => by
      rw [Node.lines, Node.sites, List.map_append, branchLines_eq vars true branches,
        otherwiseLines_eq vars otherwise]
  | _, .last _ => rfl

/-- **The lines of a body are those of its sites.** -/
theorem bodyLines_eq : ∀ (vars : List String) (ns : List Node),
    bodyLines ns = (bodySites vars ns).map Site.line
  | _, [] => rfl
  | vars, n :: ns => by
      rw [bodyLines, bodySites, List.map_append, Node.lines_eq vars n, bodyLines_eq vars ns]

theorem branchLines_eq : ∀ (vars : List String) (isFirst : Bool) (bs : List Branch),
    branchLines bs = (branchSites vars isFirst bs).map Site.line
  | _, _, [] => rfl
  | vars, _, .mk test body line :: bs => by
      rw [branchLines, branchSites, List.map_append, List.map_cons, bodyLines_eq vars body,
        branchLines_eq vars false bs]

theorem otherwiseLines_eq : ∀ (vars : List String) (o : Option (List Node)),
    otherwiseLines o = (otherwiseSites vars o).map Site.line
  | _, none => rfl
  | vars, some body => bodyLines_eq vars body

end

end Stencil
