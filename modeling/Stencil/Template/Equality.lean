import Stencil.Template.Basic

/-!
# Equality of template trees

Two templates are equal when they are the same tree, lines included.

**Results.**
* `Node.same_iff`, `bodiesSame_iff`: the comparison decides equality.
-/

namespace Stencil

mutual

def Node.same : Node → Node → Bool
  | .text a, .text b => a == b
  | .lookup k l, .lookup k' l' => k == k' && l == l'
  | .loop v k r b l, .loop v' k' r' b' l' =>
      v == v' && k == k' && r == r' && l == l' && bodiesSame b b'
  | .conditional bs o, .conditional bs' o' => branchesSame bs bs' && otherwiseSame o o'
  | .last l, .last l' => l == l'
  | _, _ => false

def bodiesSame : List Node → List Node → Bool
  | [], [] => true
  | a :: as, b :: bs => a.same b && bodiesSame as bs
  | _, _ => false

def branchesSame : List Branch → List Branch → Bool
  | [], [] => true
  | .mk t b l :: as, .mk t' b' l' :: bs =>
      t == t' && l == l' && bodiesSame b b' && branchesSame as bs
  | _, _ => false

/-- Whether two else bodies are the same, or both missing. -/
def otherwiseSame : Option (List Node) → Option (List Node) → Bool
  | none, none => true
  | some a, some b => bodiesSame a b
  | _, _ => false

end

mutual

theorem Node.same_iff : ∀ a b : Node, a.same b = true ↔ a = b
  | .text a, b => by cases b <;> simp [Node.same]
  | .lookup k l, b => by cases b <;> simp [Node.same]
  | .loop v k r body l, b => by
      cases b with
      | loop v' k' r' body' l' =>
          simp [Node.same, bodiesSame_iff body body']
          grind
      | _ => simp [Node.same]
  | .conditional bs o, b => by
      cases b with
      | conditional bs' o' =>
          simp [Node.same, branchesSame_iff bs bs', otherwiseSame_iff o o']
      | _ => simp [Node.same]
  | .last l, b => by cases b <;> simp [Node.same]

theorem bodiesSame_iff : ∀ as bs : List Node, bodiesSame as bs = true ↔ as = bs
  | [], bs => by cases bs <;> simp [bodiesSame]
  | a :: as, bs => by
      cases bs with
      | nil => simp [bodiesSame]
      | cons b bs => simp [bodiesSame, Node.same_iff a b, bodiesSame_iff as bs]

theorem branchesSame_iff : ∀ as bs : List Branch, branchesSame as bs = true ↔ as = bs
  | [], bs => by cases bs <;> simp [branchesSame]
  | .mk t body l :: as, bs => by
      cases bs with
      | nil => simp [branchesSame]
      | cons b bs =>
          obtain ⟨t', body', l'⟩ := b
          simp [branchesSame, bodiesSame_iff body body', branchesSame_iff as bs]
          grind

theorem otherwiseSame_iff :
    ∀ a b : Option (List Node), otherwiseSame a b = true ↔ a = b
  | none, b => by cases b <;> simp [otherwiseSame]
  | some a, b => by
      cases b with
      | none => simp [otherwiseSame]
      | some b => simp [otherwiseSame, bodiesSame_iff a b]

end

instance : DecidableEq Node := fun a b =>
  decidable_of_iff (a.same b = true) (Node.same_iff a b)

instance : DecidableEq Branch
  | .mk t b l, .mk t' b' l' =>
      decidable_of_iff (t = t' ∧ b = b' ∧ l = l') (by simp)

deriving instance DecidableEq for Template

end Stencil
