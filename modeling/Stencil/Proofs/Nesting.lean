import Stencil.Proofs.Descent
import Stencil.Proofs.Role

/-!
# Reading a template is judging its nesting

Whether tokens are read as a template, and otherwise which error they give, is decided by
one pass over them with a stack of open blocks.

The pass is compared with the assembly of the template: the frames of an assembly and the
open blocks of the pass agree block by block (`Nested`), one command keeps this or is at
fault on both sides, and at the end the innermost open block is the same.

**Results.**
* `Nested.after?`: a directive fits the frames of an assembly exactly if its role fits the
  open blocks, and then both agree again.
* `Nested.complete`: an assembly is completed exactly if the pass finds nothing wrong.
* `Template.map_ofTokens`: reading a template gives the verdict on its nesting.
-/

namespace Stencil

/-- The frames of an assembly are open blocks, with the same directives that opened them. -/
inductive Nested : List Frame → Nesting → Prop
  | nil : Nested [] []
  | loop {frames : List Frame} {n : Nesting} (var key : String) (reverse : Bool)
      (opener : String) (line : Nat) (outer : List Node) (rest : Nested frames n) :
      Nested (⟨.loop var key reverse, opener, line, outer⟩ :: frames)
        (⟨.loop var, opener, line⟩ :: n)
  | branch {frames : List Frame} {n : Nesting} (done : List Branch) (test : Test) (branchLine : Nat)
      (opener : String) (line : Nat) (outer : List Node) (rest : Nested frames n) :
      Nested (⟨.branch done test branchLine, opener, line, outer⟩ :: frames)
        (⟨.conditional test.kind false, opener, line⟩ :: n)
  | otherwise {frames : List Frame} {n : Nesting} (done : List Branch) (kind : ConditionKind)
      (opener : String) (line : Nat) (outer : List Node) (rest : Nested frames n) :
      Nested (⟨.otherwise done, opener, line, outer⟩ :: frames)
        (⟨.conditional kind true, opener, line⟩ :: n)

namespace Nested

/-- The open loops bind the same variables. -/
theorem vars_eq {frames : List Frame} {n : Nesting} (h : Nested frames n)
    (nodes : List Node) : Assembly.vars ⟨frames, nodes⟩ = n.vars := by
  induction h with
  | nil => rfl
  | loop var key reverse opener line outer rest ih => exact congrArg (var :: ·) ih
  | branch done test branchLine opener line outer rest ih => exact ih
  | otherwise done kind opener line outer rest ih => exact ih

/-- A directive and its role fit together, and what they leave open agrees. -/
theorem after? {a : Assembly} {n : Nesting} (h : Nested a.frames n) (raw : String)
    (line : Nat) (d : Directive) :
    Option.Rel (fun b m => Nested b.frames m) (a.advance? raw line d)
      (n.after? raw line d.role) := by
  obtain ⟨frames, nodes⟩ := a
  cases d with
  | lookup key => exact .some h
  | loop var key reverse => exact .some (.loop var key reverse raw line nodes h)
  | condition test => exact .some (.branch [] test line raw line nodes h)
  | endLoop =>
      cases h with
      | loop var key reverse opener first outer rest => exact .some rest
      | nil => exact .none
      | branch => exact .none
      | otherwise => exact .none
  | endCondition =>
      cases h with
      | branch done test branchLine opener first outer rest => exact .some rest
      | otherwise done kind opener first outer rest => exact .some rest
      | nil => exact .none
      | loop => exact .none
  | otherwise =>
      cases h with
      | branch done test branchLine opener first outer rest =>
          exact .some (.otherwise _ test.kind opener first outer rest)
      | nil => exact .none
      | loop => exact .none
      | otherwise => exact .none
  | alternative next =>
      cases h with
      | branch done test branchLine opener first outer rest =>
          simp only [Assembly.advance?, Assembly.beginBranch?, Directive.role, Nesting.after?]
          by_cases hk : next.kind = test.kind
          · rw [if_pos hk, if_pos hk, ← hk]
            exact .some (.branch _ next line opener first outer rest)
          · rw [if_neg hk, if_neg hk]
            exact .none
      | nil => exact .none
      | loop => exact .none
      | otherwise => exact .none
  | last =>
      simp only [Assembly.advance?, Assembly.pushLast?, Directive.role, Nesting.after?]
      rw [h.vars_eq nodes]
      by_cases hv : n.vars = []
      · rw [if_pos hv, if_pos hv]
        exact .none
      · rw [if_neg hv, if_neg hv]
        exact .some h

/-- An assembly is completed exactly if nothing is wrong with the tokens that follow. -/
theorem complete {a : Assembly} {n : Nesting} (h : Nested a.frames n) (ts : List Token) :
    (a.complete ts).map (fun _ => ()) = n.verdict ts := by
  induction ts generalizing a n with
  | nil =>
      obtain ⟨frames, nodes⟩ := a
      cases h with
      | nil => rfl
      | loop => rfl
      | branch => rfl
      | otherwise => rfl
  | cons t ts ih =>
      obtain ⟨kind, line⟩ := t
      cases kind with
      | text s =>
          rw [Nesting.verdict]
          exact ih (a := a.pushText s) h
      | escape mark =>
          rw [Nesting.verdict]
          exact ih (a := a.pushText mark) h
      | comment =>
          rw [Nesting.verdict]
          exact ih h
      | command args raw =>
          have hvars : a.vars = n.vars := h.vars_eq a.nodes
          rw [Assembly.complete_command, Nesting.verdict, hvars]
          simp only [Nesting.afterCommand, Role.ofArgs?_eq]
          cases Directive.ofArgs? n.vars args with
          | none => rfl
          | some d =>
              have hrel := h.after? raw line d
              simp only [Assembly.follow, Option.map_some]
              generalize a.advance? raw line d = b? at hrel ⊢
              generalize n.after? raw line d.role = m? at hrel ⊢
              cases hrel with
              | none => rfl
              | some hbm => exact ih hbm

end Nested

/-- **Reading a template gives the verdict on its nesting.** -/
theorem Template.map_ofTokens (tokens : List Token) :
    (Template.ofTokens tokens).map (fun _ => ()) = Nesting.verdict [] tokens := by
  rw [Template.ofTokens_eq_template]
  exact Nested.complete (a := Assembly.start) .nil tokens

end Stencil
