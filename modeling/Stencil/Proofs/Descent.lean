import Stencil.Template.Assembly
import Stencil.Template.Descent

/-!
# Recursive descent and assembly agree

A template can be read from tokens by recursive descent, which keeps the open blocks in
the calls that are under way, or assembled step by step with the open blocks on a stack.
Whatever the tokens are, both give the same tree or the same error.

A body that is read inside of some open blocks is compared with the assembly that goes on
from these blocks: what stopped the reader is the directive that the assembly carries out
next.

**Results.**
* `Descent.complete_nodes`, `Descent.complete_loop`, `Descent.complete_arms`: what is read
  of a body, a loop and a conditional is what the assembly makes of it.
* `Template.ofTokens_eq_template`: both ways to a template agree.
* `Template.parse_eq_template`: the tokens of a text, put together one by one, give its template.
-/

namespace Stencil

namespace Assembly

def complete (a : Assembly) (ts : List Token) : Except ParseError Template :=
  (a.run ts).bind finish

theorem complete_nil (a : Assembly) : a.complete [] = a.finish :=
  rfl

theorem complete_cons (a : Assembly) (t : Token) (ts : List Token) :
    a.complete (t :: ts) = (a.step t).bind (fun b => b.complete ts) := by
  unfold complete
  rw [run]
  cases a.step t with
  | error e => rfl
  | ok b => rfl

/-- A directive that fits nowhere is at fault, any other is carried out. -/
def follow (a : Assembly) (raw : String) (line : Nat) (d : Directive) (rest : List Token) :
    Except ParseError Template :=
  match a.advance? raw line d with
  | none => .error ⟨line, .unmatchedBlock raw⟩
  | some b => b.complete rest

theorem complete_command (a : Assembly) (args : List String) (raw : String) (line : Nat)
    (ts : List Token) :
    a.complete (⟨.command args raw, line⟩ :: ts) =
      match Directive.ofArgs? a.vars args with
      | none => .error ⟨line, .invalidDirective raw⟩
      | some d => a.follow raw line d ts := by
  rw [complete_cons]
  simp only [step, command]
  cases Directive.ofArgs? a.vars args with
  | none => rfl
  | some d =>
      simp only [follow]
      cases a.advance? raw line d with
      | none => rfl
      | some b => rfl

end Assembly

namespace Descent

open Assembly

/-- The directive that asks for something. -/
def Request.directive : Request → Directive
  | endLoop => .endLoop
  | alternative test => .alternative test
  | otherwise => .otherwise
  | endCondition => .endCondition

/-- What becomes of a body inside of some open blocks. -/
def Body.resume (frames : List Frame) {bound : Nat} : Body bound → Except ParseError Template
  | .ended nodes => finish ⟨frames, nodes.reverse⟩
  | .stopped nodes stop rest _ =>
      follow ⟨frames, nodes.reverse⟩ stop.raw stop.line stop.request.directive rest

/-- What becomes of a whole block inside of some open blocks. -/
def Closed.resume (frames : List Frame) (outer : List Node) {bound : Nat} (c : Closed bound) :
    Except ParseError Template :=
  complete ⟨frames, c.node :: outer⟩ c.rest

/-- The block of a conditional whose next body is that of a test, or the else body. -/
def armBlock (done : List Branch) : Option (Test × Nat) → Block
  | some (test, line) => .branch done test line
  | none => .otherwise done

mutual

/-- A body is assembled to the nodes that are read of it. -/
theorem complete_nodes (bound : Nat) (frames : List Frame) (before : List Node)
    (ts : List Token) (le : ts.length ≤ bound) :
    complete ⟨frames, before⟩ ts =
      (nodes bound (vars ⟨frames, before⟩) before ts le).bind (Body.resume frames) := by
  match ts with
  | [] =>
      rw [nodes]
      simp [complete_nil, Except.bind, Body.resume]
  | ⟨.text s, line⟩ :: ts =>
      rw [nodes]
      exact complete_nodes bound frames (appendText before s) ts _
  | ⟨.escape mark, line⟩ :: ts =>
      rw [nodes]
      exact complete_nodes bound frames (appendText before mark) ts _
  | ⟨.comment, line⟩ :: ts =>
      rw [nodes]
      exact complete_nodes bound frames before ts _
  | ⟨.command args raw, line⟩ :: ts =>
      rw [complete_command, nodes]
      cases hd : Directive.ofArgs? (vars ⟨frames, before⟩) args with
      | none => rfl
      | some d =>
          cases d with
          | lookup key => exact complete_nodes bound frames (.lookup key line :: before) ts _
          | loop var key reverse =>
              simp only [follow, advance?, enter]
              rw [complete_loop]
              cases loop (vars ⟨frames, before⟩) var key reverse raw line ts with
              | error e => rfl
              | ok c =>
                  have _ := c.shorter
                  exact complete_nodes bound frames (c.node :: before) c.rest _
          | condition test =>
              have harms := complete_arms frames before test.kind raw line []
                (some (test, line)) (by simp) ts
              simp only [follow, advance?, enter]
              refine harms.trans ?_
              cases arms (vars ⟨frames, before⟩) test.kind raw line [] (some (test, line)) ts with
              | error e => rfl
              | ok c =>
                  have _ := c.shorter
                  exact complete_nodes bound frames (c.node :: before) c.rest _
          | last =>
              simp only [follow, advance?, pushLast?, push]
              by_cases hv : vars ⟨frames, before⟩ = []
              · rw [if_pos hv, if_pos hv]
                rfl
              · rw [if_neg hv, if_neg hv]
                exact complete_nodes bound frames (.last line :: before) ts _
          | endLoop => simp [Except.bind, Body.resume, Request.directive]
          | alternative test => simp [Except.bind, Body.resume, Request.directive]
          | otherwise => simp [Except.bind, Body.resume, Request.directive]
          | endCondition => simp [Except.bind, Body.resume, Request.directive]
termination_by (ts.length, 0)

/-- A loop is assembled to the node that is read of it. -/
theorem complete_loop (frames : List Frame) (outer : List Node) (var key : String)
    (reverse : Bool) (opener : String) (line : Nat) (ts : List Token) :
    complete ⟨⟨.loop var key reverse, opener, line, outer⟩ :: frames, []⟩ ts =
      (loop (vars ⟨frames, outer⟩) var key reverse opener line ts).bind
        (Closed.resume frames outer) := by
  rw [complete_nodes ts.length _ [] ts (Nat.le_refl _), loop]
  have hv : vars ⟨⟨.loop var key reverse, opener, line, outer⟩ :: frames, []⟩ =
      var :: vars ⟨frames, outer⟩ := rfl
  rw [hv]
  cases nodes ts.length (var :: vars ⟨frames, outer⟩) [] ts (Nat.le_refl _) with
  | error e => rfl
  | ok b =>
      cases b with
      | ended body => rfl
      | stopped body stop rest shorter =>
          obtain ⟨request, raw, stopLine⟩ := stop
          cases request with
          | endLoop =>
              simp [Except.bind, Body.resume, Closed.resume, Request.directive, follow, advance?,
                closeLoop?]
          | alternative test => rfl
          | otherwise => rfl
          | endCondition => rfl
termination_by (ts.length, 1)

/-- The rest of a conditional is assembled to the node that is read of it. -/
theorem complete_arms (frames : List Frame) (outer : List Node) (kind : ConditionKind)
    (opener : String) (first : Nat) (done : List Branch) (current : Option (Test × Nat))
    (same : ∀ p ∈ current, p.1.kind = kind) (ts : List Token) :
    complete ⟨⟨armBlock done current, opener, first, outer⟩ :: frames, []⟩ ts =
      (arms (vars ⟨frames, outer⟩) kind opener first done current ts).bind
        (Closed.resume frames outer) := by
  rw [complete_nodes ts.length _ [] ts (Nat.le_refl _), arms]
  have hv : vars ⟨⟨armBlock done current, opener, first, outer⟩ :: frames, []⟩ =
      vars ⟨frames, outer⟩ := by
    cases current <;> rfl
  rw [hv]
  cases nodes ts.length (vars ⟨frames, outer⟩) [] ts (Nat.le_refl _) with
  | error e => rfl
  | ok b =>
      cases b with
      | ended body => rfl
      | stopped body stop rest shorter =>
          obtain ⟨request, raw, stopLine⟩ := stop
          cases current with
          | none =>
              cases request with
              | endCondition =>
                  simp [Except.bind, Body.resume, Closed.resume, Request.directive, follow,
                    advance?, closeConditional?, armBlock]
              | endLoop => rfl
              | alternative test => rfl
              | otherwise => rfl
          | some branch =>
              obtain ⟨test, line⟩ := branch
              have hkind : test.kind = kind := same (test, line) rfl
              cases request with
              | endCondition =>
                  simp [Except.bind, Body.resume, Closed.resume, Request.directive, follow,
                    advance?, closeConditional?, armBlock]
              | endLoop => rfl
              | otherwise =>
                  have hrest := complete_arms frames outer kind opener first
                    (.mk test body line :: done) none (by simp) rest
                  simp only [Except.bind, Body.resume, Request.directive, follow, advance?,
                    beginOtherwise?, armBlock, List.reverse_reverse] at hrest ⊢
                  rw [hrest]
                  cases arms (vars ⟨frames, outer⟩) kind opener first (.mk test body line :: done)
                      none rest with
                  | error e => rfl
                  | ok c => rfl
              | alternative next =>
                  simp only [Except.bind, Body.resume, Request.directive, follow, advance?,
                    beginBranch?, armBlock, List.reverse_reverse, hkind]
                  by_cases hnext : next.kind = kind
                  · have hrest := complete_arms frames outer kind opener first
                      (.mk test body line :: done) (some (next, stopLine)) (by simpa using hnext)
                      rest
                    simp only [armBlock] at hrest
                    simp only [if_pos hnext]
                    rw [hrest]
                    cases arms (vars ⟨frames, outer⟩) kind opener first
                        (.mk test body line :: done) (some (next, stopLine)) rest with
                    | error e => rfl
                    | ok c => rfl
                  · simp only [if_neg hnext]
termination_by (ts.length, 1)

end

end Descent

/-- **Both ways to a template agree.** -/
theorem Template.ofTokens_eq_template (tokens : List Token) :
    Template.ofTokens tokens = Assembly.template tokens := by
  have h := Descent.complete_nodes tokens.length [] [] tokens (Nat.le_refl _)
  have hstart : Assembly.template tokens = Assembly.complete ⟨[], []⟩ tokens := rfl
  have hvars : Assembly.vars ⟨[], []⟩ = [] := rfl
  rw [hstart, h, hvars, Template.ofTokens]
  cases Descent.nodes tokens.length [] [] tokens (Nat.le_refl _) with
  | error e => rfl
  | ok b =>
      cases b with
      | ended nodes => simp [Except.bind, Descent.Body.resume, Assembly.finish]
      | stopped nodes stop rest shorter =>
          -- without open blocks no directive of a block fits
          obtain ⟨request, raw, line⟩ := stop
          cases request with
          | endLoop => rfl
          | alternative test => rfl
          | otherwise => rfl
          | endCondition => rfl

theorem Template.parse_eq_template {config : Config} {m : Marks} {text : String}
    {tokens : List Token} (hm : config.marks = .ok m)
    (h : Token.ofChars m config.trimNewline text.toList = tokens) :
    parse config text = (Assembly.template tokens).mapError .parse := by
  rw [parse_of_marks hm, h, ofTokens_eq_template]

end Stencil
