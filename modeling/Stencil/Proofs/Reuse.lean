import Stencil.Proofs.Rendering

/-!
# A renderer can be used again

Each iteration of a loop is one more scope, which is pushed before the body and popped behind it,
whether the body goes on, leaves the loop or fails.  So all that rendering does ends in the scopes
in which it began, and nothing of a template is left in the renderer: the next template is
rendered as on a renderer that was never used, and every key has the value that it had.

**Results.**
* `Renderer.render_keeps`: a renderer is as before after any template.
* `Renderer.renderAll_eq`: each of several templates is rendered as if it were the first.
* `Renderer.renderAll_new`: the same of a renderer on some data, and of what its keys lead to.
-/

namespace Stencil

namespace Renderer

/-- A renderer afterwards has the scopes in which its template ended. -/
theorem render_snd (r : Renderer) (t : Template) :
    (r.render t).2 = ⟨Machine.scopesAfter (Machine.body t.nodes ⟨r.scopes, ""⟩)⟩ := by
  rw [render]
  cases Machine.body t.nodes ⟨r.scopes, ""⟩ with
  | ok flow m => rfl
  | error e m => rfl

/-- **A renderer is as before after any template**, whatever came of it. -/
theorem render_keeps (r : Renderer) (t : Template) : (r.render t).2 = r := by
  rw [render_snd, Machine.scopesAfter_of_gives (Machine.gives_body t.nodes ⟨r.scopes, ""⟩)]

/-- Renders templates one after the other: what comes of each, and the renderer afterwards. -/
def renderAll (r : Renderer) : List Template → List (Except RenderError String) × Renderer
  | [] => ([], r)
  | t :: ts =>
      let first := r.render t
      let rest := first.2.renderAll ts
      (first.1 :: rest.1, rest.2)

/-- Each of several templates is rendered as if it were the first. -/
theorem renderAll_eq (r : Renderer) (ts : List Template) :
    r.renderAll ts = (ts.map (fun t => (r.render t).1), r) := by
  induction ts with
  | nil => rfl
  | cons t ts ih => rw [renderAll, render_keeps, ih, List.map_cons]

/-- **A renderer can be used again.**  Rendering leaves the scopes of any renderer as they were.
So on some data each of several templates gives what it gives on a renderer of its own, also
behind some that failed, and afterwards each key leads to what it led to before. -/
theorem renderAll_new :
    (∀ (r : Renderer) (t : Template), (r.render t).2.scopes = r.scopes) ∧
    ∀ (data : Value) (ts : List Template),
      ((new data).renderAll ts).1 = ts.map (fun t => ((new data).render t).1) ∧
      ((new data).renderAll ts).2.scopes = (new data).scopes ∧
      ∀ key line, ((new data).renderAll ts).2.getValue key line = (new data).getValue key line := by
  refine ⟨fun r t => congrArg Renderer.scopes (render_keeps r t), fun data ts => ?_⟩
  rw [renderAll_eq]
  exact ⟨rfl, rfl, fun key line => rfl⟩

end Renderer

end Stencil
