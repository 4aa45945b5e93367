import Stencil.Proofs.Rendering
import Stencil.Render.Task

/-!
# Where rendering fails

Rendering fails just when it comes to a directive whose question the scopes cannot answer,
and it fails with that answer: nothing is tried after the first failure, and no failure comes
from anywhere else.  One direction follows the steps of the renderer into the task that
fails; in the other a failure of a task that is begun is handed on to the task that began it.

**Results.**
* `Scopes.answer_eq_error`: how a directive fails.
* `Machine.fails_node`, `Machine.fails_body`, `Machine.fails_iterate`: a task that fails comes to
  a directive that does.
* `Machine.run_of_begins`, `Machine.run_of_reaches`: a failure is handed on to the start.
* `Template.render_eq_error_iff`: a template fails just as one of its directives does.
-/

namespace Stencil

/-! ## Answers -/

/-- A result that is changed where there is one fails as before. -/
theorem eq_error_of_map_eq_error {ε α β : Type} {f : α → β} {x : Except ε α} {e : ε}
    (h : x.map f = .error e) : x = .error e := by
  cases x with
  | error e' =>
      cases h
      rfl
  | ok a => cases h

namespace Scopes

theorem value_eq_error {s : Scopes} {key : String} {line : Nat} {e : RenderError}
    (h : s.value key line = .error e) : e = ⟨line, .notFound key⟩ := by
  unfold value at h
  split at h
  · cases h
  · cases h
    rfl

/-- The text of a key fails because of the key. -/
theorem text_eq_error {s : Scopes} {key : String} {line : Nat} {e : RenderError}
    (h : s.text key line = .error e) :
    e = ⟨line, .notFound key⟩ ∨ ∃ found, e = ⟨line, .notText key found⟩ := by
  unfold text at h
  cases hv : s.value key line with
  | error e' =>
      rw [hv] at h
      cases h
      exact Or.inl (value_eq_error hv)
  | ok v =>
      rw [hv] at h
      simp only [Except.bind] at h
      split at h
      · cases h
      · cases h
        exact Or.inr ⟨v.kind, rfl⟩

/-- The items of a key fail because of the key. -/
theorem items_eq_error {s : Scopes} {key : String} {line : Nat} {e : RenderError}
    (h : s.items key line = .error e) :
    e = ⟨line, .notFound key⟩ ∨ ∃ found, e = ⟨line, .notSequence key found⟩ := by
  unfold items at h
  cases hv : s.value key line with
  | error e' =>
      rw [hv] at h
      cases h
      exact Or.inl (value_eq_error hv)
  | ok v =>
      rw [hv] at h
      simp only [Except.bind] at h
      split at h
      · cases h
      · cases h
        exact Or.inr ⟨v.kind, rfl⟩

/-- A test fails because of the text of its key or of the position in a loop. -/
theorem test_eq_error {s : Scopes} {line : Nat} {test : Test} {e : RenderError}
    (h : s.test line test = .error e) :
    (∃ key literal, test = .is key literal ∧ s.text key line = .error e) ∨
      ∃ var predicate, test = .index var predicate ∧ s.iteration var line = .error e := by
  cases test with
  | is key literal => exact Or.inl ⟨key, literal, rfl, eq_error_of_map_eq_error h⟩
  | index var predicate => exact Or.inr ⟨var, predicate, rfl, eq_error_of_map_eq_error h⟩
  | any key => cases h

/-- What the test of a first or a later branch asks for. -/
theorem answer_directive (s : Scopes) (line : Nat) (test : Test) (isFirst : Bool) :
    s.answer line (test.directive isFirst) = (s.test line test).map (fun _ => ()) := by
  cases isFirst with
  | true => rfl
  | false => rfl

/-- **How a directive fails**: at its own line, and because of its own key. -/
theorem answer_eq_error {s : Scopes} {line : Nat} {d : Directive} {e : RenderError}
    (h : s.answer line d = .error e) :
    (∃ key, d.textKey? = some key ∧
      (e = ⟨line, .notFound key⟩ ∨ ∃ found, e = ⟨line, .notText key found⟩)) ∨
    (∃ key, d.itemsKey? = some key ∧
      (e = ⟨line, .notFound key⟩ ∨ ∃ found, e = ⟨line, .notSequence key found⟩)) ∨
    ∃ var predicate, d.test? = some (.index var predicate) ∧ s.iteration var line = .error e := by
  have htest (test : Test) (isFirst : Bool)
      (h : s.answer line (test.directive isFirst) = .error e) :
      (∃ key literal, test = .is key literal ∧
        (e = ⟨line, .notFound key⟩ ∨ ∃ found, e = ⟨line, .notText key found⟩)) ∨
      ∃ var predicate, test = .index var predicate ∧ s.iteration var line = .error e := by
    rw [answer_directive] at h
    rcases test_eq_error (eq_error_of_map_eq_error h) with
      ⟨key, literal, rfl, htext⟩ | ⟨var, predicate, rfl, hiteration⟩
    · exact Or.inl ⟨key, literal, rfl, text_eq_error htext⟩
    · exact Or.inr ⟨var, predicate, rfl, hiteration⟩
  cases d with
  | lookup key => exact Or.inl ⟨key, rfl, text_eq_error (eq_error_of_map_eq_error h)⟩
  | loop var key reverse =>
      exact Or.inr (Or.inl ⟨key, rfl, items_eq_error (eq_error_of_map_eq_error h)⟩)
  | condition test =>
      rcases htest test true h with ⟨key, literal, rfl, he⟩ | ⟨var, predicate, rfl, he⟩
      · exact Or.inl ⟨key, rfl, he⟩
      · exact Or.inr (Or.inr ⟨var, predicate, rfl, he⟩)
  | alternative test =>
      rcases htest test false h with ⟨key, literal, rfl, he⟩ | ⟨var, predicate, rfl, he⟩
      · exact Or.inl ⟨key, rfl, he⟩
      · exact Or.inr (Or.inr ⟨var, predicate, rfl, he⟩)
  | _ => cases h

end Scopes

/-! ## Steps that fail -/

namespace Machine

theorem bind_eq_error {α β : Type} {step : Step α} {next : α → Step β} {m m' : Machine}
    {e : RenderError} (h : (step >>= next) m = .error e m') :
    step m = .error e m' ∨ ∃ a m₁, step m = .ok a m₁ ∧ next a m₁ = .error e m' := by
  cases hs : step m with
  | ok a m₁ =>
      rw [bind_of_ok hs] at h
      exact Or.inr ⟨a, m₁, rfl, h⟩
  | error e' m₁ =>
      rw [bind_of_error hs] at h
      cases h
      exact Or.inl rfl

theorem ask_eq_error {α : Type} {f : Scopes → Except RenderError α} {m m' : Machine}
    {e : RenderError} (h : ask f m = .error e m') : f m.scopes = .error e := by
  unfold ask at h
  split at h
  · cases h
  · next e' he =>
      cases h
      exact he

theorem ask_eq_ok {α : Type} {f : Scopes → Except RenderError α} {m m' : Machine} {a : α}
    (h : ask f m = .ok a m') : f m.scopes = .ok a ∧ m' = m := by
  unfold ask at h
  split at h
  · next a' ha =>
      cases h
      exact ⟨ha, rfl⟩
  · cases h

/-- Whether a task in a state comes to a directive that fails. -/
def Fails (task : Task) (m : Machine) (e : RenderError) : Prop :=
  ∃ task' m' d line, Reaches task m task' m' ∧ task'.directive? = some (d, line) ∧
    m'.scopes.answer line d = .error e

theorem fails_here {task : Task} {m : Machine} {d : Directive} {line : Nat} {e : RenderError}
    (hd : task.directive? = some (d, line)) (he : m.scopes.answer line d = .error e) :
    Fails task m e :=
  ⟨task, m, d, line, .here task m, hd, he⟩

theorem fails_of_begins {task task' : Task} {m m' : Machine} {e : RenderError}
    (h : Begins task m task' m') (he : Fails task' m' e) : Fails task m e := by
  obtain ⟨task'', m'', d, line, hreach, hd, hanswer⟩ := he
  exact ⟨task'', m'', d, line, .onward h hreach, hd, hanswer⟩

/-- Iterations that fail come to a directive that does, if their body does so. -/
theorem fails_iterate {var : String} {reverse : Bool} {items : Array Value} {nodes : List Node}
    (hbody : ∀ m e m', body nodes m = .error e m' → Fails (.body nodes) m e) (index : Nat)
    (m : Machine) (e : RenderError) (m' : Machine)
    (h : iterate var reverse items (body nodes) index m = .error e m') :
    Fails (.iterations var reverse items nodes index) m e := by
  generalize hleft : items.size - index = left
  induction left generalizing index m with
  | zero =>
      rw [iterate, dif_neg (by omega)] at h
      cases h
  | succ left ih =>
      have hindex : index < items.size := by omega
      rw [iterate, dif_pos hindex] at h
      rcases bind_eq_error h with h | ⟨flow, m₁, hrun, h⟩
      · unfold within at h
        split at h
        · cases h
        · next e' m₂ hbodyError =>
            cases h
            exact fails_of_begins (.iteration var reverse nodes m hindex) (hbody _ _ _ hbodyError)
      · cases flow with
        | leave => cases h
        | next =>
            exact fails_of_begins (.nextIteration hindex hrun) (ih (index + 1) m₁ h (by omega))

mutual

/-- A node that fails comes to a directive that does. -/
theorem fails_node : ∀ (n : Node) (m : Machine) (e : RenderError) (m' : Machine),
    node n m = .error e m' → Fails (.node n) m e
  | .text s, m, e, m', h => by
      rw [node] at h
      cases h
  | .lookup key line, m, e, m', h => by
      rw [node] at h
      rcases bind_eq_error h with hask | ⟨s, m₁, _, hemit⟩
      · refine fails_here rfl ?_
        rw [Scopes.answer, ask_eq_error hask]
        rfl
      · cases hemit
  | .loop var key reverse nodes line, m, e, m', h => by
      rw [node] at h
      rcases bind_eq_error h with hask | ⟨items, m₁, hask, hrest⟩
      · refine fails_here rfl ?_
        rw [Scopes.answer, ask_eq_error hask]
        rfl
      · obtain ⟨hitems, rfl⟩ := ask_eq_ok hask
        refine fails_of_begins (.loop var reverse nodes hitems) ?_
        rcases bind_eq_error hrest with hloop | ⟨_, _, _, hpure⟩
        · exact fails_iterate (fails_body nodes) 0 _ e m' hloop
        · cases hpure
  | .conditional bs other, m, e, m', h => by
      rw [node] at h
      exact fails_of_begins (.conditional bs other m)
        (fails_branches bs true other (fails_otherwise other) m e m' h)
  | .last _, m, e, m', h => by
      rw [node] at h
      cases h

/-- A body that fails comes to a directive that does. -/
theorem fails_body : ∀ (nodes : List Node) (m : Machine) (e : RenderError) (m' : Machine),
    body nodes m = .error e m' → Fails (.body nodes) m e
  | [], m, e, m', h => by
      rw [body] at h
      cases h
  | n :: nodes, m, e, m', h => by
      rw [body] at h
      rcases bind_eq_error h with hnode | ⟨flow, m₁, hrun, hrest⟩
      · exact fails_of_begins (.first n nodes m) (fails_node n m e m' hnode)
      · cases flow with
        | leave => cases hrest
        | next => exact fails_of_begins (.rest nodes hrun) (fails_body nodes m₁ e m' hrest)

/-- Branches that fail come to a directive that does, if their else does so. -/
theorem fails_branches : ∀ (bs : List Branch) (isFirst : Bool) (other : Option (List Node)),
    (∀ (isFirst : Bool) (m : Machine) (e : RenderError) (m' : Machine),
      otherwise other m = .error e m' → Fails (.branches isFirst [] other) m e) →
    ∀ (m : Machine) (e : RenderError) (m' : Machine),
      branches bs (otherwise other) m = .error e m' → Fails (.branches isFirst bs other) m e
  | [], isFirst, other, hother, m, e, m', h => by
      rw [branches] at h
      exact hother isFirst m e m' h
  | .mk test nodes line :: bs, isFirst, other, hother, m, e, m', h => by
      rw [branches] at h
      rcases bind_eq_error h with hask | ⟨holds, m₁, hask, hrest⟩
      · refine fails_here rfl ?_
        rw [Scopes.answer_directive, ask_eq_error hask]
        rfl
      · obtain ⟨htest, rfl⟩ := ask_eq_ok hask
        cases holds with
        | true =>
            exact fails_of_begins (.taken isFirst nodes bs other htest)
              (fails_body nodes _ e m' hrest)
        | false =>
            exact fails_of_begins (.passed isFirst nodes bs other htest)
              (fails_branches bs false other hother _ e m' hrest)

/-- An else that fails comes to a directive that does. -/
theorem fails_otherwise : ∀ (other : Option (List Node)) (isFirst : Bool) (m : Machine)
    (e : RenderError) (m' : Machine),
    otherwise other m = .error e m' → Fails (.branches isFirst [] other) m e
  | none, isFirst, m, e, m', h => by
      rw [otherwise] at h
      cases h
  | some nodes, isFirst, m, e, m', h => by
      rw [otherwise] at h
      exact fails_of_begins (.otherwise isFirst nodes m) (fails_body nodes m e m' h)

end

/-! ## Failures are handed on -/

theorem ask_of_ok {α : Type} {f : Scopes → Except RenderError α} {m : Machine} {a : α}
    (h : f m.scopes = .ok a) : ask f m = .ok a m := by
  rw [ask, h]

theorem ask_of_error {α : Type} {f : Scopes → Except RenderError α} {m : Machine}
    {e : RenderError} (h : f m.scopes = .error e) : ask f m = .error e m := by
  rw [ask, h]

/-- A task whose directive fails fails just so. -/
theorem run_of_answer {task : Task} {m : Machine} {d : Directive} {line : Nat} {e : RenderError}
    (hd : task.directive? = some (d, line)) (he : m.scopes.answer line d = .error e) :
    task.run m = .error e m := by
  cases task with
  | node n =>
      cases n with
      | lookup key line =>
          cases hd
          have htext : m.scopes.text key line = .error e := eq_error_of_map_eq_error he
          rw [Task.run, node]
          exact bind_of_error (ask_of_error (f := fun s => s.text key line) htext) _
      | loop var key reverse nodes line =>
          cases hd
          have hitems : m.scopes.items key line = .error e := eq_error_of_map_eq_error he
          rw [Task.run, node]
          exact bind_of_error (ask_of_error (f := fun s => s.items key line) hitems) _
      | _ => cases hd
  | body nodes => cases hd
  | branches isFirst left other =>
      cases left with
      | nil => cases hd
      | cons b left =>
          obtain ⟨test, nodes, line⟩ := b
          cases hd
          rw [Scopes.answer_directive] at he
          have htest : m.scopes.test line test = .error e := eq_error_of_map_eq_error he
          rw [Task.run, branches]
          exact bind_of_error (ask_of_error (f := fun s => s.test line test) htest) _
  | iterations var reverse items nodes index => cases hd

/-- **A failure is handed on to the task that began the failing one.** -/
theorem run_of_begins {task task' : Task} {m m' m₁ : Machine} {e : RenderError}
    (h : Begins task m task' m') (he : task'.run m' = .error e m₁) :
    ∃ m₂, task.run m = .error e m₂ := by
  cases h with
  | first n nodes =>
      rw [Task.run, body]
      exact ⟨m₁, bind_of_error he _⟩
  | rest nodes done =>
      rw [Task.run, body]
      exact ⟨m₁, (bind_of_ok done _).trans he⟩
  | loop var reverse nodes found =>
      rw [Task.run, node]
      exact ⟨m₁, (bind_of_ok (ask_of_ok found) _).trans he⟩
  | iteration var reverse nodes _ h =>
      have hwithin : within (binding var reverse _ _ h) (body nodes) m = .error e m₁.pop := by
        rw [within]
        rw [Task.run] at he
        rw [he]
      rw [Task.run, iterate, dif_pos h]
      exact ⟨m₁.pop, bind_of_error (bind_of_error hwithin _) _⟩
  | nextIteration h done =>
      rcases bind_eq_error he with hiterate | ⟨_, _, _, hpure⟩
      · rw [Task.run, iterate, dif_pos h]
        exact ⟨m₁, bind_of_error ((bind_of_ok done _).trans hiterate) _⟩
      · cases hpure
  | conditional left other =>
      rw [Task.run, node]
      exact ⟨m₁, he⟩
  | @taken line test _ isFirst nodes left other holds =>
      have hask := ask_of_ok (f := fun s => s.test line test) holds
      rw [Task.run, branches]
      exact ⟨m₁, (bind_of_ok hask _).trans he⟩
  | @passed line test _ isFirst nodes left other fails =>
      have hask := ask_of_ok (f := fun s => s.test line test) fails
      rw [Task.run, branches]
      exact ⟨m₁, (bind_of_ok hask _).trans he⟩
  | otherwise isFirst nodes =>
      rw [Task.run, branches, Machine.otherwise]
      exact ⟨m₁, he⟩

/-- A failure is handed on to the task that rendering began with. -/
theorem run_of_reaches {task task' : Task} {m m' m₁ : Machine} {e : RenderError}
    (h : Reaches task m task' m') (he : task'.run m' = .error e m₁) :
    ∃ m₂, task.run m = .error e m₂ := by
  induction h with
  | here => exact ⟨m₁, he⟩
  | onward step rest ih =>
      obtain ⟨m₂, hrest⟩ := ih he
      exact run_of_begins step hrest

/-- **A body fails just as a directive does that it comes to.** -/
theorem body_eq_error_iff {nodes : List Node} {m : Machine} {e : RenderError} :
    (∃ m', body nodes m = .error e m') ↔ Fails (.body nodes) m e := by
  constructor
  · rintro ⟨m', h⟩
    exact fails_body nodes m e m' h
  · rintro ⟨task', m', d, line, hreach, hd, he⟩
    exact run_of_reaches hreach (run_of_answer hd he)

end Machine

/-- What fails while a text is generated is the rendering. -/
theorem Template.generate_eq_error {t : Template} {data : Value} {err : Error}
    (h : t.generate data = .error err) :
    ∃ e, err = .generation e ∧ ((Renderer.new data).render t).1 = .error e := by
  unfold generate at h
  split at h
  · cases h
  · next e he =>
      cases h
      exact ⟨e, rfl, he⟩

/-- **A template fails just as a directive does that is evaluated.** -/
theorem Template.render_eq_error_iff {t : Template} {data : Value} {e : RenderError} :
    ((Renderer.new data).render t).1 = .error e ↔
      ∃ d line s, t.Evaluates data d line s ∧ s.answer line d = .error e := by
  have hrender : ((Renderer.new data).render t).1 = .error e ↔
      ∃ m', Machine.body t.nodes ⟨⟨data, []⟩, ""⟩ = .error e m' := by
    rw [Renderer.render, Renderer.new]
    cases Machine.body t.nodes ⟨⟨data, []⟩, ""⟩ with
    | ok flow m' => simp
    | error e' m' => simp
  rw [hrender, Machine.body_eq_error_iff]
  constructor
  · rintro ⟨task, m, d, line, hreach, hd, he⟩
    exact ⟨d, line, m.scopes, ⟨task, m, hreach, hd, rfl⟩, he⟩
  · rintro ⟨d, line, s, ⟨task, m, hreach, hd, rfl⟩, he⟩
    exact ⟨task, m, d, line, hreach, hd, he⟩

end Stencil
