import Stencil.Render.Evaluation
import Stencil.Render.Machine

/-!
# Rendering gives what a template means

The machine changes its scopes and adds to its output as it goes, and what a template means
is found without any change.  From a state of the machine a step gives a meaning if it adds
the text of the meaning to the output, goes on as the meaning says and leaves the scopes as
they were, or fails as the meaning does.

The environment of a place holds what the scopes of the machine hold there.  The number of
iterations is not bounded, so a loop is followed position by position: at each position the
iterations that are left are those of the items from this position on.

**Results.**
* `Scopes.lookup?_environment`: a key has the same value in scopes and in their environment.
* `Machine.scopesAfter_of_gives`: a step that gives a meaning puts the scopes back.
* `Machine.gives_iterate`: a loop over an array gives the iterations over the list.
* `Machine.gives_node`, `Machine.gives_body`: each step gives the meaning of its node.
* `Renderer.render_new`: a template renders to what it means.
* `Template.generate_eq_evaluate`: a template generates what it means.
-/

namespace Stencil

/-! ## Keys -/

theorem Path.splitOn_eq (cs : List Char) :
    cs.splitOn '.' = (Path.cut cs).1 :: (Path.cut cs).2 := by
  induction cs with
  | nil => rfl
  | cons c cs ih =>
      rw [List.splitOn, List.splitOnP_cons_eq_if_modifyHead]
      rw [List.splitOn] at ih
      rw [ih]
      by_cases h : c = '.'
      · simp [Path.cut, h]
      · simp [Path.cut, h]

/-- The segments of a key are those of its path. -/
theorem Environment.segments_eq (key : String) :
    Environment.segments key = (Path.ofKey key).segments := by
  rw [Environment.segments, Path.splitOn_eq]
  rfl

theorem Environment.nonNull_eq (v : Option Value) : Environment.nonNull v = present v := by
  cases v with
  | none => rfl
  | some v => cases v <;> rfl

namespace Scopes

/-- What can be seen in scopes. -/
def environment (s : Scopes) : Environment :=
  s.loops.foldr (fun b outer => .iteration b.var b.item b.index b.count outer) (.data s.root)

theorem environment_push (s : Scopes) (b : Binding) :
    (s.push b).environment = .iteration b.var b.item b.index b.count s.environment :=
  rfl

/-- A path has the same value in scopes and in their environment. -/
theorem lookup?_segments (s : Scopes) (p : Path) :
    s.environment.lookup? p.segments = s.resolve? p := by
  obtain ⟨root, loops⟩ := s
  induction loops with
  | nil =>
      rw [resolve?_nil, ← Environment.nonNull_eq]
      rfl
  | cons b loops ih =>
      have hpush : (⟨root, b :: loops⟩ : Scopes) = push ⟨root, loops⟩ b := rfl
      rw [hpush, resolve?_push, environment_push, Environment.lookup?, ih]
      by_cases hvar : p.first = b.var
      · have hhead : p.segments.head? = some b.var := congrArg some hvar
        have htail : p.segments.tail = p.rest := rfl
        rw [if_pos hhead, htail, Environment.nonNull_eq, Binding.resolve?, if_pos hvar]
        cases present (b.item.getPath p.rest) with
        | none => rfl
        | some v => rfl
      · have hhead : p.segments.head? ≠ some b.var := fun h => hvar (Option.some.inj h)
        rw [if_neg hhead, Binding.resolve?, if_neg hvar, Option.none_or]

/-- A key has the same value in scopes and in their environment. -/
theorem lookup?_environment (s : Scopes) (key : String) :
    s.environment.lookup? (Environment.segments key) = s.resolve? (Path.ofKey key) := by
  rw [Environment.segments_eq, lookup?_segments]

theorem text_environment (s : Scopes) (key : String) (line : Nat) :
    s.environment.text key line = s.text key line := by
  rw [Environment.text, lookup?_environment, text, value]
  cases s.resolve? (Path.ofKey key) with
  | none => rfl
  | some v => cases v <;> rfl

theorem items_environment (s : Scopes) (key : String) (line : Nat) :
    s.environment.items key line = s.items key line := by
  rw [Environment.items, lookup?_environment, items, value]
  cases s.resolve? (Path.ofKey key) with
  | none => rfl
  | some v => cases v <;> rfl

/-- The innermost loop of a variable is at the same position. -/
theorem position?_environment (s : Scopes) (var : String) :
    s.environment.position? var =
      (s.loops.find? (fun b => b.var = var)).map (fun b => (b.index, b.count)) := by
  obtain ⟨root, loops⟩ := s
  induction loops with
  | nil => rfl
  | cons b loops ih =>
      have hpush : (⟨root, b :: loops⟩ : Scopes) = push ⟨root, loops⟩ b := rfl
      rw [hpush, environment_push, Environment.position?, ih]
      by_cases hvar : b.var = var
      · simp [push, hvar]
      · simp [push, hvar]

theorem holds_environment (s : Scopes) (line : Nat) (test : Test) :
    s.environment.holds line test = s.test line test := by
  cases test with
  | is key literal => rw [Environment.holds, text_environment, Scopes.test]
  | any key => rw [Environment.holds, lookup?_environment, Scopes.test]
  | index var predicate =>
      rw [Environment.holds, position?_environment, Scopes.test, iteration]
      cases s.loops.find? (fun b => b.var = var) with
      | none => rfl
      | some b => rfl

end Scopes

/-! ## Steps -/

namespace Machine

/-- How to go on after an outcome. -/
def flowAfter (leaves : Bool) : Flow :=
  if leaves then .leave else .next

/-- Whether a step gives a meaning from a state: it adds the text to the output, or fails
as the meaning does, and the scopes are as before. -/
def Gives {α : Type} (value : Bool → α) (step : Step α) (m : Machine) : Meaning → Prop
  | .ok o => step m = .ok (value o.leaves) ⟨m.scopes, m.output ++ o.text⟩
  | .error e => ∃ output, step m = .error e ⟨m.scopes, output⟩

theorem bind_of_ok {α β : Type} {step : Step α} {m m' : Machine} {a : α}
    (h : step m = .ok a m') (next : α → Step β) : (step >>= next) m = next a m' := by
  show EStateM.bind step next m = next a m'
  rw [EStateM.bind, h]

theorem bind_of_error {α β : Type} {step : Step α} {m m' : Machine} {e : RenderError}
    (h : step m = .error e m') (next : α → Step β) : (step >>= next) m = .error e m' := by
  show EStateM.bind step next m = .error e m'
  rw [EStateM.bind, h]

/-- Steps that do the same in a state give the same meaning from it. -/
theorem gives_of_eq {α : Type} {value : Bool → α} {step other : Step α} {m : Machine}
    {meaning : Meaning} (heq : other m = step m) (h : Gives value step m meaning) :
    Gives value other m meaning := by
  cases meaning with
  | error e =>
      obtain ⟨output, hout⟩ := h
      exact ⟨output, heq.trans hout⟩
  | ok o => exact heq.trans h

/-- **A step that gives a meaning puts the scopes back**, on success and on failure. -/
theorem scopesAfter_of_gives {α : Type} {value : Bool → α} {step : Step α} {m : Machine}
    {meaning : Meaning} (h : Gives value step m meaning) : scopesAfter (step m) = m.scopes := by
  cases meaning with
  | error e =>
      obtain ⟨output, hout⟩ := h
      rw [hout]
      rfl
  | ok o =>
      have hout : step m = .ok (value o.leaves) ⟨m.scopes, m.output ++ o.text⟩ := h
      rw [hout]
      rfl

/-- What is asked of the scopes comes first, and its failure is the failure of the step. -/
theorem gives_ask {α β : Type} {value : Bool → β} {f : Scopes → Except RenderError α}
    {next : α → Step β} {m : Machine} {meaning : α → Meaning}
    (h : ∀ a, Gives value (next a) m (meaning a)) :
    Gives value (ask f >>= next) m ((f m.scopes).bind meaning) := by
  cases hf : f m.scopes with
  | error e =>
      have hask : ask f m = .error e m := by rw [ask, hf]
      exact ⟨m.output, bind_of_error hask next⟩
  | ok a =>
      have hask : ask f m = .ok a m := by rw [ask, hf]
      exact gives_of_eq (bind_of_ok hask next) (h a)

/-- A step that does nothing gives no text. -/
theorem gives_pure {α : Type} (value : Bool → α) (leaves : Bool) (m : Machine) :
    Gives value (pure (value leaves)) m (.ok ⟨"", leaves⟩) := by
  show EStateM.Result.ok (value leaves) m = .ok (value leaves) ⟨m.scopes, m.output ++ ""⟩
  rw [String.append_empty]

/-- Text is added to the output. -/
theorem gives_emit (t : String) (m : Machine) :
    Gives flowAfter (emit t >>= fun _ => pure .next) m (Meaning.text t) :=
  rfl

/-- A step in one more scope gives what it means in there. -/
theorem gives_within {α : Type} {value : Bool → α} {step : Step α} {b : Binding} {m : Machine}
    {meaning : Meaning} (h : Gives value step (m.push b) meaning) :
    Gives value (within b step) m meaning := by
  cases meaning with
  | error e =>
      obtain ⟨output, hout⟩ := h
      refine ⟨output, ?_⟩
      rw [within, hout]
      rfl
  | ok o =>
      have hout : step (m.push b) = .ok (value o.leaves) ⟨_, _⟩ := h
      show within b step m = _
      rw [within, hout]
      rfl

/-- One step after the other, unless the first leaves the loop. -/
theorem gives_followedBy {α : Type} {value : Bool → α} {step : Step Flow} {left : Step α}
    {next : Step α} {m : Machine} {a b : Meaning} (hstep : Gives flowAfter step m a)
    (hleft : ∀ m' : Machine, left m' = .ok (value true) m')
    (hnext : ∀ output, Gives value next ⟨m.scopes, output⟩ b) :
    Gives value (step >>= fun flow => match flow with
      | .leave => left
      | .next => next) m (a.followedBy b) := by
  cases a with
  | error e =>
      obtain ⟨output, hout⟩ := hstep
      exact ⟨output, bind_of_error hout _⟩
  | ok o =>
      obtain ⟨text, leaves⟩ := o
      have hbind := bind_of_ok hstep (fun flow => match flow with
        | .leave => left
        | .next => next)
      cases leaves with
      | true => exact hbind.trans (hleft _)
      | false =>
          have hrest := hnext (m.output ++ text)
          cases b with
          | error e =>
              obtain ⟨output, hout⟩ := hrest
              exact ⟨output, hbind.trans hout⟩
          | ok p =>
              refine hbind.trans (Eq.trans hrest ?_)
              simp [String.append_assoc]

/-- The items of a loop that are left at a position begin with the one that is taken. -/
theorem drop_eq_item_cons (reverse : Bool) (items : List Value) {index : Nat}
    (h : index < items.toArray.size) :
    (if reverse then items.reverse else items).drop index =
      (if reverse then items.toArray[items.toArray.size - 1 - index] else items.toArray[index]) ::
        (if reverse then items.reverse else items).drop (index + 1) := by
  rw [List.size_toArray] at h
  cases reverse with
  | false => exact List.drop_eq_getElem_cons h
  | true =>
      have hrev : index < items.reverse.length := by
        rw [List.length_reverse]
        exact h
      have hdrop := List.drop_eq_getElem_cons hrev
      rw [List.getElem_reverse] at hdrop
      exact hdrop

/-- **A loop over an array gives the iterations over the list**, from each position on. -/
theorem gives_iterate {var : String} {reverse : Bool} {items : List Value} {step : Step Flow}
    {meaning : Nat → Value → Meaning} {s : Scopes}
    (h : ∀ index item output, Gives flowAfter step
      ⟨s.push ⟨var, item, index, items.length⟩, output⟩ (meaning index item))
    (index : Nat) (output : String) :
    Gives (fun _ => ()) (iterate var reverse items.toArray step index) ⟨s, output⟩
      (Meaning.loop meaning index ((if reverse then items.reverse else items).drop index)) := by
  generalize hleft : items.length - index = left
  induction left generalizing index output with
  | zero =>
      have hend : ¬ index < items.toArray.size := by
        rw [List.size_toArray]
        omega
      have hdrop : (if reverse then items.reverse else items).drop index = [] := by
        apply List.drop_eq_nil_of_le
        cases reverse with
        | false => exact Nat.sub_eq_zero_iff_le.1 hleft
        | true =>
            rw [if_pos rfl, List.length_reverse]
            exact Nat.sub_eq_zero_iff_le.1 hleft
      rw [iterate, dif_neg hend, hdrop]
      exact gives_pure (fun _ => ()) false _
  | succ left ih =>
      have hindex : index < items.toArray.size := by
        rw [List.size_toArray]
        omega
      rw [iterate, dif_pos hindex, drop_eq_item_cons reverse items hindex, Meaning.loop]
      refine gives_followedBy (gives_within (h index _ output)) (fun m' => rfl) ?_
      intro output'
      exact ih (index + 1) output' (by omega)

/-- A loop as a node leaves no loop around it. -/
theorem gives_closed {step : Step Unit} {m : Machine} {a : Meaning}
    (h : Gives (fun _ => ()) step m a) :
    Gives flowAfter (step >>= fun _ => pure .next) m a.closed := by
  cases a with
  | error e =>
      obtain ⟨output, hout⟩ := h
      exact ⟨output, bind_of_error hout _⟩
  | ok o => exact bind_of_ok h _

mutual

/-- A node gives its meaning. -/
theorem gives_node : ∀ (n : Node) (m : Machine),
    Gives flowAfter (node n) m (n.evaluate m.scopes.environment)
  | .text t, m => by
      rw [node, Node.evaluate]
      exact gives_emit t m
  | .lookup key line, m => by
      rw [node, Node.evaluate, Scopes.text_environment]
      exact gives_ask (f := fun s => s.text key line) (fun t => gives_emit t m)
  | .loop var key reverse nodes line, m => by
      rw [node, Node.evaluate, Scopes.items_environment]
      refine gives_ask (f := fun s => s.items key line) (fun items => gives_closed ?_)
      refine gives_iterate (fun index item output => ?_) 0 m.output
      exact gives_body nodes ⟨m.scopes.push ⟨var, item, index, items.length⟩, output⟩
  | .conditional bs other, m => by
      rw [node, Node.evaluate]
      exact gives_branches bs (gives_otherwise other m)
  | .last _, m => by
      rw [node, Node.evaluate]
      exact gives_pure flowAfter true m

/-- A body gives its meaning. -/
theorem gives_body : ∀ (ns : List Node) (m : Machine),
    Gives flowAfter (body ns) m (evaluateBody m.scopes.environment ns)
  | [], m => by
      rw [body, evaluateBody]
      exact gives_pure flowAfter false m
  | n :: ns, m => by
      rw [body, evaluateBody]
      exact gives_followedBy (gives_node n m) (fun m' => rfl)
        (fun output => gives_body ns ⟨m.scopes, output⟩)

/-- Branches give their meaning if the fallback does. -/
theorem gives_branches : ∀ (bs : List Branch) {fallback : Step Flow} {m : Machine}
    {meaning : Meaning}, Gives flowAfter fallback m meaning →
      Gives flowAfter (branches bs fallback) m
        (evaluateBranches m.scopes.environment meaning bs)
  | [], fallback, m, meaning, h => by
      rw [branches, evaluateBranches]
      exact h
  | .mk test nodes line :: bs, fallback, m, meaning, h => by
      rw [branches, evaluateBranches, Scopes.holds_environment]
      refine gives_ask (f := fun s => s.test line test) (fun holds => ?_)
      cases holds with
      | true => exact gives_body nodes m
      | false => exact gives_branches bs h

/-- An else gives its meaning. -/
theorem gives_otherwise : ∀ (other : Option (List Node)) (m : Machine),
    Gives flowAfter (otherwise other) m (evaluateOtherwise m.scopes.environment other)
  | none, m => by
      rw [otherwise, evaluateOtherwise]
      exact gives_pure flowAfter false m
  | some nodes, m => by
      rw [otherwise, evaluateOtherwise]
      exact gives_body nodes m

end

end Machine

/-- **A template renders to what it means**, and the renderer is as before. -/
theorem Renderer.render_new (t : Template) (data : Value) :
    (Renderer.new data).render t = (t.evaluate data, Renderer.new data) := by
  have h := Machine.gives_body t.nodes ⟨⟨data, []⟩, ""⟩
  have henv : Scopes.environment ⟨data, []⟩ = .data data := rfl
  rw [henv] at h
  rw [Renderer.render, Template.evaluate, Renderer.new]
  cases hmeaning : evaluateBody (.data data) t.nodes with
  | error e =>
      rw [hmeaning] at h
      obtain ⟨output, hout⟩ := h
      rw [hout]
      rfl
  | ok o =>
      rw [hmeaning] at h
      have hout : Machine.body t.nodes ⟨⟨data, []⟩, ""⟩ = .ok _ ⟨⟨data, []⟩, "" ++ o.text⟩ := h
      rw [hout, String.empty_append]
      rfl

/-- A template generates the text that its body gives, or fails as its body does. -/
theorem Template.generate_of_gives {t : Template} {data : Value} {meaning : Meaning}
    (h : Machine.Gives Machine.flowAfter (Machine.body t.nodes) ⟨⟨data, []⟩, ""⟩ meaning) :
    t.generate data = (meaning.map Outcome.text).mapError .generation := by
  rw [generate, Renderer.render, Renderer.new]
  cases meaning with
  | error e =>
      obtain ⟨output, hout⟩ := h
      rw [hout]
      rfl
  | ok o =>
      have hout : Machine.body t.nodes ⟨⟨data, []⟩, ""⟩ = .ok _ ⟨⟨data, []⟩, "" ++ o.text⟩ := h
      rw [hout, String.empty_append]
      rfl

/-- A template generates what it means, and fails as its meaning does. -/
theorem Template.generate_eq_evaluate (t : Template) (data : Value) :
    t.generate data = (t.evaluate data).mapError .generation :=
  generate_of_gives (Machine.gives_body t.nodes ⟨⟨data, []⟩, ""⟩)

end Stencil
