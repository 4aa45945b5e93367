import Stencil.Proofs.Positions
import Stencil.Template.Names

/-!
# Guarded keys are found

A test whether a key can be resolved guards the body of its branch: where the body is rendered
the key is still resolved, and asking for it cannot fail because it is not found.  The loops in
between may bind the first segment of the key to items in which the rest of it leads nowhere; the
search then goes on outwards and comes to what answered the test, if not to something before.  So
the keys that are known to be resolved only grow from task to task.

**Results.**
* `Scopes.Resolves.push`: an inner loop takes no answer away.
* `Machine.resolves_of_begins`: what is resolved stays so in each task that is begun.
* `Machine.secure_of_begins`, `Machine.secure_of_reaches`: a task whose keys are guarded begins
  only such tasks.
* `Scopes.resolve?_eq_none_of_answer`: a key that is not found is one that was asked for and that
  nothing resolves.
* `Template.generate_ne_notFound`: a template all of whose keys are guarded finds them.
-/

namespace Stencil

/-! ## Keys that are resolved -/

namespace Scopes

/-- Whether each of some keys is resolved. -/
def Resolves (s : Scopes) (keys : List String) : Prop :=
  ∀ key ∈ keys, (s.resolve? (Path.ofKey key)).isSome = true

/-- **An inner loop takes no answer away**: where its item has none, the scopes around answer. -/
theorem Resolves.push {s : Scopes} {keys : List String} (h : s.Resolves keys) (b : Binding) :
    (s.push b).Resolves keys := by
  intro key hkey
  have houter : (s.resolve? (Path.ofKey key)).isSome = true := h key hkey
  rw [resolve?_push, Option.isSome_or, houter, Bool.or_true]

/-- Where a test holds, the keys that it guards are resolved. -/
theorem resolves_guards {s : Scopes} {line : Nat} {test : Test}
    (h : s.test line test = .ok true) : s.Resolves test.guards := by
  intro key hkey
  cases test with
  | any guarded =>
      obtain rfl : key = guarded := List.mem_singleton.1 hkey
      rw [Scopes.test] at h
      exact Except.ok.inj h
  | is _ _ => cases hkey
  | index _ _ => cases hkey

theorem Resolves.append {s : Scopes} {keys others : List String} (h : s.Resolves keys)
    (hothers : s.Resolves others) : s.Resolves (keys ++ others) := by
  intro key hkey
  rcases List.mem_append.1 hkey with hmem | hmem
  · exact h key hmem
  · exact hothers key hmem

/-! ## Keys that are not found -/

/-- Whatever is made of the value of a key, only the search for it does not find the key. -/
theorem resolve?_eq_none_of_bind {α : Type} {s : Scopes} {key other : String} {line l : Nat}
    {f : Value → Except RenderError α} (hf : ∀ v, f v ≠ .error ⟨l, .notFound other⟩)
    (h : (s.value key line).bind f = .error ⟨l, .notFound other⟩) :
    other = key ∧ s.resolve? (Path.ofKey key) = none := by
  unfold value at h
  cases hfound : s.resolve? (Path.ofKey key) with
  | some v =>
      rw [hfound] at h
      exact absurd h (hf v)
  | none =>
      rw [hfound] at h
      cases h
      exact ⟨rfl, rfl⟩

theorem resolve?_eq_none_of_text {s : Scopes} {key other : String} {line l : Nat}
    (h : s.text key line = .error ⟨l, .notFound other⟩) :
    other = key ∧ s.resolve? (Path.ofKey key) = none := by
  refine resolve?_eq_none_of_bind (fun v => ?_) h
  cases v.toText? <;> simp

theorem resolve?_eq_none_of_items {s : Scopes} {key other : String} {line l : Nat}
    (h : s.items key line = .error ⟨l, .notFound other⟩) :
    other = key ∧ s.resolve? (Path.ofKey key) = none := by
  refine resolve?_eq_none_of_bind (fun v => ?_) h
  cases v.asSequence? <;> simp

/-- The key of a test is not found because nothing resolves it. -/
theorem resolve?_eq_none_of_test {s : Scopes} {test : Test} {key : String} {line l : Nat}
    (h : s.test line test = .error ⟨l, .notFound key⟩) :
    (∃ literal, test = .is key literal) ∧ s.resolve? (Path.ofKey key) = none := by
  rcases test_eq_error h with ⟨asked, literal, rfl, htext⟩ | ⟨var, predicate, rfl, hiteration⟩
  · obtain ⟨rfl, hnone⟩ := resolve?_eq_none_of_text htext
    exact ⟨⟨literal, rfl⟩, hnone⟩
  · -- a loop that is missing is another failure
    unfold iteration at hiteration
    split at hiteration
    · cases hiteration
    · cases hiteration

/-- **A key that is not found is one that was asked for and that nothing resolves.** -/
theorem resolve?_eq_none_of_answer {s : Scopes} {d : Directive} {key : String} {line l : Nat}
    (h : s.answer line d = .error ⟨l, .notFound key⟩) :
    (d.textKey? = some key ∨ d.itemsKey? = some key) ∧ s.resolve? (Path.ofKey key) = none := by
  cases d with
  | lookup asked =>
      obtain ⟨rfl, hnone⟩ := resolve?_eq_none_of_text (eq_error_of_map_eq_error h)
      exact ⟨Or.inl rfl, hnone⟩
  | loop var asked reverse =>
      obtain ⟨rfl, hnone⟩ := resolve?_eq_none_of_items (eq_error_of_map_eq_error h)
      exact ⟨Or.inr rfl, hnone⟩
  | condition test =>
      obtain ⟨⟨literal, rfl⟩, hnone⟩ := resolve?_eq_none_of_test (eq_error_of_map_eq_error h)
      exact ⟨Or.inl rfl, hnone⟩
  | alternative test =>
      obtain ⟨⟨literal, rfl⟩, hnone⟩ := resolve?_eq_none_of_test (eq_error_of_map_eq_error h)
      exact ⟨Or.inl rfl, hnone⟩
  | _ => cases h

end Scopes

/-! ## Tasks -/

namespace Machine

/-- Whether a task asks only for keys that are known to be resolved. -/
def Task.Guarded (known : List String) : Task → Prop
  | node n => n.Guarded known
  | body nodes => bodyGuarded known nodes
  | branches _ left other => branchesGuarded known left ∧ otherwiseGuarded known other
  | iterations _ _ _ nodes _ => bodyGuarded known nodes

/-- Whether the keys for which a task asks are guarded by keys that are resolved in a state. -/
def Secure (task : Task) (m : Machine) : Prop :=
  ∃ known, task.Guarded known ∧ m.scopes.Resolves known

/-- The directive of a guarded task asks for a key that is known to be resolved. -/
theorem Task.Guarded.mem_of_directive? {known : List String} {task : Task}
    (h : task.Guarded known) {d : Directive} {line : Nat} (hd : task.directive? = some (d, line))
    {key : String} (hkey : d.textKey? = some key ∨ d.itemsKey? = some key) : key ∈ known := by
  cases task with
  | node n =>
      cases n with
      | lookup asked line =>
          cases hd
          rcases hkey with hkey | hkey
          · cases hkey
            exact h
          · cases hkey
      | loop var asked reverse nodes line =>
          cases hd
          rcases hkey with hkey | hkey
          · cases hkey
          · cases hkey
            exact h.1
      | _ => cases hd
  | branches isFirst left other =>
      cases left with
      | nil => cases hd
      | cons b left =>
          obtain ⟨test, nodes, line⟩ := b
          cases hd
          have htest : test.Guarded known := h.1.1
          cases test with
          | is asked literal =>
              cases isFirst <;> rcases hkey with hkey | hkey <;> cases hkey <;> exact htest
          | _ => cases isFirst <;> rcases hkey with hkey | hkey <;> cases hkey
  | body nodes => cases hd
  | iterations var reverse items nodes index => cases hd

/-- Keys that are resolved stay so from task to task. -/
theorem resolves_of_begins {task task' : Task} {m m' : Machine} (h : Begins task m task' m')
    {keys : List String} (hm : m.scopes.Resolves keys) : m'.scopes.Resolves keys := by
  rcases scopes_of_begins h with hsame | ⟨b, hpush, _⟩
  · rw [hsame]
    exact hm
  · rw [hpush]
    exact hm.push b

/-- **A task whose keys are guarded begins only such tasks.** -/
theorem secure_of_begins {task task' : Task} {m m' : Machine} (h : Begins task m task' m')
    (hsecure : Secure task m) : Secure task' m' := by
  obtain ⟨known, hguarded, hresolves⟩ := hsecure
  have hkept := resolves_of_begins h hresolves
  cases h with
  | first n nodes => exact ⟨known, hguarded.1, hkept⟩
  | rest nodes done => exact ⟨known, hguarded.2, hkept⟩
  | loop var reverse nodes found => exact ⟨known, hguarded.2, hkept⟩
  | iteration var reverse nodes _ h => exact ⟨known, hguarded, hkept⟩
  | nextIteration h done => exact ⟨known, hguarded, hkept⟩
  | conditional left other => exact ⟨known, hguarded, hkept⟩
  | taken isFirst nodes left other holds =>
      -- the branch is taken, so what its test guards is resolved from here on
      obtain ⟨⟨_, hbody, _⟩, _⟩ := hguarded
      exact ⟨_, hbody, (Scopes.resolves_guards holds).append hkept⟩
  | passed isFirst nodes left other fails =>
      obtain ⟨⟨_, _, hleft⟩, hother⟩ := hguarded
      exact ⟨known, ⟨hleft, hother⟩, hkept⟩
  | otherwise isFirst nodes => exact ⟨known, hguarded.2, hkept⟩

/-- A task whose keys are guarded comes only to such tasks. -/
theorem secure_of_reaches {task task' : Task} {m m' : Machine} (h : Reaches task m task' m')
    (hsecure : Secure task m) : Secure task' m' :=
  h.keeps secure_of_begins hsecure

/-- A task whose keys are guarded does not itself ask for a key that is not found. -/
theorem Secure.answer_ne {task : Task} {m : Machine} (h : Secure task m) {d : Directive}
    {line : Nat} (hd : task.directive? = some (d, line)) (l : Nat) (key : String) :
    m.scopes.answer line d ≠ .error ⟨l, .notFound key⟩ := by
  intro hanswer
  obtain ⟨known, hguarded, hresolves⟩ := h
  obtain ⟨hkey, hnone⟩ := Scopes.resolve?_eq_none_of_answer hanswer
  have hsome := hresolves key (hguarded.mem_of_directive? hd hkey)
  rw [hnone] at hsome
  cases hsome

end Machine

namespace Template

/-- **A template all of whose keys are guarded finds them**: it may fail on some data, but never
because a key is not found. -/
theorem generate_ne_notFound {t : Template} (h : bodyGuarded [] t.nodes) (data : Value)
    (line : Nat) (key : String) :
    t.generate data ≠ .error (.generation ⟨line, .notFound key⟩) := by
  intro hgenerate
  obtain ⟨e, he, hrender⟩ := generate_eq_error hgenerate
  cases he
  obtain ⟨d, l, s, ⟨task, m, hreach, hd, rfl⟩, hanswer⟩ := render_eq_error_iff.1 hrender
  have hstart : Machine.Secure (.body t.nodes) ⟨⟨data, []⟩, ""⟩ :=
    ⟨[], h, fun key hkey => absurd hkey List.not_mem_nil⟩
  exact (Machine.secure_of_reaches hreach hstart).answer_ne hd line key hanswer

/-- The loop binds the first segment of a guarded key, and two of its items do not answer. -/
theorem generate_ne_notFound_shadowed :
    let tree : Template := ⟨[
      .conditional [.mk (.any "x.a") [
        .conditional [.mk (.any "x.items") [
          .loop "x" "x.items" false [.lookup "x.a" 1] 1] 1] none] 1] none]⟩
    let data : Value := .mapping [("x", .mapping [("a", .string "1"),
      ("items", .sequence [.null, .mapping [("b", .string "2")], .mapping [("a", .string "3")]])])]
    bodyGuarded [] tree.nodes ∧ tree.generate data = .ok "113" ∧
      ∀ line key, tree.generate data ≠ .error (.generation ⟨line, .notFound key⟩) := by
  intro tree data
  have hguarded : bodyGuarded [] tree.nodes := by
    simp [tree, bodyGuarded, Node.Guarded, branchesGuarded, otherwiseGuarded, Test.Guarded,
      Test.guards]
  have hgenerate : tree.generate data = .ok "113" := by
    rw [generate_eq_evaluate]
    rfl
  exact ⟨hguarded, hgenerate, generate_ne_notFound hguarded data⟩

end Template

end Stencil
