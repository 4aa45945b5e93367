import Stencil.Proofs.Failure
import Stencil.Proofs.Sites
import Stencil.Proofs.Spelling

/-!
# Tests of positions find their loop

When a template is read, a test of a position is let through if its variable is that of an
open loop; when it is rendered, the loops around it are searched for the variable.  The two
agree: whatever a task may still come to is a site of its own tree inside of the loops that
are under way, and the sites of a template are those of its commands, each inside of the loops
that are open in front of it.

**Results.**
* `Machine.sites_subset_of_begins`, `Machine.sites_subset_of_reaches`: a task begins no site
  that was not before it.
* `Machine.scopes_of_begins`, `Machine.inRange_of_begins`: a task is begun in the same scopes or
  in one more, and the position of each iteration is below their number.
* `Template.exists_of_evaluates`: a directive is evaluated inside of the loops in which its
  command was read.
* `Template.exists_of_render_eq_error`: a template that was read fails only because of a key.
* `Template.index_tests_bound`: every test of a position finds its loop.
-/

namespace Stencil

namespace Scopes

/-- Whether the position of each iteration is below their number. -/
def InRange (s : Scopes) : Prop :=
  ∀ b ∈ s.loops, b.index < b.count

theorem inRange_push {s : Scopes} {b : Binding} (hs : s.InRange) (hb : b.index < b.count) :
    (s.push b).InRange := by
  intro b' hb'
  rcases List.mem_cons.1 hb' with rfl | hmem
  · exact hb
  · exact hs b' hmem

/-- An iteration that is found is one of the loops of the variable. -/
theorem mem_of_iteration {s : Scopes} {var : String} {line : Nat} {b : Binding}
    (h : s.iteration var line = .ok b) : b ∈ s.loops ∧ b.var = var := by
  unfold iteration at h
  split at h
  · next b' hfind =>
      cases h
      have hvar : decide (b.var = var) = true :=
        List.find?_some (p := fun b : Binding => decide (b.var = var)) hfind
      exact ⟨List.mem_of_find?_eq_some hfind, of_decide_eq_true hvar⟩
  · cases h

/-- The loops of just the variables around are found. -/
theorem mem_vars_iff (s : Scopes) (var : String) (line : Nat) :
    var ∈ s.vars ↔ ∃ b, s.iteration var line = .ok b := by
  constructor
  · intro h
    obtain ⟨b, hb, rfl⟩ := List.mem_map.1 h
    have hsome : (s.loops.find? (fun b' => b'.var = b.var)).isSome = true := by
      rw [List.find?_isSome]
      exact ⟨b, hb, decide_eq_true rfl⟩
    obtain ⟨b', hb'⟩ := Option.isSome_iff_exists.1 hsome
    refine ⟨b', ?_⟩
    rw [iteration, hb']
  · rintro ⟨b, hb⟩
    obtain ⟨hmem, rfl⟩ := mem_of_iteration hb
    exact List.mem_map.2 ⟨b, hmem, rfl⟩

end Scopes

/-! ## Tasks -/

namespace Machine

/-- The sites that a task may come to inside of the loops of some variables. -/
def Task.sites (vars : List String) : Task → List Site
  | node n => n.sites vars
  | body nodes => bodySites vars nodes
  | branches isFirst left other => branchSites vars isFirst left ++ otherwiseSites vars other
  | iterations var _ _ nodes _ => bodySites (var :: vars) nodes

/-- The directive of a task is one of its sites. -/
theorem mem_sites_of_directive? {task : Task} {d : Directive} {line : Nat} (vars : List String)
    (h : task.directive? = some (d, line)) : ⟨vars, d, line⟩ ∈ task.sites vars := by
  cases task with
  | node n =>
      cases n with
      | lookup key line =>
          cases h
          exact List.mem_singleton.2 rfl
      | loop var key reverse nodes line =>
          cases h
          exact List.mem_cons_self
      | _ => cases h
  | body nodes => cases h
  | branches isFirst left other =>
      cases left with
      | nil => cases h
      | cons b left =>
          obtain ⟨test, nodes, line⟩ := b
          cases h
          exact List.mem_append_left _ List.mem_cons_self
  | iterations var reverse items nodes index => cases h

/-- A step that succeeds leaves the scopes as they were, if it gives a meaning. -/
theorem scopes_of_gives {α : Type} {value : Bool → α} {step : Step α} {m m' : Machine} {a : α}
    {meaning : Meaning} (h : Gives value step m meaning) (hrun : step m = .ok a m') :
    m'.scopes = m.scopes := by
  have hafter := scopesAfter_of_gives h
  rw [hrun] at hafter
  exact hafter

/-- An iteration that is done leaves the scopes as they were. -/
theorem scopes_of_iteration {b : Binding} {nodes : List Node} {m m' : Machine} {flow : Flow}
    (h : within b (Machine.body nodes) m = .ok flow m') : m'.scopes = m.scopes :=
  scopes_of_gives (gives_within (gives_body nodes (m.push b))) h

/-- **A task begins only sites of its own**, inside of the loops under way. -/
theorem sites_subset_of_begins {task task' : Task} {m m' : Machine}
    (h : Begins task m task' m') : task'.sites m'.scopes.vars ⊆ task.sites m.scopes.vars := by
  cases h with
  | first n nodes => exact List.subset_append_left _ _
  | @rest n _ _ nodes done =>
      rw [scopes_of_gives (gives_node n m) done]
      exact List.subset_append_right _ _
  | loop var reverse nodes found => exact List.subset_cons_self _ _
  | iteration var reverse nodes _ h => exact List.Subset.refl _
  | nextIteration h done =>
      rw [scopes_of_iteration done]
      exact List.Subset.refl _
  | conditional left other => exact List.Subset.refl _
  | taken isFirst nodes left other holds =>
      intro s hs
      exact List.mem_append_left _ (List.mem_cons_of_mem _ (List.mem_append_left _ hs))
  | passed isFirst nodes left other fails =>
      intro s hs
      rcases List.mem_append.1 hs with hleft | hother
      · exact List.mem_append_left _ (List.mem_cons_of_mem _ (List.mem_append_right _ hleft))
      · exact List.mem_append_right _ hother
  | otherwise isFirst nodes => exact List.subset_append_right _ _

/-- A task comes only to sites of its own. -/
theorem sites_subset_of_reaches {task task' : Task} {m m' : Machine}
    (h : Reaches task m task' m') : task'.sites m'.scopes.vars ⊆ task.sites m.scopes.vars :=
  h.keeps (P := fun task' m' => task'.sites m'.scopes.vars ⊆ task.sites m.scopes.vars)
    (fun step hsub => List.Subset.trans (sites_subset_of_begins step) hsub) (List.Subset.refl _)

/-- **A task is begun in the same scopes, or in one more**, that of an iteration whose position is
below their number. -/
theorem scopes_of_begins {task task' : Task} {m m' : Machine} (h : Begins task m task' m') :
    m'.scopes = m.scopes ∨ ∃ b, m'.scopes = m.scopes.push b ∧ b.index < b.count := by
  cases h with
  | @rest n _ _ nodes done => exact Or.inl (scopes_of_gives (gives_node n m) done)
  | iteration var reverse nodes _ h => exact Or.inr ⟨_, rfl, h⟩
  | nextIteration h done => exact Or.inl (scopes_of_iteration done)
  | _ => exact Or.inl rfl

/-- **The position of each iteration stays below their number.** -/
theorem inRange_of_begins {task task' : Task} {m m' : Machine} (h : Begins task m task' m')
    (hm : m.scopes.InRange) : m'.scopes.InRange := by
  rcases scopes_of_begins h with hsame | ⟨b, hpush, hb⟩
  · rw [hsame]
    exact hm
  · rw [hpush]
    exact Scopes.inRange_push hm hb

theorem inRange_of_reaches {task task' : Task} {m m' : Machine} (h : Reaches task m task' m')
    (hm : m.scopes.InRange) : m'.scopes.InRange :=
  h.keeps (P := fun _ m => m.scopes.InRange) inRange_of_begins hm

end Machine

namespace Template

/-- A directive that is evaluated is a site of the template, inside of the loops under way. -/
theorem mem_sites_of_evaluates {t : Template} {data : Value} {d : Directive} {line : Nat}
    {s : Scopes} (h : t.Evaluates data d line s) : ⟨s.vars, d, line⟩ ∈ bodySites [] t.nodes := by
  obtain ⟨task, m, hreach, hd, rfl⟩ := h
  exact Machine.sites_subset_of_reaches hreach (Machine.mem_sites_of_directive? _ hd)

/-- Whatever is evaluated, the position of each iteration is below their number. -/
theorem inRange_of_evaluates {t : Template} {data : Value} {d : Directive} {line : Nat}
    {s : Scopes} (h : t.Evaluates data d line s) : s.InRange := by
  obtain ⟨task, m, hreach, _, rfl⟩ := h
  refine Machine.inRange_of_reaches hreach ?_
  intro b hb
  cases hb

/-- **A directive is evaluated inside of the loops in which its command was read.** -/
theorem exists_of_evaluates {tokens : List Token} {t : Template} (ht : ofTokens tokens = .ok t)
    {data : Value} {d : Directive} {line : Nat} {s : Scopes} (h : t.Evaluates data d line s) :
    ∃ before args raw after a, tokens = before ++ ⟨.command args raw, line⟩ :: after ∧
      Assembly.start.run before = .ok a ∧ a.vars = s.vars ∧
        Directive.ofArgs? a.vars args = some d := by
  have hsite := mem_sites_of_evaluates h
  rw [sites_eq ht] at hsite
  exact Assembly.exists_of_mem_sitesOf hsite

end Template

/-! ## Bound variables -/

/-- A test of a position is read only inside of a loop of its variable. -/
theorem Directive.mem_vars_of_ofArgs? {vars args : List String} {d : Directive} {var : String}
    {predicate : IndexPredicate} (h : ofArgs? vars args = some d)
    (hd : d.test? = some (.index var predicate)) : var ∈ vars := by
  have hspelled := ofArgs?_eq_some_iff.1 h
  cases d with
  | condition test =>
      cases hd
      exact hspelled.2.1
  | alternative test =>
      cases hd
      exact hspelled.2.1
  | _ => cases hd

namespace RenderCause

/-- The key that a failure is because of. -/
def key? : RenderCause → Option String
  | notFound key => some key
  | notText key _ => some key
  | notSequence key _ => some key
  | _ => none

theorem message_notFound (key : String) :
    (notFound key).message = "value not found for \"" ++ key ++ "\"" :=
  rfl

theorem message_unbound (var : String) :
    (unbound var).message = "\"" ++ var ++ "\" is not bound by an enclosing loop" :=
  rfl

theorem notFound_message_ne (key var : String) :
    (notFound key).message ≠ (unbound var).message := by
  intro h
  have hhead := congrArg (fun s : String => s.toList.head?) h
  simp [message_notFound, message_unbound] at hhead

/-- The wording of a failure that ends with a kind does not end with a loop. -/
theorem append_name_ne_unbound (text : String) (found : Kind) (var : String) :
    text ++ found.name ≠ (unbound var).message := by
  intro h
  have hloop : "\" is not bound by an enclosing loop".toList.getLast? = some 'p' := by decide
  have hkind : ∃ c, found.name.toList.getLast? = some c ∧ c ≠ 'p' := by
    cases found with
    | _ => simp [Kind.name]
  obtain ⟨c, hc, hne⟩ := hkind
  have hlast := congrArg (fun s : String => s.toList.getLast?) h
  simp only [message_unbound, String.toList_append, List.getLast?_append, hloop, hc,
    Option.some_or, Option.some.injEq] at hlast
  exact hne hlast

/-- A failure because of a key does not say that a variable is not bound. -/
theorem message_ne_unbound {cause : RenderCause} {key : String} (h : cause.key? = some key)
    (var : String) : cause.message ≠ (unbound var).message := by
  cases cause with
  | notFound key => exact notFound_message_ne key var
  | notText key found => exact append_name_ne_unbound _ found var
  | notSequence key found => exact append_name_ne_unbound _ found var
  | unbound var => cases h
  | custom text => cases h

end RenderCause

namespace Template

section Evaluates

variable {tokens : List Token} {t : Template} {data : Value}

/-- A test of a position finds the loop of its variable. -/
theorem exists_iteration_of_evaluates (ht : ofTokens tokens = .ok t) {d : Directive} {line : Nat}
    {s : Scopes} (h : t.Evaluates data d line s) {var : String} {predicate : IndexPredicate}
    (hd : d.test? = some (.index var predicate)) :
    ∃ b, s.iteration var line = .ok b ∧ b.var = var ∧ b.index < b.count := by
  obtain ⟨_, _, _, _, a, _, _, hvars, hargs⟩ := exists_of_evaluates ht h
  have hmem := Directive.mem_vars_of_ofArgs? hargs hd
  rw [hvars] at hmem
  obtain ⟨b, hb⟩ := (s.mem_vars_iff var line).1 hmem
  obtain ⟨hloop, hvar⟩ := Scopes.mem_of_iteration hb
  exact ⟨b, hb, hvar, inRange_of_evaluates h b hloop⟩

/-- **A template that was read fails only because of a key**, at the line of the directive that
asks for it. -/
theorem exists_of_render_eq_error (ht : ofTokens tokens = .ok t) {e : RenderError}
    (h : ((Renderer.new data).render t).1 = .error e) :
    ∃ d s key, t.Evaluates data d e.line s ∧ s.answer e.line d = .error e ∧
      e.cause.key? = some key ∧ (d.textKey? = some key ∨ d.itemsKey? = some key) := by
  obtain ⟨d, line, s, heval, hanswer⟩ := render_eq_error_iff.1 h
  rcases Scopes.answer_eq_error hanswer with
    ⟨key, hkey, rfl | ⟨found, rfl⟩⟩ | ⟨key, hkey, rfl | ⟨found, rfl⟩⟩ | ⟨x, predicate, hd, hx⟩
  · exact ⟨d, s, key, heval, hanswer, rfl, Or.inl hkey⟩
  · exact ⟨d, s, key, heval, hanswer, rfl, Or.inl hkey⟩
  · exact ⟨d, s, key, heval, hanswer, rfl, Or.inr hkey⟩
  · exact ⟨d, s, key, heval, hanswer, rfl, Or.inr hkey⟩
  · -- the loop of the variable is there, so the search for it does not fail
    obtain ⟨b, hb, _⟩ := exists_iteration_of_evaluates ht heval hd
    rw [hx] at hb
    cases hb

/-- **Every test of a position finds its loop**: no failure says that a variable is not bound,
and the loops under way are those that were open where the test was read. -/
theorem index_tests_bound (ht : ofTokens tokens = .ok t) (data : Value) :
    (∀ e var, ((Renderer.new data).render t).1 = .error e →
      e.cause.message ≠ (RenderCause.unbound var).message) ∧
    ∀ d line s, t.Evaluates data d line s →
      (∃ before args raw after a, tokens = before ++ ⟨.command args raw, line⟩ :: after ∧
        Assembly.start.run before = .ok a ∧ Directive.ofArgs? a.vars args = some d ∧
          a.vars = s.vars ∧ ∀ var, var ∈ a.vars ↔ ∃ b, s.iteration var line = .ok b) ∧
      ∀ var predicate, d.test? = some (.index var predicate) →
        ∃ b, s.iteration var line = .ok b ∧ b.var = var ∧ b.index < b.count := by
  refine ⟨fun e var he => ?_, fun d line s h => ⟨?_, fun var predicate hd => ?_⟩⟩
  · obtain ⟨_, _, key, _, _, hkey, _⟩ := exists_of_render_eq_error ht he
    exact RenderCause.message_ne_unbound hkey var
  · obtain ⟨before, args, raw, after, a, htokens, hrun, hvars, hargs⟩ := exists_of_evaluates ht h
    refine ⟨before, args, raw, after, a, htokens, hrun, hargs, hvars, fun var => ?_⟩
    rw [hvars]
    exact s.mem_vars_iff var line
  · exact exists_iteration_of_evaluates ht h hd

end Evaluates

/-- The test of a position in the first of two iterations finds its loop. -/
theorem index_tests_bound_loop :
    let tokens : List Token := [
      ⟨.command ["for", "x", "in", "items"] "[for x in items]", 1⟩,
      ⟨.command ["if-index", "x", "is", "last"] "[if-index x is last]", 2⟩,
      ⟨.text ".", 2⟩,
      ⟨.command ["endif"] "[endif]", 2⟩,
      ⟨.command ["endfor"] "[endfor]", 3⟩]
    let tree : Template := ⟨[
      .loop "x" "items" false [
        .conditional [.mk (.index "x" .last) [.text "."] 2] none] 1]⟩
    let data : Value := .mapping [("items", .sequence [.string "a", .string "b"])]
    ofTokens tokens = .ok tree ∧
      ∃ s b, tree.Evaluates data (.condition (.index "x" .last)) 2 s ∧
        s.iteration "x" 2 = .ok b ∧ b.index < b.count := by
  intro tokens tree data
  have htree : ofTokens tokens = .ok tree := by
    rw [ofTokens_eq_template]
    rfl
  have hitems : Scopes.items ⟨data, []⟩ "items" 1 = .ok [.string "a", .string "b"] := rfl
  have hevaluates : tree.Evaluates data (.condition (.index "x" .last)) 2 _ :=
    ⟨_, _, .onward (.first _ _ _) (.onward (.loop "x" false _ hitems)
      (.onward (.iteration "x" false _ _ (by decide)) (.onward (.first _ _ _)
        (.onward (.conditional _ _ _) (.here _ _))))), rfl, rfl⟩
  obtain ⟨b, hb, _, hlt⟩ :=
    ((index_tests_bound htree data).2 _ _ _ hevaluates).2 "x" .last rfl
  exact ⟨htree, _, b, hevaluates, hb, hlt⟩

end Template

end Stencil
