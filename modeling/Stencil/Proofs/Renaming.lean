import Stencil.Proofs.Rendering
import Stencil.Template.Names
import Stencil.Value.Alike

/-!
# Renaming a loop variable

In the body of a loop whose variable is renamed the two templates run in environments of the same
shape: where the iterations of the one bind the old variable, those of the other bind the new one,
and beneath both is the same data.  A key that begins with the old variable may be answered by
that loop, by none of the others, and not by the data, which have neither name.  As the new
variable is a whole segment and comes nowhere else, a key finds in the one environment what the
renamed key finds in the other, and goes on outwards in both where an item has no answer.

Around the loop both templates are the same and run in one environment.  So the failures of both
are at the same lines; only the names that they tell may differ.

**Results.**
* `ofKey_renameKey`: to rename a key is to rename its first segment.
* `Environment.Renamed.lookup?_eq`, `Environment.Renamed.position?_eq`: the renamed name finds what
  the name finds.
* `Environment.Renamed.evaluateBody_rename`: the body of the loop means the same.
* `Environment.Renamed.evaluateBody_renameLoop`: a body with the loop in it means the same.
* `Template.generate_renameLoop`: a template generates the same when a loop variable is renamed.
-/

namespace Stencil

/-! ## Names -/

section Names

variable {x y : String}

/-- What becomes of a name when another one takes the place of a variable. -/
def renameVar (x y name : String) : String :=
  if name = x then y else name

theorem renameVar_self (x y : String) : renameVar x y x = y :=
  if_pos rfl

theorem renameVar_of_ne {name : String} (y : String) (h : name ≠ x) : renameVar x y name = name :=
  if_neg h

/-- Names that are not the new one are told apart as before. -/
theorem renameVar_inj {a b : String} (ha : a ≠ y) (hb : b ≠ y) :
    renameVar x y a = renameVar x y b ↔ a = b := by
  by_cases hax : a = x
  · by_cases hbx : b = x
    · exact iff_of_true (by rw [hax, hbx]) (hax.trans hbx.symm)
    · rw [hax, renameVar_self, renameVar_of_ne y hbx]
      exact ⟨fun h => absurd h.symm hb, fun h => absurd h.symm hbx⟩
  · by_cases hbx : b = x
    · rw [hbx, renameVar_self, renameVar_of_ne y hax]
      exact ⟨fun h => absurd h ha, fun h => absurd h hax⟩
    · rw [renameVar_of_ne y hax, renameVar_of_ne y hbx]

/-- **To rename a key is to rename its first segment.** -/
theorem ofKey_renameKey (hdot : '.' ∉ y.toList) (key : String) :
    Path.ofKey (renameKey x y key) =
      ⟨renameVar x y (Path.ofKey key).first, (Path.ofKey key).rest⟩ := by
  by_cases hfirst : (Path.ofKey key).first = x
  · have hrest := (List.forall_mem_cons.1 (Path.not_mem_of_mem_ofKey key)).2
    have hrename : renameKey x y key = Path.toKey ⟨y, (Path.ofKey key).rest⟩ := if_pos hfirst
    rw [hrename, hfirst, renameVar_self]
    exact Path.ofKey_toKey (List.forall_mem_cons.2 ⟨hdot, hrest⟩)
  · rw [renameKey_of_ne y hfirst, renameVar_of_ne y hfirst]

/-- Whether a name comes nowhere in a part of a template with these loop variables, tested
variables and keys, so that it can take the place of a variable that is bound at most so often. -/
structure Renamable (x y : String) (bound : Nat) (loops tested keys : List String) : Prop where
  count : loops.count x ≤ bound
  loops : y ∉ loops
  tested : y ∉ tested
  keys : ∀ key ∈ keys, (Path.ofKey key).first ≠ y

/-- A name that can take the place in a part of a template can do so in each part of this. -/
theorem Renamable.split {bound : Nat} {l l' t t' k k' : List String}
    (h : Renamable x y bound (l ++ l') (t ++ t') (k ++ k')) :
    Renamable x y bound l t k ∧ Renamable x y bound l' t' k' := by
  obtain ⟨hcount, hloops, htested, hkeys⟩ := h
  rw [List.count_append] at hcount
  rw [List.mem_append, not_or] at hloops htested
  rw [List.forall_mem_append] at hkeys
  exact ⟨⟨by omega, hloops.1, htested.1, hkeys.1⟩, ⟨by omega, hloops.2, htested.2, hkeys.2⟩⟩

theorem Renamable.of_loop {bound : Nat} {var key : String} {l t k : List String}
    (h : Renamable x y bound (var :: l) t (key :: k)) :
    Renamable x y bound [var] [] [key] ∧ Renamable x y bound l t k :=
  split h

/-- The parts of branches: the test of the first one, its body and the others. -/
theorem Renamable.of_branch {bound : Nat} {test : Test} {l l' t t' k k' : List String}
    (h : Renamable x y bound (l ++ l') (test.var?.toList ++ t ++ t')
      (test.key?.toList ++ k ++ k')) :
    Renamable x y bound [] test.var?.toList test.key?.toList ∧
      Renamable x y bound l t k ∧ Renamable x y bound l' t' k' := by
  obtain ⟨hfirst, hothers⟩ := h.split
  obtain ⟨htest, hbody⟩ : Renamable x y bound [] test.var?.toList test.key?.toList ∧
    Renamable x y bound l t k := split hfirst
  exact ⟨htest, hbody, hothers⟩

end Names

/-! ## Answers -/

/-- Whether answers are the same up to the names in a failure: both are the same value, or both
fail at the same line and with the same code. -/
inductive SameAnswer {α : Type} : Except RenderError α → Except RenderError α → Prop
  | ok (a : α) : SameAnswer (.ok a) (.ok a)
  | error {e₁ e₂ : RenderError} (hline : e₁.line = e₂.line)
      (hcode : (Error.generation e₁).code = (Error.generation e₂).code) :
      SameAnswer (.error e₁) (.error e₂)

namespace SameAnswer

variable {α β : Type}

theorem refl : ∀ r : Except RenderError α, SameAnswer r r
  | .ok a => .ok a
  | .error _ => .error rfl rfl

theorem bind {r₁ r₂ : Except RenderError α} {f g : α → Except RenderError β}
    (h : SameAnswer r₁ r₂) (hnext : ∀ a, SameAnswer (f a) (g a)) :
    SameAnswer (r₁.bind f) (r₂.bind g) := by
  cases h with
  | ok a => exact hnext a
  | error hline hcode => exact .error hline hcode

theorem map {r₁ r₂ : Except RenderError α} (h : SameAnswer r₁ r₂) (f : α → β) :
    SameAnswer (r₁.map f) (r₂.map f) := by
  cases h with
  | ok a => exact .ok (f a)
  | error hline hcode => exact .error hline hcode

theorem followedBy {a₁ a₂ b₁ b₂ : Meaning} (ha : SameAnswer a₁ a₂) (hb : SameAnswer b₁ b₂) :
    SameAnswer (a₁.followedBy b₁) (a₂.followedBy b₂) := by
  refine ha.bind (fun o => ?_)
  cases o.leaves with
  | true => exact .ok o
  | false => exact hb.map _

/-- Iterations over the same items give the same answer if each of them does. -/
theorem loop {f g : Nat → Value → Meaning}
    (h : ∀ index item, SameAnswer (f index item) (g index item)) (index : Nat)
    (items : List Value) :
    SameAnswer (Meaning.loop f index items) (Meaning.loop g index items) := by
  induction items generalizing index with
  | nil => exact refl _
  | cons item items ih => exact (h index item).followedBy (ih (index + 1))

/-- The same answers are the same results, but for what a failure says. -/
theorem mapError_eq {r₁ r₂ : Except RenderError α} (h : SameAnswer r₁ r₂) :
    (r₁.mapError Error.generation).mapError (fun e => (e.line, e.code)) =
      (r₂.mapError Error.generation).mapError (fun e => (e.line, e.code)) := by
  cases h with
  | ok a => rfl
  | error hline hcode =>
      refine congrArg Except.error (Prod.ext ?_ hcode)
      exact congrArg some hline

end SameAnswer

/-! ## Environments -/

namespace Environment

variable {x y : String} {e₁ e₂ : Environment}

/-- Whether the iterations of an environment are those of another one with a variable renamed,
over data that have an entry for neither name. -/
inductive Renamed (x y : String) : Environment → Environment → Prop
  | data {root : Value} (hx : present (root.get x) = none) (hy : present (root.get y) = none) :
      Renamed x y (.data root) (.data root)
  | iteration {var : String} (hvar : var ≠ y) (item : Value) (index count : Nat)
      {e₁ e₂ : Environment} (h : Renamed x y e₁ e₂) :
      Renamed x y (.iteration var item index count e₁)
        (.iteration (renameVar x y var) item index count e₂)

/-- Loops of other variables bind the same in both. -/
theorem Renamed.iteration_of_ne (h : Renamed x y e₁ e₂) {var : String} (hx : var ≠ x) (hy : var ≠ y)
    (item : Value) (index count : Nat) :
    Renamed x y (.iteration var item index count e₁) (.iteration var item index count e₂) := by
  have hiteration := Renamed.iteration hy item index count h
  rw [renameVar_of_ne y hx] at hiteration
  exact hiteration

/-- Data without an entry of a name do not answer a path that begins with it. -/
theorem lookup?_data_of_get {root : Value} {name : String} (h : present (root.get name) = none)
    (path : List String) : (data root).lookup? (name :: path) = none := by
  rw [lookup?, nonNull_eq, Value.getPath, present_bind_getPath, h]
  rfl

/-- **A renamed path leads where the path led.** -/
theorem Renamed.lookup?_path (h : Renamed x y e₁ e₂) {p : Path} (hp : p.first ≠ y) :
    e₂.lookup? (renameVar x y p.first :: p.rest) = e₁.lookup? p.segments := by
  induction h with
  | data hx hy =>
      by_cases hfirst : p.first = x
      · rw [Path.segments, hfirst, renameVar_self, lookup?_data_of_get hx,
          lookup?_data_of_get hy]
      · rw [renameVar_of_ne y hfirst]
        rfl
  | @iteration var hvar item index count e₁ e₂ h ih =>
      -- both items are asked or neither is, and outside of them both searches agree
      rw [lookup?, lookup?, ih]
      have hhead : (renameVar x y p.first :: p.rest).head? = some (renameVar x y var) ↔
          p.segments.head? = some var := by
        rw [List.head?_cons, Option.some_inj, renameVar_inj hp hvar]
        exact Option.some_inj.symm
      exact ite_congr (propext hhead) (fun _ => rfl) (fun _ => rfl)

/-- A renamed key finds what the key found. -/
theorem Renamed.lookup?_eq (h : Renamed x y e₁ e₂) (hdot : '.' ∉ y.toList) {key : String}
    (hkey : (Path.ofKey key).first ≠ y) :
    e₂.lookup? (segments (renameKey x y key)) = e₁.lookup? (segments key) := by
  rw [segments_eq, segments_eq, ofKey_renameKey hdot]
  exact h.lookup?_path hkey

/-- The loop of a renamed variable stands where that of the variable stood. -/
theorem Renamed.position?_eq (h : Renamed x y e₁ e₂) {var : String} (hvar : var ≠ y) :
    e₂.position? (renameVar x y var) = e₁.position? var := by
  induction h with
  | data => rfl
  | @iteration bound hbound item index count e₁ e₂ h ih =>
      rw [position?, position?, ih]
      exact ite_congr (propext (renameVar_inj hbound hvar)) (fun _ => rfl) (fun _ => rfl)

/-! ### What is asked -/

section Asking

variable {key : String}

theorem Renamed.text_rename (h : Renamed x y e₁ e₂) (hdot : '.' ∉ y.toList)
    (hkey : (Path.ofKey key).first ≠ y) (line : Nat) :
    SameAnswer (e₁.text key line) (e₂.text (renameKey x y key) line) := by
  rw [Environment.text, Environment.text, h.lookup?_eq hdot hkey]
  cases e₁.lookup? (segments key) with
  | none => exact .error rfl rfl
  | some v =>
      cases v with
      | string s => exact .ok _
      | int n => exact .ok _
      | float f => exact .ok _
      | _ => exact .error rfl rfl

theorem Renamed.items_rename (h : Renamed x y e₁ e₂) (hdot : '.' ∉ y.toList)
    (hkey : (Path.ofKey key).first ≠ y) (line : Nat) :
    SameAnswer (e₁.items key line) (e₂.items (renameKey x y key) line) := by
  rw [Environment.items, Environment.items, h.lookup?_eq hdot hkey]
  cases e₁.lookup? (segments key) with
  | none => exact .error rfl rfl
  | some v =>
      cases v with
      | sequence vs => exact .ok _
      | _ => exact .error rfl rfl

/-- A renamed test holds where the test held. -/
theorem Renamed.holds_rename (h : Renamed x y e₁ e₂) (hdot : '.' ∉ y.toList) {test : Test}
    {bound : Nat} (htest : Renamable x y bound [] test.var?.toList test.key?.toList) (line : Nat) :
    SameAnswer (e₁.holds line test) (e₂.holds line (test.rename x y)) := by
  cases test with
  | is key literal =>
      exact (h.text_rename hdot (htest.keys key (List.mem_singleton.2 rfl)) line).map _
  | index var predicate =>
      have hvar : var ≠ y := fun heq => htest.tested (List.mem_singleton.2 heq.symm)
      have hposition : e₂.position? (if var = x then y else var) = e₁.position? var :=
        h.position?_eq hvar
      rw [Test.rename, Environment.holds, Environment.holds, hposition]
      cases e₁.position? var with
      | none => exact .error rfl rfl
      | some position => exact .refl _
  | any key =>
      rw [Test.rename, Environment.holds, Environment.holds,
        h.lookup?_eq hdot (htest.keys key (List.mem_singleton.2 rfl))]
      exact .refl _

end Asking

/-! ## In the loop -/

mutual

/-- A node means the same when the variable of a loop around it is renamed. -/
theorem Renamed.evaluate_rename (hdot : '.' ∉ y.toList) : ∀ {e₁ e₂ : Environment} (n : Node),
    Renamed x y e₁ e₂ → Renamable x y 0 n.loopVars n.testedVars n.keys →
      SameAnswer (n.evaluate e₁) ((n.rename x y).evaluate e₂)
  | _, _, .text _, _, _ => .refl _
  | e₁, e₂, .lookup key line, henv, h => by
      rw [Node.rename, Node.evaluate, Node.evaluate]
      exact (henv.text_rename hdot (h.keys key (List.mem_singleton.2 rfl)) line).bind
        (fun t => .refl _)
  | e₁, e₂, .loop var key reverse nodes line, henv, h => by
      obtain ⟨hloop, hnodes⟩ := Renamable.of_loop h
      have hx : var ≠ x := fun heq => by
        have hcount := hloop.count
        rw [heq, List.count_singleton_self] at hcount
        omega
      have hy : var ≠ y := fun heq => hloop.loops (List.mem_singleton.2 heq.symm)
      rw [Node.rename, Node.evaluate, Node.evaluate]
      refine (henv.items_rename hdot (hloop.keys key (List.mem_singleton.2 rfl)) line).bind
        (fun items => (SameAnswer.loop (fun index item => ?_) 0 _).map _)
      exact Renamed.evaluateBody_rename hdot nodes (henv.iteration_of_ne hx hy item index _) hnodes
  | e₁, e₂, .conditional bs other, henv, h => by
      obtain ⟨hbs, hother⟩ := Renamable.split h
      rw [Node.rename, Node.evaluate, Node.evaluate]
      exact Renamed.evaluateBranches_rename hdot bs henv hbs
        (Renamed.evaluateOtherwise_rename hdot other henv hother)
  | _, _, .last _, _, _ => .refl _

/-- **A body means the same when the variable of a loop around it is renamed.** -/
theorem Renamed.evaluateBody_rename (hdot : '.' ∉ y.toList) : ∀ {e₁ e₂ : Environment}
    (ns : List Node), Renamed x y e₁ e₂ →
      Renamable x y 0 (bodyLoopVars ns) (bodyTestedVars ns) (bodyKeys ns) →
        SameAnswer (evaluateBody e₁ ns) (evaluateBody e₂ (renameBody x y ns))
  | _, _, [], _, _ => .refl _
  | e₁, e₂, n :: ns, henv, h => by
      obtain ⟨hn, hns⟩ := Renamable.split h
      exact (Renamed.evaluate_rename hdot n henv hn).followedBy
        (Renamed.evaluateBody_rename hdot ns henv hns)

/-- Branches mean the same when the variable of a loop around them is renamed. -/
theorem Renamed.evaluateBranches_rename (hdot : '.' ∉ y.toList) : ∀ {e₁ e₂ : Environment}
    {f₁ f₂ : Meaning} (bs : List Branch), Renamed x y e₁ e₂ →
      Renamable x y 0 (branchLoopVars bs) (branchTestedVars bs) (branchKeys bs) →
        SameAnswer f₁ f₂ →
          SameAnswer (evaluateBranches e₁ f₁ bs) (evaluateBranches e₂ f₂ (renameBranches x y bs))
  | _, _, _, _, [], _, _, hfallback => hfallback
  | e₁, e₂, f₁, f₂, .mk test nodes line :: bs, henv, h, hfallback => by
      obtain ⟨htest, hnodes, hbs⟩ := Renamable.of_branch h
      refine (henv.holds_rename hdot htest line).bind (fun holds => ?_)
      cases holds with
      | true => exact Renamed.evaluateBody_rename hdot nodes henv hnodes
      | false => exact Renamed.evaluateBranches_rename hdot bs henv hbs hfallback

/-- An else means the same when the variable of a loop around it is renamed. -/
theorem Renamed.evaluateOtherwise_rename (hdot : '.' ∉ y.toList) : ∀ {e₁ e₂ : Environment}
    (other : Option (List Node)), Renamed x y e₁ e₂ →
      Renamable x y 0 (otherwiseLoopVars other) (otherwiseTestedVars other) (otherwiseKeys other) →
        SameAnswer (evaluateOtherwise e₁ other) (evaluateOtherwise e₂ (renameOtherwise x y other))
  | _, _, none, _, _ => .refl _
  | _, _, some nodes, henv, h => Renamed.evaluateBody_rename hdot nodes henv h

end

/-! ## Around the loop -/

mutual

/-- A node means the same when the variable of a loop in it is renamed. -/
theorem Renamed.evaluate_renameLoop (hdot : '.' ∉ y.toList) : ∀ {env : Environment} (n : Node),
    Renamed x y env env → Renamable x y 1 n.loopVars n.testedVars n.keys →
      SameAnswer (n.evaluate env) ((n.renameLoop x y).evaluate env)
  | _, .text _, _, _ => .refl _
  | _, .lookup _ _, _, _ => .refl _
  | env, .loop var key reverse nodes line, henv, h => by
      obtain ⟨hloop, hnodes⟩ := Renamable.of_loop h
      have hy : var ≠ y := fun heq => hloop.loops (List.mem_singleton.2 heq.symm)
      by_cases hx : var = x
      · -- no other loop in the body binds the variable
        have hbody : Renamable x y 0 (bodyLoopVars nodes) (bodyTestedVars nodes)
            (bodyKeys nodes) := by
          have hcount : (var :: bodyLoopVars nodes).count x ≤ 1 := h.count
          rw [hx, List.count_cons_self] at hcount
          exact ⟨by omega, hnodes.loops, hnodes.tested, hnodes.keys⟩
        rw [Node.renameLoop, if_pos hx, Node.evaluate, Node.evaluate]
        refine (SameAnswer.refl _).bind
          (fun items => (SameAnswer.loop (fun index item => ?_) 0 _).map _)
        -- from here on the two environments differ
        have hiteration := Renamed.iteration hy item index items.length henv
        rw [hx, renameVar_self] at hiteration
        rw [hx]
        exact Renamed.evaluateBody_rename hdot nodes hiteration hbody
      · rw [Node.renameLoop, if_neg hx, Node.evaluate, Node.evaluate]
        refine (SameAnswer.refl _).bind
          (fun items => (SameAnswer.loop (fun index item => ?_) 0 _).map _)
        exact Renamed.evaluateBody_renameLoop hdot nodes (henv.iteration_of_ne hx hy item index _)
          hnodes
  | env, .conditional bs other, henv, h => by
      obtain ⟨hbs, hother⟩ := Renamable.split h
      rw [Node.renameLoop, Node.evaluate, Node.evaluate]
      exact Renamed.evaluateBranches_renameLoop hdot bs henv hbs
        (Renamed.evaluateOtherwise_renameLoop hdot other henv hother)
  | _, .last _, _, _ => .refl _

/-- **A body means the same when the variable of a loop in it is renamed.** -/
theorem Renamed.evaluateBody_renameLoop (hdot : '.' ∉ y.toList) : ∀ {env : Environment}
    (ns : List Node), Renamed x y env env →
      Renamable x y 1 (bodyLoopVars ns) (bodyTestedVars ns) (bodyKeys ns) →
        SameAnswer (evaluateBody env ns) (evaluateBody env (renameLoopBody x y ns))
  | _, [], _, _ => .refl _
  | env, n :: ns, henv, h => by
      obtain ⟨hn, hns⟩ := Renamable.split h
      exact (Renamed.evaluate_renameLoop hdot n henv hn).followedBy
        (Renamed.evaluateBody_renameLoop hdot ns henv hns)

/-- Branches mean the same when the variable of a loop in them is renamed. -/
theorem Renamed.evaluateBranches_renameLoop (hdot : '.' ∉ y.toList) : ∀ {env : Environment}
    {f₁ f₂ : Meaning} (bs : List Branch), Renamed x y env env →
      Renamable x y 1 (branchLoopVars bs) (branchTestedVars bs) (branchKeys bs) →
        SameAnswer f₁ f₂ →
          SameAnswer (evaluateBranches env f₁ bs)
            (evaluateBranches env f₂ (renameLoopBranches x y bs))
  | _, _, _, [], _, _, hfallback => hfallback
  | env, f₁, f₂, .mk test nodes line :: bs, henv, h, hfallback => by
      obtain ⟨-, hnodes, hbs⟩ := Renamable.of_branch h
      refine (SameAnswer.refl (env.holds line test)).bind (fun holds => ?_)
      cases holds with
      | true => exact Renamed.evaluateBody_renameLoop hdot nodes henv hnodes
      | false => exact Renamed.evaluateBranches_renameLoop hdot bs henv hbs hfallback

/-- An else means the same when the variable of a loop in it is renamed. -/
theorem Renamed.evaluateOtherwise_renameLoop (hdot : '.' ∉ y.toList) : ∀ {env : Environment}
    (other : Option (List Node)), Renamed x y env env →
      Renamable x y 1 (otherwiseLoopVars other) (otherwiseTestedVars other)
        (otherwiseKeys other) →
        SameAnswer (evaluateOtherwise env other)
          (evaluateOtherwise env (renameLoopOtherwise x y other))
  | _, none, _, _ => .refl _
  | _, some nodes, henv, h => Renamed.evaluateBody_renameLoop hdot nodes henv h

end

end Environment

/-! ## Templates -/

namespace Template

/-- A template in which the loops of a variable bind another one instead. -/
def renameLoop (x y : String) (t : Template) : Template :=
  ⟨renameLoopBody x y t.nodes⟩

/-- **A loop variable can be renamed**: if the variable is bound by one loop, the data have no
entry for the old name or the new one, and the new one is a single segment that comes nowhere in
the template, then the template with the loop renamed generates the same text, or fails at the
same line with the same code. -/
theorem generate_renameLoop {t : Template} {data : Value} {x y : String}
    (honce : (bodyLoopVars t.nodes).count x = 1)
    (hx : present (data.get x) = none) (hy : present (data.get y) = none)
    (hdot : '.' ∉ y.toList) (hloops : y ∉ bodyLoopVars t.nodes)
    (htested : y ∉ bodyTestedVars t.nodes) (hkeys : y ∉ t.rootKeys) :
    (t.generate data).mapError (fun e => (e.line, e.code)) =
      ((t.renameLoop x y).generate data).mapError (fun e => (e.line, e.code)) := by
  have hrenamable : Renamable x y 1 (bodyLoopVars t.nodes) (bodyTestedVars t.nodes)
      (bodyKeys t.nodes) :=
    ⟨Nat.le_of_eq honce, hloops, htested,
      fun key hkey heq => hkeys (List.mem_map.2 ⟨key, hkey, heq⟩)⟩
  have hbody := Environment.Renamed.evaluateBody_renameLoop hdot t.nodes (.data hx hy) hrenamable
  rw [generate_eq_evaluate, generate_eq_evaluate]
  exact (hbody.map Outcome.text).mapError_eq

/-- A test of the position, an inner loop over what stands in an item, and another name that the
variable begins. -/
theorem generate_renameLoop_row :
    let tree : Template := ⟨[.loop "x" "xs" false [
      .conditional [.mk (.index "x" .first) [.text "("] 1] (some [.text ";"]),
      .loop "z" "x.zs" true [.lookup "z" 1, .lookup "x.a" 1] 1] 1]⟩
    let renamed : Template := ⟨[.loop "row" "xs" false [
      .conditional [.mk (.index "row" .first) [.text "("] 1] (some [.text ";"]),
      .loop "z" "row.zs" true [.lookup "z" 1, .lookup "row.a" 1] 1] 1]⟩
    let data : Value := .mapping [("x", .null), ("xs", .sequence [
      .mapping [("a", .string "p"), ("zs", .sequence [.string "1", .string "2"])],
      .mapping [("a", .string "q"), ("zs", .sequence [.string "3"])]])]
    ((bodyLoopVars tree.nodes).count "x" = 1 ∧ '.' ∉ "row".toList ∧
      "row" ∉ bodyLoopVars tree.nodes ∧ "row" ∉ bodyTestedVars tree.nodes ∧
      "row" ∉ tree.rootKeys) ∧
    present (data.get "x") = none ∧ present (data.get "row") = none ∧
    tree.renameLoop "x" "row" = renamed ∧ tree.generate data = .ok "(2p1p;3q" ∧
    (tree.generate data).mapError (fun e => (e.line, e.code)) =
      (renamed.generate data).mapError (fun e => (e.line, e.code)) := by
  intro tree renamed data
  have hnames : (bodyLoopVars tree.nodes).count "x" = 1 ∧ '.' ∉ "row".toList ∧
      "row" ∉ bodyLoopVars tree.nodes ∧ "row" ∉ bodyTestedVars tree.nodes ∧
      "row" ∉ tree.rootKeys := by decide
  have hrename : tree.renameLoop "x" "row" = renamed := by rfl
  have hgenerate : tree.generate data = .ok "(2p1p;3q" := by
    rw [generate_eq_evaluate]
    rfl
  refine ⟨hnames, rfl, rfl, hrename, hgenerate, ?_⟩
  obtain ⟨honce, hdot, hloops, htested, hkeys⟩ := hnames
  rw [← hrename]
  exact generate_renameLoop honce rfl rfl hdot hloops htested hkeys

end Template

end Stencil
