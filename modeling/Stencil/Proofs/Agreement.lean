import Mathlib.Data.List.Forall2
import Stencil.Proofs.Rendering
import Stencil.Template.Names
import Stencil.Value.Alike

/-!
# Data that a template cannot tell apart

Two environments agree on some keys if each of the keys has values in them that are alike, or a
value in neither, and if every loop stands at the same position in both.  What is asked of the
one is then asked of the other with the same answer, and a loop over items that are alike goes on
in environments that agree again: the item that an iteration adds is alike on both sides, and
where it does not answer both searches go on outwards.  So a body that asks only for these keys
means the same in both.

Data agree on a key if they hold alike values under its first segment.  This is all that a
template sees of its data: neither what kind of value they are, nor what stands under other names.

**Results.**
* `Environment.Agree.iteration`: environments that agree do so inside of a loop.
* `Environment.Agree.text_eq`, `Environment.Agree.items`, `Environment.Agree.holds_eq`: they give
  the same answers.
* `Meaning.loop_congr`: iterations over related items.
* `Environment.Agree.evaluateBody_eq`: a body means the same in environments that agree.
* `Template.generate_congr`: a template generates the same from data that agree on its keys.
* `Template.generate_eq_of_alike`: null entries and the order of mappings are invisible.
* `Template.generate_eq_of_rootKeys`: only what the template names is read.
-/

namespace Stencil

/-! ## Environments -/

namespace Environment

/-- Whether environments give alike values to some keys, and stand at the same positions. -/
structure Agree (keys : List String) (e₁ e₂ : Environment) : Prop where
  lookup : ∀ key ∈ keys,
    Option.Rel Value.Alike (e₁.lookup? (segments key)) (e₂.lookup? (segments key))
  position : ∀ var, e₁.position? var = e₂.position? var

/-- **Environments that agree do so in an iteration of a loop**, for items that are alike. -/
theorem Agree.iteration {keys : List String} {e₁ e₂ : Environment} (h : Agree keys e₁ e₂)
    {a b : Value} (hitem : Value.Alike a b) (var : String) (index count : Nat) :
    Agree keys (.iteration var a index count e₁) (.iteration var b index count e₂) := by
  constructor
  · intro key hkey
    rw [lookup?, lookup?]
    by_cases hvar : (segments key).head? = some var
    · rw [if_pos hvar, if_pos hvar, nonNull_eq, nonNull_eq]
      have hpath := hitem.getPath (segments key).tail
      generalize present (a.getPath (segments key).tail) = v at hpath ⊢
      generalize present (b.getPath (segments key).tail) = w at hpath ⊢
      cases hpath with
      | some hvalues => exact .some hvalues
      | none => exact h.lookup key hkey
    · rw [if_neg hvar, if_neg hvar]
      exact h.lookup key hkey
  · intro other
    rw [position?, position?, h.position other]

/-! ## Answers -/

section Answers

variable {keys : List String} {e₁ e₂ : Environment} {key : String}

theorem Agree.text_eq (h : Agree keys e₁ e₂) (hkey : key ∈ keys) (line : Nat) :
    e₁.text key line = e₂.text key line := by
  have hlookup := h.lookup key hkey
  rw [text, text]
  generalize e₁.lookup? (segments key) = v at hlookup ⊢
  generalize e₂.lookup? (segments key) = w at hlookup ⊢
  cases hlookup with
  | none => rfl
  | some hvalues => cases hvalues <;> rfl

/-- The items of a key are alike, or asking for them fails in the same way. -/
theorem Agree.items (h : Agree keys e₁ e₂) (hkey : key ∈ keys) (line : Nat) :
    (∃ as bs, e₁.items key line = .ok as ∧ e₂.items key line = .ok bs ∧
      List.Forall₂ Value.Alike as bs) ∨
    ∃ e, e₁.items key line = .error e ∧ e₂.items key line = .error e := by
  have hlookup := h.lookup key hkey
  rw [Environment.items, Environment.items]
  generalize e₁.lookup? (segments key) = v at hlookup ⊢
  generalize e₂.lookup? (segments key) = w at hlookup ⊢
  cases hlookup with
  | none => exact Or.inr ⟨_, rfl, rfl⟩
  | some hvalues =>
      cases hvalues with
      | @sequence as bs length items =>
          refine Or.inl ⟨as, bs, rfl, rfl, List.forall₂_iff_get.2 ⟨length, ?_⟩⟩
          intro i ha hb
          exact items i _ _ (List.getElem?_eq_getElem ha) (List.getElem?_eq_getElem hb)
      | _ => exact Or.inr ⟨_, rfl, rfl⟩

theorem Agree.holds_eq (h : Agree keys e₁ e₂) {test : Test}
    (htest : test.key?.toList ⊆ keys) (line : Nat) : e₁.holds line test = e₂.holds line test := by
  cases test with
  | is key literal =>
      have hkey : key ∈ keys := htest (List.mem_singleton.2 rfl)
      rw [holds, holds, h.text_eq hkey]
  | index var predicate => rw [holds, holds, h.position var]
  | any key =>
      have hlookup := h.lookup key (htest (List.mem_singleton.2 rfl))
      rw [holds, holds]
      generalize e₁.lookup? (segments key) = v at hlookup ⊢
      generalize e₂.lookup? (segments key) = w at hlookup ⊢
      cases hlookup with
      | none => rfl
      | some _ => rfl

end Answers

end Environment

/-! ## Meanings -/

/-- Iterations over related items mean the same if each of them does. -/
theorem Meaning.loop_congr {R : Value → Value → Prop} {f g : Nat → Value → Meaning}
    {as bs : List Value} (hitems : List.Forall₂ R as bs)
    (h : ∀ index a b, R a b → f index a = g index b) (index : Nat) :
    Meaning.loop f index as = Meaning.loop g index bs := by
  induction hitems generalizing index with
  | nil => rfl
  | @cons a b as bs hab _ ih => rw [Meaning.loop, Meaning.loop, h index a b hab, ih (index + 1)]

namespace Environment

variable {keys : List String}

mutual

/-- A node means the same in environments that agree on its keys. -/
theorem Agree.evaluate_eq : ∀ {e₁ e₂ : Environment} (n : Node), Agree keys e₁ e₂ →
    n.keys ⊆ keys → n.evaluate e₁ = n.evaluate e₂
  | _, _, .text _, _, _ => rfl
  | e₁, e₂, .lookup key line, h, hkeys => by
      rw [Node.evaluate, Node.evaluate, h.text_eq (hkeys (List.mem_singleton.2 rfl))]
  | e₁, e₂, .loop var key reverse nodes line, h, hkeys => by
      obtain ⟨hkey, hnodes⟩ := List.cons_subset.1 hkeys
      rw [Node.evaluate, Node.evaluate]
      rcases h.items hkey line with ⟨as, bs, has, hbs, hitems⟩ | ⟨e, has, hbs⟩
      · rw [has, hbs]
        refine congrArg Meaning.closed (Meaning.loop_congr (R := Value.Alike) ?_ ?_ 0)
        · cases reverse with
          | false => exact hitems
          | true => exact List.forall₂_reverse_iff.2 hitems
        · intro index a b hab
          rw [hitems.length_eq]
          exact Agree.evaluateBody_eq nodes (h.iteration hab var index bs.length) hnodes
      · rw [has, hbs]
        rfl
  | e₁, e₂, .conditional bs other, h, hkeys => by
      obtain ⟨hbs, hother⟩ := List.append_subset.1 hkeys
      rw [Node.evaluate, Node.evaluate, Agree.evaluateOtherwise_eq other h hother]
      exact Agree.evaluateBranches_eq bs _ h hbs
  | _, _, .last _, _, _ => rfl

/-- **A body means the same in environments that agree on its keys.** -/
theorem Agree.evaluateBody_eq : ∀ {e₁ e₂ : Environment} (ns : List Node), Agree keys e₁ e₂ →
    bodyKeys ns ⊆ keys → evaluateBody e₁ ns = evaluateBody e₂ ns
  | _, _, [], _, _ => rfl
  | e₁, e₂, n :: ns, h, hkeys => by
      obtain ⟨hn, hns⟩ := List.append_subset.1 hkeys
      rw [evaluateBody, evaluateBody, Agree.evaluate_eq n h hn, Agree.evaluateBody_eq ns h hns]

/-- Branches mean the same in environments that agree on their keys. -/
theorem Agree.evaluateBranches_eq : ∀ {e₁ e₂ : Environment} (bs : List Branch)
    (fallback : Meaning), Agree keys e₁ e₂ → branchKeys bs ⊆ keys →
      evaluateBranches e₁ fallback bs = evaluateBranches e₂ fallback bs
  | _, _, [], _, _, _ => rfl
  | e₁, e₂, .mk test nodes line :: bs, fallback, h, hkeys => by
      obtain ⟨hfirst, hbs⟩ := List.append_subset.1 hkeys
      obtain ⟨htest, hnodes⟩ := List.append_subset.1 hfirst
      rw [evaluateBranches, evaluateBranches, h.holds_eq htest,
        Agree.evaluateBody_eq nodes h hnodes, Agree.evaluateBranches_eq bs fallback h hbs]

/-- An else means the same in environments that agree on its keys. -/
theorem Agree.evaluateOtherwise_eq : ∀ {e₁ e₂ : Environment} (other : Option (List Node)),
    Agree keys e₁ e₂ → otherwiseKeys other ⊆ keys →
      evaluateOtherwise e₁ other = evaluateOtherwise e₂ other
  | _, _, none, _, _ => rfl
  | e₁, e₂, some nodes, h, hkeys => by
      rw [evaluateOtherwise, evaluateOtherwise, Agree.evaluateBody_eq nodes h hkeys]

end

/-- Data in which the first segments of some keys lead to alike values agree on the keys. -/
theorem agree_data {d₁ d₂ : Value}
    (h : ∀ key ∈ keys, Option.Rel Value.Alike (present (d₁.get (Path.ofKey key).first))
      (present (d₂.get (Path.ofKey key).first))) : Agree keys (.data d₁) (.data d₂) := by
  refine ⟨fun key hkey => ?_, fun var => rfl⟩
  have hget := h key hkey
  rw [lookup?, lookup?, nonNull_eq, nonNull_eq, segments_eq, Path.segments, Value.getPath,
    Value.getPath, present_bind_getPath, present_bind_getPath]
  generalize present (d₁.get (Path.ofKey key).first) = v at hget ⊢
  generalize present (d₂.get (Path.ofKey key).first) = w at hget ⊢
  cases hget with
  | none => exact .none
  | some hvalues => exact hvalues.getPath (Path.ofKey key).rest

end Environment

/-! ## Templates -/

namespace Template

/-- **A template generates the same from data that agree on its keys**: the same text, or the
same failure. -/
theorem generate_congr {t : Template} {d₁ d₂ : Value}
    (h : ∀ name ∈ t.rootKeys,
      Option.Rel Value.Alike (present (d₁.get name)) (present (d₂.get name))) :
    t.generate d₁ = t.generate d₂ := by
  have hagree : Environment.Agree (bodyKeys t.nodes) (.data d₁) (.data d₂) :=
    Environment.agree_data (fun key hkey => h _ (List.mem_map_of_mem hkey))
  rw [generate_eq_evaluate, generate_eq_evaluate, evaluate, evaluate,
    hagree.evaluateBody_eq t.nodes (List.Subset.refl _)]

/-- **Null entries and the order of mappings are invisible to templates.** -/
theorem generate_eq_of_alike {d₁ d₂ : Value} (h : Value.Alike d₁ d₂) (t : Template) :
    t.generate d₁ = t.generate d₂ :=
  generate_congr (fun name _ => h.get name)

/-- A null entry, a missing one and another order, inside of a loop and beside it. -/
theorem generate_eq_of_alike_nulls :
    let tree : Template := ⟨[.loop "x" "xs" false [.conditional [
      .mk (.any "x.a") [.lookup "x.a" 1] 1, .mk (.any "z") [.text "z"] 1] (some [.text "-"])] 1]⟩
    let d₁ : Value := .mapping [("z", .null), ("xs", .sequence [
      .mapping [("a", .string "1"), ("b", .string "2")], .null, .mapping [("a", .null)]])]
    let d₂ : Value := .mapping [("xs", .sequence [
      .mapping [("b", .string "2"), ("a", .string "1")], .null, .mapping []])]
    Value.Alike d₁ d₂ ∧ tree.generate d₁ = .ok "1--" ∧ tree.generate d₁ = tree.generate d₂ := by
  intro tree d₁ d₂
  have hfirst : Value.Alike (.mapping [("a", .string "1"), ("b", .string "2")])
      (.mapping [("b", .string "2"), ("a", .string "1")]) := by
    refine .of_lookup (fun key => ?_)
    by_cases ha : key = "a"
    · subst ha
      exact .some (.string "1")
    · by_cases hb : key = "b"
      · subst hb
        exact .some (.string "2")
      · simp only [present_lookup_cons, if_neg ha, if_neg hb]
        exact .none
  have hlast : Value.Alike (.mapping [("a", .null)]) (.mapping []) := by
    refine .of_lookup (fun key => ?_)
    by_cases ha : key = "a"
    · subst ha
      exact .none
    · simp only [present_lookup_cons, if_neg ha]
      exact .none
  have halike : Value.Alike d₁ d₂ := by
    refine .of_lookup (fun key => ?_)
    by_cases hxs : key = "xs"
    · subst hxs
      refine .some (.sequence rfl (fun i a b ha hb => ?_))
      match i with
      | 0 =>
          cases ha
          cases hb
          exact hfirst
      | 1 =>
          cases ha
          cases hb
          exact .null
      | 2 =>
          cases ha
          cases hb
          exact hlast
      | i + 3 => cases ha
    · by_cases hz : key = "z"
      · subst hz
        exact .none
      · simp only [present_lookup_cons, if_neg hxs, if_neg hz]
        exact .none
  have hgenerate : tree.generate d₁ = .ok "1--" := by
    rw [generate_eq_evaluate]
    rfl
  exact ⟨halike, hgenerate, generate_eq_of_alike halike tree⟩

/-- **Rendering reads only what the template names**: data that hold the same under the first
segments of its keys give the same text or the same failure. -/
theorem generate_eq_of_rootKeys {t : Template} {d₁ d₂ : Value}
    (h : ∀ name ∈ t.rootKeys, d₁.get name = d₂.get name) : t.generate d₁ = t.generate d₂ := by
  refine generate_congr (fun name hname => ?_)
  rw [h name hname]
  cases present (d₂.get name) with
  | none => exact .none
  | some v => exact .some (Value.Alike.refl v)

/-- Another order and another entry of the data around a loop. -/
theorem generate_eq_of_rootKeys_loop :
    let tree : Template := ⟨[.loop "x" "xs" false [.lookup "x.a" 1, .lookup "k" 1] 1]⟩
    let xs : Value := .sequence [.mapping [("a", .string "1")], .mapping [("a", .string "2")]]
    let d₁ : Value := .mapping [("secret", .string "s"), ("k", .string "."), ("xs", xs)]
    let d₂ : Value := .mapping [("xs", xs), ("k", .string ".")]
    (∀ name ∈ tree.rootKeys, d₁.get name = d₂.get name) ∧ tree.generate d₁ = .ok "1.2." ∧
      tree.generate d₁ = tree.generate d₂ := by
  intro tree xs d₁ d₂
  have hkeys : tree.rootKeys = ["xs", "x", "k"] := by decide
  have hsame : ∀ name ∈ tree.rootKeys, d₁.get name = d₂.get name := by
    rw [hkeys]
    simp [d₁, d₂, Value.get, Value.asMapping?, List.lookup_cons]
  have hgenerate : tree.generate d₁ = .ok "1.2." := by
    rw [generate_eq_evaluate]
    rfl
  exact ⟨hsame, hgenerate, generate_eq_of_rootKeys hsame⟩

end Template

end Stencil
