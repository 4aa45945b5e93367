import Stencil.Directive
import Stencil.Proofs.Digits
import Stencil.Template.Nesting

/-!
# Directives and their roles

The arguments of a command make a directive exactly if they give the command a role among
the open blocks, and the role is that of the directive.  The two are read off the
arguments in different ways: the directive by comparing words one after the other and
with everything a tree needs, the role from a list of shapes.

**Results.**
* `IndexPredicate.isSome_ofText?`: which texts name positions.
* `Role.ofArgs?_eq`: the role of a command is the role of its directive.
-/

namespace Stencil

/-- The texts of predicates are those of positions. -/
theorem IndexPredicate.isSome_ofText? (text : String) :
    (IndexPredicate.ofText? text).isSome = Role.isPosition text := by
  unfold ofText? Role.isPosition
  rw [Decimal.natural?_ten]
  by_cases h₁ : text = "first"
  · simp [h₁]
  by_cases h₂ : text = "last"
  · simp [h₂]
  by_cases h₃ : text = "even"
  · simp [h₃]
  by_cases h₄ : text = "odd"
  · simp [h₄]
  rw [if_neg h₁, if_neg h₂, if_neg h₃, if_neg h₄]
  have hwords : ["first", "last", "even", "odd"].contains text = false := by
    simp [h₁, h₂, h₃, h₄]
  rw [hwords, Bool.false_or, Option.isSome_map]
  by_cases hd : text.toList ≠ [] ∧ text.toList.all Char.isDigit = true
  · rw [if_pos hd]
    obtain ⟨hne, hall⟩ := hd
    rw [hall, bne_iff_ne.mpr hne]
    by_cases hlt : Decimal.ofDigits 0 text.toList < Nat.pow 2 64
    · simp [Option.filter, hlt]
    · simp [Option.filter, hlt]
  · rw [if_neg hd]
    by_cases hne : text.toList = []
    · simp [hne]
    · have hall : text.toList.all Char.isDigit = false := by
        cases ha : text.toList.all Char.isDigit with
        | false => rfl
        | true => exact absurd ⟨hne, ha⟩ hd
      simp [hall]

namespace Directive

def role : Directive → Role
  | lookup _ => .inert
  | loop var _ _ => .openLoop var
  | endLoop => .closeLoop
  | condition test => .openConditional test.kind
  | alternative test => .nextBranch test.kind
  | otherwise => .beginElse
  | endCondition => .closeConditional
  | last => .exit

theorem name?_eq (arg : String) :
    name? arg = if Role.isBare arg then some arg else none := by
  by_cases h : arg.toList.head? = some '"'
  · simp [name?, Role.isBare, h]
  · simp [name?, Role.isBare, h]

theorem varName?_eq (arg : String) :
    varName? arg = if Role.isVariable arg then some arg else none := by
  unfold varName? Role.isVariable
  rw [name?_eq]
  cases arg.toList.contains '.' with
  | true => simp
  | false => simp

theorem map_kind_isTest? (subject object : String) :
    (isTest? subject object).map Test.kind =
      if Role.isBare subject then some .is else none := by
  rw [isTest?, name?_eq]
  by_cases h : Role.isBare subject = true
  · rw [if_pos h, if_pos h]
    rfl
  · rw [if_neg h, if_neg h]
    rfl

theorem map_kind_indexTest? (vars : List String) (subject object : String) :
    (indexTest? vars subject object).map Test.kind =
      if Role.isVariable subject && vars.contains subject && Role.isPosition object then
        some .index
      else none := by
  rw [indexTest?, varName?_eq]
  by_cases hs : Role.isVariable subject = true
  · rw [if_pos hs, Option.bind_some, hs, Bool.true_and]
    cases vars.contains subject with
    | false => rfl
    | true =>
        rw [if_pos rfl, Bool.true_and, ← IndexPredicate.isSome_ofText?]
        cases IndexPredicate.ofText? object with
        | none => rfl
        | some predicate => rfl
  · rw [if_neg hs]
    simp [hs]

theorem map_role_condition (test : Option Test) :
    (test.map condition).map role = (test.map Test.kind).map .openConditional := by
  cases test with
  | none => rfl
  | some t => rfl

theorem map_role_alternative (test : Option Test) :
    (test.map alternative).map role = (test.map Test.kind).map .nextBranch := by
  cases test with
  | none => rfl
  | some t => rfl

theorem map_role_loop (var key : String) (reverse : Bool) :
    ((varName? var).bind (fun v => (name? key).map (fun k => loop v k reverse))).map role =
      if Role.isVariable var && Role.isBare key then some (.openLoop var) else none := by
  rw [varName?_eq, name?_eq]
  cases Role.isVariable var with
  | false => rfl
  | true =>
      cases Role.isBare key with
      | false => rfl
      | true => rfl

/-- Four arguments make no directive unless their keyword and their third word do. -/
theorem ofFour?_eq_none {vars : List String} {keyword subject word object : String}
    (hloop : word = "in" → keyword ≠ "for" ∧ keyword ≠ "for-inv")
    (htest : word = "is" → keyword ≠ "if" ∧ keyword ≠ "elif" ∧ keyword ≠ "if-index" ∧
      keyword ≠ "elif-index") :
    ofFour? vars keyword subject word object = none := by
  unfold ofFour?
  split
  · next hw =>
      obtain ⟨h₁, h₂⟩ := hloop hw
      exact if_neg (fun h => h.elim h₁ h₂)
  · split
    · next hw =>
        obtain ⟨h₁, h₂, h₃, h₄⟩ := htest hw
        rw [if_neg h₁, if_neg h₂, if_neg h₃, if_neg h₄]
    · rfl

end Directive

namespace Role

open Directive

/-- **The role of a command is the role of its directive.** -/
theorem ofArgs?_eq (vars : List String) (args : List String) :
    ofArgs? vars args = (Directive.ofArgs? vars args).map Directive.role := by
  unfold ofArgs?
  split
  case h_1 => rfl
  case h_2 => rfl
  case h_3 => rfl
  case h_4 => rfl
  case h_5 key h₁ h₂ h₃ h₄ =>
      rw [Directive.ofArgs?, if_neg h₁, if_neg h₂, if_neg h₃, if_neg h₄, name?_eq]
      cases isBare key with
      | false => rfl
      | true => rfl
  case h_6 key =>
      have hd : Directive.ofArgs? vars ["if-any", key] =
          (name? key).map (fun k => condition (.any k)) := rfl
      rw [hd, name?_eq]
      cases isBare key with
      | false => rfl
      | true => rfl
  case h_7 key =>
      have hd : Directive.ofArgs? vars ["elif-any", key] =
          (name? key).map (fun k => alternative (.any k)) := rfl
      rw [hd, name?_eq]
      cases isBare key with
      | false => rfl
      | true => rfl
  case h_8 var key => exact (map_role_loop var key false).symm
  case h_9 var key => exact (map_role_loop var key true).symm
  case h_10 key literal =>
      have hd : Directive.ofArgs? vars ["if", key, "is", literal] =
          (isTest? key literal).map condition := rfl
      rw [hd, map_role_condition, map_kind_isTest?]
      exact (Option.map_if).symm
  case h_11 key literal =>
      have hd : Directive.ofArgs? vars ["elif", key, "is", literal] =
          (isTest? key literal).map alternative := rfl
      rw [hd, map_role_alternative, map_kind_isTest?]
      exact (Option.map_if).symm
  case h_12 var position =>
      have hd : Directive.ofArgs? vars ["if-index", var, "is", position] =
          (indexTest? vars var position).map condition := rfl
      rw [hd, map_role_condition, map_kind_indexTest?]
      exact (Option.map_if).symm
  case h_13 var position =>
      have hd : Directive.ofArgs? vars ["elif-index", var, "is", position] =
          (indexTest? vars var position).map alternative := rfl
      rw [hd, map_role_alternative, map_kind_indexTest?]
      exact (Option.map_if).symm
  case h_14 _ _ _ _ hone hifany helifany hfor hinv hif helif hindex helindex =>
      rcases args with _ | ⟨keyword, _ | ⟨subject, _ | ⟨word, _ | ⟨object, _ | ⟨_, _⟩⟩⟩⟩⟩
      · rfl
      · exact (hone keyword rfl).elim
      · have h₁ : keyword ≠ "if-any" := fun h => hifany subject (by rw [h])
        have h₂ : keyword ≠ "elif-any" := fun h => helifany subject (by rw [h])
        rw [Directive.ofArgs?, if_neg h₁, if_neg h₂]
        rfl
      · rfl
      · rw [Directive.ofArgs?, ofFour?_eq_none]
        · rfl
        · rintro rfl
          exact ⟨fun h => hfor subject object (by rw [h]),
            fun h => hinv subject object (by rw [h])⟩
        · rintro rfl
          exact ⟨fun h => hif subject object (by rw [h]),
            fun h => helif subject object (by rw [h]),
            fun h => hindex subject object (by rw [h]),
            fun h => helindex subject object (by rw [h])⟩
      · rfl

end Role

end Stencil
