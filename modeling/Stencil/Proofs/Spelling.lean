import Stencil.Proofs.Role
import Stencil.Template.WellFormed

/-!
# How directives are spelled

A directive is spelled with the arguments of a command.  Keywords and keys stand in them as
they are, a literal with or without quotes and a predicate by its text, so that a directive
can be told from its arguments, and the names in it are arguments of their own.

**Results.**
* `Directive.ofArgs?_eq_some_iff`: arguments make just the directives that are spelled with
  them.
-/

namespace Stencil

/-- Whether arguments spell a test inside of the loops of some variables, in the first branch
or in a later one. -/
def Test.Spelled (vars : List String) (isFirst : Bool) (args : List String) : Test → Prop
  | is key literal =>
      Role.isBare key = true ∧ ∃ arg,
        args = [if isFirst then "if" else "elif", key, "is", arg] ∧
          Argument.unquote arg = literal
  | index var predicate =>
      Role.isVariable var = true ∧ var ∈ vars ∧ ∃ arg,
        args = [if isFirst then "if-index" else "elif-index", var, "is", arg] ∧
          IndexPredicate.ofText? arg = some predicate
  | any key =>
      Role.isBare key = true ∧ args = [if isFirst then "if-any" else "elif-any", key]

namespace Directive

/-- Whether arguments spell a directive inside of the loops of some variables. -/
def Spelled (vars args : List String) : Directive → Prop
  | lookup key => Role.isBare key = true ∧ key ∉ reservedNames ∧ args = [key]
  | loop var key reverse =>
      Role.isVariable var = true ∧ Role.isBare key = true ∧
        args = [if reverse then "for-inv" else "for", var, "in", key]
  | endLoop => args = ["endfor"]
  | condition test => test.Spelled vars true args
  | alternative test => test.Spelled vars false args
  | otherwise => args = ["else"]
  | endCondition => args = ["endif"]
  | last => args = ["last"]

theorem name?_eq_some_iff {arg name : String} :
    name? arg = some name ↔ Role.isBare name = true ∧ name = arg := by
  rw [name?_eq]
  constructor
  · intro h
    split at h
    · next hbare =>
        cases h
        exact ⟨hbare, rfl⟩
    · cases h
  · rintro ⟨hbare, rfl⟩
    exact if_pos hbare

theorem varName?_eq_some_iff {arg var : String} :
    varName? arg = some var ↔ Role.isVariable var = true ∧ var = arg := by
  rw [varName?_eq]
  constructor
  · intro h
    split at h
    · next hvar =>
        cases h
        exact ⟨hvar, rfl⟩
    · cases h
  · rintro ⟨hvar, rfl⟩
    exact if_pos hvar

theorem isTest?_eq_some_iff {subject object : String} {test : Test} :
    isTest? subject object = some test ↔
      Role.isBare subject = true ∧ test = .is subject (Argument.unquote object) := by
  rw [isTest?, Option.map_eq_some_iff]
  constructor
  · rintro ⟨key, hkey, rfl⟩
    obtain ⟨hbare, rfl⟩ := name?_eq_some_iff.1 hkey
    exact ⟨hbare, rfl⟩
  · rintro ⟨hbare, rfl⟩
    exact ⟨subject, name?_eq_some_iff.2 ⟨hbare, rfl⟩, rfl⟩

theorem indexTest?_eq_some_iff {vars : List String} {subject object : String} {test : Test} :
    indexTest? vars subject object = some test ↔
      Role.isVariable subject = true ∧ subject ∈ vars ∧
        ∃ predicate, IndexPredicate.ofText? object = some predicate ∧
          test = .index subject predicate := by
  rw [indexTest?, Option.bind_eq_some_iff]
  constructor
  · rintro ⟨var, hvar, htest⟩
    obtain ⟨hname, rfl⟩ := varName?_eq_some_iff.1 hvar
    split at htest
    · next hmem =>
        obtain ⟨predicate, hp, rfl⟩ := Option.map_eq_some_iff.1 htest
        exact ⟨hname, List.contains_iff_mem.1 hmem, predicate, hp, rfl⟩
    · cases htest
  · rintro ⟨hname, hmem, predicate, hp, rfl⟩
    refine ⟨subject, varName?_eq_some_iff.2 ⟨hname, rfl⟩, ?_⟩
    rw [if_pos (List.contains_iff_mem.2 hmem), hp]
    rfl

theorem spelled_of_isTest? {subject object : String} {test : Test}
    (h : isTest? subject object = some test) (vars : List String) (isFirst : Bool) :
    test.Spelled vars isFirst [if isFirst then "if" else "elif", subject, "is", object] := by
  obtain ⟨hbare, rfl⟩ := isTest?_eq_some_iff.1 h
  exact ⟨hbare, object, rfl, rfl⟩

theorem spelled_of_indexTest? {vars : List String} {subject object : String} {test : Test}
    (h : indexTest? vars subject object = some test) (isFirst : Bool) :
    test.Spelled vars isFirst
      [if isFirst then "if-index" else "elif-index", subject, "is", object] := by
  obtain ⟨hname, hmem, predicate, hp, rfl⟩ := indexTest?_eq_some_iff.1 h
  exact ⟨hname, hmem, object, rfl, hp⟩

/-- A directive of four arguments is spelled with them. -/
theorem spelled_of_ofFour? {vars : List String} {keyword subject word object : String}
    {d : Directive} (h : ofFour? vars keyword subject word object = some d) :
    d.Spelled vars [keyword, subject, word, object] := by
  unfold ofFour? at h
  split at h
  · next hword =>
      subst hword
      split at h
      · next hkeyword =>
          obtain ⟨var, hvar, h⟩ := Option.bind_eq_some_iff.1 h
          obtain ⟨key, hkey, rfl⟩ := Option.map_eq_some_iff.1 h
          obtain ⟨hvariable, rfl⟩ := varName?_eq_some_iff.1 hvar
          obtain ⟨hbare, rfl⟩ := name?_eq_some_iff.1 hkey
          refine ⟨hvariable, hbare, ?_⟩
          rcases hkeyword with rfl | rfl
          · rfl
          · rfl
      · cases h
  split at h
  · next hword =>
      subst hword
      split at h
      · next hkeyword =>
          obtain ⟨test, htest, rfl⟩ := Option.map_eq_some_iff.1 h
          rw [hkeyword]
          exact spelled_of_isTest? htest vars true
      split at h
      · next hkeyword =>
          obtain ⟨test, htest, rfl⟩ := Option.map_eq_some_iff.1 h
          rw [hkeyword]
          exact spelled_of_isTest? htest vars false
      split at h
      · next hkeyword =>
          obtain ⟨test, htest, rfl⟩ := Option.map_eq_some_iff.1 h
          rw [hkeyword]
          exact spelled_of_indexTest? htest true
      split at h
      · next hkeyword =>
          obtain ⟨test, htest, rfl⟩ := Option.map_eq_some_iff.1 h
          rw [hkeyword]
          exact spelled_of_indexTest? htest false
      · cases h
  · cases h

/-- A directive is spelled with the arguments that make it. -/
theorem spelled_of_ofArgs? {vars args : List String} {d : Directive}
    (h : ofArgs? vars args = some d) : d.Spelled vars args := by
  unfold ofArgs? at h
  split at h
  · next keyword =>
      split at h
      · next hkeyword =>
          cases h
          rw [hkeyword]
          rfl
      split at h
      · next hkeyword =>
          cases h
          rw [hkeyword]
          rfl
      split at h
      · next hkeyword =>
          cases h
          rw [hkeyword]
          rfl
      split at h
      · next hkeyword =>
          cases h
          rw [hkeyword]
          rfl
      · next h₁ h₂ h₃ h₄ =>
          obtain ⟨key, hkey, rfl⟩ := Option.map_eq_some_iff.1 h
          obtain ⟨hbare, rfl⟩ := name?_eq_some_iff.1 hkey
          refine ⟨hbare, ?_, rfl⟩
          simp [reservedNames, h₁, h₂, h₃, h₄]
  · next keyword key =>
      split at h
      · next hkeyword =>
          obtain ⟨name, hname, rfl⟩ := Option.map_eq_some_iff.1 h
          obtain ⟨hbare, rfl⟩ := name?_eq_some_iff.1 hname
          rw [hkeyword]
          exact ⟨hbare, rfl⟩
      split at h
      · next hkeyword =>
          obtain ⟨name, hname, rfl⟩ := Option.map_eq_some_iff.1 h
          obtain ⟨hbare, rfl⟩ := name?_eq_some_iff.1 hname
          rw [hkeyword]
          exact ⟨hbare, rfl⟩
      · cases h
  · exact spelled_of_ofFour? h
  · cases h

/-- Arguments that spell a test make it. -/
theorem ofArgs?_of_spelled {vars args : List String} {test : Test} {isFirst : Bool}
    (h : test.Spelled vars isFirst args) :
    ofArgs? vars args = some (test.directive isFirst) := by
  cases test with
  | is key literal =>
      obtain ⟨hbare, arg, rfl, hliteral⟩ := h
      have htest : isTest? key arg = some (.is key literal) :=
        isTest?_eq_some_iff.2 ⟨hbare, by rw [hliteral]⟩
      cases isFirst with
      | true => exact congrArg (Option.map condition) htest
      | false => exact congrArg (Option.map alternative) htest
  | index var predicate =>
      obtain ⟨hname, hmem, arg, rfl, hp⟩ := h
      have htest : indexTest? vars var arg = some (.index var predicate) :=
        indexTest?_eq_some_iff.2 ⟨hname, hmem, predicate, hp, rfl⟩
      cases isFirst with
      | true => exact congrArg (Option.map condition) htest
      | false => exact congrArg (Option.map alternative) htest
  | any key =>
      obtain ⟨hbare, rfl⟩ := h
      have hname : name? key = some key := name?_eq_some_iff.2 ⟨hbare, rfl⟩
      cases isFirst with
      | true => exact congrArg (Option.map (fun k => condition (.any k))) hname
      | false => exact congrArg (Option.map (fun k => alternative (.any k))) hname

/-- **Arguments make just the directives that are spelled with them.** -/
theorem ofArgs?_eq_some_iff {vars args : List String} {d : Directive} :
    ofArgs? vars args = some d ↔ d.Spelled vars args := by
  refine ⟨spelled_of_ofArgs?, fun h => ?_⟩
  cases d with
  | lookup key =>
      obtain ⟨hbare, hkey, rfl⟩ := h
      have hhead : key.toList.head? ≠ some '"' := by
        simpa [Role.isBare] using hbare
      exact ofArgs?_singleton hkey hhead
  | loop var key reverse =>
      obtain ⟨hvar, hbare, rfl⟩ := h
      have hv : varName? var = some var := varName?_eq_some_iff.2 ⟨hvar, rfl⟩
      have hk : name? key = some key := name?_eq_some_iff.2 ⟨hbare, rfl⟩
      have hloop : ((varName? var).bind (fun v => (name? key).map (fun k => loop v k reverse))) =
          some (loop var key reverse) := by
        rw [hv, hk]
        rfl
      cases reverse with
      | true => exact hloop
      | false => exact hloop
  | condition test => exact ofArgs?_of_spelled h
  | alternative test => exact ofArgs?_of_spelled h
  | endLoop =>
      rw [show args = ["endfor"] from h]
      rfl
  | otherwise =>
      rw [show args = ["else"] from h]
      rfl
  | endCondition =>
      rw [show args = ["endif"] from h]
      rfl
  | last =>
      rw [show args = ["last"] from h]
      rfl

end Directive
end Stencil
