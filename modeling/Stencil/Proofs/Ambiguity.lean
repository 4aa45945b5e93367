import Stencil.Proofs.Reading

/-!
# Directives are recognised without ambiguity

Several directives could begin at one place of a text: of different forms, or commands with
different ends.  The reader of directives settles it by an order of the forms and by taking the
longest arguments.  Under three conditions on the marks there is nothing to settle:

* no argument begins with the begin mark, so that an escape is no command;
* the begin mark does not begin with a number sign, so that a comment is no escape;
* the end mark stands apart, so that it cannot be taken for arguments.

Whatever directive a text is put together from is then the one that is read there
(`Segment.head?_of_isWritten`), and since a reader gives one answer there is only one.

A cut of a text takes any directive where some begin.  The reader gives one of the cuts with any
marks, and the only one under the conditions.

**Results.**
* `Cut.split`: what a text is cut into is a cut.
* `Segment.head?_of_isWritten`: a directive that was written is read.
* `Form.exists_head?`: what is read has any form of which a directive begins there.
* `Cut.eq_split`: there is only one cut.
* `Token.tokenize_unambiguous`: one form, one end and one list of arguments; one stream of tokens.
-/

namespace Stencil

/-! ## Forms -/

/-- The forms of directives. -/
inductive Form where
  | command
  | escape
  | comment
  deriving DecidableEq

/-- Whether a directive of some form begins a text. -/
def Form.Begins (m : Marks) (cs : List Char) : Form → Prop
  | command => ∃ body args rest, IsBody body args ∧ cs = m.opening ++ body ++ m.closing ++ rest
  | escape => ∃ rest, cs = m.opening ++ m.opening ++ m.closing ++ rest
  | comment => ∃ body rest, cs = m.opening ++ '#' :: body ++ m.closing ++ rest

def Segment.form? : Segment → Option Form
  | text _ => none
  | command _ => some .command
  | escape => some .escape
  | comment _ => some .comment

/-- A directive of some form begins with one that goes up to a first end mark. -/
theorem Form.Begins.exists_isWritten {m : Marks} {cs : List Char} {f : Form}
    (h : f.Begins m cs) : ∃ s : Segment, ∃ rest,
      s.form? = some f ∧ s.IsWritten m ∧ cs = s.source m ++ rest := by
  cases f with
  | command =>
      obtain ⟨body, args, rest, hbody, rfl⟩ := h
      exact ⟨.command body, rest, rfl, ⟨args, hbody⟩, rfl⟩
  | escape =>
      obtain ⟨rest, rfl⟩ := h
      exact ⟨.escape, rest, rfl, trivial, rfl⟩
  | comment =>
      obtain ⟨body, rest, rfl⟩ := h
      obtain ⟨⟨first, left⟩, hp⟩ := exists_untilMark? m.closing body rest
      refine ⟨.comment first, left, rfl, fun pre post heq => eq_of_untilMark? hp heq, ?_⟩
      have hsplit : body ++ m.closing ++ rest = first ++ m.closing ++ left :=
        untilMark?_eq_append hp
      rw [Segment.source, List.append_assoc, List.append_assoc, List.append_assoc,
        List.append_assoc, List.cons_append, List.cons_append, ← List.append_assoc body, hsplit,
        List.append_assoc]

/-! ## Cuts -/

/-- The ways to cut a text: where directives begin one of them is taken, a comment up to its
first end mark, and any other character is literal text. -/
inductive Cut (m : Marks) : List Char → List Segment → Prop where
  | nil : Cut m [] []
  | directive {s : Segment} {rest : List Char} {segments : List Segment}
      (written : s.IsWritten m) (tail : Cut m rest segments) :
      Cut m (s.source m ++ rest) (s :: segments)
  | text {c : Char} {cs : List Char} {segments : List Segment}
      (clear : ∀ d, IsDirective m d → ¬ d <+: c :: cs) (tail : Cut m cs segments) :
      Cut m (c :: cs) (Segment.consChar c segments)

variable {m : Marks}

/-- **What a text is cut into is a cut.** -/
theorem Cut.split (cs : List Char) : Cut m cs (Segment.split m cs) := by
  fun_induction Segment.split m cs with
  | case1 => exact .nil
  | case2 c cs r h ih =>
      rw [Segment.head?_eq_append h]
      exact .directive (Segment.isWritten_of_head? h) ih
  | case3 c cs h ih => exact .text (Segment.head?_eq_none_iff.1 h) ih

/-! ## Marks that leave one reading -/

/-- Whether directives can be told apart by where they begin and end. -/
structure Marks.Unambiguous (m : Marks) : Prop where
  /-- No argument begins with the begin mark. -/
  opens : m.OpensNoArgument
  /-- The begin mark does not begin with a number sign. -/
  hash : m.opening.head? ≠ some '#'
  /-- The end mark cannot be part of arguments. -/
  closes : m.ClosesApart

section Unambiguous

variable (hm : m.Unambiguous)
include hm

/-- **A directive that was written is read**, whatever follows it. -/
theorem Segment.head?_of_isWritten {s : Segment} (h : s.IsWritten m) (rest : List Char) :
    head? m (s.source m ++ rest) = some (s, rest) := by
  cases s with
  | text chars => exact h.elim
  | command body =>
      obtain ⟨args, hbody⟩ := h
      exact hbody.head?_command hm.closes.stopsArguments rest
  | escape => exact hm.opens.head?_escape rest
  | comment body => exact head?_comment hm.hash h rest

/-- What is read has any form of which a directive begins there. -/
theorem Form.exists_head? {cs : List Char} {f : Form} (h : f.Begins m cs) :
    ∃ r, Segment.head? m cs = some r ∧ r.1.form? = some f := by
  obtain ⟨s, rest, hform, hwritten, rfl⟩ := h.exists_isWritten
  exact ⟨(s, rest), Segment.head?_of_isWritten hm hwritten rest, hform⟩

/-- **At most one form of directives begins at a place.** -/
theorem Form.eq_of_begins {cs : List Char} {f g : Form} (hf : f.Begins m cs)
    (hg : g.Begins m cs) : f = g := by
  obtain ⟨r, hr, hform⟩ := exists_head? hm hf
  obtain ⟨s, hs, hform'⟩ := exists_head? hm hg
  rw [hr] at hs
  cases hs
  rw [hform] at hform'
  exact Option.some.inj hform'

/-- **A command has one end and one list of arguments.** -/
theorem IsBody.eq_of_append_eq {body body' rest rest' : List Char} {args args' : List (List Char)}
    (h : IsBody body args) (h' : IsBody body' args')
    (heq : m.opening ++ body ++ m.closing ++ rest = m.opening ++ body' ++ m.closing ++ rest') :
    body = body' ∧ args = args' ∧ rest = rest' := by
  have hread := h.head?_command hm.closes.stopsArguments rest
  have hread' := h'.head?_command hm.closes.stopsArguments rest'
  rw [heq, hread'] at hread
  cases hread
  exact ⟨rfl, h.split_eq.symm.trans h'.split_eq, rfl⟩

/-- **There is only one cut of a text.** -/
theorem Cut.eq_split {cs : List Char} {segments : List Segment} (h : Cut m cs segments) :
    segments = Segment.split m cs := by
  induction h with
  | nil => rw [Segment.split]
  | @directive s rest segments written tail ih =>
      rw [Segment.split_of_head? (Segment.head?_of_isWritten hm written rest), ← ih]
  | @text c cs segments clear tail ih =>
      rw [Segment.split_of_head?_eq_none (Segment.head?_eq_none_iff.2 clear), ← ih]

end Unambiguous

/-- **Directives are recognised without ambiguity**: at a place of a text at most one form
begins, a command there has one end and one list of arguments, and the tokens of a text are
those of any cut of it. -/
theorem Token.tokenize_unambiguous {config : Config} (hm : config.marks = .ok m)
    (h : m.Unambiguous) :
    (∀ (cs : List Char) (f g : Form), f.Begins m cs → g.Begins m cs → f = g) ∧
    (∀ (cs body rest body' rest' : List Char) (args args' : List (List Char)),
      IsBody body args → IsBody body' args' → cs = m.opening ++ body ++ m.closing ++ rest →
        cs = m.opening ++ body' ++ m.closing ++ rest' →
          body = body' ∧ args = args' ∧ rest = rest') ∧
    ∀ (text : String) (tokens : List Token), tokenize config text = .ok tokens ↔
      ∃ segments, Cut m text.toList segments ∧
        tokens = ofSegments m config.trimNewline false 1 segments := by
  refine ⟨fun cs f g => Form.eq_of_begins h, ?_, fun text tokens => ?_⟩
  · intro cs body rest body' rest' args args' hbody hbody' hcs hcs'
    exact hbody.eq_of_append_eq h hbody' (hcs.symm.trans hcs')
  · rw [tokenize, hm]
    constructor
    · intro htokens
      cases htokens
      exact ⟨_, Cut.split text.toList, rfl⟩
    · rintro ⟨segments, hcut, rfl⟩
      rw [hcut.eq_split h]
      rfl

/-- An end mark in a quoted argument, which ends nothing there. -/
theorem Token.tokenize_unambiguous_percent :
    let marks : Marks := ⟨['<', '%'], ['%', '>'], by decide, by decide, by decide, by decide⟩
    let text := "<%a \"%>\"%>b%>"
    marks.Unambiguous ∧ (∀ f : Form, f.Begins marks text.toList → f = .command) ∧
    (∀ body args rest, IsBody body args →
      text.toList = marks.opening ++ body ++ marks.closing ++ rest → rest = "b%>".toList) ∧
    ∀ segments, Cut marks text.toList segments →
      tokenize ⟨"<%", "%>", true⟩ text = .ok (ofSegments marks true false 1 segments) := by
  intro marks text
  have hmarks : Config.marks ⟨"<%", "%>", true⟩ = .ok marks := rfl
  have hopens : marks.OpensNoArgument := by
    intro c hc
    cases hc
    decide
  have hunambiguous : marks.Unambiguous :=
    ⟨hopens, by decide, by decide, '%', by decide, by decide, by decide⟩
  have hname : IsArgument ['a'] := .bare (by decide) (List.all_eq_true.1 (by decide))
  have hinner : IsQuoted ['%', '>'] :=
    .char (by decide) (by decide) (.char (by decide) (by decide) .nil)
  have hblank : ∀ c ∈ [' '], Text.isBlank c = true := List.all_eq_true.1 (by decide)
  have hbody : IsBody "a \"%>\"".toList [['a'], "\"%>\"".toList] :=
    .more hname (List.cons_ne_nil _ _) hblank (.single (.quoted hinner))
  have htext : text.toList =
      marks.opening ++ "a \"%>\"".toList ++ marks.closing ++ "b%>".toList := by decide
  obtain ⟨hform, hcommand, htokens⟩ := tokenize_unambiguous hmarks hunambiguous
  refine ⟨hunambiguous, fun f hf => ?_, fun body args rest h heq => ?_, fun segments hcut => ?_⟩
  · exact hform _ f .command hf ⟨_, _, _, hbody, htext⟩
  · exact (hcommand _ _ _ _ _ _ _ h hbody heq htext).2.2
  · exact (htokens text _).2 ⟨segments, hcut, rfl⟩

end Stencil
