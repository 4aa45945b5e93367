import Stencil.Proofs.Argument
import Stencil.Proofs.Positions
import Stencil.Proofs.WellFormed

/-!
# Failures point at their directives

When a template that was read fails on some data, the failure carries the line of a command
of the text: a lookup, a loop or a test of a text, and the key that the failure is about is the
one that the command asks for.  A test whether a key can be resolved never fails, since it
discards the failure of its search, and a test of a position finds its loop; so neither is
blamed.  A later test of a conditional is a command of its own and is blamed on its own line.

**Results.**
* `Directive.Spelled.asks_text`, `Directive.Spelled.asks_items`: how a directive is spelled that
  asks for a key.
* `RenderCause.quotes_of_key?`: a failure shows its key.
* `Template.generate_blames`: a failure points at a command that asks for its key.
-/

namespace Stencil

/-! ## What a failure shows -/

namespace RenderCause

/-- Whether a failure shows a key: the one that is not found, or the one in double quotes at
the start of its wording. -/
def Quotes (key : String) : RenderCause → Prop
  | notFound other => other = key
  | cause => '"' ∉ key.toList ∧ ∃ rest, cause.message = "\"" ++ key ++ "\"" ++ rest

theorem message_notText (key : String) (found : Kind) :
    (notText key found).message =
      "\"" ++ key ++ "\"" ++ (" should have string, int or float value, found " ++ found.name) := by
  have hquote : "\" should have string, int or float value, found " =
      "\"" ++ " should have string, int or float value, found " := by decide
  show "\"" ++ key ++ "\" should have string, int or float value, found " ++ found.name = _
  rw [hquote]
  simp only [String.append_assoc]

theorem message_notSequence (key : String) (found : Kind) :
    (notSequence key found).message =
      "\"" ++ key ++ "\"" ++ (" should have list value, found " ++ found.name) := by
  have hquote : "\" should have list value, found " =
      "\"" ++ " should have list value, found " := by decide
  show "\"" ++ key ++ "\" should have list value, found " ++ found.name = _
  rw [hquote]
  simp only [String.append_assoc]

/-- A failure because of a key shows it. -/
theorem quotes_of_key? {cause : RenderCause} {key : String} (h : cause.key? = some key)
    (hkey : IsName key) : cause.Quotes key := by
  have hquote : '"' ∉ key.toList := fun hmem => Text.ne_quote_of_isItem (hkey.2 '"' hmem) rfl
  cases cause with
  | notFound other =>
      cases h
      exact rfl
  | notText other found =>
      cases h
      exact ⟨hquote, _, message_notText key found⟩
  | notSequence other found =>
      cases h
      exact ⟨hquote, _, message_notSequence key found⟩
  | unbound var => cases h
  | custom text => cases h

end RenderCause

/-! ## How directives ask for keys -/

namespace Directive

/-- Whether a directive that is spelled with some arguments is a lookup of a key, a loop over
it, or a test of its text. -/
def Asks (key : String) (args : List String) : Directive → Prop
  | lookup other => other = key ∧ args = [key]
  | loop var other reverse =>
      other = key ∧ args = [if reverse then "for-inv" else "for", var, "in", key]
  | condition (.is other _) => other = key ∧ ∃ literal, args = ["if", key, "is", literal]
  | alternative (.is other _) => other = key ∧ ∃ literal, args = ["elif", key, "is", literal]
  | _ => False

/-- How a directive is spelled that asks for the text of a key. -/
theorem Spelled.asks_text {vars args : List String} {d : Directive} {key : String}
    (h : d.Spelled vars args) (hkey : d.textKey? = some key) : d.Asks key args := by
  cases d with
  | lookup other =>
      cases hkey
      obtain ⟨_, _, hargs⟩ := h
      exact ⟨rfl, hargs⟩
  | condition test =>
      cases test with
      | is other literal =>
          cases hkey
          obtain ⟨_, arg, hargs, _⟩ := h
          exact ⟨rfl, arg, hargs⟩
      | _ => cases hkey
  | alternative test =>
      cases test with
      | is other literal =>
          cases hkey
          obtain ⟨_, arg, hargs, _⟩ := h
          exact ⟨rfl, arg, hargs⟩
      | _ => cases hkey
  | _ => cases hkey

/-- How a directive is spelled that asks for the items of a key. -/
theorem Spelled.asks_items {vars args : List String} {d : Directive} {key : String}
    (h : d.Spelled vars args) (hkey : d.itemsKey? = some key) : d.Asks key args := by
  cases d with
  | loop var other reverse =>
      cases hkey
      obtain ⟨_, _, hargs⟩ := h
      exact ⟨rfl, hargs⟩
  | _ => cases hkey

/-- A well-formed directive asks for a name. -/
theorem WellFormed.isName_of_asks {vars args : List String} {d : Directive} {key : String}
    (h : d.WellFormed vars) (hasks : d.Asks key args) : IsName key := by
  cases d with
  | lookup other =>
      obtain ⟨rfl, _⟩ := hasks
      exact h.1
  | loop var other reverse =>
      obtain ⟨rfl, _⟩ := hasks
      exact h.2
  | condition test =>
      cases test with
      | is other literal =>
          obtain ⟨rfl, _⟩ := hasks
          exact h
      | _ => cases hasks
  | alternative test =>
      cases test with
      | is other literal =>
          obtain ⟨rfl, _⟩ := hasks
          exact h
      | _ => cases hasks
  | _ => cases hasks

end Directive

/-! ## Templates -/

namespace Template

/-- **A failure points at a command that asks for its key**: at its line the text has a command
whose directive was evaluated and failed so, and which is a lookup of the key that the failure
shows, a loop over it or a test of its text. -/
theorem generate_blames {config : Config} {text : String} {t : Template}
    (h : parse config text = .ok t) :
    ∃ tokens, Token.tokenize config text = .ok tokens ∧
      ∀ data err, t.generate data = .error err →
        ∃ e key d s args raw, err = .generation e ∧ 1 ≤ e.line ∧
          t.Evaluates data d e.line s ∧ s.answer e.line d = .error e ∧
          ⟨.command args raw, e.line⟩ ∈ tokens ∧ Directive.ofArgs? s.vars args = some d ∧
          d.Asks key args ∧ e.cause.Quotes key := by
  obtain ⟨m, _, htokens, ht⟩ := exists_of_parse h
  refine ⟨_, htokens, fun data err herr => ?_⟩
  obtain ⟨e, rfl, hrender⟩ := generate_eq_error herr
  obtain ⟨d, s, key, heval, hanswer, hkey, hasked⟩ := exists_of_render_eq_error ht hrender
  obtain ⟨before, args, raw, after, a, hsplit, _, hvars, hargs⟩ := exists_of_evaluates ht heval
  have hmem : ⟨.command args raw, e.line⟩ ∈ Token.ofChars m config.trimNewline text.toList := by
    rw [hsplit]
    exact List.mem_append_right _ List.mem_cons_self
  have hlexed : ∀ arg ∈ args, IsArgument arg.toList :=
    Token.isLexed_of_mem_ofSegments m config.trimNewline false 1
      (Segment.split m text.toList) _ hmem
  have hline : 1 ≤ e.line :=
    (Token.lines_ofSegments m config.trimNewline false 1 (Segment.split m text.toList)).1 _ hmem
  have hspelled := Directive.ofArgs?_eq_some_iff.1 hargs
  have hasks : d.Asks key args := hasked.elim hspelled.asks_text hspelled.asks_items
  have hname := (Directive.wellFormed_of_ofArgs? hlexed hargs).isName_of_asks hasks
  rw [hvars] at hargs
  exact ⟨e, key, d, s, args, raw, rfl, hline, heval, hanswer, hmem, hargs, hasks,
    RenderCause.quotes_of_key? hkey hname⟩

/-- A later test of a conditional is blamed on its own line. -/
theorem generate_blames_elif :
    let tree : Template := ⟨[.conditional [
      .mk (.is "a" "x") [.text "1"] 1, .mk (.is "b" "x") [.text "2"] 2] none]⟩
    let data : Value := .mapping [("a", .string "y"), ("b", .sequence [])]
    parse {} "[if a is x]1[#\n][elif b is x]2[endif]" = .ok tree ∧
      tree.generate data = .error (.generation ⟨2, .notText "b" .sequence⟩) ∧
      ∃ tokens key d args raw,
        Token.tokenize {} "[if a is x]1[#\n][elif b is x]2[endif]" = .ok tokens ∧
          ⟨.command args raw, 2⟩ ∈ tokens ∧ Directive.Asks key args d ∧
          RenderCause.Quotes key (.notText "b" .sequence) := by
  intro tree data
  have hgenerate : tree.generate data = .error (.generation ⟨2, .notText "b" .sequence⟩) := rfl
  have hm : Config.marks {} = .ok Marks.brackets := rfl
  have hlexed : Token.ofChars Marks.brackets true
      "[if a is x]1[#\n][elif b is x]2[endif]".toList = [
        ⟨.command ["if", "a", "is", "x"] "[if a is x]", 1⟩, ⟨.text "1", 1⟩, ⟨.comment, 1⟩,
        ⟨.command ["elif", "b", "is", "x"] "[elif b is x]", 2⟩, ⟨.text "2", 2⟩,
        ⟨.command ["endif"] "[endif]", 2⟩] := by
    decide +kernel
  have hparse : parse {} "[if a is x]1[#\n][elif b is x]2[endif]" = .ok tree :=
    parse_eq_template hm hlexed
  obtain ⟨tokens, htokens, hblames⟩ := generate_blames hparse
  obtain ⟨e, key, d, s, args, raw, he, _, _, _, hmem, _, hasks, hquotes⟩ :=
    hblames data _ hgenerate
  cases he
  exact ⟨hparse, hgenerate, tokens, key, d, args, raw, htokens, hmem, hasks, hquotes⟩

end Template

end Stencil
