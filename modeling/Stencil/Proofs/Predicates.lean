import Stencil.Proofs.Loops
import Stencil.Proofs.OneLine
import Stencil.Proofs.Role

/-!
# Tests of positions

A test of a position has a text of its own for the positions that it means: a word, or a number in
digits, with any zeros in front.  A number of `2 ^ 64` or more, one with a sign and digits of
other scripts are arguments like any other, but they name no position, and a test with them is no
directive.

A loop that gives one character for each item shows which positions a text names.  They count the
items as they are taken, from the front or from the back.

**Results.**
* `IndexPredicate.holds_iff`: a predicate holds at the positions that its text names.
* `parse_positionLoop_eq`: a loop that tests its positions is read just if the text names some.
* `Meaning.loop_text`: iterations that give one character each give a text of them.
* `Template.parse_positionLoop`: what becomes of a loop that tests its positions.
-/

namespace Stencil

/-! ## Tests of a position -/

/-- Whether a text names a position, counted from zero, among a number of them. -/
def NamesPosition (text : String) (count index : Nat) : Prop :=
  (text = "first" ∧ index = 0) ∨ (text = "last" ∧ index + 1 = count) ∨
    (text = "even" ∧ index % 2 = 0) ∨ (text = "odd" ∧ index % 2 = 1) ∨
    ((text ≠ "" ∧ text.toList.all Char.isDigit = true) ∧ index = Decimal.ofDigits 0 text.toList)

instance (text : String) (count index : Nat) : Decidable (NamesPosition text count index) :=
  inferInstanceAs (Decidable (_ ∨ _))

/-- The character for a position: one if a text names it, else zero. -/
def positionMark (text : String) (count index : Nat) : Char :=
  if NamesPosition text count index then '1' else '0'

/-- What a text that is no word for positions can name is the position of a number in digits. -/
theorem IndexPredicate.exists_nth_of_ofText? {text : String} {predicate : IndexPredicate}
    (h : ofText? text = some predicate)
    (hwords : text ∉ ["first", "last", "even", "odd"]) :
    predicate = .nth (Decimal.ofDigits 0 text.toList) ∧ text ≠ "" ∧
      text.toList.all Char.isDigit = true := by
  simp only [List.mem_cons, List.not_mem_nil, or_false, not_or] at hwords
  obtain ⟨h₁, h₂, h₃, h₄⟩ := hwords
  rw [ofText?, if_neg h₁, if_neg h₂, if_neg h₃, if_neg h₄] at h
  obtain ⟨n, hn, rfl⟩ := Option.map_eq_some_iff.1 h
  have hnumber := (Option.filter_eq_some_iff.1 hn).1
  rw [Decimal.natural?_ten] at hnumber
  split at hnumber
  · next hdigits =>
      cases hnumber
      exact ⟨rfl, by simpa using hdigits.1, hdigits.2⟩
  · cases hnumber

/-- **A predicate holds at the positions that its text names.** -/
theorem IndexPredicate.holds_iff {text : String} {predicate : IndexPredicate}
    (h : ofText? text = some predicate) (count index : Nat) :
    predicate.holds index count = true ↔ NamesPosition text count index := by
  by_cases hwords : text ∈ ["first", "last", "even", "odd"]
  · simp only [List.mem_cons, List.not_mem_nil, or_false] at hwords
    rcases hwords with rfl | rfl | rfl | rfl
    all_goals
      cases h
      simp [holds, NamesPosition]
  · obtain ⟨rfl, hne, hdigits⟩ := exists_nth_of_ofText? h hwords
    simp only [List.mem_cons, List.not_mem_nil, or_false, not_or] at hwords
    simp [holds, NamesPosition, hwords, hne, hdigits]

/-! ## A loop that tests its positions -/

/-- The directive that tests the position of a variable. -/
def positionTest (var position : String) : String :=
  "[if-index " ++ var ++ " is " ++ position ++ "]"

/-- The text of a loop over a key, from the front or from the back, that gives for each item
whether its position is meant. -/
def positionLoop (var key : String) (reverse : Bool) (position : String) : String :=
  (if reverse then "[for-inv " else "[for ") ++ var ++ " in " ++ key ++ "]" ++
    positionTest var position ++ "1[else]0[endif][endfor]"

/-- The pieces of this text. -/
def positionPieces (var key : String) (reverse : Bool) (position : String) : List Piece :=
  [.command [if reverse then "for-inv" else "for", var, "in", key],
    .command ["if-index", var, "is", position], .text "1", .command ["else"], .text "0",
    .command ["endif"], .command ["endfor"]]

theorem toList_positionLoop (var key : String) (reverse : Bool) (position : String) :
    (positionLoop var key reverse position).toList =
      (positionPieces var key reverse position).flatMap
        (fun p => p.segment.source Marks.brackets) := by
  cases reverse with
  | false =>
      simp [positionLoop, positionPieces, positionTest, Marks.brackets, Piece.segment,
        Segment.source]
  | true =>
      simp [positionLoop, positionPieces, positionTest, Marks.brackets, Piece.segment,
        Segment.source]

theorem onLine_positionPieces {var key position : String} (hvar : IsVariable var)
    (hkey : IsName key) (hposition : IsName position) (reverse : Bool) :
    Piece.OnLine Marks.brackets (positionPieces var key reverse position) := by
  have hloop := isName_loop reverse
  have hin : IsName "in" := isName_of_mem_keywords (by decide)
  have hindex : IsName "if-index" := isName_of_mem_keywords (by decide)
  have his : IsName "is" := isName_of_mem_keywords (by decide)
  have helse : IsName "else" := isName_of_mem_keywords (by decide)
  have hendif : IsName "endif" := isName_of_mem_keywords (by decide)
  have hendfor : IsName "endfor" := isName_of_mem_keywords (by decide)
  simp [positionPieces, Piece.OnLine, Piece.NoTextFirst, Piece.isCommand, Marks.brackets, hloop,
    hin, hindex, his, helse, hendif, hendfor, hvar.1, hkey, hposition]

/-- The template of a loop that tests its positions. -/
def positionTree (var key : String) (reverse : Bool) (predicate : IndexPredicate) : Template :=
  ⟨[.loop var key reverse
    [.conditional [.mk (.index var predicate) [.text "1"] 1] (some [.text "0"])] 1]⟩

theorem ofArgs?_index {var : String} (hvar : IsVariable var) (position : String) :
    Directive.ofArgs? [var] ["if-index", var, "is", position] =
      (IndexPredicate.ofText? position).map (fun p => .condition (.index var p)) := by
  have htest : Directive.indexTest? [var] var position =
      (IndexPredicate.ofText? position).map (Test.index var) := by
    rw [Directive.indexTest?, Directive.varName?_eq, hvar.isVariable]
    simp
  have hd : Directive.ofArgs? [var] ["if-index", var, "is", position] =
      (Directive.indexTest? [var] var position).map .condition := rfl
  rw [hd, htest, Option.map_map]
  rfl

/-- The loop is read just if its text names positions. -/
theorem template_positionPieces {var key : String} (hvar : IsVariable var) (hkey : IsName key)
    (reverse : Bool) (position : String) :
    Assembly.template
        ((positionPieces var key reverse position).map (Piece.token Marks.brackets 1)) =
      match IndexPredicate.ofText? position with
      | some predicate => .ok (positionTree var key reverse predicate)
      | none => .error ⟨1, .invalidDirective (positionTest var position)⟩ := by
  have hraw : String.ofList ((Piece.command ["if-index", var, "is", position]).segment.source
      Marks.brackets) = positionTest var position := by
    rw [← String.toList_inj]
    simp [Piece.segment, Segment.source, Marks.brackets, positionTest]
  have hstart (ts : List Token) : Assembly.template ts = Assembly.complete ⟨[], []⟩ ts := rfl
  have houter : Assembly.vars ⟨[], []⟩ = [] := rfl
  have hinner (opener : String) :
      Assembly.vars ⟨[⟨.loop var key reverse, opener, 1, []⟩], []⟩ = [var] := rfl
  simp only [positionPieces, List.map_cons, List.map_nil, Piece.token, hraw]
  rw [hstart, Assembly.complete_command, houter, ofArgs?_loop hvar hkey reverse]
  simp only [Assembly.follow, Assembly.advance?, Assembly.enter]
  -- what the text of the test is decides only here; behind it every directive fits
  rw [Assembly.complete_command, hinner, ofArgs?_index hvar position]
  cases IndexPredicate.ofText? position with
  | none => rfl
  | some predicate => rfl

/-- **A loop that tests its positions is read just if its text names positions.** -/
theorem parse_positionLoop_eq {var key position : String} (hvar : IsVariable var)
    (hkey : IsName key) (hposition : IsName position) (reverse : Bool) :
    Template.parse {} (positionLoop var key reverse position) =
      match IndexPredicate.ofText? position with
      | some predicate => .ok (positionTree var key reverse predicate)
      | none => .error (.parse ⟨1, .invalidDirective (positionTest var position)⟩) := by
  have hm : Config.marks {} = .ok Marks.brackets := rfl
  have hstops : Marks.brackets.StopsArguments := ⟨']', by decide, by decide⟩
  have htokens := Piece.ofChars_flatMap_source (by decide) (by decide) hstops true
    (onLine_positionPieces hvar hkey hposition reverse)
  rw [← toList_positionLoop] at htokens
  rw [Template.parse_eq_template hm htokens, template_positionPieces hvar hkey reverse position]
  cases IndexPredicate.ofText? position with
  | none => rfl
  | some predicate => rfl

/-! ## What the loop comes to -/

/-- Iterations that are single characters make up a text. -/
theorem Meaning.loop_text (f : Nat → Char) (index : Nat) (items : List Value) :
    loop (fun i _ => text (String.singleton (f i))) index items =
      text (String.ofList ((List.range' index items.length).map f)) := by
  induction items generalizing index with
  | nil => rfl
  | cons item items ih =>
      have hcons : String.singleton (f index) ++
          String.ofList ((List.range' (index + 1) items.length).map f) =
            String.ofList (f index :: (List.range' (index + 1) items.length).map f) := by
        rw [← String.toList_inj]
        simp
      rw [loop, ih, text_followedBy_text, hcons]
      rfl

/-- An iteration gives the character for its position. -/
theorem evaluateBody_positionTest {position : String} {predicate : IndexPredicate}
    (hp : IndexPredicate.ofText? position = some predicate) (var : String) (item : Value)
    (index count : Nat) (env : Environment) :
    evaluateBody (.iteration var item index count env)
        [.conditional [.mk (.index var predicate) [.text "1"] 1] (some [.text "0"])] =
      Meaning.text (String.singleton (positionMark position count index)) := by
  have hposition : Environment.position? var (.iteration var item index count env) =
      some (index, count) := if_pos rfl
  have hholds := IndexPredicate.holds_iff hp count index
  rw [evaluateBody, evaluateBody, Meaning.followedBy_text, Node.evaluate, evaluateBranches,
    Environment.holds, hposition, positionMark]
  by_cases hnames : NamesPosition position count index
  · rw [if_pos hnames]
    simp only [Except.bind, hholds.2 hnames, if_true]
    rfl
  · have hfails : predicate.holds index count = false :=
      Bool.eq_false_iff.2 (fun h => hnames (hholds.1 h))
    rw [if_neg hnames]
    simp only [Except.bind, hfails]
    rfl

/-- **A loop that tests its positions gives a character for each item**, from both ends. -/
theorem generate_positionTree {var key position : String} {predicate : IndexPredicate}
    (hp : IndexPredicate.ofText? position = some predicate) (reverse : Bool) {data : Value}
    {items : List Value}
    (hitems : (Renderer.new data).getValue key 1 = .ok (.sequence items)) :
    (positionTree var key reverse predicate).generate data =
      .ok (String.ofList ((List.range items.length).map (positionMark position items.length))) := by
  have hlength : (if reverse then items.reverse else items).length = items.length := by
    cases reverse with
    | false => rfl
    | true => exact List.length_reverse
  have hloop := Meaning.loop_text (positionMark position items.length) 0
    (if reverse then items.reverse else items)
  rw [hlength, ← List.range_eq_range'] at hloop
  rw [Template.generate_eq_evaluate, Template.evaluate, positionTree, evaluateBody, evaluateBody,
    Meaning.followedBy_text, Node.evaluate, items_of_getValue hitems]
  simp only [Except.bind, evaluateBody_positionTest hp, hloop]
  rfl

/-- **Tests of positions.**  A loop that tests its positions is read just if the text of the test
is a word for positions or a number below `2 ^ 64` in digits.  Then it gives the character for each
position of a sequence, in the order in which its items are taken; otherwise the test is at
fault. -/
theorem Template.parse_positionLoop {var key position : String} (hvar : IsVariable var)
    (hkey : IsName key) (hposition : IsName position) (reverse : Bool) :
    (Role.isPosition position = true →
      ∃ t, Template.parse {} (positionLoop var key reverse position) = .ok t ∧
        ∀ (data : Value) (items : List Value),
          (Renderer.new data).getValue key 1 = .ok (.sequence items) →
            t.generate data = .ok (String.ofList
              ((List.range items.length).map (positionMark position items.length)))) ∧
    (Role.isPosition position = false →
      Template.parse {} (positionLoop var key reverse position) =
        .error (.parse ⟨1, .invalidDirective (positionTest var position)⟩)) := by
  have hparse := parse_positionLoop_eq hvar hkey hposition reverse
  rw [← IndexPredicate.isSome_ofText?]
  cases hp : IndexPredicate.ofText? position with
  | none =>
      rw [hp] at hparse
      exact ⟨fun h => absurd h (by simp), fun _ => hparse⟩
  | some predicate =>
      rw [hp] at hparse
      refine ⟨fun _ => ⟨_, hparse, fun data items hitems => ?_⟩, fun h => absurd h (by simp)⟩
      exact generate_positionTree hp reverse hitems

/-- A number with a leading zero names a position, also from the back; a number with a sign and
one that is too large name none. -/
theorem Template.parse_positionLoop_digits :
    let data : Value := .mapping [("L", .sequence [.null, .int 7, .string "c"])]
    (∃ t, Template.parse {} "[for-inv x in L][if-index x is 01]1[else]0[endif][endfor]" = .ok t ∧
      t.generate data = .ok "010") ∧
    Template.parse {} "[for x in L][if-index x is -1]1[else]0[endif][endfor]" =
      .error (.parse ⟨1, .invalidDirective "[if-index x is -1]"⟩) ∧
    Template.parse {}
        "[for x in L][if-index x is 18446744073709551616]1[else]0[endif][endfor]" =
      .error (.parse ⟨1, .invalidDirective "[if-index x is 18446744073709551616]"⟩) := by
  intro data
  have hx : IsVariable "x" := ⟨isName_of_all (by decide) (by decide), by decide⟩
  have hL : IsName "L" := isName_of_all (by decide) (by decide)
  have hleading : IsName "01" := isName_of_all (by decide) (by decide)
  have hsigned : IsName "-1" := isName_of_all (by decide) (by decide)
  have hlarge : IsName "18446744073709551616" := isName_of_all (by decide) (by decide)
  obtain ⟨t, ht, hgenerate⟩ := (parse_positionLoop hx hL hleading true).1 (by decide)
  refine ⟨⟨t, ht, ?_⟩, ?_, ?_⟩
  · exact hgenerate data [.null, .int 7, .string "c"] rfl
  · exact (parse_positionLoop hx hL hsigned false).2 (by decide)
  · exact (parse_positionLoop hx hL hlarge false).2 (by decide)

end Stencil
