import Stencil.Directive
import Stencil.Proofs.Spelling
import Stencil.Proofs.Written
import Stencil.Template.WellFormed

/-!
# Printed directives

The arguments that are written for a directive of a well-formed tree can stand in a
command, and they are read as this directive: names are bare arguments, literals quoted
ones, and the number of a position is written in digits.

**Results.**
* `IndexPredicate.ofText?_text`: the text of a predicate names it.
* `Test.spelled_args`, `Test.ofArgs?_args`: the arguments of a test are read as the test.
* `readable_bodyPieces`: the pieces of a well-formed body can be read back.
-/

namespace Stencil

/-! ## Arguments -/

theorem IsName.isArgument {s : String} (h : IsName s) : IsArgument s.toList := by
  obtain ⟨hne, hitems⟩ := h
  exact .bare (by simpa using hne) hitems

theorem IsName.head_ne_quote {s : String} (h : IsName s) : s.toList.head? ≠ some '"' := by
  intro hhead
  exact Text.ne_quote_of_isItem (h.2 '"' (List.mem_of_head? hhead)) rfl

theorem IsName.isBare {s : String} (h : IsName s) : Role.isBare s = true := by
  rw [Role.isBare, bne_iff_ne]
  exact h.head_ne_quote

theorem IsVariable.isVariable {s : String} (h : IsVariable s) : Role.isVariable s = true := by
  have hdot : s.toList.contains '.' = false := by simpa using h.2
  rw [Role.isVariable, h.1.isBare, hdot]
  rfl

theorem isName_of_all {s : String} (hne : s ≠ "") (h : s.toList.all Text.isItem = true) :
    IsName s :=
  ⟨hne, List.all_eq_true.1 h⟩

/-- The words of directives are names. -/
theorem isName_of_mem_keywords {s : String}
    (h : s ∈ ["endfor", "else", "last", "endif", "for", "for-inv", "in", "is", "if", "elif",
      "if-index", "elif-index", "if-any", "elif-any", "first", "even", "odd"]) : IsName s := by
  simp only [List.mem_cons, List.not_mem_nil, or_false] at h
  rcases h with rfl | rfl | rfl | rfl | rfl | rfl | rfl | rfl | rfl | rfl | rfl | rfl | rfl |
    rfl | rfl | rfl | rfl
  all_goals exact isName_of_all (by decide) (by decide)

/-- The inside of a written literal has a backslash before each quote and backslash. -/
theorem isQuoted_flatMap_quotedChar (cs : List Char) :
    IsQuoted (cs.flatMap Argument.quotedChar) := by
  induction cs with
  | nil => exact .nil
  | cons c cs ih =>
      rw [List.flatMap_cons, Argument.quotedChar]
      by_cases hc : c = '"' ∨ c = '\\'
      · rw [if_pos hc]
        refine .pair ?_ ih
        rcases hc with rfl | rfl
        · decide
        · decide
      · rw [if_neg hc]
        exact .char (fun h => hc (Or.inl h)) (fun h => hc (Or.inr h)) ih

theorem isArgument_quote (literal : String) : IsArgument (Argument.quote literal).toList := by
  rw [Argument.quote, String.toList_ofList]
  exact .quoted (isQuoted_flatMap_quotedChar literal.toList)

/-! ## Positions -/

theorem isItem_of_isDigit {c : Char} (h : c.isDigit = true) : Text.isItem c = true := by
  obtain ⟨_, hle⟩ := Decimal.toNat_of_isDigit h
  have halnum : c.isAlphanum = true := by simp [Char.isAlphanum, h]
  exact Text.isItem_of_isWord (Text.isWord_of_isAlphanum (by omega) halnum)

/-- No number is one of the words for positions. -/
theorem toString_not_mem_words (n : Nat) :
    toString n ∉ ["first", "last", "even", "odd"] := by
  intro h
  have hdigits := all_isDigit_toString n
  simp only [List.mem_cons, List.not_mem_nil, or_false] at h
  rcases h with h | h | h | h
  all_goals
    rw [h] at hdigits
    revert hdigits
    decide

/-- The text of a predicate names it. -/
theorem IndexPredicate.ofText?_text {p : IndexPredicate} (h : p.InRange) :
    ofText? p.text = some p := by
  cases p with
  | nth n => exact ofText?_digits (natural?_toString n) h (toString_not_mem_words n)
  | first => rfl
  | last => rfl
  | even => rfl
  | odd => rfl

theorem IndexPredicate.isName_text (p : IndexPredicate) : IsName p.text := by
  cases p with
  | nth n =>
      refine ⟨fun h => toString_toList_ne_nil n ?_, fun c hc => ?_⟩
      · rw [show toString n = "" from h, String.toList_empty]
      · have hall := List.all_eq_true.1 (all_isDigit_toString n)
        exact isItem_of_isDigit (hall c hc)
  | first => exact isName_of_mem_keywords (by decide)
  | last => exact isName_of_mem_keywords (by decide)
  | even => exact isName_of_mem_keywords (by decide)
  | odd => exact isName_of_mem_keywords (by decide)

/-! ## Directives -/

/-- The arguments of a test spell it. -/
theorem Test.spelled_args {vars : List String} {test : Test} (h : test.WellFormed vars)
    (isFirst : Bool) : test.Spelled vars isFirst (test.args isFirst) := by
  cases test with
  | is key literal =>
      have hkey : IsName key := h
      exact ⟨hkey.isBare, Argument.quote literal, rfl, Argument.unquote_quote literal⟩
  | index var predicate =>
      obtain ⟨hvar, hmem, hp⟩ := h
      exact ⟨hvar.isVariable, hmem, predicate.text, rfl, IndexPredicate.ofText?_text hp⟩
  | any key =>
      have hkey : IsName key := h
      exact ⟨hkey.isBare, rfl⟩

/-- The arguments of a test are read as the test. -/
theorem Test.ofArgs?_args {vars : List String} {test : Test} (h : test.WellFormed vars)
    (isFirst : Bool) :
    Directive.ofArgs? vars (test.args isFirst) = some (test.directive isFirst) :=
  Directive.ofArgs?_of_spelled (Test.spelled_args h isFirst)

/-- The arguments of a loop are read as the loop. -/
theorem ofArgs?_loop {vars : List String} {var key : String} (hvar : IsVariable var)
    (hkey : IsName key) (reverse : Bool) :
    Directive.ofArgs? vars [if reverse then "for-inv" else "for", var, "in", key] =
      some (.loop var key reverse) :=
  Directive.ofArgs?_eq_some_iff.2 ⟨hvar.isVariable, hkey.isBare, rfl⟩

/-! ## Pieces -/

theorem Test.args_ne_nil (test : Test) (isFirst : Bool) : test.args isFirst ≠ [] := by
  cases test <;> exact List.cons_ne_nil _ _

/-- The keyword of a test is a name. -/
theorem isName_keyword {first later : String} (hfirst : IsName first) (hlater : IsName later)
    (isFirst : Bool) : IsName (if isFirst then first else later) := by
  cases isFirst with
  | true => exact hfirst
  | false => exact hlater

/-- The keyword of a loop is a name. -/
theorem isName_loop (reverse : Bool) : IsName (if reverse then "for-inv" else "for") :=
  isName_keyword (isName_of_mem_keywords (by decide)) (isName_of_mem_keywords (by decide)) reverse

theorem Test.isArgument_args {vars : List String} {test : Test} (h : test.WellFormed vars)
    (isFirst : Bool) : ∀ arg ∈ test.args isFirst, IsArgument arg.toList := by
  have his : IsArgument "is".toList := (isName_of_mem_keywords (by decide)).isArgument
  cases test with
  | is key literal =>
      have hkey : IsName key := h
      have hkeyword := isName_keyword (isName_of_mem_keywords (s := "if") (by decide))
        (isName_of_mem_keywords (s := "elif") (by decide)) isFirst
      simp only [args, List.forall_mem_cons]
      exact ⟨hkeyword.isArgument, hkey.isArgument, his, isArgument_quote literal, by simp⟩
  | index var predicate =>
      have hkeyword := isName_keyword (isName_of_mem_keywords (s := "if-index") (by decide))
        (isName_of_mem_keywords (s := "elif-index") (by decide)) isFirst
      simp only [args, List.forall_mem_cons]
      exact ⟨hkeyword.isArgument, h.1.1.isArgument, his, predicate.isName_text.isArgument,
        by simp⟩
  | any key =>
      have hkey : IsName key := h
      have hkeyword := isName_keyword (isName_of_mem_keywords (s := "if-any") (by decide))
        (isName_of_mem_keywords (s := "elif-any") (by decide)) isFirst
      simp only [args, List.forall_mem_cons]
      exact ⟨hkeyword.isArgument, hkey.isArgument, by simp⟩

theorem isArgument_loop {var key : String} (hvar : IsVariable var) (hkey : IsName key)
    (reverse : Bool) :
    ∀ arg ∈ [if reverse then "for-inv" else "for", var, "in", key], IsArgument arg.toList := by
  have hin : IsName "in" := isName_of_mem_keywords (by decide)
  simp only [List.forall_mem_cons]
  exact ⟨(isName_loop reverse).isArgument, hvar.1.isArgument, hin.isArgument, hkey.isArgument,
    by simp⟩

/-- A command of one name can be read back. -/
theorem readable_name {s : String} (h : IsName s) {ps : List Piece} (hps : Piece.Readable ps) :
    Piece.Readable (.command [s] :: ps) := by
  refine ⟨by simp, ?_, hps⟩
  simp only [List.forall_mem_cons]
  exact ⟨h.isArgument, by simp⟩

/-- What is no text is written beginning with a command. -/
theorem Node.exists_pieces_eq {vars : List String} {n : Node} (h : n.WellFormed vars)
    (hn : n.isText = false) : ∃ args rest, n.pieces = .command args :: rest := by
  cases n with
  | text s => cases hn
  | lookup key line => exact ⟨_, _, rfl⟩
  | loop var key reverse body line => exact ⟨_, _, rfl⟩
  | last line => exact ⟨_, _, rfl⟩
  | conditional branches otherwise =>
      obtain ⟨⟨kind, hne, _⟩, _⟩ := h
      cases branches with
      | nil => exact absurd rfl hne
      | cons b bs =>
          obtain ⟨test, body, line⟩ := b
          exact ⟨test.args true, _, rfl⟩

/-- Behind a text of a body no other text is written. -/
theorem noTextFirst_bodyPieces {vars : List String} {n : Node} {ns : List Node}
    (h : bodyWellFormed vars ns) (hapart : textsApart (n :: ns)) (hn : n.isText = true)
    {ps : List Piece} (hps : Piece.NoTextFirst ps) :
    Piece.NoTextFirst (bodyPieces ns ++ ps) := by
  cases ns with
  | nil =>
      rw [bodyPieces]
      exact hps
  | cons b bs =>
      have hb : b.isText = false := by
        cases hb : b.isText with
        | false => rfl
        | true => exact absurd ⟨hn, hb⟩ hapart.1
      obtain ⟨args, rest, hpieces⟩ := Node.exists_pieces_eq h.1 hb
      rw [bodyPieces, hpieces]
      intro p hp
      cases hp
      rfl

theorem textsApart_tail {n : Node} {ns : List Node} (h : textsApart (n :: ns)) :
    textsApart ns := by
  cases ns with
  | nil => trivial
  | cons b bs => exact h.2

mutual

theorem Node.readable_pieces {vars : List String} : ∀ n : Node, n.WellFormed vars →
    ∀ ps, Piece.Readable ps → (n.isText = true → Piece.NoTextFirst ps) →
      Piece.Readable (n.pieces ++ ps)
  | .text s, h, ps, hps, hnext => by
      rw [Node.pieces]
      exact ⟨h, hnext rfl, hps⟩
  | .lookup key _, h, ps, hps, _ => by
      rw [Node.pieces]
      exact readable_name h.1 hps
  | .last _, _, ps, hps, _ => by
      rw [Node.pieces]
      exact readable_name (isName_of_mem_keywords (by decide)) hps
  | .loop var key reverse body _, h, ps, hps, _ => by
      obtain ⟨hvar, hkey, hbody, hapart⟩ := h
      have hend : Piece.Readable (.command ["endfor"] :: ps) :=
        readable_name (isName_of_mem_keywords (by decide)) hps
      rw [Node.pieces, List.cons_append, List.cons_append, List.append_assoc]
      exact ⟨by simp, isArgument_loop hvar hkey reverse,
        readable_bodyPieces body hbody hapart _ hend (by simp [Piece.NoTextFirst, Piece.isCommand])⟩
  | .conditional branches otherwise, h, ps, hps, _ => by
      obtain ⟨⟨kind, _, hbranches⟩, hotherwise⟩ := h
      have hend : Piece.Readable (.command ["endif"] :: ps) :=
        readable_name (isName_of_mem_keywords (by decide)) hps
      rw [Node.pieces, List.append_assoc, List.append_assoc]
      refine readable_branchPieces true branches hbranches _ ?_ ?_
      · exact readable_otherwisePieces otherwise hotherwise _ hend
          (by simp [Piece.NoTextFirst, Piece.isCommand])
      · cases otherwise with
        | none => simp [otherwisePieces, Piece.NoTextFirst, Piece.isCommand]
        | some body => simp [otherwisePieces, Piece.NoTextFirst, Piece.isCommand]

/-- **The pieces of a well-formed body can be read back.** -/
theorem readable_bodyPieces {vars : List String} : ∀ ns : List Node, bodyWellFormed vars ns →
    textsApart ns → ∀ ps, Piece.Readable ps → Piece.NoTextFirst ps →
      Piece.Readable (bodyPieces ns ++ ps)
  | [], _, _, ps, hps, _ => by
      rw [bodyPieces]
      exact hps
  | n :: ns, h, hapart, ps, hps, hfirst => by
      have hrest := readable_bodyPieces ns h.2 (textsApart_tail hapart) ps hps hfirst
      rw [bodyPieces, List.append_assoc]
      exact Node.readable_pieces n h.1 _ hrest
        (fun hn => noTextFirst_bodyPieces h.2 hapart hn hfirst)

theorem readable_branchPieces {vars : List String} {kind : ConditionKind} (isFirst : Bool) :
    ∀ bs : List Branch, branchesWellFormed vars kind bs → ∀ ps, Piece.Readable ps →
      Piece.NoTextFirst ps → Piece.Readable (branchPieces isFirst bs ++ ps)
  | [], _, ps, hps, _ => by
      rw [branchPieces]
      exact hps
  | .mk test body _ :: bs, h, ps, hps, hfirst => by
      obtain ⟨_, htest, hbody, hapart, hbs⟩ := h
      have hrest := readable_branchPieces false bs hbs ps hps hfirst
      rw [branchPieces, List.cons_append, List.cons_append, List.append_assoc]
      refine ⟨test.args_ne_nil isFirst, Test.isArgument_args htest isFirst, ?_⟩
      refine readable_bodyPieces body hbody hapart _ hrest ?_
      cases bs with
      | nil =>
          rw [branchPieces]
          exact hfirst
      | cons b bs =>
          obtain ⟨next, nextBody, line⟩ := b
          simp [branchPieces, Piece.NoTextFirst, Piece.isCommand]

theorem readable_otherwisePieces {vars : List String} : ∀ o : Option (List Node),
    otherwiseWellFormed vars o → ∀ ps, Piece.Readable ps → Piece.NoTextFirst ps →
      Piece.Readable (otherwisePieces o ++ ps)
  | none, _, ps, hps, _ => by
      rw [otherwisePieces]
      exact hps
  | some body, h, ps, hps, hfirst => by
      rw [otherwisePieces, List.cons_append]
      exact readable_name (isName_of_mem_keywords (by decide))
        (readable_bodyPieces body h.1 h.2 ps hps hfirst)

end

end Stencil
