import Stencil.Proofs.Role
import Stencil.Proofs.TokenStream
import Stencil.Segment.Grammar
import Stencil.Template.Descent
import Stencil.Template.WellFormed

/-!
# What the tokens of a text are like

The arguments of a command that is read from a text are arguments as the grammar has them, so
that a bare one is a name; no token stands for an empty text.  The line of a token is at least
the one that the text starts on, and lines never go back.

**Results.**
* `Argument.isArgument_of_mem_split`: what is taken from a text as an argument is one.
* `IsArgument.isName`, `IsArgument.isVariable`: a bare argument is a name.
* `Token.isLexed_of_mem_ofSegments`: what each token satisfies.
* `Token.lines_ofSegments`: the lines of tokens never go back.
* `Template.exists_of_parse`: a text that is read has tokens that are.
-/

namespace Stencil

/-! ## Arguments -/

namespace Argument

/-- What stands before a closing quote is the inside of a quoted argument. -/
theorem exists_of_quotedEnd? {cs : List Char} {p : List Char × List Char}
    (h : quotedEnd? cs = some p) : ∃ inner, IsQuoted inner ∧ p.1 = inner ++ ['"'] := by
  fun_induction quotedEnd? cs generalizing p with
  | case1 => cases h
  | case2 cs =>
      cases h
      exact ⟨[], .nil, rfl⟩
  | case3 => cases h
  | case4 => cases h
  | case5 d ds hd _ ih =>
      obtain ⟨q, hq, rfl⟩ := Option.map_eq_some_iff.1 h
      obtain ⟨inner, hinner, heq⟩ := ih hq
      exact ⟨'\\' :: d :: inner, .pair hd hinner, by rw [heq, List.cons_append, List.cons_append]⟩
  | case6 c cs hquote hbackslash ih =>
      obtain ⟨q, hq, rfl⟩ := Option.map_eq_some_iff.1 h
      obtain ⟨inner, hinner, heq⟩ := ih hq
      exact ⟨c :: inner, .char hquote hbackslash hinner, by rw [heq, List.cons_append]⟩

theorem isArgument_of_first? {cs : List Char} {p : List Char × List Char}
    (h : first? cs = some p) : IsArgument p.1 := by
  cases cs with
  | nil => cases h
  | cons c cs =>
      simp only [first?] at h
      split at h
      · next hc =>
          obtain ⟨q, hq, rfl⟩ := Option.map_eq_some_iff.1 h
          obtain ⟨inner, hinner, heq⟩ := exists_of_quotedEnd? hq
          rw [hc, heq]
          exact .quoted hinner
      split at h
      · next hc =>
          cases h
          refine .bare (List.cons_ne_nil _ _) (List.forall_mem_cons.2 ⟨hc, ?_⟩)
          exact fun d hd => List.all_eq_true.1 List.all_takeWhile d hd
      · cases h

/-- What is taken from a text as an argument is one. -/
theorem isArgument_of_mem_split (cs : List Char) : ∀ arg ∈ split cs, IsArgument arg := by
  fun_induction split cs with
  | case1 => simp
  | case2 c cs p h ih => exact List.forall_mem_cons.2 ⟨isArgument_of_first? h, ih⟩
  | case3 c cs h ih => exact ih

end Argument

/-- An argument without quotes is a name. -/
theorem IsArgument.isName {s : String} (h : IsArgument s.toList) (hbare : Role.isBare s = true) :
    IsName s := by
  generalize hcs : s.toList = cs at h
  cases h with
  | bare hne hitems =>
      rw [← hcs] at hne hitems
      exact ⟨by simpa using hne, hitems⟩
  | quoted hinner =>
      rw [Role.isBare, hcs] at hbare
      simp at hbare

/-- An argument of a single segment without quotes is a variable. -/
theorem IsArgument.isVariable {s : String} (h : IsArgument s.toList)
    (hvar : Role.isVariable s = true) : IsVariable s := by
  rw [Role.isVariable, Bool.and_eq_true, Bool.not_eq_true'] at hvar
  obtain ⟨hbare, hdot⟩ := hvar
  refine ⟨h.isName hbare, fun hmem => ?_⟩
  rw [List.contains_iff_mem.2 hmem] at hdot
  cases hdot

/-! ## Tokens -/

/-- What a token of a text satisfies: it stands for no empty text, and its arguments are
arguments. -/
def TokenKind.IsLexed : TokenKind → Prop
  | text s => s ≠ ""
  | command args _ => ∀ arg ∈ args, IsArgument arg.toList
  | escape mark => mark ≠ ""
  | comment => True

namespace Token

section Segments

variable (m : Marks) (trim drop : Bool) (line : Nat)

theorem isLexed_of_mem_ofText (chars : List Char) :
    ∀ t ∈ ofText drop line chars, t.kind.IsLexed := by
  rw [ofText_eq]
  split
  · exact List.forall_mem_nil _
  · next hne =>
      rw [List.forall_mem_singleton]
      have hkept : String.ofList (keptText drop chars) ≠ "" := by simpa using hne
      exact hkept

theorem isLexed_of_mem_ofSegment (s : Segment) :
    ∀ t ∈ ofSegment m drop line s, t.kind.IsLexed := by
  cases s with
  | text chars => exact isLexed_of_mem_ofText drop line chars
  | command body =>
      rw [ofSegment, List.forall_mem_singleton]
      intro arg harg
      obtain ⟨cs, hcs, rfl⟩ := List.mem_map.1 harg
      rw [String.toList_ofList]
      exact Argument.isArgument_of_mem_split body cs hcs
  | escape =>
      rw [ofSegment, List.forall_mem_singleton]
      have hne : String.ofList m.opening ≠ "" := by simpa using m.opening_ne_nil
      exact hne
  | comment body =>
      rw [ofSegment, List.forall_mem_singleton]
      exact trivial

/-- **What each token of a text satisfies.** -/
theorem isLexed_of_mem_ofSegments (segments : List Segment) :
    ∀ t ∈ ofSegments m trim drop line segments, t.kind.IsLexed := by
  induction segments generalizing drop line with
  | nil => simp [ofSegments]
  | cons s rest ih =>
      rw [ofSegments, List.forall_mem_append]
      exact ⟨isLexed_of_mem_ofSegment m drop line s, ih _ _⟩

/-- A segment has at most one token, on one of its lines. -/
theorem lines_ofSegment (s : Segment) :
    ofSegment m drop line s = [] ∨ ∃ t, ofSegment m drop line s = [t] ∧
      line ≤ t.line ∧ t.line ≤ line + lineFeeds (s.source m) := by
  cases s with
  | text chars =>
      rw [ofSegment, ofText_eq]
      split
      · exact Or.inl rfl
      · have hbreak : lineFeeds (leadingBreak drop chars) ≤ lineFeeds chars := by
          calc
            lineFeeds (leadingBreak drop chars)
              ≤ lineFeeds (leadingBreak drop chars ++ keptText drop chars) := by
                rw [lineFeeds_append]
                exact Nat.le_add_right _ _
            _ = lineFeeds chars := by rw [leadingBreak_append_keptText]
        exact Or.inr ⟨_, rfl, Nat.le_add_right _ _, Nat.add_le_add_left hbreak _⟩
  | command body => exact Or.inr ⟨_, rfl, Nat.le_refl _, Nat.le_add_right _ _⟩
  | escape => exact Or.inr ⟨_, rfl, Nat.le_refl _, Nat.le_add_right _ _⟩
  | comment body => exact Or.inr ⟨_, rfl, Nat.le_refl _, Nat.le_add_right _ _⟩

/-- **The lines of tokens never go back**, and start on the line of the text. -/
theorem lines_ofSegments (segments : List Segment) :
    (∀ t ∈ ofSegments m trim drop line segments, line ≤ t.line) ∧
      ((ofSegments m trim drop line segments).map Token.line).Pairwise (· ≤ ·) := by
  induction segments generalizing drop line with
  | nil => simp [ofSegments]
  | cons s rest ih =>
      obtain ⟨hle, hpair⟩ := ih (trim && isCommand s) (line + lineFeeds (s.source m))
      have hrest : ∀ t ∈ ofSegments m trim (trim && isCommand s)
          (line + lineFeeds (s.source m)) rest, line ≤ t.line :=
        fun t ht => Nat.le_trans (Nat.le_add_right _ _) (hle t ht)
      rw [ofSegments]
      rcases lines_ofSegment m drop line s with hnone | ⟨t, ht, hfirst, hlast⟩
      · rw [hnone]
        exact ⟨hrest, hpair⟩
      · rw [ht, List.singleton_append, List.map_cons, List.forall_mem_cons, List.pairwise_cons]
        refine ⟨⟨hfirst, hrest⟩, fun later hlater => ?_, hpair⟩
        obtain ⟨u, hu, rfl⟩ := List.mem_map.1 hlater
        exact Nat.le_trans hlast (hle u hu)

end Segments

end Token

/-- A text that is read has tokens that are assembled. -/
theorem Template.exists_of_parse {config : Config} {text : String} {t : Template}
    (h : Template.parse config text = .ok t) : ∃ m, config.marks = .ok m ∧
      Token.tokenize config text = .ok (Token.ofChars m config.trimNewline text.toList) ∧
        Template.ofTokens (Token.ofChars m config.trimNewline text.toList) = .ok t := by
  cases hm : config.marks with
  | error e =>
      rw [parse, Token.tokenize, hm] at h
      cases h
  | ok m =>
      refine ⟨m, rfl, ?_, ?_⟩
      · rw [Token.tokenize, hm]
        rfl
      · rw [parse_of_marks hm] at h
        cases ht : ofTokens (Token.ofChars m config.trimNewline text.toList) with
        | error e =>
            rw [ht] at h
            cases h
        | ok u =>
            rw [ht] at h
            cases h
            rfl

end Stencil
