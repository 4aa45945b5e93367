import Stencil.Argument
import Stencil.Segment.Grammar

/-!
# The arguments of a command

A body of arguments with blanks between them is split into just these arguments: a bare
argument goes on up to a blank, a quoted one up to the quote that no backslash precedes,
and blanks are skipped.

**Results.**
* `Argument.first?_append`: an argument is found where it is followed by no item character.
* `IsBody.split_eq`: a body is split into its arguments.
-/

namespace Stencil

namespace Text

/-- A blank is no item character. -/
theorem isItem_of_isBlank {c : Char} (h : isBlank c = true) : isItem c = false := by
  simp only [isBlank, Bool.or_eq_true, beq_iff_eq] at h
  rcases h with rfl | rfl
  · decide
  · decide

/-- A double quote is no item character. -/
theorem isItem_quote : isItem '"' = false := by
  decide

theorem isBlank_quote : isBlank '"' = false := by
  decide

theorem ne_quote_of_isItem {c : Char} (h : isItem c = true) : c ≠ '"' := by
  rintro rfl
  rw [isItem_quote] at h
  cases h

theorem ne_quote_of_isBlank {c : Char} (h : isBlank c = true) : c ≠ '"' := by
  rintro rfl
  rw [isBlank_quote] at h
  cases h

end Text

namespace Argument

/-- The inside of a quoted argument ends at the closing quote. -/
theorem quotedEnd?_append {cs : List Char} (h : IsQuoted cs) (rest : List Char) :
    quotedEnd? (cs ++ '"' :: rest) = some (cs ++ ['"'], rest) := by
  induction h with
  | nil =>
      rw [List.nil_append, quotedEnd?.eq_def]
      rfl
  | char quote backslash _ ih =>
      rw [List.cons_append, quotedEnd?.eq_def]
      simp [quote, backslash, ih]
  | pair lineFeed _ ih =>
      rw [List.cons_append, List.cons_append, quotedEnd?.eq_def]
      simp [lineFeed, ih]

/-- An argument is the first one of a text in which no item character follows it. -/
theorem first?_append {arg : List Char} (h : IsArgument arg) {rest : List Char}
    (hrest : ∀ c ∈ rest.head?, Text.isItem c = false) :
    first? (arg ++ rest) = some (arg, rest) := by
  cases h with
  | quoted inner =>
      rw [List.cons_append, List.cons_append, List.append_assoc, List.singleton_append, first?,
        if_pos rfl, quotedEnd?_append inner]
      rfl
  | bare ne_nil items =>
      cases arg with
      | nil => exact absurd rfl ne_nil
      | cons c cs =>
          have hc : Text.isItem c = true := items c (by simp)
          have hcs : ∀ d ∈ cs, Text.isItem d = true := fun d hd => items d (by simp [hd])
          have hstop : rest.takeWhile Text.isItem = [] ∧ rest.dropWhile Text.isItem = rest := by
            cases rest with
            | nil => exact ⟨rfl, rfl⟩
            | cons d ds =>
                have hd := hrest d rfl
                simp [hd]
          rw [List.cons_append, first?, if_neg (Text.ne_quote_of_isItem hc), if_pos hc,
            List.takeWhile_append_of_pos hcs, List.dropWhile_append_of_pos hcs, hstop.1, hstop.2,
            List.append_nil]

/-- Where an argument is found, splitting goes on behind it. -/
theorem split_of_first? {cs : List Char} {p : List Char × List Char}
    (h : first? cs = some p) : split cs = p.1 :: split p.2 := by
  cases cs with
  | nil => cases h
  | cons c cs =>
      rw [split]
      split
      · next q hq =>
          rw [h] at hq
          cases hq
          rfl
      · next hq =>
          rw [h] at hq
          cases hq

/-- Blanks are skipped. -/
theorem split_blanks_append {blanks : List Char} (h : ∀ c ∈ blanks, Text.isBlank c = true)
    (rest : List Char) : split (blanks ++ rest) = split rest := by
  induction blanks with
  | nil => rfl
  | cons c cs ih =>
      have hc : Text.isBlank c = true := h c (by simp)
      have hfirst : first? (c :: (cs ++ rest)) = none := by
        rw [first?, if_neg (Text.ne_quote_of_isBlank hc)]
        simp [Text.isItem_of_isBlank hc]
      rw [List.cons_append, split]
      split
      · next p hp =>
          rw [hfirst] at hp
          cases hp
      · exact ih (fun d hd => h d (by simp [hd]))

end Argument

/-- **A body is split into its arguments.** -/
theorem IsBody.split_eq {body : List Char} {args : List (List Char)} (h : IsBody body args) :
    Argument.split body = args := by
  induction h with
  | @single arg argument =>
      have hfirst : Argument.first? (arg ++ []) = some (arg, []) :=
        Argument.first?_append argument (by simp)
      rw [List.append_nil] at hfirst
      rw [Argument.split_of_first? hfirst, Argument.split]
  | @more arg blanks rest args argument ne_nil blank _ ih =>
      have hfirst : Argument.first? (arg ++ (blanks ++ rest)) = some (arg, blanks ++ rest) := by
        refine Argument.first?_append argument ?_
        cases blanks with
        | nil => exact absurd rfl ne_nil
        | cons c cs =>
            intro d hd
            cases hd
            exact Text.isItem_of_isBlank (blank c (by simp))
      rw [List.append_assoc, Argument.split_of_first? hfirst,
        Argument.split_blanks_append blank, ih]

end Stencil
