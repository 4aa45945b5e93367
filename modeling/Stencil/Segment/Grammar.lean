import Stencil.Segment

/-!
# The grammar of directives

What a directive looks like, without saying how it is found: a command is a body of
arguments with blanks between them, an escape is two begin marks, and a comment is any
text after a number sign, each before an end mark.

**Results.**
* `IsArgument.ne_nil`: an argument is never empty.
* `IsDirective.ne_nil`: a directive is never empty.
* `IsBody.ne_nil`: a body holds at least one argument.
-/

namespace Stencil

/-- The text between the double quotes of an argument. -/
inductive IsQuoted : List Char → Prop where
  | nil : IsQuoted []
  | char {c : Char} {cs : List Char} (quote : c ≠ '"') (backslash : c ≠ '\\')
      (rest : IsQuoted cs) : IsQuoted (c :: cs)
  | pair {c : Char} {cs : List Char} (lineFeed : c ≠ '\n') (rest : IsQuoted cs) :
      IsQuoted ('\\' :: c :: cs)

/-- An argument as it is written: item characters, or a text in double quotes. -/
inductive IsArgument : List Char → Prop where
  | bare {cs : List Char} (ne_nil : cs ≠ []) (items : ∀ c ∈ cs, Text.isItem c = true) :
      IsArgument cs
  | quoted {cs : List Char} (inner : IsQuoted cs) : IsArgument ('"' :: cs ++ ['"'])

/-- Arguments with blanks between them. -/
inductive IsBody : List Char → List (List Char) → Prop where
  | single {arg : List Char} (argument : IsArgument arg) : IsBody arg [arg]
  | more {arg blanks rest : List Char} {args : List (List Char)} (argument : IsArgument arg)
      (ne_nil : blanks ≠ []) (blank : ∀ c ∈ blanks, Text.isBlank c = true)
      (body : IsBody rest args) : IsBody (arg ++ blanks ++ rest) (arg :: args)

/-- A directive as it is written. -/
inductive IsDirective (m : Marks) : List Char → Prop where
  | command {body : List Char} {args : List (List Char)} (is_body : IsBody body args) :
      IsDirective m (m.opening ++ body ++ m.closing)
  | escape : IsDirective m (m.opening ++ m.opening ++ m.closing)
  | comment (body : List Char) : IsDirective m (m.opening ++ '#' :: body ++ m.closing)

theorem IsArgument.ne_nil {arg : List Char} (h : IsArgument arg) : arg ≠ [] := by
  cases h with
  | bare ne_nil _ => exact ne_nil
  | quoted _ => simp

theorem IsDirective.ne_nil {m : Marks} {d : List Char} (h : IsDirective m d) : d ≠ [] := by
  cases h <;> simp [m.opening_ne_nil]

theorem IsBody.ne_nil {body : List Char} {args : List (List Char)} (h : IsBody body args) :
    args ≠ [] := by
  cases h <;> simp

end Stencil
