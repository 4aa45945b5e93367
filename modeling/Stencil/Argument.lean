import Stencil.Text.Word

/-!
# Arguments of a directive

`Argument.split` finds the arguments in a text from left to right: runs of item
characters and texts in double quotes.  What is neither is skipped.

**Results.**
* `quotedEnd?_eq_append`, `first?_eq_append`: an argument is the beginning of the text.
-/

namespace Stencil
namespace Argument

/-- The rest of a quoted argument up to its closing quote, and the text after it. -/
def quotedEnd? : List Char → Option (List Char × List Char)
  | [] => none
  | c :: cs =>
      if c = '"' then some ([c], cs)
      else if c = '\\' then
        match cs with
        | [] => none
        | d :: ds =>
            if d = '\n' then none
            else (quotedEnd? ds).map (fun p => (c :: d :: p.1, p.2))
      else (quotedEnd? cs).map (fun p => (c :: p.1, p.2))

/-- The argument at the beginning of a text, and the text after it. -/
def first? : List Char → Option (List Char × List Char)
  | [] => none
  | c :: cs =>
      if c = '"' then (quotedEnd? cs).map (fun p => (c :: p.1, p.2))
      else if Text.isItem c then
        some (c :: cs.takeWhile Text.isItem, cs.dropWhile Text.isItem)
      else none

theorem quotedEnd?_eq_append {cs : List Char} {p : List Char × List Char}
    (h : quotedEnd? cs = some p) : cs = p.1 ++ p.2 := by
  fun_induction quotedEnd? cs generalizing p with
  | case1 => cases h
  | case2 cs => cases h; rfl
  | case3 => cases h
  | case4 => cases h
  | case5 d ds hd _ ih =>
      obtain ⟨q, hq, rfl⟩ := Option.map_eq_some_iff.1 h
      simp [ih hq]
  | case6 c cs hc hb ih =>
      obtain ⟨q, hq, rfl⟩ := Option.map_eq_some_iff.1 h
      simp [ih hq]

theorem first?_eq_append {cs : List Char} {p : List Char × List Char}
    (h : first? cs = some p) : cs = p.1 ++ p.2 := by
  cases cs with
  | nil => cases h
  | cons c cs =>
      simp only [first?] at h
      split at h
      · obtain ⟨q, hq, rfl⟩ := Option.map_eq_some_iff.1 h
        simp [quotedEnd?_eq_append hq]
      split at h
      · cases h
        simp
      · cases h

theorem ne_nil_of_first? {cs : List Char} {p : List Char × List Char}
    (h : first? cs = some p) : p.1 ≠ [] := by
  cases cs with
  | nil => cases h
  | cons c cs =>
      simp only [first?] at h
      split at h
      · obtain ⟨q, _, rfl⟩ := Option.map_eq_some_iff.1 h
        simp
      split at h
      · cases h
        simp
      · cases h

theorem length_lt_of_first? {cs : List Char} {p : List Char × List Char}
    (h : first? cs = some p) : p.2.length < cs.length := by
  have hlen := congrArg List.length (first?_eq_append h)
  have hpos := List.length_pos_iff.2 (ne_nil_of_first? h)
  simp only [List.length_append] at hlen
  omega

/-- The arguments in a text, with their quotes, from left to right. -/
def split : List Char → List (List Char)
  | [] => []
  | c :: cs =>
      match _h : first? (c :: cs) with
      | some p => p.1 :: split p.2
      | none => split cs
termination_by cs => cs.length
decreasing_by
  · exact length_lt_of_first? _h
  · simp

/-- The arguments in a text, as strings. -/
def splitText (s : String) : List String :=
  (split s.toList).map String.ofList

/-- Resolves backslash escapes: line feed, tab, carriage return, or the next character. -/
def unescape : List Char → List Char
  | [] => []
  | c :: cs =>
      if c = '\\' then
        match cs with
        | [] => [c]
        | d :: ds =>
            (if d = 'n' then '\n' else if d = 't' then '\t' else if d = 'r' then '\r' else d) ::
              unescape ds
      else c :: unescape cs

/-- The text between a pair of double quotes around an argument. -/
def inner? : List Char → Option (List Char)
  | '"' :: cs => if cs.getLast? = some '"' then some cs.dropLast else none
  | _ => none

/-- The text that an argument stands for: quotes are removed and escapes resolved. -/
def unquote (arg : String) : String :=
  match inner? arg.toList with
  | some cs => String.ofList (unescape cs)
  | none => arg

end Argument
end Stencil
