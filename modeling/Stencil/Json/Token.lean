import Stencil.Json.Number
import Stencil.Json.Text

/-!
# Tokens of JSON

Brackets, commas, colons, words, numbers and strings, with blanks between them.  A
number that is too large and a string with half a character are still well written:
they are tokens without a value.

**Results.**
* `length_lt_of_first?`: a token takes up at least one character.
-/

namespace Stencil
namespace Json

/-- A token of a JSON text. -/
inductive Token where
  | openArray
  | closeArray
  | openObject
  | closeObject
  | comma
  | colon
  | null
  | bool (b : Bool)
  | number (n : Option Number)
  | string (s : Option String)
  deriving DecidableEq

namespace Token

/-- The blanks between tokens. -/
def isSpace (c : Char) : Bool :=
  c == ' ' || c == '\n' || c == '\t' || c == '\r'

def ofChar? (c : Char) : Option Token :=
  if c = '[' then some openArray
  else if c = ']' then some closeArray
  else if c = '\x7b' then some openObject
  else if c = '\x7d' then some closeObject
  else if c = ',' then some comma
  else if c = ':' then some colon
  else none

/-- The token of the number at the beginning of a text, and the text after it. -/
def number? (cs : List Char) : Option (Token × List Char) :=
  (numeral? cs).map (fun p => (number p.1.value?, p.2))

/-- The token of the string after an opening quote, and the text after it. -/
def string? (cs : List Char) : Option (Token × List Char) :=
  (units? cs).map (fun p => (string ((Unit16.decode p.1).map String.ofList), p.2))

/-- The token of the word at the beginning of a text, and the text after it. -/
def word? : List Char → Option (Token × List Char)
  | 'n' :: 'u' :: 'l' :: 'l' :: cs => some (null, cs)
  | 't' :: 'r' :: 'u' :: 'e' :: cs => some (bool true, cs)
  | 'f' :: 'a' :: 'l' :: 's' :: 'e' :: cs => some (bool false, cs)
  | _ => none

/-- The token at the beginning of a text, and the text after it. -/
def first? : List Char → Option (Token × List Char)
  | [] => none
  | c :: cs =>
      match ofChar? c with
      | some t => some (t, cs)
      | none =>
          if c = '"' then string? cs
          else if c = '-' || c.isDigit then number? (c :: cs)
          else word? (c :: cs)

theorem length_dropWhile_le (p : Char → Bool) (cs : List Char) :
    (cs.dropWhile p).length ≤ cs.length :=
  (List.dropWhile_suffix p).length_le

theorem length_splitSign_le (cs : List Char) :
    (Decimal.splitSign cs).2.length ≤ cs.length := by
  unfold Decimal.splitSign
  split <;> simp

theorem length_fraction?_le {cs : List Char} {f : Option (List Char) × List Char}
    (h : fraction? cs = some f) : f.2.length ≤ cs.length := by
  unfold fraction? at h
  split at h
  · next r =>
      split at h
      · cases h
      · cases h
        have := length_dropWhile_le Char.isDigit r
        simp only [List.length_cons]
        omega
  · cases h
    simp

theorem length_exponent?_le {cs : List Char} {e : Option Int × List Char}
    (h : exponent? cs = some e) : e.2.length ≤ cs.length := by
  unfold exponent? at h
  split at h
  · cases h
    simp
  · next c r =>
      split at h
      · simp only at h
        split at h
        · cases h
        · cases h
          have h₁ := length_dropWhile_le Char.isDigit (Decimal.splitSign r).2
          have h₂ := length_splitSign_le r
          simp only [List.length_cons]
          omega
      · cases h
        simp

theorem length_lt_of_magnitude? {isNegative : Bool} {cs : List Char}
    {p : Numeral × List Char} (h : magnitude? isNegative cs = some p) :
    p.2.length < cs.length := by
  simp only [magnitude?] at h
  split at h
  · cases h
  · next hw =>
      obtain ⟨f, hf, h⟩ := Option.bind_eq_some_iff.1 h
      obtain ⟨e, he, rfl⟩ := Option.map_eq_some_iff.1 h
      have h₁ := length_fraction?_le hf
      have h₂ := length_exponent?_le he
      have hlen := congrArg List.length
        (List.takeWhile_append_dropWhile (p := Char.isDigit) (l := cs))
      have hpos := List.length_pos_iff.2 (not_or.1 hw).1
      simp only [List.length_append] at hlen
      simp only
      omega

theorem length_lt_of_numeral? {cs : List Char} {p : Numeral × List Char}
    (h : numeral? cs = some p) : p.2.length < cs.length := by
  unfold numeral? at h
  split at h
  · have := length_lt_of_magnitude? h
    simp only [List.length_cons]
    omega
  · exact length_lt_of_magnitude? h

theorem length_lt_of_first? {cs : List Char} {p : Token × List Char}
    (h : first? cs = some p) : p.2.length < cs.length := by
  unfold first? at h
  split at h
  · cases h
  · next c r =>
      split at h
      · cases h
        simp
      · split at h
        · obtain ⟨q, hq, rfl⟩ := Option.map_eq_some_iff.1 h
          have := length_lt_of_units? hq
          simp only [List.length_cons]
          omega
        · split at h
          · obtain ⟨q, hq, rfl⟩ := Option.map_eq_some_iff.1 h
            exact length_lt_of_numeral? hq
          · unfold word? at h
            split at h
            · next heq => cases h; simp [heq]; omega
            · next heq => cases h; simp [heq]; omega
            · next heq => cases h; simp [heq]; omega
            · cases h

def all? : List Char → Option (List Token)
  | [] => some []
  | c :: cs =>
      if isSpace c then all? cs
      else
        match _h : first? (c :: cs) with
        | none => none
        | some p => (all? p.2).map (p.1 :: ·)
termination_by cs => cs.length
decreasing_by
  · simp
  · exact length_lt_of_first? _h

end Token

end Json
end Stencil
