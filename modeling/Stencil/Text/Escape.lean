import Stencil.Decimal.Reader

/-!
# Numbered characters in escapes

An escape may give the code point of a character in hexadecimal digits.  Surrogates and
numbers beyond the last plane are no characters.

**Results.**
* `consChar?_eq_some_iff`: an escape is put before what follows it.
-/

namespace Stencil
namespace Text

def codePoint? (digits : List Char) : Option Char :=
  (Decimal.natural? 16 digits).bind (fun n =>
    if n.isValidChar then some (Char.ofNat n) else none)

/-- Puts an optional character before text that was read, with the text after it. -/
def consChar? (c : Option Char) (p : Option (List Char × List Char)) :
    Option (List Char × List Char) :=
  c.bind (fun x => p.map (fun q => (x :: q.1, q.2)))

theorem consChar?_eq_some_iff {c : Option Char} {p : Option (List Char × List Char)}
    {q : List Char × List Char} :
    consChar? c p = some q ↔ ∃ x r, c = some x ∧ p = some r ∧ q = (x :: r.1, r.2) := by
  cases c <;> cases p <;> simp [consChar?, eq_comm]

/-- A character that is put in front of what was read changes nothing about the rest. -/
theorem rest_of_consChar? {P : List Char → Prop} {c : Option Char}
    {p : Option (List Char × List Char)} {q : List Char × List Char} (h : consChar? c p = some q)
    (hp : ∀ {r}, p = some r → P r.2) : P q.2 := by
  obtain ⟨x, r, -, hr, rfl⟩ := consChar?_eq_some_iff.1 h
  exact hp (r := r) hr

end Text
end Stencil
