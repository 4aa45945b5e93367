import Stencil.Decimal.Reader

/-!
# Strings in JSON

Between double quotes stand characters and escapes.  An escape with four hexadecimal
digits is a unit of sixteen bits; two of them, a high and a low surrogate, make one
character beyond the first plane, and a surrogate alone makes none.

**Results.**
* `decode_map_char`: plain characters stand for themselves.
-/

namespace Stencil
namespace Json

/-- A piece of a string: a character, or half of one. -/
inductive Unit16 where
  | char (c : Char)
  | high (n : Nat)
  | low (n : Nat)
  deriving DecidableEq

namespace Unit16

/-- The unit of sixteen bits. -/
def ofNat (n : Nat) : Unit16 :=
  if 0xD800 ≤ n ∧ n < 0xDC00 then high (n - 0xD800)
  else if 0xDC00 ≤ n ∧ n < 0xE000 then low (n - 0xDC00)
  else char (Char.ofNat n)

/-- The characters of units, unless a surrogate stands alone. -/
def decode : List Unit16 → Option (List Char)
  | [] => some []
  | char c :: rest => (decode rest).map (c :: ·)
  | high h :: low l :: rest =>
      (decode rest).map (Char.ofNat (0x10000 + 0x400 * h + l) :: ·)
  | _ :: _ => none

theorem decode_map_char (cs : List Char) : decode (cs.map char) = some cs := by
  induction cs with
  | nil => rfl
  | cons c cs ih => simp [decode, ih]

end Unit16

def shortEscape? (c : Char) : Option Char :=
  if c = '"' then some '"'
  else if c = '\\' then some '\\'
  else if c = '/' then some '/'
  else if c = 'b' then some '\x08'
  else if c = 'f' then some '\x0c'
  else if c = 'n' then some '\n'
  else if c = 'r' then some '\r'
  else if c = 't' then some '\t'
  else none

/-- The units of a string up to its closing quote, and the text after it. -/
def units? : List Char → Option (List Unit16 × List Char)
  | [] => none
  | c :: cs =>
      if c = '"' then some ([], cs)
      else if c = '\\' then
        match cs with
        | 'u' :: a :: b :: d :: e :: rest =>
            (Decimal.natural? 16 [a, b, d, e]).bind (fun n =>
              (units? rest).map (fun p => (Unit16.ofNat n :: p.1, p.2)))
        | x :: rest =>
            (shortEscape? x).bind (fun y =>
              (units? rest).map (fun p => (.char y :: p.1, p.2)))
        | [] => none
      else if c.toNat < 0x20 then none
      else (units? cs).map (fun p => (.char c :: p.1, p.2))

theorem length_lt_of_units? {cs : List Char} {p : List Unit16 × List Char}
    (h : units? cs = some p) : p.2.length < cs.length := by
  fun_induction units? cs generalizing p with
  | case1 => cases h
  | case2 => cases h; simp
  | case3 a b d e rest _ ih =>
      obtain ⟨n, _, h⟩ := Option.bind_eq_some_iff.1 h
      obtain ⟨q, hq, rfl⟩ := Option.map_eq_some_iff.1 h
      have := ih hq
      simp only [List.length_cons]
      omega
  | case4 x rest _ _ ih =>
      obtain ⟨n, _, h⟩ := Option.bind_eq_some_iff.1 h
      obtain ⟨q, hq, rfl⟩ := Option.map_eq_some_iff.1 h
      have := ih hq
      simp only [List.length_cons]
      omega
  | case5 => cases h
  | case6 => cases h
  | case7 c cs _ _ _ ih =>
      obtain ⟨q, hq, rfl⟩ := Option.map_eq_some_iff.1 h
      have := ih hq
      simp only [List.length_cons]
      omega

/-- A hexadecimal digit in lower case. -/
def hexDigit (n : Nat) : Char :=
  Nat.digitChar n

/-- How one character is written in a string. -/
def escaped (c : Char) : List Char :=
  if c = '"' then ['\\', '"']
  else if c = '\\' then ['\\', '\\']
  else if c = '\x08' then ['\\', 'b']
  else if c = '\x0c' then ['\\', 'f']
  else if c = '\n' then ['\\', 'n']
  else if c = '\r' then ['\\', 'r']
  else if c = '\t' then ['\\', 't']
  else if c.toNat < 0x20 then
    ['\\', 'u', '0', '0', hexDigit (c.toNat / 16), hexDigit (c.toNat % 16)]
  else [c]

def quotedText (s : String) : List Char :=
  '"' :: s.toList.flatMap escaped ++ ['"']

end Json
end Stencil
