/-!
# Reading decimals

Natural numbers in a base, and decimal fractions with an optional exponent.  A fraction
needs a digit before or after its point.  It is read as the nearest double, infinity
if it is too large.

**Results.**
* `ofDigits_append`: digits add up from the left.
-/

namespace Stencil
namespace Decimal

def digitValue? (c : Char) : Option Nat :=
  if c.isDigit then some (c.toNat - '0'.toNat)
  else if 'a' ≤ c && c ≤ 'f' then some (c.toNat - 'a'.toNat + 10)
  else if 'A' ≤ c && c ≤ 'F' then some (c.toNat - 'A'.toNat + 10)
  else none

def digitIn? (base : Nat) (c : Char) : Option Nat :=
  (digitValue? c).filter (· < base)

/-- The number that continues `acc` with decimal digits. -/
def ofDigits (acc : Nat) (cs : List Char) : Nat :=
  cs.foldl (fun n c => 10 * n + (c.toNat - '0'.toNat)) acc

theorem ofDigits_append (acc : Nat) (as bs : List Char) :
    ofDigits acc (as ++ bs) = ofDigits (ofDigits acc as) bs := by
  simp [ofDigits]

/-- A non-empty run of digits in a base. -/
def natural? (base : Nat) (cs : List Char) : Option Nat :=
  if cs = [] then none
  else cs.foldlM (fun n c => (digitIn? base c).map (base * n + ·)) 0

def splitSign : List Char → Bool × List Char
  | '-' :: cs => (true, cs)
  | '+' :: cs => (false, cs)
  | cs => (false, cs)

/-- An exponent with its mark, or nothing at all. -/
def exponent? : List Char → Option Int
  | [] => some 0
  | c :: cs =>
      if c = 'e' || c = 'E' then
        let p := splitSign cs
        (natural? 10 p.2).map (fun n => if p.1 then -(n : Int) else n)
      else none

/-- The nearest double to `m * 10 ^ e`. -/
def toFloat (m : Nat) (e : Int) : Float :=
  if m = 0 then 0
  else
    let size := ((Nat.toDigits 10 m).length : Int) + e
    if size > 400 then Float.ofScientific 1 false 400
    else if size < -400 then 0
    else Float.ofScientific m (e < 0) e.natAbs

/-- A decimal fraction without a sign. -/
def unsigned? (cs : List Char) : Option Float :=
  let whole := cs.takeWhile Char.isDigit
  let rest := cs.dropWhile Char.isDigit
  let places := match rest with
    | '.' :: r => r.takeWhile Char.isDigit
    | _ => []
  let tail := match rest with
    | '.' :: r => r.dropWhile Char.isDigit
    | r => r
  if whole = [] ∧ places = [] then none
  else
    (exponent? tail).map (fun e =>
      toFloat (ofDigits (ofDigits 0 whole) places) (e - places.length))

/-- A decimal fraction with an optional sign. -/
def float? (cs : List Char) : Option Float :=
  let p := splitSign cs
  (unsigned? p.2).map (fun f => if p.1 then -f else f)

end Decimal
end Stencil
