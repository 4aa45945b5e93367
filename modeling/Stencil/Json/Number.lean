import Stencil.Decimal.Reader

/-!
# Numbers in JSON

A number is written as an optional minus sign, a whole part without leading zeros, and
optionally a fraction and an exponent.  Without fraction and exponent it is an integer,
as long as its digits fit into 64 bits and its sign allows.

Every other number becomes a double in one multiplication or division by a power of ten:
its leading digits, as many as fit into 64 bits, are rounded to a double and then scaled.

**Results.**
* `Leading.digits_ofWhole_lt`, `Leading.digits_addFraction_lt`: leading digits fit into 64 bits.
-/

namespace Stencil
namespace Json

/-- A number as JSON tells numbers apart. -/
inductive Number where
  | natural (n : UInt64)
  | negative (n : Int64)
  | float (f : Float)
  deriving DecidableEq

namespace Number

/-- The number as one of 64 signed bits, if it is one. -/
def asInt? : Number → Option Int64
  | natural n => if n.toNat < Nat.pow 2 63 then some (Int64.ofNat n.toNat) else none
  | negative n => some n
  | float _ => none

/-- An int as JSON tells numbers apart. -/
def ofInt (n : Int64) : Number :=
  if n.toInt < 0 then .negative n else .natural n.toInt.toNat.toUInt64

/-- The nearest double. -/
def asFloat : Number → Float
  | natural n => n.toFloat
  | negative n => n.toFloat
  | float f => f

end Number

/-- The written parts of a number. -/
structure Numeral where
  isNegative : Bool
  whole : List Char
  fraction : Option (List Char)
  exponent : Option Int

/-- Leading digits that fit into 64 bits, and the power of ten that they stand before. -/
structure Leading where
  digits : Nat
  exponent : Int
  /-- Whether a digit did not fit. -/
  isFull : Bool
  deriving DecidableEq

namespace Leading

/-- One more digit of the whole part. -/
def pushWhole (l : Leading) (c : Char) : Leading :=
  let n := 10 * l.digits + (c.toNat - '0'.toNat)
  if l.isFull || n ≥ Nat.pow 2 64 then ⟨l.digits, l.exponent + 1, true⟩
  else ⟨n, l.exponent, false⟩

/-- One more digit of the fraction; what does not fit is dropped. -/
def pushFraction (l : Leading) (c : Char) : Leading :=
  let n := 10 * l.digits + (c.toNat - '0'.toNat)
  if l.isFull || n ≥ Nat.pow 2 64 then ⟨l.digits, l.exponent, true⟩
  else ⟨n, l.exponent - 1, false⟩

def ofWhole (cs : List Char) : Leading :=
  cs.foldl pushWhole ⟨0, 0, false⟩

def addFraction (l : Leading) (cs : List Char) : Leading :=
  cs.foldl pushFraction ⟨l.digits, l.exponent, false⟩

theorem digits_pushWhole_lt {l : Leading} (h : l.digits < Nat.pow 2 64) (c : Char) :
    (l.pushWhole c).digits < Nat.pow 2 64 := by
  simp only [pushWhole]
  split
  · exact h
  · next hfits =>
      simp only [Bool.or_eq_true, decide_eq_true_eq, not_or] at hfits
      exact Nat.not_le.1 hfits.2

theorem digits_pushFraction_lt {l : Leading} (h : l.digits < Nat.pow 2 64) (c : Char) :
    (l.pushFraction c).digits < Nat.pow 2 64 := by
  simp only [pushFraction]
  split
  · exact h
  · next hfits =>
      simp only [Bool.or_eq_true, decide_eq_true_eq, not_or] at hfits
      exact Nat.not_le.1 hfits.2

/-- What each digit keeps below a bound, all of them do. -/
theorem digits_foldl_lt {push : Leading → Char → Leading} {bound : Nat}
    (hpush : ∀ {l}, l.digits < bound → ∀ c, (push l c).digits < bound) (cs : List Char)
    {l : Leading} (h : l.digits < bound) : (cs.foldl push l).digits < bound := by
  induction cs generalizing l with
  | nil => exact h
  | cons c cs ih => exact ih (hpush h c)

theorem digits_ofWhole_lt (cs : List Char) : (ofWhole cs).digits < Nat.pow 2 64 :=
  digits_foldl_lt digits_pushWhole_lt cs (Nat.pow_pos (by decide))

theorem digits_addFraction_lt {l : Leading} (h : l.digits < Nat.pow 2 64) (cs : List Char) :
    (l.addFraction cs).digits < Nat.pow 2 64 :=
  digits_foldl_lt digits_pushFraction_lt cs h

end Leading

def powerOfTen (n : Nat) : Float :=
  Float.ofScientific 1 false n

/-- Scales by a power of ten; below the smallest power in two steps. -/
def scale (f : Float) (e : Int) : Float :=
  if e ≥ 0 then f * powerOfTen e.toNat
  else if e ≥ -308 then f / powerOfTen e.natAbs
  else if e ≥ -616 then f / powerOfTen 308 / powerOfTen (e + 308).natAbs
  else 0

/-- The double of leading digits and a power of ten, unless it is too large. -/
def Leading.float? (isNegative : Bool) (l : Leading) (e : Int) : Option Float :=
  let f := l.digits.toUInt64.toFloat
  if l.digits ≠ 0 ∧ l.exponent + e > 308 then none
  else
    let g := if l.digits = 0 then 0 else scale f (l.exponent + e)
    if g.isInf then none else some (if isNegative then -g else g)

def integer (isNegative : Bool) (digits : Nat) : Number :=
  if isNegative then
    if digits = 0 ∨ digits > Nat.pow 2 63 then .float (-digits.toUInt64.toFloat)
    else .negative (Int64.ofInt (-digits))
  else .natural digits.toUInt64

/-- The number of its written parts, unless it is too large. -/
def Numeral.value? (n : Numeral) : Option Number :=
  let l := Leading.ofWhole n.whole
  match n.fraction, n.exponent with
  | none, none =>
      if l.isFull then (l.float? n.isNegative 0).map .float
      else some (integer n.isNegative l.digits)
  | fraction, exponent =>
      let all := match fraction with
        | some cs => l.addFraction cs
        | none => l
      (all.float? n.isNegative (exponent.getD 0)).map .float

/-- The fraction after a whole part, if there is a point. -/
def fraction? : List Char → Option (Option (List Char) × List Char)
  | '.' :: cs =>
      if cs.takeWhile Char.isDigit = [] then none
      else some (some (cs.takeWhile Char.isDigit), cs.dropWhile Char.isDigit)
  | cs => some (none, cs)

/-- The exponent after a number, if there is a mark. -/
def exponent? : List Char → Option (Option Int × List Char)
  | [] => some (none, [])
  | c :: cs =>
      if c = 'e' || c = 'E' then
        let p := Decimal.splitSign cs
        let ds := p.2.takeWhile Char.isDigit
        if ds = [] then none
        else
          let n : Int := Decimal.ofDigits 0 ds
          some (some (if p.1 then -n else n), p.2.dropWhile Char.isDigit)
      else some (none, c :: cs)

/-- The number without its sign at the beginning of a text, and the text after it. -/
def magnitude? (isNegative : Bool) (cs : List Char) : Option (Numeral × List Char) :=
  let whole := cs.takeWhile Char.isDigit
  if whole = [] ∨ (whole.head? = some '0' ∧ whole.length > 1) then none
  else
    (fraction? (cs.dropWhile Char.isDigit)).bind (fun f =>
      (exponent? f.2).map (fun e => (⟨isNegative, whole, f.1, e.1⟩, e.2)))

/-- The written number at the beginning of a text, and the text after it. -/
def numeral? : List Char → Option (Numeral × List Char)
  | '-' :: cs => magnitude? true cs
  | cs => magnitude? false cs

end Json
end Stencil
