import Stencil.Decimal.Binary

/-!
# How decimals are written

A `Layout` says which decimals are written positionally, the others being written with
an exponent, which whole numbers keep a point and a zero, and how ties are settled.
-/

namespace Stencil
namespace Decimal

/-- The choices of a notation, by the decimal exponent of the first digit. -/
structure Layout where
  /-- Whether numbers of this size are written without an exponent. -/
  isPositional : Int → Bool
  /-- Whether whole numbers of this size are written with a point and a zero. -/
  keepsPoint : Int → Bool
  /-- Which of two shortest decimals is written. -/
  tie : Tie

def digits (d : Decimal) : List Char :=
  Nat.toDigits 10 d.coefficient

/-- The decimal exponent of the first digit. -/
def leading (d : Decimal) : Int :=
  d.exponent + (d.digits.length : Int) - 1

/-- A whole number as digits and zeros, any other number with a point. -/
def positional (d : Decimal) : List Char :=
  let ds := d.digits
  let places := (-d.exponent).toNat
  if d.exponent ≥ 0 then ds ++ List.replicate d.exponent.toNat '0'
  else if places < ds.length then
    ds.take (ds.length - places) ++ '.' :: ds.drop (ds.length - places)
  else '0' :: '.' :: List.replicate (places - ds.length) '0' ++ ds

def exponentText (e : Int) : List Char :=
  (if e < 0 then '-' else '+') :: Nat.toDigits 10 e.natAbs

/-- One digit, the others after a point, and the exponent. -/
def scientific (d : Decimal) : List Char :=
  match d.digits with
  | [] => []
  | c :: cs => (c :: if cs = [] then [] else '.' :: cs) ++ 'e' :: exponentText d.leading

def Layout.write (l : Layout) (d : Decimal) : List Char :=
  if l.isPositional d.leading then
    d.positional ++ if d.exponent ≥ 0 && l.keepsPoint d.leading then ['.', '0'] else []
  else d.scientific

def signed (negative : Bool) (cs : List Char) : List Char :=
  if negative then '-' :: cs else cs

/-- Numbers in texts: never an exponent; a point is kept below ten to the sixteenth. -/
def textLayout : Layout where
  isPositional _ := true
  keepsPoint e := e < 16
  tie := .upper

/-- Numbers in JSON: positional from `0.00001` up to ten to the sixteenth. -/
def jsonLayout : Layout where
  isPositional e := -5 ≤ e && e < 16
  keepsPoint _ := true
  tie := .even

def floatText (f : Float) : String :=
  match decode f with
  | .nan => "NaN"
  | .infinite negative => String.ofList (signed negative "inf".toList)
  | .finite negative m q narrow =>
      String.ofList (signed negative (textLayout.write (shortest textLayout.tie m q narrow)))

/-- A double in JSON, where only finite numbers can be written. -/
def floatJson (f : Float) : List Char :=
  match decode f with
  | .nan => "null".toList
  | .infinite _ => "null".toList
  | .finite negative m q narrow =>
      signed negative (jsonLayout.write (shortest jsonLayout.tie m q narrow))

end Decimal
end Stencil
