import Stencil.Value.Basic
import Stencil.Yaml.Document

/-!
# What the scalars of YAML stand for

A plain scalar without a tag is null, a truth value or a number if it is written like
one, and a string otherwise.  A quoted scalar is a string.  Four tags ask for a type,
whatever the quoting; a tag of the application's own is refused.
-/

namespace Stencil
namespace Yaml
namespace Schema

def isNull (cs : List Char) : Bool :=
  ["~", "null", "Null", "NULL"].contains (String.ofList cs)

/-- The spellings of truth values. -/
def bool? (cs : List Char) : Option Bool :=
  let s := String.ofList cs
  if ["true", "True", "TRUE"].contains s then some true
  else if ["false", "False", "FALSE"].contains s then some false
  else none

/-- The text after a sign. -/
def unsigned (cs : List Char) : List Char :=
  match cs with
  | '+' :: r => r
  | '-' :: r => r
  | r => r

/-- Whether a text has several digits of which the first is zero; it is no number then. -/
def hasLeadingZero (cs : List Char) : Bool :=
  match unsigned cs with
  | '0' :: c :: r => (c :: r).all Char.isDigit
  | _ => false

def basedDigits? : List Char → Option (Nat × List Char)
  | '0' :: 'x' :: r => some (16, r)
  | '0' :: 'o' :: r => some (8, r)
  | '0' :: 'b' :: r => some (2, r)
  | _ => none

/-- A natural number in base sixteen, eight, two or ten. -/
def natural? (cs : List Char) : Option Nat :=
  match basedDigits? cs with
  | some p => Decimal.natural? p.1 p.2
  | none => if hasLeadingZero cs then none else Decimal.natural? 10 cs

/-- An integer: its sign and its magnitude. -/
def integer? : List Char → Option (Bool × Nat)
  | '-' :: cs => (natural? cs).map (fun n => (true, n))
  | '+' :: cs => (natural? cs).map (fun n => (false, n))
  | cs => (natural? cs).map (fun n => (false, n))

/-- A finite decimal fraction or a spelling of infinity or of what is not a number. -/
def float? (cs : List Char) : Option Float :=
  let infinity : Float := 1.0 / 0.0
  let s := String.ofList cs
  if [".inf", ".Inf", ".INF", "+.inf", "+.Inf", "+.INF"].contains s then some infinity
  else if ["-.inf", "-.Inf", "-.INF"].contains s then some (-infinity)
  else if [".nan", ".NaN", ".NAN"].contains s then some ((0.0 : Float) / 0.0)
  else (Decimal.float? cs).filter Float.isFinite

/-- What an integer stands for.  Integers that 128 bits hold but 64 bits do not are
refused; those beyond are no integers. -/
inductive Whole where
  | value (v : Value)
  | refused
  | notWhole

/-- What a text stands for as an integer. -/
def whole (cs : List Char) : Whole :=
  match integer? cs with
  | none => .notWhole
  | some (false, n) =>
      if n < Nat.pow 2 64 then .value (Value.ofUInt64 n.toUInt64)
      else if n < Nat.pow 2 128 then .refused
      else .notWhole
  | some (true, n) =>
      if n ≤ Nat.pow 2 63 then .value (.int (Int64.ofInt (-n)))
      else if n ≤ Nat.pow 2 127 then .refused
      else .notWhole

/-- The value of a plain scalar without a tag. -/
def plain? (cs : List Char) : Option Value :=
  if cs = [] ∨ isNull cs then some .null
  else
    match bool? cs with
    | some b => some (.bool b)
    | none =>
        match whole cs with
        | .value v => some v
        | .refused => none
        | .notWhole =>
            match if hasLeadingZero cs then none else float? cs with
            | some f => some (.float f)
            | none => some (.string (String.ofList cs))

/-- Whether a tag is one of the application's own.  Its octets have to be text. -/
def isLocal (tag : List Char) : Bool :=
  tag.head? = some '!' && (ByteArray.mk (tag.map (·.toNat.toUInt8)).toArray).validateUTF8

def common (name : String) : List Char :=
  ("tag:yaml.org,2002:" ++ name).toList

def tagged? (tag text : List Char) (isPlain : Bool) : Option Value :=
  if tag = common "bool" then (bool? text).map .bool
  else if tag = common "int" then
    match whole text with
    | .value v => some v
    | _ => none
  else if tag = common "float" then (float? text).map .float
  else if tag = common "null" then if isNull text then some .null else none
  else if tag.head? = some '!' ∧ isPlain then plain? text
  else some (.string (String.ofList text))

/-- The value of a scalar whose tag is no tag of the application's own. -/
def scalar? (tag : Option (List Char)) (text : List Char) (isPlain : Bool) : Option Value :=
  match tag with
  | some t => if isLocal t then none else tagged? t text isPlain
  | none => if isPlain then plain? text else some (.string (String.ofList text))

end Schema
end Yaml
end Stencil
