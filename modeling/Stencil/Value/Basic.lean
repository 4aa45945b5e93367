import Stencil.Decimal.Layout
import Stencil.Entries

/-!
# Template data

A value is null, a scalar, a sequence or a mapping whose keys stay in order.  Null
counts as absent wherever a template looks something up.

**Results.**
* `get_insert`: a mapping holds what was put under a key, and keeps what it has elsewhere.
-/

namespace Stencil

/-- A node of template data. -/
inductive Value where
  | null
  | bool (b : Bool)
  | int (n : Int64)
  | float (f : Float)
  | string (s : String)
  | sequence (items : List Value)
  | mapping (entries : List (String × Value))
  deriving Inhabited

/-- The kinds of values. -/
inductive Kind where
  | null
  | bool
  | int
  | float
  | string
  | sequence
  | mapping
  deriving DecidableEq

/-- What a kind is called in messages. -/
def Kind.name : Kind → String
  | null => "null"
  | bool => "bool"
  | int => "int"
  | float => "float"
  | string => "string"
  | sequence => "sequence"
  | mapping => "mapping"

namespace Value

def kind : Value → Kind
  | null => .null
  | bool _ => .bool
  | int _ => .int
  | float _ => .float
  | string _ => .string
  | sequence _ => .sequence
  | mapping _ => .mapping

/-- Whether a value counts as absent. -/
def isNull : Value → Bool
  | null => true
  | _ => false

def asString? : Value → Option String
  | string s => some s
  | _ => none

def asInt? : Value → Option Int64
  | int n => some n
  | _ => none

/-- The number of a float or of an int, as a double. -/
def asFloat? : Value → Option Float
  | float f => some f
  | int n => some n.toFloat
  | _ => none

def asSequence? : Value → Option (List Value)
  | sequence items => some items
  | _ => none

def asMapping? : Value → Option (Entries Value)
  | mapping entries => some entries
  | _ => none

def get (v : Value) (key : String) : Option Value :=
  v.asMapping?.bind (fun entries => entries.lookup key)

/-- The value at the end of a path of keys through nested mappings. -/
def getPath : Value → List String → Option Value
  | v, [] => some v
  | v, key :: path => (v.get key).bind (fun w => w.getPath path)

/-- Puts a value under a key; whatever is no mapping becomes an empty mapping first. -/
def insert (v : Value) (key : String) (value : Value) : Value :=
  mapping (Entries.put key value (v.asMapping?.getD []))

/-- The mapping of pairs, put one after the other. -/
def ofPairs (pairs : List (String × Value)) : Value :=
  mapping (Entries.ofPairs pairs)

/-- A natural number below `2 ^ 64`: an int where it fits, else the nearest double. -/
def ofUInt64 (n : UInt64) : Value :=
  if n.toNat < Nat.pow 2 63 then int (Int64.ofNat n.toNat) else float n.toFloat

def intText (n : Int64) : String :=
  toString n.toInt

def toText? : Value → Option String
  | string s => some s
  | int n => some (intText n)
  | float f => some (Decimal.floatText f)
  | _ => none

/-- The text of a truth value. -/
def boolText (b : Bool) : String :=
  if b then "true" else "false"

/-- How a value is shown in messages: scalars in full, the rest by its size. -/
def display : Value → String
  | null => "null"
  | bool b => boolText b
  | int n => intText n
  | float f => Decimal.floatText f
  | string s => s
  | sequence items => "<sequence of " ++ toString items.length ++ ">"
  | mapping entries => "<mapping of " ++ toString entries.length ++ ">"

mutual

/-- Equality of data: an int never equals a float, floats compare as numbers, and the
order of a mapping does not count. -/
def eqv : Value → Value → Bool
  | null, null => true
  | bool a, bool b => a == b
  | int a, int b => a == b
  | float a, float b => a == b
  | string a, string b => a == b
  | sequence as, sequence bs => eqvItems as bs
  | mapping as, mapping bs => as.length == bs.length && eqvEntries as bs
  | _, _ => false

/-- Equality of sequences, item by item. -/
def eqvItems : List Value → List Value → Bool
  | [], [] => true
  | a :: as, b :: bs => eqv a b && eqvItems as bs
  | _, _ => false

/-- Whether every entry has an equal one under the same key of other entries. -/
def eqvEntries : List (String × Value) → List (String × Value) → Bool
  | [], _ => true
  | (k, a) :: as, bs =>
      (match bs.lookup k with
        | some b => eqv a b
        | none => false) && eqvEntries as bs

end

theorem get_insert (v : Value) (key : String) (value : Value) (other : String) :
    (v.insert key value).get other = if other = key then some value else v.get other := by
  by_cases h : other = key
  · subst h
    simp [insert, get, asMapping?, Entries.lookup_put_self]
  · rw [if_neg h]
    cases v with
    | mapping entries => simp [insert, get, asMapping?, Entries.lookup_put_of_ne h]
    | _ => simp [insert, get, asMapping?, Entries.lookup_put_of_ne h]

end Value

end Stencil
