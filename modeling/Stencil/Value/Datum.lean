import Stencil.Value.Basic

/-!
# Self-describing trees

A data format hands over a tree whose mappings may have any keys, also repeated ones.
It becomes a value if every key is a scalar: a key is stored under its text, in the
place of its first occurrence and with the value of its last.

**Results.**
* `keyText_eq_error_iff`: the values without a key text are sequences and mappings, and the error
  says which.
-/

namespace Stencil

/-- A tree of a self-describing data format. -/
inductive Datum where
  | null
  | bool (b : Bool)
  | int (n : Int64)
  | natural (n : UInt64)
  | float (f : Float)
  | string (s : String)
  | sequence (items : List Datum)
  | mapping (entries : List (Datum × Datum))
  deriving Inhabited

/-- A key of a mapping that is not a scalar. -/
structure KeyError where
  /-- What the key is instead. -/
  found : Kind
  deriving DecidableEq

def KeyError.message (e : KeyError) : String :=
  "mapping key must be a scalar, found " ++ e.found.name

namespace Value

def keyText : Value → Except KeyError String
  | null => .ok "null"
  | bool b => .ok (boolText b)
  | int n => .ok (intText n)
  | float f => .ok (Decimal.floatText f)
  | string s => .ok s
  | sequence _ => .error ⟨.sequence⟩
  | mapping _ => .error ⟨.mapping⟩

theorem keyText_eq_error_iff (v : Value) (e : KeyError) :
    v.keyText = .error e ↔ e.found = v.kind ∧ (v.kind = .sequence ∨ v.kind = .mapping) := by
  obtain ⟨found⟩ := e
  cases v <;> simp [keyText, kind, eq_comm]

mutual

/-- The value of a tree, or its first key that is not a scalar. -/
def ofDatum : Datum → Except KeyError Value
  | .null => .ok null
  | .bool b => .ok (bool b)
  | .int n => .ok (int n)
  | .natural n => .ok (ofUInt64 n)
  | .float f => .ok (float f)
  | .string s => .ok (string s)
  | .sequence items => (ofItems items).map sequence
  | .mapping entries => (ofEntries [] entries).map mapping

def ofItems : List Datum → Except KeyError (List Value)
  | [] => .ok []
  | d :: ds =>
      (ofDatum d).bind (fun v => (ofItems ds).map (v :: ·))

/-- Puts the entries of a mapping after those before them. -/
def ofEntries (before : Entries Value) : List (Datum × Datum) → Except KeyError (Entries Value)
  | [] => .ok before
  | (k, d) :: rest =>
      (ofDatum k).bind (fun key =>
        key.keyText.bind (fun text =>
          (ofDatum d).bind (fun v => ofEntries (Entries.put text v before) rest)))

end

end Value

end Stencil
