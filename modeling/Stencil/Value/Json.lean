import Stencil.Error
import Stencil.Json.Tree

/-!
# Values and JSON

There are two ways from JSON to a value.  `Value.readJson` takes a text as a
self-describing tree and keeps the order of its keys; `Value.ofJson` converts a finished
tree.  `Value.toJson` writes a value compactly, mappings in their order.

**Results.**
* `ofDatum_datumOfJson`, `readJson_eq_of_some`: a tree that is read as a text gives the value it
  converts to, its keys in their order.
-/

namespace Stencil
namespace Value

mutual

/-- A JSON tree as a self-describing tree. -/
def datumOfJson : Json → Datum
  | .null => .null
  | .bool b => .bool b
  | .number (.natural n) => .natural n
  | .number (.negative n) => .int n
  | .number (.float f) => .float f
  | .string s => .string s
  | .array items => .sequence (datumsOfJson items)
  | .object members => .mapping (entriesOfJson members)

/-- JSON items as self-describing trees. -/
def datumsOfJson : List Json → List Datum
  | [] => []
  | j :: js => datumOfJson j :: datumsOfJson js

/-- JSON members as entries of a self-describing tree. -/
def entriesOfJson : List (String × Json) → List (Datum × Datum)
  | [] => []
  | (k, j) :: ms => (.string k, datumOfJson j) :: entriesOfJson ms

end

def readJson (text : String) : Except Error Value :=
  match Json.ofText? text with
  | none => .error .json
  | some j =>
      match ofDatum (datumOfJson j) with
      | .ok v => .ok v
      | .error _ => .error .json

/-- The value of a number: an int if it is one, else the nearest double. -/
def ofNumber (n : Json.Number) : Value :=
  match n.asInt? with
  | some i => int i
  | none => float n.asFloat

mutual

def ofJson : Json → Value
  | .null => null
  | .bool b => bool b
  | .number n => ofNumber n
  | .string s => string s
  | .array items => sequence (ofJsonItems items)
  | .object members => ofPairs (ofJsonMembers members)

def ofJsonItems : List Json → List Value
  | [] => []
  | j :: js => ofJson j :: ofJsonItems js

def ofJsonMembers : List (String × Json) → List (String × Value)
  | [] => []
  | (k, j) :: ms => (k, ofJson j) :: ofJsonMembers ms

end

/-- The value of a JSON text by way of a finished tree with sorted keys. -/
def readJsonTree (text : String) : Except Error Value :=
  match Json.ofText? text with
  | none => .error .json
  | some j => .ok (ofJson j.sorted)

/-- A number of 64 bits without a sign is the same value as in a self-describing tree. -/
theorem ofNumber_natural (n : UInt64) : ofNumber (.natural n) = ofUInt64 n := by
  rw [ofNumber, ofUInt64, Json.Number.asInt?]
  by_cases h : n.toNat < Nat.pow 2 63
  · rw [if_pos h, if_pos h]
  · rw [if_neg h, if_neg h]
    rfl

theorem ofJsonItems_eq_map (items : List Json) : ofJsonItems items = items.map ofJson := by
  induction items with
  | nil => rfl
  | cons j items ih => rw [ofJsonItems, ih, List.map_cons]

theorem ofJsonMembers_eq_map (members : List (String × Json)) :
    ofJsonMembers members = members.map (fun m => (m.1, ofJson m.2)) := by
  induction members with
  | nil => rfl
  | cons m members ih => rw [ofJsonMembers, ih, List.map_cons]

mutual

/-- **A JSON tree is never refused**, since its keys are texts; read as a self-describing tree
it is the value it converts to. -/
theorem ofDatum_datumOfJson (j : Json) : ofDatum (datumOfJson j) = .ok (ofJson j) := by
  match j with
  | .null => rfl
  | .bool _ => rfl
  | .number (.natural n) => rw [datumOfJson, ofDatum, ofJson, ofNumber_natural]
  | .number (.negative _) => rfl
  | .number (.float _) => rfl
  | .string _ => rfl
  | .array items => rw [datumOfJson, ofDatum, ofItems_datumsOfJson items]; rfl
  | .object members => rw [datumOfJson, ofDatum, ofEntries_entriesOfJson members []]; rfl

theorem ofItems_datumsOfJson (js : List Json) :
    ofItems (datumsOfJson js) = .ok (ofJsonItems js) := by
  match js with
  | [] => rfl
  | j :: js =>
      rw [datumsOfJson, ofItems, ofDatum_datumOfJson j, ofItems_datumsOfJson js]
      rfl

theorem ofEntries_entriesOfJson (ms : List (String × Json)) (before : Entries Value) :
    ofEntries before (entriesOfJson ms) =
      .ok ((ofJsonMembers ms).foldl (fun entries p => Entries.put p.1 p.2 entries) before) := by
  match ms with
  | [] => rfl
  | (k, j) :: ms =>
      rw [entriesOfJson, ofEntries, ofDatum_datumOfJson j]
      exact ofEntries_entriesOfJson ms (Entries.put k (ofJson j) before)

end

/-- A text that is the text of a tree is read as the value of the tree. -/
theorem readJson_eq_of_some {text : String} {j : Json} (h : Json.ofText? text = some j) :
    readJson text = .ok (ofJson j) := by
  rw [readJson, h]
  simp only [ofDatum_datumOfJson j]

mutual

/-- The JSON tree that a value is written as. -/
def tree : Value → Json
  | null => .null
  | bool b => .bool b
  | int n => .number (.ofInt n)
  | float f => .number (.float f)
  | string s => .string s
  | sequence items => .array (treeItems items)
  | mapping entries => .object (treeMembers entries)

/-- The trees of items. -/
def treeItems : List Value → List Json
  | [] => []
  | v :: vs => v.tree :: treeItems vs

/-- The entries with their trees. -/
def treeMembers : List (String × Value) → List (String × Json)
  | [] => []
  | (k, v) :: es => (k, v.tree) :: treeMembers es

end

mutual

def jsonChars : Value → List Char
  | null => ['n', 'u', 'l', 'l']
  | bool b => (boolText b).toList
  | int n => (intText n).toList
  | float f => Decimal.floatJson f
  | string s => Json.quotedText s
  | sequence [] => ['[', ']']
  | sequence (v :: vs) => '[' :: jsonChars v ++ jsonItems vs ++ [']']
  | mapping [] => ['\x7b', '\x7d']
  | mapping ((k, v) :: es) =>
      '\x7b' :: Json.quotedText k ++ ':' :: jsonChars v ++ jsonMembers es ++ ['\x7d']

/-- Items, each after a comma. -/
def jsonItems : List Value → List Char
  | [] => []
  | v :: vs => ',' :: jsonChars v ++ jsonItems vs

/-- Members, each after a comma. -/
def jsonMembers : List (String × Value) → List Char
  | [] => []
  | (k, v) :: es => ',' :: Json.quotedText k ++ ':' :: jsonChars v ++ jsonMembers es

end

def toJson (v : Value) : String :=
  String.ofList v.jsonChars

end Value
end Stencil
