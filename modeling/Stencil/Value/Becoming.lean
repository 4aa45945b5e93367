import Stencil.Value.Datum

/-!
# Values that trees become

A self-describing tree becomes a value bottom up.  A number becomes an int if it is one of 64
signed bits and a double otherwise, a sequence becomes the sequence of what its items become,
and a mapping becomes the entries that hold what its values become under the texts of its keys.

Only scalars have a text as a key.  So no tree becomes a value if one of its parts is a mapping
with a sequence or a mapping as a key; parts of keys count as well.

**Results.**
* `isSome_keyText?`: scalars are the trees with a text as a key.
* `hasScalarKeys_sequence`, `hasScalarKeys_mapping`: whether all keys are scalars is decided by
  the items, or by the keys and the values, of a tree.
* `insertAll_mapping`, `insertAll_of_ne_mapping`: pairs put into a value one after the other.
-/

namespace Stencil

namespace Datum

def isScalar : Datum → Bool
  | sequence _ => false
  | mapping _ => false
  | _ => true

/-- Whether a tree is in another one: is this tree itself, or is in an item, a key or a value. -/
inductive Part (part : Datum) : Datum → Prop where
  | self : Part part part
  | item {d : Datum} {items : List Datum} (mem : d ∈ items) (h : Part part d) :
      Part part (.sequence items)
  | key {k d : Datum} {entries : List (Datum × Datum)} (mem : (k, d) ∈ entries)
      (h : Part part k) : Part part (.mapping entries)
  | value {k d : Datum} {entries : List (Datum × Datum)} (mem : (k, d) ∈ entries)
      (h : Part part d) : Part part (.mapping entries)

/-- Whether every mapping in a tree has only scalars as keys. -/
def HasScalarKeys (d : Datum) : Prop :=
  ∀ entries : List (Datum × Datum), Part (.mapping entries) d →
    ∀ e ∈ entries, e.1.isScalar = true

/-- The text of a tree as a key: strings as they are, numbers as the text of their value. -/
def keyText? : Datum → Option String
  | null => some "null"
  | bool true => some "true"
  | bool false => some "false"
  | int n => (Value.int n).toText?
  | natural n => (Value.ofUInt64 n).toText?
  | float f => (Value.float f).toText?
  | string s => some s
  | sequence _ => none
  | mapping _ => none

mutual

/-- What value a tree becomes. -/
inductive Becomes : Datum → Value → Prop where
  | null : Becomes .null .null
  | bool (b : Bool) : Becomes (.bool b) (.bool b)
  | int (n : Int64) : Becomes (.int n) (.int n)
  | small {n : UInt64} {i : Int64} (h : i.toInt = n.toNat) : Becomes (.natural n) (.int i)
  | large {n : UInt64} (h : Nat.pow 2 63 ≤ n.toNat) : Becomes (.natural n) (.float n.toFloat)
  | float (f : Float) : Becomes (.float f) (.float f)
  | string (s : String) : Becomes (.string s) (.string s)
  | sequence {items : List Datum} {values : List Value} (each : ItemsBecome items values) :
      Becomes (.sequence items) (.sequence values)
  | mapping {members : List (Datum × Datum)} {pairs : List (String × Value)}
      {entries : Entries Value} (each : MembersBecome members pairs)
      (holds : entries.Holds pairs) : Becomes (.mapping members) (.mapping entries)

/-- What values items become, one by one. -/
inductive ItemsBecome : List Datum → List Value → Prop where
  | nil : ItemsBecome [] []
  | cons {d : Datum} {v : Value} {items : List Datum} {values : List Value}
      (first : Becomes d v) (rest : ItemsBecome items values) :
      ItemsBecome (d :: items) (v :: values)

/-- What texts and values the members of a mapping become, one by one. -/
inductive MembersBecome : List (Datum × Datum) → List (String × Value) → Prop where
  | nil : MembersBecome [] []
  | cons {k d : Datum} {text : String} {v : Value} {members : List (Datum × Datum)}
      {pairs : List (String × Value)} (key : k.keyText? = some text) (value : Becomes d v)
      (rest : MembersBecome members pairs) : MembersBecome ((k, d) :: members) ((text, v) :: pairs)

end

theorem isSome_keyText? (d : Datum) : d.keyText?.isSome = d.isScalar := by
  match d with
  | .null => rfl
  | .bool true => rfl
  | .bool false => rfl
  | .int _ => rfl
  | .natural n =>
      rw [keyText?, Value.ofUInt64]
      split <;> rfl
  | .float _ => rfl
  | .string _ => rfl
  | .sequence _ => rfl
  | .mapping _ => rfl

theorem hasScalarKeys_of_isScalar {d : Datum} (h : d.isScalar = true) : d.HasScalarKeys := by
  intro entries hpart
  cases hpart with
  | self => cases h
  | item => cases h
  | key => cases h
  | value => cases h

theorem hasScalarKeys_sequence (items : List Datum) :
    (sequence items).HasScalarKeys ↔ ∀ d ∈ items, d.HasScalarKeys := by
  constructor
  · exact fun h d hd entries hpart => h entries (.item hd hpart)
  · intro h entries hpart
    cases hpart with
    | item hmem hitem => exact h _ hmem entries hitem

/-- The keys need no look inside, since a scalar has no mapping as a part. -/
theorem hasScalarKeys_mapping (entries : List (Datum × Datum)) :
    (mapping entries).HasScalarKeys ↔
      ∀ e ∈ entries, e.1.isScalar = true ∧ e.2.HasScalarKeys := by
  constructor
  · exact fun h e he => ⟨h entries .self e he, fun inner hpart => h inner (.value he hpart)⟩
  · intro h inner hpart
    cases hpart with
    | self => exact fun e he => (h e he).1
    | key hmem hkey => exact hasScalarKeys_of_isScalar (h _ hmem).1 inner hkey
    | value hmem hvalue => exact (h _ hmem).2 inner hvalue

end Datum

namespace Value

/-- Puts pairs into a value one after the other. -/
def insertAll (v : Value) (pairs : List (String × Value)) : Value :=
  pairs.foldl (fun v p => v.insert p.1 p.2) v

theorem insertAll_mapping (entries : Entries Value) (pairs : List (String × Value)) :
    (mapping entries).insertAll pairs =
      mapping (pairs.foldl (fun entries p => Entries.put p.1 p.2 entries) entries) := by
  induction pairs generalizing entries with
  | nil => rfl
  | cons p pairs ih => exact ih (Entries.put p.1 p.2 entries)

/-- The first pair makes a mapping of what is none, so that nothing else is left of it. -/
theorem insertAll_of_ne_mapping {v : Value} (hv : v.kind ≠ .mapping)
    {pairs : List (String × Value)} (hpairs : pairs ≠ []) :
    v.insertAll pairs = ofPairs pairs := by
  obtain ⟨p, rest, rfl⟩ := List.exists_cons_of_ne_nil hpairs
  have hfirst : v.insert p.1 p.2 = mapping [(p.1, p.2)] := by
    cases v with
    | mapping => exact absurd rfl hv
    | _ => rfl
  rw [insertAll, List.foldl_cons, hfirst]
  exact insertAll_mapping [(p.1, p.2)] rest

end Value

end Stencil
