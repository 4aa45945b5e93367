import Stencil.Render.Scope

/-!
# Values that templates cannot tell apart

Two values are alike if they differ at most in the order of mappings and in entries that
hold null.  A value without floats nests to some depth; both matter for writing it down.

**Results.**
* `Alike.get`, `Alike.of_lookup`: mappings are alike by what they hold under each key.
* `Alike.getPath`: a path leads from values that are alike to values that are alike.
* `Alike.refl`: every value is alike itself.
-/

namespace Stencil

/-- What leads on from a value that counts as absent is absent too. -/
theorem present_bind_getPath (v : Option Value) (path : List String) :
    present (v.bind (fun w => w.getPath path)) =
      (present v).bind (fun w => present (w.getPath path)) := by
  cases v with
  | none => rfl
  | some w =>
      cases w with
      | null =>
          cases path with
          | nil => rfl
          | cons key path => rfl
      | _ => rfl

theorem present_lookup_cons (key k : String) (v : Value) (entries : Entries Value) :
    present (List.lookup key ((k, v) :: entries)) =
      if key = k then present (some v) else present (entries.lookup key) := by
  by_cases h : key = k
  · simp [h]
  · have hk : (key == k) = false := beq_false_of_ne h
    rw [List.lookup_cons, hk, if_neg h]

namespace Value

/-- Values that differ at most in the order of mappings and in entries that hold null. -/
inductive Alike : Value → Value → Prop where
  | null : Alike null null
  | bool (b : Bool) : Alike (bool b) (bool b)
  | int (n : Int64) : Alike (int n) (int n)
  | float (f : Float) : Alike (float f) (float f)
  | string (s : String) : Alike (string s) (string s)
  | sequence {as bs : List Value} (length : as.length = bs.length)
      (items : ∀ (i : Nat) (a b : Value), as[i]? = some a → bs[i]? = some b → Alike a b) :
      Alike (sequence as) (sequence bs)
  | mapping {as bs : Entries Value}
      (keys : ∀ key : String, present (as.lookup key) = none ↔ present (bs.lookup key) = none)
      (values : ∀ (key : String) (a b : Value),
        present (as.lookup key) = some a → present (bs.lookup key) = some b → Alike a b) :
      Alike (mapping as) (mapping bs)

/-- Values that are alike are both absent, or neither is. -/
theorem Alike.present_some {a b : Value} (h : Alike a b) :
    Option.Rel Alike (present (some a)) (present (some b)) := by
  cases h with
  | null => exact .none
  | bool b => exact .some (.bool b)
  | int n => exact .some (.int n)
  | float f => exact .some (.float f)
  | string s => exact .some (.string s)
  | sequence length items => exact .some (.sequence length items)
  | mapping keys values => exact .some (.mapping keys values)

/-- Under each key, values that are alike hold values that are alike, or nothing. -/
theorem Alike.get {a b : Value} (h : Alike a b) (key : String) :
    Option.Rel Alike (present (a.get key)) (present (b.get key)) := by
  cases h with
  | @mapping as bs keys values =>
      have hkeys := keys key
      have hvalues := values key
      simp only [Value.get, asMapping?, Option.bind_some]
      cases ha : present (List.lookup key as) with
      | none =>
          rw [hkeys.1 ha]
          exact .none
      | some v =>
          cases hb : present (List.lookup key bs) with
          | none =>
              rw [hkeys.2 hb] at ha
              cases ha
          | some w => exact .some (hvalues v w ha hb)
  | _ => exact .none

/-- Alike values, or none, under each key make mappings alike. -/
theorem Alike.of_lookup {as bs : Entries Value}
    (h : ∀ key : String,
      Option.Rel Alike (present (as.lookup key)) (present (bs.lookup key))) :
    Alike (.mapping as) (.mapping bs) := by
  refine .mapping (fun key => ?_) (fun key a b ha hb => ?_)
  · have hkey := h key
    generalize present (as.lookup key) = v at hkey ⊢
    generalize present (bs.lookup key) = w at hkey ⊢
    cases hkey <;> simp
  · have hkey := h key
    rw [ha, hb] at hkey
    cases hkey with
    | some hvalues => exact hvalues

/-- **A path leads to values that are alike**, or from neither to anything. -/
theorem Alike.getPath {a b : Value} (h : Alike a b) (path : List String) :
    Option.Rel Alike (present (a.getPath path)) (present (b.getPath path)) := by
  induction path generalizing a b with
  | nil => exact h.present_some
  | cons key path ih =>
      have hget := h.get key
      rw [Value.getPath, Value.getPath, present_bind_getPath, present_bind_getPath]
      generalize present (a.get key) = v at hget
      generalize present (b.get key) = w at hget
      cases hget with
      | none => exact .none
      | some hvalues => exact ih hvalues

/-- A value under a key is smaller than the mapping. -/
theorem sizeOf_lt_of_lookup {entries : Entries Value} {key : String} {v : Value}
    (h : entries.lookup key = some v) : sizeOf v < sizeOf (mapping entries) := by
  have hentry : sizeOf (key, v) < sizeOf entries :=
    List.sizeOf_lt_of_mem (Entries.mem_of_lookup h)
  simp only [Prod.mk.sizeOf_spec] at hentry
  simp only [mapping.sizeOf_spec]
  omega

/-- Every value is alike itself. -/
theorem Alike.refl (v : Value) : Alike v v := by
  match v with
  | .null => exact .null
  | .bool b => exact .bool b
  | .int n => exact .int n
  | .float f => exact .float f
  | .string s => exact .string s
  | .sequence items =>
      refine .sequence rfl (fun i a b ha hb => ?_)
      obtain rfl : a = b := Option.some.inj (ha.symm.trans hb)
      have hsmaller : sizeOf a < sizeOf items := List.sizeOf_lt_of_mem (List.mem_of_getElem? ha)
      exact Alike.refl a
  | .mapping entries =>
      refine .mapping (fun key => Iff.rfl) (fun key a b ha hb => ?_)
      obtain rfl : a = b := Option.some.inj (ha.symm.trans hb)
      have hsmaller := sizeOf_lt_of_lookup (Option.filter_eq_some_iff.1 ha).1
      exact Alike.refl a
termination_by sizeOf v
decreasing_by
  · simp only [sequence.sizeOf_spec]
    omega
  · exact hsmaller

mutual

def depth : Value → Nat
  | sequence items => depthItems items + 1
  | mapping entries => depthEntries entries + 1
  | _ => 0

def depthItems : List Value → Nat
  | [] => 0
  | v :: vs => max v.depth (depthItems vs)

def depthEntries : List (String × Value) → Nat
  | [] => 0
  | (_, v) :: es => max v.depth (depthEntries es)

end

mutual

def hasNoFloat : Value → Bool
  | float _ => false
  | sequence items => itemsHaveNoFloat items
  | mapping entries => entriesHaveNoFloat entries
  | _ => true

def itemsHaveNoFloat : List Value → Bool
  | [] => true
  | v :: vs => v.hasNoFloat && itemsHaveNoFloat vs

def entriesHaveNoFloat : List (String × Value) → Bool
  | [] => true
  | (_, v) :: es => v.hasNoFloat && entriesHaveNoFloat es

end

mutual

/-- Whether the keys of every mapping are distinct. -/
def KeysDistinct : Value → Prop
  | sequence items => itemsKeysDistinct items
  | mapping entries => (Entries.keys entries).Nodup ∧ entriesKeysDistinct entries
  | _ => True

/-- Whether the keys of every mapping in items are distinct. -/
def itemsKeysDistinct : List Value → Prop
  | [] => True
  | v :: vs => v.KeysDistinct ∧ itemsKeysDistinct vs

/-- Whether the keys of every mapping in the values of entries are distinct. -/
def entriesKeysDistinct : List (String × Value) → Prop
  | [] => True
  | (_, v) :: es => v.KeysDistinct ∧ entriesKeysDistinct es

end

end Value
end Stencil
