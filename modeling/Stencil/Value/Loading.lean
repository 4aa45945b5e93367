import Stencil.Value.Json

/-!
# Values that a JSON tree stands for

A JSON tree says which value it stands for up to the order of mappings: an object stands for
any mapping that has the object's keys, each once, with values that the last members under
these keys stand for.

**Results.**
* `Loads.reordered`: the values that a tree stands for differ at most in the order of mappings.
* `Loads.array_map`, `Loads.object_of_lookup`: what makes a sequence, or a mapping, a value that
  an array, or an object, stands for.
-/

namespace Stencil

/-- Values that differ at most in the order of mappings, whose keys are distinct. -/
inductive Value.Reordered : Value → Value → Prop where
  | null : Reordered null null
  | bool (b : Bool) : Reordered (bool b) (bool b)
  | int (n : Int64) : Reordered (int n) (int n)
  | float (f : Float) : Reordered (float f) (float f)
  | string (s : String) : Reordered (string s) (string s)
  | sequence {as bs : List Value} (length : as.length = bs.length)
      (items : ∀ (i : Nat) (a b : Value), as[i]? = some a → bs[i]? = some b → Reordered a b) :
      Reordered (sequence as) (sequence bs)
  | mapping {as bs : Entries Value} (nodup : as.keys.Nodup) (keys : as.keys.Perm bs.keys)
      (values : ∀ (key : String) (a b : Value),
        as.lookup key = some a → bs.lookup key = some b → Reordered a b) :
      Reordered (mapping as) (mapping bs)

namespace Json

/-- The values that a tree stands for. -/
inductive Loads : Json → Value → Prop where
  | null : Loads .null .null
  | bool (b : Bool) : Loads (.bool b) (.bool b)
  | int {n : Number} {i : Int64} (h : n.asInt? = some i) : Loads (.number n) (.int i)
  | float {n : Number} (h : n.asInt? = none) : Loads (.number n) (.float n.asFloat)
  | string (s : String) : Loads (.string s) (.string s)
  | array {js : List Json} {vs : List Value} (length : js.length = vs.length)
      (items : ∀ (i : Nat) (j : Json) (v : Value), js[i]? = some j → vs[i]? = some v → Loads j v) :
      Loads (.array js) (.sequence vs)
  | object {ms : Entries Json} {es : Entries Value} (nodup : es.keys.Nodup)
      (keys : ∀ key, key ∈ es.keys ↔ key ∈ ms.keys)
      (values : ∀ (key : String) (j : Json) (v : Value),
        ms.reverse.lookup key = some j → es.lookup key = some v → Loads j v) :
      Loads (.object ms) (.mapping es)

namespace Loads

/-- The value of a number. -/
theorem ofNumber (n : Number) : Loads (.number n) (Value.ofNumber n) := by
  rw [Value.ofNumber]
  split
  · next i h => exact .int h
  · next h => exact .float h

/-- Items stand for values one by one. -/
theorem array_map {js : List Json} (f : Json → Value) (h : ∀ j ∈ js, Loads j (f j)) :
    Loads (.array js) (.sequence (js.map f)) := by
  refine .array (by rw [List.length_map]) (fun i j v hj hv => ?_)
  rw [List.getElem?_map, hj, Option.map_some] at hv
  exact Option.some.inj hv ▸ h j (List.mem_of_getElem? hj)

/-- A key of an object has a last value. -/
theorem mem_keys_iff_reverse {ms : Entries Json} {key : String} :
    key ∈ ms.keys ↔ ∃ j, ms.reverse.lookup key = some j := by
  have hreverse : Entries.keys ms.reverse = ms.keys.reverse := List.map_reverse
  rw [← List.mem_reverse, ← hreverse, Entries.mem_keys_iff]

/-- A mapping whose keys have the values of the last members stands for an object. -/
theorem object_of_lookup {ms : Entries Json} {es : Entries Value} (f : Json → Value)
    (nodup : es.keys.Nodup)
    (lookup : ∀ key, es.lookup key = (ms.reverse.lookup key).map f)
    (h : ∀ m ∈ ms, Loads m.2 (f m.2)) : Loads (.object ms) (.mapping es) := by
  refine .object nodup (fun key => ?_) (fun key j v hj hv => ?_)
  · rw [Entries.mem_keys_iff, mem_keys_iff_reverse, lookup key]
    simp only [Option.map_eq_some_iff]
    constructor
    · rintro ⟨v, j, hj, -⟩
      exact ⟨j, hj⟩
    · rintro ⟨j, hj⟩
      exact ⟨f j, j, hj, rfl⟩
  · rw [lookup key, hj, Option.map_some] at hv
    have hmem : (key, j) ∈ ms := List.mem_reverse.1 (Entries.mem_of_lookup hj)
    exact Option.some.inj hv ▸ h (key, j) hmem

/-- **The values that a tree stands for differ at most in the order of mappings.** -/
theorem reordered {j : Json} {v w : Value} (hv : Loads j v) (hw : Loads j w) :
    v.Reordered w := by
  induction hv generalizing w with
  | null => cases hw; exact .null
  | bool b => cases hw; exact .bool b
  | int h =>
      cases hw with
      | int h' =>
          obtain rfl := Option.some.inj (h.symm.trans h')
          exact .int _
      | float h' =>
          rw [h] at h'
          cases h'
  | float h =>
      cases hw with
      | int h' =>
          rw [h] at h'
          cases h'
      | float => exact .float _
  | string s => cases hw; exact .string s
  | @array js vs length items ih =>
      cases hw with
      | @array _ ws length' items' =>
          refine .sequence (length.symm.trans length') (fun i a b ha hb => ?_)
          have hi : i < js.length := length ▸ (List.getElem?_eq_some_iff.1 ha).1
          have hj : js[i]? = some js[i] := List.getElem?_eq_getElem hi
          exact ih i js[i] a hj ha (items' i js[i] b hj hb)
  | @object ms es nodup keys values ih =>
      cases hw with
      | @object _ fs nodup' keys' values' =>
          refine .mapping nodup ?_ (fun key a b ha hb => ?_)
          · rw [List.perm_ext_iff_of_nodup nodup nodup']
            exact fun key => (keys key).trans (keys' key).symm
          · have hkey : key ∈ ms.keys := (keys key).1 (Entries.mem_keys_iff.2 ⟨a, ha⟩)
            obtain ⟨j, hj⟩ := mem_keys_iff_reverse.1 hkey
            exact ih key j a hj ha (values' key j b hj hb)

end Loads

end Json
end Stencil
