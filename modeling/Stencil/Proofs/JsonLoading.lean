import Stencil.Proofs.JsonNumbers
import Stencil.Value.Loading

/-!
# Two ways to read JSON

A text may be read as it comes or by way of a finished tree with sorted keys.  Both ways
refuse the same texts, and for the others both give a value that the tree of the text stands
for; so the two values differ at most in the order of mappings.

Whether a number is an int or a double is decided by how it is written: it is an int if it is
written without fraction and exponent, within 64 signed bits, and not as a zero with a sign.

**Results.**
* `Json.loads_ofJson`, `Json.loads_ofJson_sorted`: a tree stands for the value it converts to,
  also with sorted keys.
* `Value.readJson_of_numeral?`: the value of a written number, either way.
* `Value.readJson_agrees`: the two ways agree.
-/

namespace Stencil
namespace Json

/-! ## Conversions -/

/-- A tree stands for the value it converts to. -/
theorem loads_ofJson (j : Json) : j.Loads (Value.ofJson j) := by
  induction j using induction_mem with
  | null => exact .null
  | bool b => exact .bool b
  | number n => exact .ofNumber n
  | string s => exact .string s
  | array items ih =>
      rw [Value.ofJson, Value.ofJsonItems_eq_map]
      exact .array_map Value.ofJson ih
  | object members ih =>
      rw [Value.ofJson, Value.ofPairs]
      refine .object_of_lookup Value.ofJson (Entries.nodup_keys_ofPairs _) (fun key => ?_) ih
      rw [Entries.lookup_ofPairs, Value.ofJsonMembers_eq_map, ← List.map_reverse,
        Entries.lookup_map]

/-- A tree stands for the value that it converts to with sorted keys. -/
theorem loads_ofJson_sorted (j : Json) : j.Loads (Value.ofJson j.sorted) := by
  induction j using induction_mem with
  | null => exact .null
  | bool b => exact .bool b
  | number n => exact .ofNumber n
  | string s => exact .string s
  | array items ih =>
      rw [sorted, Value.ofJson, sortedItems_eq_map, Value.ofJsonItems_eq_map, List.map_map]
      exact .array_map _ ih
  | object members ih =>
      -- the keys are distinct once they are sorted, so that they keep their places
      have hnodup := nodup_keys_sortMembers (Entries.nodup_keys_ofPairs (sortedMembers members))
      rw [← Entries.keys_map Value.ofJson] at hnodup
      rw [sorted, Value.ofJson, Value.ofPairs, Value.ofJsonMembers_eq_map,
        Entries.ofPairs_of_nodup hnodup]
      refine .object_of_lookup (Value.ofJson ∘ sorted) hnodup (fun key => ?_) ih
      rw [Entries.lookup_map, lookup_sortMembers_ofPairs, sortedMembers_eq_map,
        ← List.map_reverse, Entries.lookup_map, Option.map_map]

/-! ## Written numbers -/

/-- A written number begins with its sign or with a digit. -/
theorem exists_of_numeral? {cs : List Char} {p : Numeral × List Char}
    (h : numeral? cs = some p) : ∃ c rest, cs = c :: rest ∧ (c = '-' ∨ c.isDigit = true) := by
  unfold numeral? at h
  split at h
  · next rest => exact ⟨'-', rest, rfl, Or.inl rfl⟩
  · simp only [magnitude?] at h
    split at h
    · cases h
    · next hwhole =>
        cases cs with
        | nil => exact absurd rfl (not_or.1 hwhole).1
        | cons c rest =>
            refine ⟨c, rest, rfl, Or.inr ?_⟩
            cases hc : c.isDigit with
            | true => rfl
            | false =>
                refine absurd ?_ (not_or.1 hwhole).1
                rw [List.takeWhile_cons, hc]
                rfl

/-- The tree of a written number. -/
theorem ofText?_of_numeral? {text : String} {n : Numeral}
    (h : numeral? text.toList = some (n, [])) : ofText? text = n.value?.map .number := by
  obtain ⟨c, rest, htext, hc⟩ := exists_of_numeral? h
  obtain ⟨hspace, hfirst⟩ := Token.first?_number hc rest
  rw [Token.number?, ← htext, h, htext, Option.map_some] at hfirst
  have hdraft : Draft.ofText? text = some (.number n.value?) := by
    rw [Draft.ofText?_eq, htext, Reading.runText_of_first? hspace hfirst, Reading.step,
      Reading.begin?, Option.bind_some, Reading.runText_nil]
    rfl
  rw [ofText?, hdraft]
  cases n.value? <;> rfl

/-- An int has a value. -/
theorem Numeral.exists_value?_of_int? {n : Numeral} {i : Int64} (h : n.int? = some i) :
    ∃ x, n.value? = some x := by
  obtain ⟨isNegative, whole, fraction, exponent⟩ := n
  rw [int?] at h
  split at h
  · next hint =>
      obtain ⟨rfl, rfl, -, hle, hlt⟩ := hint
      have hpow := powers_eq
      have hfits : Decimal.ofDigits 0 whole < Nat.pow 2 64 := by
        cases isNegative with
        | true =>
            simp only [toInt, if_true] at hle
            omega
        | false =>
            simp only [toInt, Bool.false_eq_true, if_false] at hlt
            omega
      refine ⟨integer isNegative (Decimal.ofDigits 0 whole), ?_⟩
      simp only [value?, Leading.ofWhole_eq hfits, Bool.false_eq_true, if_false]
  · cases h

end Json

/-! ## Reading -/

namespace Value

open Json

/-- The value of a written number: an int if one is written, else a double, unless the number
is too large. -/
def ofNumeral (n : Numeral) : Except Error Value :=
  match n.int?, n.value? with
  | some i, _ => .ok (int i)
  | none, some x => .ok (float x.asFloat)
  | none, none => .error .json

/-- **A written number is read as its value**, either way. -/
theorem readJson_of_numeral? {text : String} {n : Numeral}
    (h : numeral? text.toList = some (n, [])) :
    readJson text = ofNumeral n ∧ readJsonTree text = ofNumeral n := by
  have htree := ofText?_of_numeral? h
  cases hvalue : n.value? with
  | none =>
      have hint : n.int? = none := by
        cases hint : n.int? with
        | none => rfl
        | some i =>
            obtain ⟨x, hx⟩ := Numeral.exists_value?_of_int? hint
            rw [hvalue] at hx
            cases hx
      rw [hvalue, Option.map_none] at htree
      rw [readJson, readJsonTree, htree, ofNumeral, hint, hvalue]
      exact ⟨rfl, rfl⟩
  | some x =>
      have hnumber : ofNumeral n = .ok (ofNumber x) := by
        rw [ofNumeral, ofNumber, Numeral.asInt?_of_value? hvalue, hvalue]
        cases n.int? <;> rfl
      rw [hvalue, Option.map_some] at htree
      rw [hnumber, readJson_eq_of_some htree, readJsonTree, htree]
      exact ⟨rfl, rfl⟩

/-- **The two ways to read JSON agree.**  They refuse the texts that have no tree; of every
other text both give a value that its tree stands for, and the two values differ at most in the
order of mappings.  A text that is a number gives the value of the number either way. -/
theorem readJson_agrees (text : String) :
    (Json.ofText? text = none ∧ readJson text = .error .json ∧
        readJsonTree text = .error .json ∨
      ∃ j v w, Json.ofText? text = some j ∧ readJson text = .ok v ∧ readJsonTree text = .ok w ∧
        v.Reordered w ∧ j.Loads v ∧ j.Loads w) ∧
    ∀ n, numeral? text.toList = some (n, []) →
      readJson text = ofNumeral n ∧ readJsonTree text = ofNumeral n := by
  refine ⟨?_, fun n hn => readJson_of_numeral? hn⟩
  cases htree : Json.ofText? text with
  | none =>
      left
      rw [readJson, readJsonTree, htree]
      exact ⟨rfl, rfl, rfl⟩
  | some j =>
      right
      have hloads := loads_ofJson j
      have hsorted := loads_ofJson_sorted j
      refine ⟨j, ofJson j, ofJson j.sorted, rfl, readJson_eq_of_some htree, ?_,
        hloads.reordered hsorted, hloads, hsorted⟩
      rw [readJsonTree, htree]

/-- A zero with a sign is a double, either way. -/
theorem readJson_agrees_zero :
    numeral? "-0".toList = some (⟨true, ['0'], none, none⟩, []) ∧
      Numeral.int? ⟨true, ['0'], none, none⟩ = none ∧
      readJson "-0" = ofNumeral ⟨true, ['0'], none, none⟩ ∧
      readJsonTree "-0" = ofNumeral ⟨true, ['0'], none, none⟩ :=
  ⟨rfl, by decide, (readJson_agrees "-0").2 ⟨true, ['0'], none, none⟩ rfl⟩

end Value
end Stencil
