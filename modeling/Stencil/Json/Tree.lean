import Stencil.Entries
import Stencil.Json.Draft

/-!
# JSON trees

A JSON text gives a tree if it is well-formed, all its numbers and strings have a value
and at most 127 arrays and objects are nested.  The tree keeps the order of members
and repeated keys; `sorted` is the tree in which each key has its last value and keys
are in ascending order.

**Results.**
* `settle?_draft`: every tree has a draft that settles to it.
* `lookup_sortMembers_ofPairs`: a sorted object has the last value of each key.
-/

namespace Stencil

/-- A JSON tree. -/
inductive Json where
  | null
  | bool (b : Bool)
  | number (n : Json.Number)
  | string (s : String)
  | array (items : List Json)
  | object (members : List (String × Json))
  deriving Inhabited

namespace Json

/-- What holds of an array with its items and of an object with its members holds of every
tree. -/
theorem induction_mem {motive : Json → Prop} (null : motive .null)
    (bool : ∀ b, motive (.bool b)) (number : ∀ n, motive (.number n))
    (string : ∀ s, motive (.string s))
    (array : ∀ items, (∀ j ∈ items, motive j) → motive (.array items))
    (object : ∀ members : List (String × Json), (∀ m ∈ members, motive m.2) →
      motive (.object members))
    (j : Json) : motive j :=
  match j with
  | .null => null
  | .bool b => bool b
  | .number n => number n
  | .string s => string s
  | .array items =>
      array items (fun j _ => induction_mem null bool number string array object j)
  | .object members =>
      object members (fun m _ => induction_mem null bool number string array object m.2)
termination_by sizeOf j
decreasing_by
  · next hj =>
      have hsmaller := List.sizeOf_lt_of_mem hj
      simp only [Json.array.sizeOf_spec]
      omega
  · next hm =>
      obtain ⟨k, j⟩ := m
      have hsmaller := List.sizeOf_lt_of_mem hm
      simp only [Prod.mk.sizeOf_spec, Json.object.sizeOf_spec] at hsmaller ⊢
      omega

mutual

/-- The tree of a draft, if everything in it has a value. -/
def Draft.settle? : Draft → Option Json
  | .null => some .null
  | .bool b => some (.bool b)
  | .number n => n.map .number
  | .string s => s.map .string
  | .array items => (settleItems? items).map .array
  | .object members => (settleMembers? members).map .object

def settleItems? : List Draft → Option (List Json)
  | [] => some []
  | d :: ds => (d.settle?).bind (fun j => (settleItems? ds).map (j :: ·))

def settleMembers? : List (Option String × Draft) → Option (List (String × Json))
  | [] => some []
  | (k, d) :: ms =>
      k.bind (fun key =>
        (d.settle?).bind (fun j => (settleMembers? ms).map ((key, j) :: ·)))

end

mutual

/-- The draft in which everything has the value of a tree. -/
def draft : Json → Draft
  | .null => .null
  | .bool b => .bool b
  | .number n => .number (some n)
  | .string s => .string (some s)
  | .array items => .array (draftItems items)
  | .object members => .object (draftMembers members)

/-- The drafts of items. -/
def draftItems : List Json → List Draft
  | [] => []
  | j :: js => j.draft :: draftItems js

/-- The members with their drafts. -/
def draftMembers : List (String × Json) → List (Option String × Draft)
  | [] => []
  | (k, j) :: ms => (some k, j.draft) :: draftMembers ms

end

mutual

theorem settle?_draft (j : Json) : j.draft.settle? = some j := by
  cases j with
  | null => rfl
  | bool b => rfl
  | number n => rfl
  | string s => rfl
  | array items => rw [draft, Draft.settle?, settleItems?_draftItems]; rfl
  | object members => rw [draft, Draft.settle?, settleMembers?_draftMembers]; rfl

theorem settleItems?_draftItems (js : List Json) : settleItems? (draftItems js) = some js := by
  cases js with
  | nil => rfl
  | cons j js => rw [draftItems, settleItems?, settle?_draft j, settleItems?_draftItems js]; rfl

theorem settleMembers?_draftMembers (ms : List (String × Json)) :
    settleMembers? (draftMembers ms) = some ms := by
  cases ms with
  | nil => rfl
  | cons m ms =>
      obtain ⟨k, j⟩ := m
      rw [draftMembers, settleMembers?, Option.bind_some, settle?_draft j,
        settleMembers?_draftMembers ms]
      rfl

end

/-- How many arrays and objects may be nested. -/
def maxDepth : Nat := 127

/-- The tree of a text. -/
def ofText? (text : String) : Option Json :=
  (Draft.ofText? text).bind (fun d => if d.depth ≤ maxDepth then d.settle? else none)

/-- Members in ascending order of their keys. -/
def sortMembers (members : Entries Json) : Entries Json :=
  members.mergeSort (fun a b => decide (a.1 ≤ b.1))

mutual

/-- The tree with sorted keys, each with its last value. -/
def sorted : Json → Json
  | array items => array (sortedItems items)
  | object members => object (sortMembers (Entries.ofPairs (sortedMembers members)))
  | j => j

/-- The items, each with sorted keys. -/
def sortedItems : List Json → List Json
  | [] => []
  | j :: js => sorted j :: sortedItems js

/-- The members, each value with sorted keys. -/
def sortedMembers : List (String × Json) → List (String × Json)
  | [] => []
  | (k, j) :: ms => (k, sorted j) :: sortedMembers ms

end

theorem sortedItems_eq_map (items : List Json) : sortedItems items = items.map sorted := by
  induction items with
  | nil => rfl
  | cons j items ih => rw [sortedItems, ih, List.map_cons]

theorem sortedMembers_eq_map (members : List (String × Json)) :
    sortedMembers members = members.map (fun m => (m.1, m.2.sorted)) := by
  induction members with
  | nil => rfl
  | cons m members ih => rw [sortedMembers, ih, List.map_cons]

theorem sortMembers_perm (members : Entries Json) : (sortMembers members).Perm members :=
  List.mergeSort_perm _ _

theorem nodup_keys_sortMembers {members : Entries Json} (h : members.keys.Nodup) :
    (Entries.keys (sortMembers members)).Nodup :=
  ((sortMembers_perm members).map Prod.fst).symm.nodup h

/-- A sorted object has the last value of each key. -/
theorem lookup_sortMembers_ofPairs (members : List (String × Json)) (key : String) :
    (sortMembers (Entries.ofPairs members)).lookup key = members.reverse.lookup key := by
  have hperm := (sortMembers_perm (Entries.ofPairs members)).symm
  rw [← Entries.lookup_eq_of_perm hperm (Entries.nodup_keys_ofPairs members),
    Entries.lookup_ofPairs]

end Json

end Stencil
