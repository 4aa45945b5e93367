import Stencil.Toml.Statement

/-!
# Keys of TOML tables

Nothing in a TOML file is defined twice: whatever its headers, keys with points and braces
add to the tables that are there, no table of the file, at any depth, ends up with a key that
it has twice.  What one statement keeps, all of them keep.

**Results.**
* `keysDistinct_of_value?`: a value that is read has no table with a key twice.
* `File.keysDistinct_step?`, `File.keysDistinct_foldlM`: nor has the file after a statement,
  and after all of them.
* `keysDistinct_of_read?`: a file that is read defines no key twice.
-/

namespace Stencil
namespace Toml

/-! ## Values -/

section Lists

variable {value : List Char → Option (Node × List Char)}

theorem keysDistinct_of_items? (hvalue : ∀ {cs p}, value cs = some p → p.1.KeysDistinct)
    {fuel : Nat} {cs : List Char} {p : List Node × List Char}
    (h : items? value fuel cs = some p) : ∀ n ∈ p.1, n.KeysDistinct := by
  fun_induction items? value fuel cs generalizing p with
  | case1 => cases h
  | case2 =>
      cases h
      exact fun n hn => absurd hn List.not_mem_nil
  | case3 fuel cs _ ih =>
      obtain ⟨q, hq, h⟩ := Option.bind_eq_some_iff.1 h
      split at h
      · obtain ⟨r, hr, rfl⟩ := Option.map_eq_some_iff.1 h
        exact List.forall_mem_cons.2 ⟨hvalue hq, ih _ hr⟩
      · cases h
        exact fun n hn => List.mem_singleton.1 hn ▸ hvalue hq
      · cases h

theorem keysDistinct_of_pair? {skip : List Char → List Char}
    (hvalue : ∀ {cs p}, value cs = some p → p.1.KeysDistinct) {cs : List Char}
    {p : (Key × Node) × List Char} (h : pair? skip value cs = some p) :
    p.1.2.KeysDistinct := by
  obtain ⟨k, -, h⟩ := Option.bind_eq_some_iff.1 h
  split at h
  · obtain ⟨q, hq, rfl⟩ := Option.map_eq_some_iff.1 h
    exact hvalue hq
  · cases h

theorem keysDistinct_of_pairs? (hvalue : ∀ {cs p}, value cs = some p → p.1.KeysDistinct)
    {fuel : Nat} {before : Table} {cs : List Char} {p : Table × List Char}
    (h : pairs? value fuel before cs = some p) (hbefore : before.KeysDistinct) :
    p.1.KeysDistinct := by
  fun_induction pairs? value fuel before cs generalizing p with
  | case1 => cases h
  | case2 =>
      cases h
      exact hbefore
  | case3 fuel before cs _ ih =>
      obtain ⟨q, hq, h⟩ := Option.bind_eq_some_iff.1 h
      obtain ⟨t, ht, h⟩ := Option.bind_eq_some_iff.1 h
      have hnext := Table.keysDistinct_assign? ht (keysDistinct_of_pair? hvalue hq) hbefore
      split at h
      · exact ih t _ h hnext
      · cases h
        exact hnext
      · cases h

end Lists

theorem keysDistinct_of_wordNode? {cs : List Char} {n : Node} (h : wordNode? cs = some n) :
    n.KeysDistinct := by
  unfold wordNode? at h
  repeat' split at h
  · cases h
    exact .bool true
  · cases h
    exact .bool false
  · cases h
    exact .number
  · cases h
    exact .dateTime
  · cases h

/-- A value that is read has no table with a key twice. -/
theorem keysDistinct_of_value? {depth : Nat} {cs : List Char} {p : Node × List Char}
    (h : value? depth cs = some p) : p.1.KeysDistinct := by
  induction depth using Nat.strongRecOn generalizing cs p with
  | ind depth ih =>
      unfold value? at h
      split at h
      · next rest d =>
          obtain ⟨q, hq, rfl⟩ := Option.map_eq_some_iff.1 h
          exact .array (keysDistinct_of_items? (ih d (Nat.lt_succ_self d)) hq)
      · next rest d =>
          obtain ⟨q, hq, rfl⟩ := Option.map_eq_some_iff.1 h
          have hq' := keysDistinct_of_pairs? (ih d (Nat.lt_succ_self d)) hq .nil
          exact Node.keysDistinct_table_iff.2 hq'
      · obtain ⟨q, -, rfl⟩ := Option.map_eq_some_iff.1 h
        exact .string q.1
      · obtain ⟨q, -, rfl⟩ := Option.map_eq_some_iff.1 h
        exact .string q.1
      · obtain ⟨n, hn, rfl⟩ := Option.map_eq_some_iff.1 h
        exact keysDistinct_of_wordNode? hn

/-! ## Statements -/

/-- What a statement assigns has no table with a key twice. -/
def Statement.KeysDistinct : Statement → Prop
  | .assign _ n => n.KeysDistinct
  | _ => True

theorem keysDistinct_of_statement? {cs : List Char} {p : Statement × List Char}
    (h : statement? cs = some p) : p.1.KeysDistinct := by
  unfold statement? at h
  split at h
  · obtain ⟨k, -, h⟩ := Option.bind_eq_some_iff.1 h
    split at h
    · cases h
      trivial
    · cases h
  · obtain ⟨k, -, h⟩ := Option.bind_eq_some_iff.1 h
    split at h
    · cases h
      trivial
    · cases h
  · obtain ⟨q, hq, rfl⟩ := Option.map_eq_some_iff.1 h
    exact keysDistinct_of_pair? keysDistinct_of_value? hq

theorem keysDistinct_of_statements? {fuel : Nat} {cs : List Char} {ss : List Statement}
    (h : statements? fuel cs = some ss) : ∀ s ∈ ss, s.KeysDistinct := by
  induction fuel generalizing cs ss with
  | zero => cases h
  | succ fuel ih =>
      rw [statements?] at h
      split at h
      · cases h
        exact fun s hs => absurd hs List.not_mem_nil
      · obtain ⟨p, hp, h⟩ := Option.bind_eq_some_iff.1 h
        obtain ⟨rest, -, h⟩ := Option.bind_eq_some_iff.1 h
        obtain ⟨tail, htail, rfl⟩ := Option.map_eq_some_iff.1 h
        exact List.forall_mem_cons.2 ⟨keysDistinct_of_statement? hp, ih htail⟩

/-! ## Files -/

namespace File

theorem keysDistinct_step? {f g : File} {s : Statement} (h : f.step? s = some g)
    (hs : s.KeysDistinct) (hf : f.root.KeysDistinct) : g.root.KeysDistinct := by
  cases s with
  | header k =>
      obtain ⟨t, ht, rfl⟩ := Option.map_eq_some_iff.1 h
      exact Table.keysDistinct_open? Table.keysDistinct_openHeader? ht hf
  | nextHeader k =>
      obtain ⟨t, ht, rfl⟩ := Option.map_eq_some_iff.1 h
      exact Table.keysDistinct_open? Table.keysDistinct_openNext? ht hf
  | assign k n =>
      obtain ⟨t, ht, rfl⟩ := Option.map_eq_some_iff.1 h
      exact Table.keysDistinct_update? (fun hu ht => Table.keysDistinct_assign? hu hs ht) ht hf

theorem keysDistinct_foldlM {ss : List Statement} {f g : File}
    (h : ss.foldlM File.step? f = some g) (hss : ∀ s ∈ ss, s.KeysDistinct)
    (hf : f.root.KeysDistinct) : g.root.KeysDistinct := by
  induction ss generalizing f with
  | nil =>
      cases h
      exact hf
  | cons s ss ih =>
      rw [List.foldlM_cons] at h
      obtain ⟨next, hnext, h⟩ := Option.bind_eq_some_iff.1 h
      obtain ⟨hs, hrest⟩ := List.forall_mem_cons.1 hss
      exact ih h hrest (keysDistinct_step? hnext hs hf)

end File

/-- **A file that is read defines no key twice**, in none of its tables. -/
theorem keysDistinct_of_read? {text : String} {t : Table} (h : read? text = some t) :
    t.KeysDistinct := by
  simp only [read?] at h
  obtain ⟨ss, hss, h⟩ := Option.bind_eq_some_iff.1 h
  obtain ⟨hroot, -⟩ := Option.filter_eq_some_iff.1 h
  obtain ⟨f, hf, rfl⟩ := Option.map_eq_some_iff.1 hroot
  exact File.keysDistinct_foldlM hf (keysDistinct_of_statements? hss) .nil

end Toml
end Stencil
