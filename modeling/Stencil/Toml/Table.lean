import Stencil.Entries
import Stencil.Toml.Text

/-!
# Tables of a TOML file

A table is defined by a header, by keys with points, in braces, or merely as part of the
path to another one.  How it was defined decides where it may be extended, so that nothing
is defined twice.

**Results.**
* `keysDistinct_assign?`, `keysDistinct_open?`, `keysDistinct_update?`: what extends a table
  leaves it, and the tables in it, without a key that is there twice.
-/

namespace Stencil
namespace Toml

/-- How a table was defined. -/
inductive Origin where
  /-- By a header. -/
  | header
  /-- As part of the path in a header. -/
  | path
  /-- As part of a key with points. -/
  | dotted
  /-- In braces. -/
  | braces
  deriving DecidableEq

/-- A value of a TOML file, as far as settings can tell it from others. -/
inductive Node where
  | string (s : String)
  | bool (b : Bool)
  | number
  | dateTime
  | array (items : List Node)
  | table (origin : Origin) (entries : List (String × Node))
  /-- Tables under one header; the last one may still be extended. -/
  | tables (earlier : List (List (String × Node))) (last : List (String × Node))

/-- A table. -/
abbrev Table := Entries Node

namespace Table

/-- Adds a new key. -/
def add? (key : String) (n : Node) (t : Table) : Option Table :=
  if (t.lookup key).isSome then none else some (t ++ [(key, n)])

/-- Assigns a key with the keys of the tables around it.  These tables are made where they
are missing; of those that are there, only tables of keys with points may be added to. -/
def assign? (last : String) (n : Node) : List String → Table → Option Table
  | [], t => add? last n t
  | k :: ks, t =>
      match t.lookup k with
      | none => (assign? last n ks []).map (fun u => t ++ [(k, .table .dotted u)])
      | some (.table .dotted u) =>
          (assign? last n ks u).map (fun u => Entries.put k (.table .dotted u) t)
      | some (.table .path u) =>
          if ks = [] then none
          else (assign? last n ks u).map (fun u => Entries.put k (.table .path u) t)
      | some (.tables earlier u) =>
          if ks = [] then none
          else (assign? last n ks u).map (fun u => Entries.put k (.tables earlier u) t)
      | some _ => none

/-- Changes what is under the last key of a header.  The tables on the way are made where
they are missing. -/
def open? (f : Option Node → Option Node) (last : String) : List String → Table → Option Table
  | [], t => (f (t.lookup last)).map (fun n => Entries.put last n t)
  | k :: ks, t =>
      match t.lookup k with
      | none => (open? f last ks []).map (fun u => Entries.put k (.table .path u) t)
      | some (.table origin u) =>
          if origin = .braces then none
          else (open? f last ks u).map (fun u => Entries.put k (.table origin u) t)
      | some (.tables earlier u) =>
          (open? f last ks u).map (fun u => Entries.put k (.tables earlier u) t)
      | some _ => none

/-- Defines a table by its header, unless it was defined before. -/
def openHeader? : Option Node → Option Node
  | none => some (.table .header [])
  | some (.table .path entries) => some (.table .header entries)
  | some _ => none

/-- Adds a table to the tables under one header. -/
def openNext? : Option Node → Option Node
  | none => some (.tables [] [])
  | some (.tables earlier last) => some (.tables (earlier ++ [last]) [])
  | some _ => none

/-- Changes the table under a header. -/
def update? (f : Table → Option Table) : List String → Table → Option Table
  | [], t => f t
  | k :: ks, t =>
      match t.lookup k with
      | some (.table origin u) =>
          (update? f ks u).map (fun u => Entries.put k (.table origin u) t)
      | some (.tables earlier u) =>
          (update? f ks u).map (fun u => Entries.put k (.tables earlier u) t)
      | _ => none

end Table

/-! ## Distinct keys -/

/-- Whether no table in a value has a key twice. -/
inductive Node.KeysDistinct : Node → Prop where
  | string (s : String) : KeysDistinct (.string s)
  | bool (b : Bool) : KeysDistinct (.bool b)
  | number : KeysDistinct .number
  | dateTime : KeysDistinct .dateTime
  | array {items : List Node} (items_distinct : ∀ n ∈ items, KeysDistinct n) :
      KeysDistinct (.array items)
  | table {origin : Origin} {t : List (String × Node)} (keys : (Entries.keys t).Nodup)
      (values : ∀ e ∈ t, KeysDistinct e.2) : KeysDistinct (.table origin t)
  | tables {earlier : List (List (String × Node))} {last : List (String × Node)}
      (keys : ∀ t ∈ earlier, (Entries.keys t).Nodup)
      (values : ∀ t ∈ earlier, ∀ e ∈ t, KeysDistinct e.2)
      (last_keys : (Entries.keys last).Nodup) (last_values : ∀ e ∈ last, KeysDistinct e.2) :
      KeysDistinct (.tables earlier last)

namespace Table

/-- Whether a table has no key twice, nor has any table in it. -/
structure KeysDistinct (t : Table) : Prop where
  keys : (Entries.keys t).Nodup
  values : ∀ e ∈ t, e.2.KeysDistinct

end Table

theorem Node.keysDistinct_table_iff {origin : Origin} {t : Table} :
    (Node.table origin t).KeysDistinct ↔ t.KeysDistinct := by
  constructor
  · rintro (_ | _ | _ | _ | _ | ⟨keys, values⟩)
    exact ⟨keys, values⟩
  · rintro ⟨keys, values⟩
    exact .table keys values

theorem Node.keysDistinct_tables_iff {earlier : List Table} {last : Table} :
    (Node.tables earlier last).KeysDistinct ↔
      (∀ t ∈ earlier, t.KeysDistinct) ∧ last.KeysDistinct := by
  constructor
  · rintro (_ | _ | _ | _ | _ | _ | ⟨keys, values, last_keys, last_values⟩)
    exact ⟨fun t ht => ⟨keys t ht, values t ht⟩, last_keys, last_values⟩
  · rintro ⟨hearlier, hlast⟩
    exact .tables (fun t ht => (hearlier t ht).keys) (fun t ht => (hearlier t ht).values)
      hlast.keys hlast.values

namespace Table

theorem KeysDistinct.nil : KeysDistinct [] :=
  ⟨List.nodup_nil, fun _ h => absurd h List.not_mem_nil⟩

theorem KeysDistinct.lookup {t : Table} (h : t.KeysDistinct) {key : String} {n : Node}
    (hn : t.lookup key = some n) : n.KeysDistinct :=
  h.values (key, n) (Entries.mem_of_lookup hn)

theorem KeysDistinct.put {t : Table} (h : t.KeysDistinct) {n : Node} (hn : n.KeysDistinct)
    (key : String) : KeysDistinct (Entries.put key n t) where
  keys := Entries.nodup_keys_put h.keys key n
  values e he := by
    rcases Entries.eq_or_mem_of_mem_put he with rfl | hmem
    · exact hn
    · exact h.values e hmem

/-- A key that was not there is added at the end. -/
theorem KeysDistinct.append {t : Table} (h : t.KeysDistinct) {key : String} {n : Node}
    (hkey : t.lookup key = none) (hn : n.KeysDistinct) : KeysDistinct (t ++ [(key, n)]) := by
  have hnew : key ∉ Entries.keys t := by
    rw [Entries.mem_keys_iff, hkey]
    rintro ⟨_, hsome⟩
    cases hsome
  rw [← Entries.put_of_not_mem hnew]
  exact h.put hn key

theorem keysDistinct_add? {key : String} {n : Node} {t u : Table} (h : add? key n t = some u)
    (hn : n.KeysDistinct) (ht : t.KeysDistinct) : u.KeysDistinct := by
  obtain ⟨hkey, hu⟩ := Option.ite_none_left_eq_some.1 h
  cases hu
  exact ht.append (Option.not_isSome_iff_eq_none.1 hkey) hn

theorem keysDistinct_assign? {last : String} {n : Node} {path : List String} {t u : Table}
    (h : assign? last n path t = some u) (hn : n.KeysDistinct) (ht : t.KeysDistinct) :
    u.KeysDistinct := by
  fun_induction assign? last n path t generalizing u with
  | case1 t => exact keysDistinct_add? h hn ht
  | case2 k ks t hk ih =>
      obtain ⟨v, hv, rfl⟩ := Option.map_eq_some_iff.1 h
      exact ht.append hk (Node.keysDistinct_table_iff.2 (ih hv .nil))
  | case3 k ks t w hk ih | case5 k ks t w hk _ ih =>
      obtain ⟨v, hv, rfl⟩ := Option.map_eq_some_iff.1 h
      have hw := Node.keysDistinct_table_iff.1 (ht.lookup hk)
      exact ht.put (Node.keysDistinct_table_iff.2 (ih hv hw)) k
  | case7 k ks t earlier w hk _ ih =>
      obtain ⟨v, hv, rfl⟩ := Option.map_eq_some_iff.1 h
      obtain ⟨hearlier, hw⟩ := Node.keysDistinct_tables_iff.1 (ht.lookup hk)
      exact ht.put (Node.keysDistinct_tables_iff.2 ⟨hearlier, ih hv hw⟩) k
  | case4 | case6 | case8 => cases h

/-- The change of what is under the last key may build on what is there. -/
theorem keysDistinct_open? {f : Option Node → Option Node}
    (hf : ∀ {found n}, f found = some n → (∀ m, found = some m → m.KeysDistinct) →
      n.KeysDistinct)
    {last : String} {path : List String} {t u : Table} (h : open? f last path t = some u)
    (ht : t.KeysDistinct) : u.KeysDistinct := by
  fun_induction open? f last path t generalizing u with
  | case1 t =>
      obtain ⟨n, hn, rfl⟩ := Option.map_eq_some_iff.1 h
      exact ht.put (hf hn (fun _ hm => ht.lookup hm)) last
  | case2 k ks t _ ih =>
      obtain ⟨v, hv, rfl⟩ := Option.map_eq_some_iff.1 h
      exact ht.put (Node.keysDistinct_table_iff.2 (ih hv .nil)) k
  | case4 k ks t origin w hk _ ih =>
      obtain ⟨v, hv, rfl⟩ := Option.map_eq_some_iff.1 h
      have hw := Node.keysDistinct_table_iff.1 (ht.lookup hk)
      exact ht.put (Node.keysDistinct_table_iff.2 (ih hv hw)) k
  | case5 k ks t earlier w hk ih =>
      obtain ⟨v, hv, rfl⟩ := Option.map_eq_some_iff.1 h
      obtain ⟨hearlier, hw⟩ := Node.keysDistinct_tables_iff.1 (ht.lookup hk)
      exact ht.put (Node.keysDistinct_tables_iff.2 ⟨hearlier, ih hv hw⟩) k
  | case3 | case6 => cases h

theorem keysDistinct_openHeader? {found : Option Node} {n : Node}
    (h : openHeader? found = some n) (hfound : ∀ m, found = some m → m.KeysDistinct) :
    n.KeysDistinct := by
  unfold openHeader? at h
  split at h
  · cases h
    exact Node.keysDistinct_table_iff.2 .nil
  · next entries =>
      cases h
      have hentries := Node.keysDistinct_table_iff.1 (hfound _ rfl)
      exact Node.keysDistinct_table_iff.2 hentries
  · cases h

theorem keysDistinct_openNext? {found : Option Node} {n : Node}
    (h : openNext? found = some n) (hfound : ∀ m, found = some m → m.KeysDistinct) :
    n.KeysDistinct := by
  unfold openNext? at h
  split at h
  · cases h
    exact Node.keysDistinct_tables_iff.2 ⟨fun _ ht => absurd ht List.not_mem_nil, .nil⟩
  · next earlier last =>
      cases h
      obtain ⟨hearlier, hlast⟩ := Node.keysDistinct_tables_iff.1 (hfound _ rfl)
      refine Node.keysDistinct_tables_iff.2 ⟨fun t ht => ?_, .nil⟩
      rcases List.mem_append.1 ht with hmem | hmem
      · exact hearlier t hmem
      · exact List.mem_singleton.1 hmem ▸ hlast
  · cases h

theorem keysDistinct_update? {f : Table → Option Table}
    (hf : ∀ {t u}, f t = some u → t.KeysDistinct → u.KeysDistinct) {path : List String}
    {t u : Table} (h : update? f path t = some u) (ht : t.KeysDistinct) : u.KeysDistinct := by
  fun_induction update? f path t generalizing u with
  | case1 t => exact hf h ht
  | case2 k ks t origin w hk ih =>
      obtain ⟨v, hv, rfl⟩ := Option.map_eq_some_iff.1 h
      have hw := Node.keysDistinct_table_iff.1 (ht.lookup hk)
      exact ht.put (Node.keysDistinct_table_iff.2 (ih hv hw)) k
  | case3 k ks t earlier w hk ih =>
      obtain ⟨v, hv, rfl⟩ := Option.map_eq_some_iff.1 h
      obtain ⟨hearlier, hw⟩ := Node.keysDistinct_tables_iff.1 (ht.lookup hk)
      exact ht.put (Node.keysDistinct_tables_iff.2 ⟨hearlier, ih hv hw⟩) k
  | case4 => cases h

end Table

end Toml
end Stencil
