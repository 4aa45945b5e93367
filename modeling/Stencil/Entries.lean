/-!
# Entries in order of first insertion

A list of keys and values stands for a finite map that remembers in which order its
keys came.  Putting a value under a key that is already there keeps the key's place.

**Results.**
* `keys_put`, `lookup_put_self`, `lookup_put_of_ne`: what `put` does to the keys and to
  the value under each key.
* `keys_erase`, `lookup_erase_self`, `lookup_erase_of_ne`: what `erase` does to them.
* `mem_keys_iff`: the keys are those with a value.
* `nodup_keys_put`: distinct keys stay distinct.
* `nodup_keys_ofPairs`, `lookup_ofPairs`: pairs put one after the other have distinct keys, each
  with its last value.
* `holds_ofPairs`, `Holds.eq_ofPairs`: they are the only entries that hold the pairs.
* `ext_lookup`: entries are determined by their keys and by what is found under them.
* `lookup_eq_of_perm`: the order of distinct keys does not count.
-/

namespace Stencil

/-- Keys with values, in order. -/
abbrev Entries (α : Type) := List (String × α)

namespace Entries

variable {α : Type}

def keys (entries : Entries α) : List String :=
  entries.map Prod.fst

/-- Puts a value under a key: in the key's place, or at the end. -/
def put (key : String) (value : α) : Entries α → Entries α
  | [] => [(key, value)]
  | (k, v) :: rest => if k = key then (k, value) :: rest else (k, v) :: put key value rest

def erase (key : String) (entries : Entries α) : Entries α :=
  entries.filter (fun e => e.1 ≠ key)

/-- Puts pairs one after the other. -/
def ofPairs (pairs : List (String × α)) : Entries α :=
  pairs.foldl (fun entries p => put p.1 p.2 entries) []

theorem keys_put (key : String) (value : α) (entries : Entries α) :
    (put key value entries).keys =
      if key ∈ entries.keys then entries.keys else entries.keys ++ [key] := by
  induction entries with
  | nil => rfl
  | cons e rest ih =>
      obtain ⟨k, v⟩ := e
      by_cases h : k = key
      · simp [put, keys, h]
      · have hk : key ≠ k := Ne.symm h
        simp only [put, h, if_false]
        simp only [keys, List.map_cons, List.mem_cons, hk, false_or] at ih ⊢
        rw [ih]
        by_cases hm : key ∈ rest.map Prod.fst
        · simp only [hm, if_true]
        · simp only [hm, if_false, List.cons_append]

theorem lookup_put_self (key : String) (value : α) (entries : Entries α) :
    (put key value entries).lookup key = some value := by
  induction entries with
  | nil => simp [put]
  | cons e rest ih =>
      obtain ⟨k, v⟩ := e
      by_cases h : k = key
      · simp [put, h]
      · have hk : (key == k) = false := beq_false_of_ne (Ne.symm h)
        simp [put, h, List.lookup_cons, hk, ih]

theorem lookup_put_of_ne {key other : String} (h : other ≠ key) (value : α)
    (entries : Entries α) :
    (put key value entries).lookup other = entries.lookup other := by
  induction entries with
  | nil =>
      have ho : (other == key) = false := beq_false_of_ne h
      simp [put, List.lookup_cons, ho]
  | cons e rest ih =>
      obtain ⟨k, v⟩ := e
      by_cases hk : k = key
      · have ho : (other == k) = false := beq_false_of_ne (hk ▸ h)
        simp [put, hk, List.lookup_cons, hk ▸ ho]
      · simp [put, hk, List.lookup_cons, ih]

/-- What is put is the only entry that was not there. -/
theorem eq_or_mem_of_mem_put {key : String} {value : α} {entries : Entries α} {e : String × α}
    (h : e ∈ put key value entries) : e = (key, value) ∨ e ∈ entries := by
  induction entries with
  | nil => exact .inl (List.mem_singleton.1 h)
  | cons other rest ih =>
      obtain ⟨k, v⟩ := other
      rw [put] at h
      split at h
      · next hk =>
          rw [hk] at h
          exact (List.mem_cons.1 h).imp id (List.mem_cons_of_mem _)
      · rcases List.mem_cons.1 h with rfl | hrest
        · exact .inr (List.mem_cons_self ..)
        · exact (ih hrest).imp id (List.mem_cons_of_mem _)

/-- A value under a new key goes to the end. -/
theorem put_of_not_mem {key : String} {entries : Entries α} (h : key ∉ entries.keys) (value : α) :
    put key value entries = entries ++ [(key, value)] := by
  induction entries with
  | nil => rfl
  | cons e rest ih =>
      obtain ⟨k, v⟩ := e
      obtain ⟨hk, hrest⟩ : key ≠ k ∧ key ∉ keys rest := by simpa [keys] using h
      rw [put, if_neg (Ne.symm hk), ih hrest, List.cons_append]

theorem nodup_keys_put {entries : Entries α} (h : entries.keys.Nodup) (key : String)
    (value : α) : (put key value entries).keys.Nodup := by
  rw [keys_put]
  split
  · exact h
  · next hk => simp [List.nodup_append, h]; grind

theorem erase_cons (key k : String) (v : α) (rest : Entries α) :
    erase key ((k, v) :: rest) =
      if k = key then erase key rest else (k, v) :: erase key rest := by
  by_cases h : k = key
  · simp [erase, h]
  · simp [erase, h]

theorem keys_erase (key : String) (entries : Entries α) :
    (erase key entries).keys = entries.keys.filter (fun k => k ≠ key) := by
  rw [keys, keys, erase, List.filter_map]
  rfl

theorem nodup_keys_erase {entries : Entries α} (h : entries.keys.Nodup) (key : String) :
    (erase key entries).keys.Nodup := by
  rw [keys_erase]
  exact h.filter _

/-- The keys are those with a value. -/
theorem mem_keys_iff {key : String} {entries : Entries α} :
    key ∈ entries.keys ↔ ∃ value, entries.lookup key = some value := by
  induction entries with
  | nil => simp [keys]
  | cons e rest ih =>
      obtain ⟨k, v⟩ := e
      by_cases h : key = k
      · simp [keys, h]
      · have hk : (key == k) = false := beq_false_of_ne h
        simpa [keys, h, List.lookup_cons, hk] using ih

theorem lookup_eq_none {key : String} {entries : Entries α} (h : key ∉ entries.keys) :
    entries.lookup key = none := by
  cases hlookup : entries.lookup key with
  | none => rfl
  | some value => exact absurd (mem_keys_iff.2 ⟨value, hlookup⟩) h

theorem mem_of_lookup {entries : Entries α} {key : String} {value : α}
    (h : entries.lookup key = some value) : (key, value) ∈ entries := by
  obtain ⟨before, after, hsplit, -⟩ := List.lookup_eq_some_iff.1 h
  simp [hsplit]

/-- Entries are determined by their keys and by what is found under them. -/
theorem ext_lookup {as bs : Entries α} (hnodup : as.keys.Nodup) (hkeys : as.keys = bs.keys)
    (hlookup : ∀ key, as.lookup key = bs.lookup key) : as = bs := by
  induction as generalizing bs with
  | nil => exact (List.map_eq_nil_iff.1 hkeys.symm).symm
  | cons a as ih =>
      cases bs with
      | nil => cases hkeys
      | cons b bs =>
          obtain ⟨key, v⟩ := a
          obtain ⟨key', w⟩ := b
          obtain ⟨rfl, htail⟩ : key = key' ∧ keys as = keys bs := List.cons.inj hkeys
          obtain ⟨hfresh, hnodup⟩ : key ∉ keys as ∧ (keys as).Nodup := List.nodup_cons.1 hnodup
          have hvalue := hlookup key
          rw [List.lookup_cons_self, List.lookup_cons_self] at hvalue
          obtain rfl := Option.some.inj hvalue
          rw [ih hnodup htail (fun other => ?_)]
          by_cases h : other = key
          · have hfresh' : key ∉ keys bs := fun hmem => hfresh (htail ▸ hmem)
            rw [h, lookup_eq_none hfresh, lookup_eq_none hfresh']
          · have hother := hlookup other
            have hbeq : (other == key) = false := beq_false_of_ne h
            simpa [List.lookup_cons, hbeq] using hother

theorem lookup_erase_self (key : String) (entries : Entries α) :
    (erase key entries).lookup key = none := by
  cases h : (erase key entries).lookup key with
  | none => rfl
  | some value =>
      have hmem : key ∈ (erase key entries).keys := mem_keys_iff.2 ⟨value, h⟩
      rw [keys_erase, List.mem_filter] at hmem
      simp at hmem

theorem lookup_erase_of_ne {key other : String} (h : other ≠ key) (entries : Entries α) :
    (erase key entries).lookup other = entries.lookup other := by
  induction entries with
  | nil => rfl
  | cons e rest ih =>
      obtain ⟨k, v⟩ := e
      rw [erase_cons]
      by_cases hk : k = key
      · have ho : (other == k) = false := beq_false_of_ne (hk ▸ h)
        rw [if_pos hk, ih, List.lookup_cons, ho]
      · rw [if_neg hk, List.lookup_cons, List.lookup_cons, ih]

/-! ## Pairs -/

theorem nodup_keys_foldl_put (pairs : List (String × α)) {entries : Entries α}
    (h : entries.keys.Nodup) :
    (keys (pairs.foldl (fun entries p => put p.1 p.2 entries) entries)).Nodup := by
  induction pairs generalizing entries with
  | nil => exact h
  | cons p pairs ih => exact ih (nodup_keys_put h p.1 p.2)

theorem nodup_keys_ofPairs (pairs : List (String × α)) : (ofPairs pairs).keys.Nodup :=
  nodup_keys_foldl_put pairs List.nodup_nil

theorem lookup_foldl_put (pairs : List (String × α)) (entries : Entries α) (key : String) :
    (pairs.foldl (fun entries p => put p.1 p.2 entries) entries).lookup key =
      (pairs.reverse.lookup key).or (entries.lookup key) := by
  induction pairs generalizing entries with
  | nil => rfl
  | cons p pairs ih =>
      obtain ⟨k, v⟩ := p
      rw [List.foldl_cons, ih, List.reverse_cons, List.lookup_append, Option.or_assoc]
      by_cases h : key = k
      · rw [h, lookup_put_self, List.lookup_cons_self, Option.some_or]
      · have hk : (key == k) = false := beq_false_of_ne h
        rw [lookup_put_of_ne h, List.lookup_cons, hk, List.lookup_nil, Option.none_or]

/-- Of pairs put one after the other, each key has its last value. -/
theorem lookup_ofPairs (pairs : List (String × α)) (key : String) :
    (ofPairs pairs).lookup key = pairs.reverse.lookup key := by
  rw [ofPairs, lookup_foldl_put, List.lookup_nil, Option.or_none]

theorem removeAll_append_singleton (texts keys : List String) (key : String) :
    texts.removeAll (keys ++ [key]) = (texts.removeAll keys).filter (fun t => !t == key) := by
  rw [List.removeAll, List.removeAll, List.filter_filter]
  refine List.filter_congr (fun t _ => ?_)
  by_cases h : t = key
  · simp [h]
  · simp [h]

/-- Pairs put one after the other add the keys that were not there, in the order in which they
first occur. -/
theorem keys_foldl_put (pairs : List (String × α)) (entries : Entries α) :
    keys (pairs.foldl (fun entries p => put p.1 p.2 entries) entries) =
      entries.keys ++ ((pairs.map Prod.fst).removeAll entries.keys).eraseDups := by
  induction pairs generalizing entries with
  | nil => exact (List.append_nil _).symm
  | cons p pairs ih =>
      obtain ⟨key, value⟩ := p
      rw [List.foldl_cons, ih, keys_put, List.map_cons]
      by_cases h : key ∈ entries.keys
      · rw [if_pos h]
        simp [List.removeAll, h]
      · rw [if_neg h, removeAll_append_singleton]
        simp [List.removeAll, h, List.eraseDups_cons]

theorem keys_ofPairs (pairs : List (String × α)) :
    (ofPairs pairs).keys = (pairs.map Prod.fst).eraseDups := by
  rw [ofPairs, keys_foldl_put, keys, List.map_nil, List.nil_append, List.removeAll_nil]

/-- Entries that hold pairs: each key of the pairs once, in the order in which the keys first
occur, with the value of the last pair that has the key. -/
structure Holds (entries : Entries α) (pairs : List (String × α)) : Prop where
  nodup : entries.keys.Nodup
  keys : entries.keys = (pairs.map Prod.fst).eraseDups
  lookup : ∀ key, entries.lookup key = pairs.reverse.lookup key

theorem holds_ofPairs (pairs : List (String × α)) : (ofPairs pairs).Holds pairs where
  nodup := nodup_keys_ofPairs pairs
  keys := keys_ofPairs pairs
  lookup := lookup_ofPairs pairs

/-- **No other entries hold pairs** than these put one after the other. -/
theorem Holds.eq_ofPairs {entries : Entries α} {pairs : List (String × α)}
    (h : entries.Holds pairs) : entries = ofPairs pairs :=
  ext_lookup h.nodup (h.keys.trans (keys_ofPairs pairs).symm)
    (fun key => (h.lookup key).trans (lookup_ofPairs pairs key).symm)

theorem foldl_put_of_nodup (pairs entries : Entries α) (h : (keys (entries ++ pairs)).Nodup) :
    pairs.foldl (fun entries p => put p.1 p.2 entries) entries = entries ++ pairs := by
  induction pairs generalizing entries with
  | nil => rw [List.foldl_nil, List.append_nil]
  | cons p pairs ih =>
      obtain ⟨k, v⟩ := p
      have hnew : k ∉ entries.keys := by
        rw [keys, List.map_append, List.nodup_append] at h
        exact fun hmem => h.2.2 k hmem k (List.mem_cons_self ..) rfl
      have hsplit : entries ++ (k, v) :: pairs = (entries ++ [(k, v)]) ++ pairs := by simp
      rw [hsplit] at h ⊢
      rw [List.foldl_cons, put_of_not_mem hnew]
      exact ih (entries ++ [(k, v)]) h

/-- Pairs with distinct keys are already entries. -/
theorem ofPairs_of_nodup {pairs : Entries α} (h : pairs.keys.Nodup) : ofPairs pairs = pairs :=
  foldl_put_of_nodup pairs [] h

/-! ## Order -/

theorem lookup_eq_some_iff_mem {entries : Entries α} (h : entries.keys.Nodup) {key : String}
    {value : α} : entries.lookup key = some value ↔ (key, value) ∈ entries := by
  induction entries with
  | nil => simp
  | cons e rest ih =>
      obtain ⟨k, v⟩ := e
      obtain ⟨hk, hrest⟩ := List.nodup_cons.1 h
      by_cases hkey : key = k
      · subst hkey
        have hnot : (key, value) ∉ rest :=
          fun hmem => hk (List.mem_map.2 ⟨(key, value), hmem, rfl⟩)
        simp [hnot, eq_comm]
      · have hbeq : (key == k) = false := beq_false_of_ne hkey
        simpa [List.lookup_cons, hbeq, hkey] using ih hrest

/-- What entries hold is among the pairs. -/
theorem Holds.mem {entries : Entries α} {pairs : List (String × α)} (h : entries.Holds pairs)
    {p : String × α} (hp : p ∈ entries) : p ∈ pairs := by
  have hlookup := (lookup_eq_some_iff_mem h.nodup).2 hp
  rw [h.lookup] at hlookup
  exact List.mem_reverse.1 (mem_of_lookup hlookup)

/-- The order of distinct keys does not count. -/
theorem lookup_eq_of_perm {as bs : Entries α} (h : as.Perm bs) (hnodup : as.keys.Nodup)
    (key : String) : as.lookup key = bs.lookup key := by
  have hnodup' : bs.keys.Nodup := (h.map Prod.fst).nodup hnodup
  refine Option.ext (fun value => ?_)
  rw [lookup_eq_some_iff_mem hnodup, lookup_eq_some_iff_mem hnodup', h.mem_iff]

/-! ## Other values -/

theorem keys_map {β : Type} (f : α → β) (entries : Entries α) :
    keys (entries.map (fun e => (e.1, f e.2))) = entries.keys := by
  rw [keys, keys, List.map_map]
  rfl

theorem lookup_map {β : Type} (f : α → β) (entries : Entries α) (key : String) :
    List.lookup key (entries.map (fun e => (e.1, f e.2))) = (entries.lookup key).map f := by
  induction entries with
  | nil => rfl
  | cons e rest ih =>
      rw [List.map_cons, List.lookup_cons, List.lookup_cons, ih]
      cases key == e.1 <;> rfl

end Entries

end Stencil
