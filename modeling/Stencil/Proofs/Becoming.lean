import Stencil.Proofs.YamlLoading
import Stencil.Value.Alike
import Stencil.Value.Becoming
import Stencil.Value.Json

/-!
# How trees become values

A tree becomes a value unless one of its mappings has a key that is not a scalar, and then the
value is the one that the tree says.  In the value every mapping has each of its keys once, in
the order in which the texts of the keys first occur, with the last value under that text; the
same entries are made by collecting pairs and by putting them into a value one after the other.

**Results.**
* `ofDatum_eq_ok_iff`: the value of a tree.
* `exists_ofDatum_iff`: which trees become a value.
* `isAbout_of_ofDatum`: the error for any other tree.
* `keysDistinct_of_becomes`: the keys of every mapping in the value are distinct;
  `keysDistinct_of_readJson`, `keysDistinct_of_readYaml`: so they are in all that is read.
* `ofDatum_becomes`: all of this together, and the other ways to make a mapping.
-/

namespace Stencil

open Datum

/-- Whether an error is about a key of a mapping in a tree, and shows what the key is instead of
a scalar. -/
def KeyError.IsAbout (e : KeyError) (d : Datum) : Prop :=
  ∃ members k w v, Part (.mapping members) d ∧ (k, w) ∈ members ∧ Value.ofDatum k = .ok v ∧
    e.found = v.kind ∧ (v.kind = .sequence ∨ v.kind = .mapping)

namespace Value

/-! ## Keys -/

/-- The text of a key is that of the value it becomes, if it becomes one with a text. -/
theorem bind_keyText_eq_ok_iff (k : Datum) (text : String) :
    (ofDatum k).bind keyText = .ok text ↔ k.keyText? = some text := by
  cases k with
  | null => simp [ofDatum, Except.bind, keyText, keyText?]
  | bool b => cases b <;> simp [ofDatum, Except.bind, keyText, keyText?, boolText]
  | int n => simp [ofDatum, Except.bind, keyText, keyText?, toText?]
  | natural n =>
      rw [ofDatum, keyText?, ofUInt64]
      split <;> simp [Except.bind, keyText, toText?]
  | float f => simp [ofDatum, Except.bind, keyText, keyText?, toText?]
  | string s => simp [ofDatum, Except.bind, keyText, keyText?]
  | sequence items =>
      -- no text, whether the items become values or not
      rw [ofDatum]
      cases ofItems items <;> simp [Except.map, Except.bind, keyText, keyText?]
  | mapping entries =>
      rw [ofDatum]
      cases ofEntries [] entries <;> simp [Except.map, Except.bind, keyText, keyText?]

theorem exists_bind_keyText_iff (k : Datum) :
    (∃ text, (ofDatum k).bind keyText = .ok text) ↔ k.isScalar = true := by
  simp only [bind_keyText_eq_ok_iff, ← isSome_keyText?, Option.isSome_iff_exists]

/-- A member is put under the text of its key before the rest is read. -/
theorem ofEntries_cons_eq_ok_iff {k d : Datum} {members : List (Datum × Datum)}
    {before after : Entries Value} :
    ofEntries before ((k, d) :: members) = .ok after ↔
      ∃ text, (ofDatum k).bind keyText = .ok text ∧
        ∃ v, ofDatum d = .ok v ∧ ofEntries (Entries.put text v before) members = .ok after := by
  have hassoc : ofEntries before ((k, d) :: members) =
      ((ofDatum k).bind keyText).bind (fun text =>
        (ofDatum d).bind (fun v => ofEntries (Entries.put text v before) members)) := by
    rw [ofEntries]
    cases ofDatum k <;> rfl
  rw [hassoc]
  simp only [bind_eq_ok_iff]

/-! ## The value of a tree -/

theorem becomes_natural_iff (n : UInt64) (v : Value) :
    (Datum.natural n).Becomes v ↔ v = ofUInt64 n := by
  have hpow : Nat.pow 2 63 = 2 ^ 63 := rfl
  rw [ofUInt64]
  constructor
  · intro h
    cases h with
    | @small _ i hi =>
        have hlt := i.toInt_lt
        have hn : n.toNat < Nat.pow 2 63 := by omega
        rw [if_pos hn, Value.int.injEq, ← Int64.toInt_inj, Int64.toInt_ofNat_of_lt hn, hi]
    | large hle => rw [if_neg (Nat.not_lt.2 hle)]
  · rintro rfl
    split
    · next hlt => exact .small (Int64.toInt_ofNat_of_lt hlt)
    · next hle => exact .large (Nat.not_lt.1 hle)

mutual

theorem ofDatum_eq_ok_iff (d : Datum) (v : Value) : ofDatum d = .ok v ↔ d.Becomes v := by
  match d with
  | .null => exact ⟨by rintro ⟨⟩; exact .null, by rintro ⟨⟩; rfl⟩
  | .bool b => exact ⟨by rintro ⟨⟩; exact .bool b, by rintro ⟨⟩; rfl⟩
  | .int n => exact ⟨by rintro ⟨⟩; exact .int n, by rintro ⟨⟩; rfl⟩
  | .natural n =>
      rw [becomes_natural_iff, ofDatum, Except.ok.injEq]
      exact eq_comm
  | .float f => exact ⟨by rintro ⟨⟩; exact .float f, by rintro ⟨⟩; rfl⟩
  | .string s => exact ⟨by rintro ⟨⟩; exact .string s, by rintro ⟨⟩; rfl⟩
  | .sequence items =>
      rw [ofDatum, map_eq_ok_iff]
      constructor
      · rintro ⟨values, hvalues, rfl⟩
        exact .sequence ((ofItems_eq_ok_iff items values).1 hvalues)
      · intro h
        cases h with
        | sequence each => exact ⟨_, (ofItems_eq_ok_iff items _).2 each, rfl⟩
  | .mapping members =>
      rw [ofDatum, map_eq_ok_iff]
      constructor
      · rintro ⟨entries, hentries, rfl⟩
        obtain ⟨pairs, each, rfl⟩ := (ofEntries_eq_ok_iff members [] entries).1 hentries
        exact .mapping each (Entries.holds_ofPairs pairs)
      · intro h
        cases h with
        | mapping each holds =>
            exact ⟨_, (ofEntries_eq_ok_iff members [] _).2 ⟨_, each, holds.eq_ofPairs⟩, rfl⟩

theorem ofItems_eq_ok_iff (items : List Datum) (values : List Value) :
    ofItems items = .ok values ↔ ItemsBecome items values := by
  match items with
  | [] => exact ⟨by rintro ⟨⟩; exact .nil, by rintro ⟨⟩; rfl⟩
  | d :: items =>
      rw [ofItems, bind_eq_ok_iff]
      simp only [map_eq_ok_iff]
      constructor
      · rintro ⟨v, hv, values, hvalues, rfl⟩
        exact .cons ((ofDatum_eq_ok_iff d v).1 hv) ((ofItems_eq_ok_iff items values).1 hvalues)
      · intro h
        cases h with
        | cons first rest =>
            exact ⟨_, (ofDatum_eq_ok_iff d _).2 first, _, (ofItems_eq_ok_iff items _).2 rest, rfl⟩

/-- The entries before the members are part of the statement, since they are what the members
are put after. -/
theorem ofEntries_eq_ok_iff (members : List (Datum × Datum)) (before after : Entries Value) :
    ofEntries before members = .ok after ↔
      ∃ pairs, MembersBecome members pairs ∧
        after = pairs.foldl (fun entries p => Entries.put p.1 p.2 entries) before := by
  match members with
  | [] =>
      constructor
      · rintro ⟨⟩
        exact ⟨[], .nil, rfl⟩
      · rintro ⟨pairs, ⟨⟩, rfl⟩
        rfl
  | (k, d) :: members =>
      rw [ofEntries_cons_eq_ok_iff]
      constructor
      · rintro ⟨text, htext, v, hv, hrest⟩
        obtain ⟨pairs, each, rfl⟩ := (ofEntries_eq_ok_iff members _ after).1 hrest
        have hkey := (bind_keyText_eq_ok_iff k text).1 htext
        exact ⟨(text, v) :: pairs, .cons hkey ((ofDatum_eq_ok_iff d v).1 hv) each, rfl⟩
      · rintro ⟨pairs, each, rfl⟩
        cases each with
        | @cons _ _ text v _ pairs hkey hvalue hrest =>
            refine ⟨text, (bind_keyText_eq_ok_iff k text).2 hkey, v,
              (ofDatum_eq_ok_iff d v).2 hvalue, ?_⟩
            exact (ofEntries_eq_ok_iff members _ _).2 ⟨pairs, hrest, rfl⟩

end

/-! ## Which trees become values -/

mutual

/-- **A tree becomes a value just if the keys of all its mappings are scalars.** -/
theorem exists_ofDatum_iff (d : Datum) : (∃ v, ofDatum d = .ok v) ↔ d.HasScalarKeys := by
  match d with
  | .null | .bool _ | .int _ | .natural _ | .float _ | .string _ =>
      exact iff_of_true ⟨_, rfl⟩ (hasScalarKeys_of_isScalar rfl)
  | .sequence items =>
      rw [hasScalarKeys_sequence, ← exists_ofItems_iff items, ofDatum]
      simp only [map_eq_ok_iff]
      exact ⟨fun ⟨_, values, h, _⟩ => ⟨values, h⟩, fun ⟨values, h⟩ => ⟨_, values, h, rfl⟩⟩
  | .mapping members =>
      rw [hasScalarKeys_mapping, ← exists_ofEntries_iff members [], ofDatum]
      simp only [map_eq_ok_iff]
      exact ⟨fun ⟨_, entries, h, _⟩ => ⟨entries, h⟩, fun ⟨entries, h⟩ => ⟨_, entries, h, rfl⟩⟩

theorem exists_ofItems_iff (items : List Datum) :
    (∃ values, ofItems items = .ok values) ↔ ∀ d ∈ items, d.HasScalarKeys := by
  match items with
  | [] => simp [ofItems]
  | d :: items =>
      rw [List.forall_mem_cons, ← exists_ofDatum_iff d, ← exists_ofItems_iff items, ofItems]
      simp only [bind_eq_ok_iff, map_eq_ok_iff]
      constructor
      · rintro ⟨_, v, hv, values, hvalues, rfl⟩
        exact ⟨⟨v, hv⟩, values, hvalues⟩
      · rintro ⟨⟨v, hv⟩, values, hvalues⟩
        exact ⟨v :: values, v, hv, values, hvalues, rfl⟩

theorem exists_ofEntries_iff (members : List (Datum × Datum)) (before : Entries Value) :
    (∃ after, ofEntries before members = .ok after) ↔
      ∀ m ∈ members, m.1.isScalar = true ∧ m.2.HasScalarKeys := by
  match members with
  | [] => simp [ofEntries]
  | (k, d) :: members =>
      rw [List.forall_mem_cons, ← exists_bind_keyText_iff k, ← exists_ofDatum_iff d]
      simp only [ofEntries_cons_eq_ok_iff]
      constructor
      · rintro ⟨after, text, htext, v, hv, hrest⟩
        exact ⟨⟨⟨text, htext⟩, v, hv⟩, (exists_ofEntries_iff members _).1 ⟨after, hrest⟩⟩
      · rintro ⟨⟨⟨text, htext⟩, v, hv⟩, hmembers⟩
        have hrest := (exists_ofEntries_iff members (Entries.put text v before)).2 hmembers
        obtain ⟨after, hrest⟩ := hrest
        exact ⟨after, text, htext, v, hv, hrest⟩

end

mutual

/-- **The error for a tree that becomes no value is about one of its keys.** -/
theorem isAbout_of_ofDatum {d : Datum} {e : KeyError} (h : ofDatum d = .error e) :
    e.IsAbout d := by
  match d with
  | .null | .bool _ | .int _ | .natural _ | .float _ | .string _ => cases h
  | .sequence items =>
      rw [ofDatum, map_eq_error_iff] at h
      obtain ⟨d, hmem, members, k, w, v, hpart, hkey⟩ := exists_isAbout_of_ofItems h
      exact ⟨members, k, w, v, .item hmem hpart, hkey⟩
  | .mapping members =>
      rw [ofDatum, map_eq_error_iff] at h
      exact isAbout_of_ofEntries h (fun _ => id)

theorem exists_isAbout_of_ofItems {items : List Datum} {e : KeyError}
    (h : ofItems items = .error e) : ∃ d ∈ items, e.IsAbout d := by
  match items with
  | [] => cases h
  | d :: items =>
      rw [ofItems, bind_eq_error_iff] at h
      simp only [map_eq_error_iff] at h
      rcases h with h | ⟨v, _, h⟩
      · exact ⟨d, List.mem_cons_self, isAbout_of_ofDatum h⟩
      · obtain ⟨d', hmem, habout⟩ := exists_isAbout_of_ofItems h
        exact ⟨d', List.mem_cons_of_mem _ hmem, habout⟩

/-- The members that are left may be fewer than those of the mapping that the error is about. -/
theorem isAbout_of_ofEntries {all members : List (Datum × Datum)} {before : Entries Value}
    {e : KeyError} (h : ofEntries before members = .error e) (hall : ∀ m ∈ members, m ∈ all) :
    e.IsAbout (.mapping all) := by
  match members with
  | [] => cases h
  | (k, d) :: members =>
      have hmem : (k, d) ∈ all := hall _ List.mem_cons_self
      simp only [ofEntries, bind_eq_error_iff] at h
      rcases h with h | ⟨v, hv, h | ⟨text, _, h | ⟨w, _, h⟩⟩⟩
      · obtain ⟨members', k', w, v, hpart, hkey⟩ := isAbout_of_ofDatum h
        exact ⟨members', k', w, v, .key hmem hpart, hkey⟩
      · exact ⟨all, k, d, v, .self, hmem, hv, (keyText_eq_error_iff v e).1 h⟩
      · obtain ⟨members', k', w, v, hpart, hkey⟩ := isAbout_of_ofDatum h
        exact ⟨members', k', w, v, .value hmem hpart, hkey⟩
      · exact isAbout_of_ofEntries h (fun m hm => hall m (List.mem_cons_of_mem _ hm))

end

/-! ## Distinct keys -/

theorem entriesKeysDistinct_iff (entries : List (String × Value)) :
    entriesKeysDistinct entries ↔ ∀ p ∈ entries, p.2.KeysDistinct := by
  induction entries with
  | nil => simp [entriesKeysDistinct]
  | cons p entries ih => rw [entriesKeysDistinct, ih, List.forall_mem_cons]

mutual

theorem keysDistinct_of_becomes {d : Datum} {v : Value} (h : d.Becomes v) : v.KeysDistinct := by
  match h with
  | .null => trivial
  | .bool _ => trivial
  | .int _ => trivial
  | .small _ => trivial
  | .large _ => trivial
  | .float _ => trivial
  | .string _ => trivial
  | .sequence each => exact itemsKeysDistinct_of_become each
  | .mapping each holds =>
      -- pairs that are overwritten are not held, so that only one inclusion is at hand
      refine ⟨holds.nodup, (entriesKeysDistinct_iff _).2 (fun p hp => ?_)⟩
      exact pairsKeysDistinct_of_become each p (holds.mem hp)

theorem itemsKeysDistinct_of_become {items : List Datum} {values : List Value}
    (h : ItemsBecome items values) : itemsKeysDistinct values := by
  match h with
  | .nil => trivial
  | .cons first rest => exact ⟨keysDistinct_of_becomes first, itemsKeysDistinct_of_become rest⟩

theorem pairsKeysDistinct_of_become {members : List (Datum × Datum)}
    {pairs : List (String × Value)} (h : MembersBecome members pairs) :
    ∀ p ∈ pairs, p.2.KeysDistinct := by
  match h with
  | .nil => simp
  | .cons _ value rest =>
      have hvalue := keysDistinct_of_becomes value
      exact List.forall_mem_cons.2 ⟨hvalue, pairsKeysDistinct_of_become rest⟩

end

/-- Whatever is read from JSON has distinct keys. -/
theorem keysDistinct_of_readJson {text : String} {v : Value} (h : readJson text = .ok v) :
    v.KeysDistinct := by
  rw [readJson] at h
  split at h
  · cases h
  · split at h
    · next hread =>
        cases h
        exact keysDistinct_of_becomes ((ofDatum_eq_ok_iff _ v).1 hread)
    · cases h

/-- Whatever is read from YAML has distinct keys. -/
theorem keysDistinct_of_readYaml {text : String} {v : Value} (h : readYaml text = .ok v) :
    v.KeysDistinct := by
  obtain ⟨d, -, hd⟩ := exists_holds_of_readYaml h
  exact keysDistinct_of_becomes ((ofDatum_eq_ok_iff d v).1 hd)

/-! ## All ways to make a mapping -/

/-- **A tree becomes a value just if the keys of all its mappings are scalars**, and then the
value that it says, in which the keys of every mapping are distinct; a text of YAML that holds
the tree is read as this value.  Whatever the pairs of a text and a value, there are entries that
hold them, and these entries are made by collecting the pairs, by putting them into the empty
mapping, by putting one or more of them into anything but a mapping, and by a tree whose members
become the pairs. -/
theorem ofDatum_becomes (d : Datum) (pairs : List (String × Value)) :
    ((∃ v, ofDatum d = .ok v) ↔ d.HasScalarKeys) ∧
      (∀ v, ofDatum d = .ok v ↔ d.Becomes v) ∧
      (∀ v, ofDatum d = .ok v → v.KeysDistinct) ∧
      (∀ text, (Yaml.Document.ofText text).Holds d →
        ∀ v, readYaml text = .ok v ↔ d.Becomes v) ∧
      ∃ entries : Entries Value, entries.Holds pairs ∧
        ofPairs pairs = mapping entries ∧
        (mapping []).insertAll pairs = mapping entries ∧
        (∀ start : Value, start.kind ≠ .mapping → pairs ≠ [] →
          start.insertAll pairs = mapping entries) ∧
        ∀ members, MembersBecome members pairs →
          ofDatum (.mapping members) = .ok (mapping entries) := by
  have holds := Entries.holds_ofPairs pairs
  refine ⟨exists_ofDatum_iff d, ofDatum_eq_ok_iff d, fun v hv => ?_, fun text htext v => ?_,
    Entries.ofPairs pairs, holds, rfl, insertAll_mapping [] pairs, fun start hstart hpairs => ?_,
    fun members each => ?_⟩
  · exact keysDistinct_of_becomes ((ofDatum_eq_ok_iff d v).1 hv)
  · rw [readYaml_of_holds htext, mapError_eq_ok_iff, ofDatum_eq_ok_iff]
  · exact insertAll_of_ne_mapping hstart hpairs
  · exact (ofDatum_eq_ok_iff _ _).2 (.mapping each holds)

/-- An int and a string with the same text as keys: the place is that of the first one, the value
that of the second. -/
theorem ofDatum_becomes_collapsed :
    let members : List (Datum × Datum) :=
      [(.int 1, .string "a"), (.null, .int 7), (.string "1", .sequence [.bool true])]
    let pairs := [("1", string "a"), ("null", int 7), ("1", sequence [bool true])]
    let entries := [("1", sequence [bool true]), ("null", int 7)]
    MembersBecome members pairs ∧ pairs ≠ [] ∧ (string "start").kind ≠ .mapping ∧
      (Yaml.Document.ofText "\x7b1: a, ~: 7, '1': [true]\x7d").Holds (.mapping members) ∧
      ofDatum (.mapping members) = .ok (mapping entries) ∧ (mapping entries).KeysDistinct ∧
      readYaml "\x7b1: a, ~: 7, '1': [true]\x7d" = .ok (mapping entries) ∧
      (string "start").insertAll pairs = mapping entries := by
  intro members pairs entries
  obtain ⟨-, hbecomes, hkeys, hyaml, held, -, hpairs, -, hstart, hmembers⟩ :=
    ofDatum_becomes (.mapping members) pairs
  have heach : MembersBecome members pairs :=
    .cons rfl (.string "a") (.cons rfl (.int 7)
      (.cons rfl (.sequence (.cons (.bool true) .nil)) .nil))
  have hentries : mapping held = mapping entries := hpairs.symm
  rw [hentries] at hstart hmembers
  have hdatum := hmembers members heach
  have hholds :
      (Yaml.Document.ofText "\x7b1: a, ~: 7, '1': [true]\x7d").Holds (.mapping members) := by
    refine ⟨rfl, .inr ⟨⟨[], 1000⟩, ?_⟩⟩
    exact .mapping rfl (.cons (.scalar rfl rfl) (.scalar rfl rfl)
      (.cons (.scalar rfl rfl) (.scalar rfl rfl)
        (.cons (.scalar rfl rfl) (.sequence rfl (.cons (.scalar rfl rfl) .nil)) .nil)))
  have hread := (hyaml _ hholds _).2 ((hbecomes _).1 hdatum)
  exact ⟨heach, by decide, by decide, hholds, hdatum, hkeys _ hdatum, hread,
    hstart _ (by decide) (by decide)⟩

end Value
end Stencil
