import Stencil.Value.Composition

/-!
# Reading YAML by way of trees

A document is read event by event, without a tree.  Where the events compose a tree, reading
them gives what the tree becomes: the same value, or the same first key that is not a scalar.
No other document is read.

**Results.**
* `FeedReader.node_of_composes`: what is read where a tree is composed.
* `FeedReader.readsComposed_node`: where a value is read, a tree of this value is composed.
* `Value.readYaml_of_holds`, `Value.exists_holds_of_readYaml`: both, for whole texts.
-/

namespace Stencil

/-! ## Steps that may fail -/

section

variable {ε α β : Type} {x : Except ε α} {b : β}

theorem bind_eq_ok_iff {f : α → Except ε β} :
    x.bind f = .ok b ↔ ∃ a, x = .ok a ∧ f a = .ok b := by
  cases x <;> simp [Except.bind]

theorem map_eq_ok_iff {f : α → β} : x.map f = .ok b ↔ ∃ a, x = .ok a ∧ f a = b := by
  cases x <;> simp [Except.map]

theorem bind_eq_error_iff {f : α → Except ε β} {e : ε} :
    x.bind f = .error e ↔ x = .error e ∨ ∃ a, x = .ok a ∧ f a = .error e := by
  cases x <;> simp [Except.bind]

theorem map_eq_error_iff {f : α → β} {e : ε} : x.map f = .error e ↔ x = .error e := by
  cases x <;> simp [Except.map]

theorem mapError_eq_ok_iff {ε' : Type} {a : α} {f : ε → ε'} :
    x.mapError f = .ok a ↔ x = .ok a := by
  cases x with
  | ok a' => exact ⟨by rintro ⟨⟩; rfl, by rintro ⟨⟩; rfl⟩
  | error e => exact ⟨by rintro ⟨⟩, by rintro ⟨⟩⟩

end

namespace Value

/-- The value of a scalar is one that a tree becomes. -/
theorem ofDatum_of_datum? {v : Value} {d : Datum} (h : v.datum? = some d) : ofDatum d = .ok v := by
  cases v <;> cases h <;> rfl

theorem isSome_datum?_ofUInt64 (n : UInt64) : (ofUInt64 n).datum?.isSome = true := by
  rw [ofUInt64]
  split <;> rfl

end Value

namespace Yaml

/-! ## Values of scalars -/

namespace Schema

theorem isSome_datum?_of_whole {cs : List Char} {v : Value} (h : whole cs = .value v) :
    v.datum?.isSome = true := by
  unfold whole at h
  split at h
  · cases h
  · split at h
    · cases h
      exact Value.isSome_datum?_ofUInt64 _
    · split at h <;> cases h
  · split at h
    · cases h
      rfl
    · split at h <;> cases h

theorem isSome_datum?_of_plain? {cs : List Char} {v : Value} (h : plain? cs = some v) :
    v.datum?.isSome = true := by
  unfold plain? at h
  split at h
  · cases h
    rfl
  · split at h
    · cases h
      rfl
    · split at h
      · next hwhole =>
          cases h
          exact isSome_datum?_of_whole hwhole
      · cases h
      · split at h <;> cases h <;> rfl

theorem isSome_datum?_of_tagged? {tag text : List Char} {isPlain : Bool} {v : Value}
    (h : tagged? tag text isPlain = some v) : v.datum?.isSome = true := by
  unfold tagged? at h
  split at h
  · obtain ⟨b, -, rfl⟩ := Option.map_eq_some_iff.1 h
    rfl
  split at h
  · split at h
    · next hwhole =>
        cases h
        exact isSome_datum?_of_whole hwhole
    · cases h
  split at h
  · obtain ⟨f, -, rfl⟩ := Option.map_eq_some_iff.1 h
    rfl
  split at h
  · split at h <;> cases h
    rfl
  split at h
  · exact isSome_datum?_of_plain? h
  · cases h
    rfl

/-- A scalar is the tree of its value, whatever its tag. -/
theorem exists_datum?_of_scalar? {tag : Option (List Char)} {text : List Char} {isPlain : Bool}
    {v : Value} (h : scalar? tag text isPlain = some v) : ∃ d, v.datum? = some d := by
  rw [← Option.isSome_iff_exists]
  unfold scalar? at h
  split at h
  · split at h
    · cases h
    · exact isSome_datum?_of_tagged? h
  · split at h
    · exact isSome_datum?_of_plain? h
    · cases h
      rfl

end Schema

/-! ## Anchors -/

theorem Event.ne_alias_of_anchor? {e : Event Nat} {n : Nat} (h : e.anchor? = some n) (m : Nat) :
    e ≠ .alias m := by
  rintro rfl
  cases h

/-! ## Readers -/

namespace FeedReader

section

variable {α β : Type} (s : Feed)

theorem bind_apply (x : FeedReader α) (f : α → FeedReader β) :
    (x >>= f) s = (x s).bind (fun p => f p.1 p.2) :=
  rfl

theorem pure_apply (a : α) : (pure a : FeedReader α) s = .ok (a, s) :=
  rfl

theorem get_apply : (get : FeedReader Feed) s = .ok (s, s) :=
  rfl

theorem throw_apply (e : YamlError) : (throw e : FeedReader α) s = .error e :=
  rfl

theorem goTo_apply (events : List (Event Nat)) :
    goTo events s = .ok ((), { s with events := events }) :=
  rfl

theorem map_apply (f : α → β) (x : FeedReader α) :
    (f <$> x) s = (x s).map (fun p => (f p.1, p.2)) := by
  have hmap : (f <$> x) s = (x s).bind (fun p => .ok (f p.1, p.2)) := rfl
  rw [hmap]
  cases x s <;> rfl

end

variable {document : List (Event Nat)} {depth fuel jumps : Nat} {s t : Feed}
  {rest : List (Event Nat)}

theorem items_succ {node : FeedReader Value} (h : ∀ rest, s.events ≠ .closeSequence :: rest) :
    items node (fuel + 1) s =
      (node s).bind (fun p => (items node fuel p.2).map (fun q => (p.1 :: q.1, q.2))) := by
  rw [items]
  simp only [bind_apply, get_apply, Except.bind, pure_apply]
  cases node s with
  | error e => rfl
  | ok p => cases items node fuel p.2 <;> rfl

theorem entries_succ {node : FeedReader Value} {before : Entries Value}
    (h : ∀ rest, s.events ≠ .closeMapping :: rest) :
    entries node (fuel + 1) before s =
      (node s).bind (fun p => (p.1.keyText.mapError .key).bind (fun text =>
        (node p.2).bind (fun q => entries node fuel (Entries.put text q.1 before) q.2))) := by
  rw [entries]
  simp only [bind_apply, get_apply, Except.bind]
  cases node s with
  | error e => rfl
  | ok p =>
      cases hkey : p.1.keyText with
      | error e =>
          simp only [hkey, throw_apply]
          rfl
      | ok text =>
          simp only [hkey, bind_apply]
          rfl

/-- Reads what an event begins, which no alias does, inside so many collections. -/
def contentAt (document : List (Event Nat)) : Nat → Event Nat → FeedReader Value
  | 0 => content refuse refuse
  | depth + 1 =>
      content (items (node document depth) (document.length + 1))
        (entries (node document depth) (document.length + 1) [])

theorem contentAt_scalar (p : Properties Nat) (text : List Char) (isPlain : Bool) :
    contentAt document depth (.scalar p text isPlain) s =
      match Schema.scalar? p.tag text isPlain with
      | some v => .ok (v, s)
      | none => .error .malformed := by
  cases depth <;> simp only [contentAt, content] <;>
    cases Schema.scalar? p.tag text isPlain <;> rfl

theorem untagged_eq_ok_iff {α : Type} {p : Properties Nat} {read : FeedReader α} {q : α × Feed} :
    untagged p read s = .ok q ↔ p.tag.any Schema.isLocal = false ∧ read s = .ok q := by
  rw [untagged]
  cases p.tag.any Schema.isLocal with
  | true =>
      constructor
      · rintro ⟨⟩
      · rintro ⟨⟨⟩, -⟩
  | false => exact ⟨fun h => ⟨rfl, h⟩, fun h => h.2⟩

theorem untagged_apply {α : Type} {p : Properties Nat} {read : FeedReader α}
    (h : p.tag.any Schema.isLocal = false) : untagged p read s = read s := by
  rw [untagged, h]
  rfl

theorem node_eq (document : List (Event Nat)) (depth : Nat) :
    node document depth = follow document (contentAt document depth) := by
  cases depth <;> rfl

theorem node_of_ne_alias {e : Event Nat} (he : ∀ n, e ≠ .alias n) :
    node document depth ⟨e :: rest, jumps⟩ = contentAt document depth e ⟨rest, jumps⟩ := by
  rw [node_eq]
  cases e with
  | «alias» n => exact absurd rfl (he n)
  | _ => rfl

/-- An alias is followed if that is still allowed; what comes after it is not lost. -/
theorem node_alias {n : Nat} {e : Event Nat} {es : List (Event Nat)}
    (hfound : Document.afterAnchor n document = e :: es) (he : ∀ n, e ≠ .alias n) :
    node document depth ⟨.alias n :: rest, jumps + 1⟩ =
      (node document depth ⟨e :: es, jumps⟩).map (fun p => (p.1, ⟨rest, p.2.jumps⟩)) := by
  rw [node_of_ne_alias he, node_eq, follow]
  have hjump : jump ⟨.alias n :: rest, jumps + 1⟩ = .ok ((), ⟨.alias n :: rest, jumps⟩) := rfl
  simp only [bind_apply, get_apply, Except.bind, hjump, hfound, goTo_apply]
  cases contentAt document depth e ⟨es, jumps⟩ <;> rfl

/-! ## What is read where a tree is composed -/

/-- What a reader gives that comes to `t` unless a key is refused. -/
def reached {α : Type} (t : Feed) : Except KeyError α → Except YamlError (α × Feed)
  | .ok a => .ok (a, t)
  | .error e => .error (.key e)

theorem map_reached {α β : Type} (f : α → β) (x : Except KeyError α) :
    (reached t x).map (fun p => (f p.1, p.2)) = reached t (x.map f) := by
  cases x <;> rfl

mutual

/-- **Where a tree is composed, its value is read**, or its first key that is no scalar is
refused. -/
theorem node_of_composes {depth : Nat} {s t : Feed} {d : Datum}
    (h : Composes document depth s d t) (hs : s.events.length ≤ document.length) :
    node document depth s = reached t (Value.ofDatum d) := by
  cases h with
  | scalar value leaf =>
      rw [node_of_ne_alias (by simp), contentAt_scalar, value, Value.ofDatum_of_datum? leaf]
      rfl
  | sequence untagged each =>
      -- there are fewer items than events, so that the fuel lasts
      have hlength := each.length_lt
      simp only [List.length_cons] at hs hlength
      have heach := items_of_composes each (Nat.le_of_succ_le hs) (document.length + 1)
        (by omega)
      rw [node_of_ne_alias (by simp), contentAt, content, untagged_apply untagged, map_apply,
        heach, map_reached, Value.ofDatum]
  | mapping untagged each =>
      have hlength := each.length_lt
      simp only [List.length_cons] at hs hlength
      have heach := entries_of_composes each (Nat.le_of_succ_le hs) (document.length + 1)
        (by omega) []
      rw [node_of_ne_alias (by simp), contentAt, content, untagged_apply untagged, map_apply,
        heach, map_reached, Value.ofDatum]
  | @followed _ jumps n rest anchored _ t found target =>
      have hsome : anchored ≠ [] := by
        have hlength := target.length_lt
        rintro rfl
        simp at hlength
      obtain ⟨e, es, hfound, hanchor, hlt⟩ := Document.exists_of_afterAnchor (found ▸ hsome)
      obtain rfl : anchored = e :: es := found.symm.trans hfound
      rw [node_alias hfound (Event.ne_alias_of_anchor? hanchor), node_of_composes target hlt]
      cases Value.ofDatum d <;> rfl
-- behind an alias the tree is the same, but one alias less may be followed
termination_by (sizeOf d, s.jumps)

theorem items_of_composes {depth : Nat} {s t : Feed} {ds : List Datum}
    (h : ComposesItems document depth s ds t) (hs : s.events.length ≤ document.length)
    (fuel : Nat) (hfuel : ds.length < fuel) :
    items (node document depth) fuel s = reached t (Value.ofItems ds) := by
  obtain ⟨fuel, rfl⟩ := Nat.exists_eq_succ_of_ne_zero (Nat.ne_zero_of_lt hfuel)
  cases h with
  | nil => rfl
  | @cons _ _ m _ d ds first rest =>
      have hm := first.length_lt
      have hfirst := node_of_composes first hs
      have hrest := items_of_composes rest (by omega) fuel (Nat.lt_of_succ_lt_succ hfuel)
      rw [items_succ first.ne_closeSequence, hfirst, Value.ofItems]
      cases Value.ofDatum d with
      | error e => rfl
      | ok v =>
          simp only [reached, Except.bind]
          rw [hrest]
          cases Value.ofItems ds <;> rfl
termination_by (sizeOf ds, s.jumps)

theorem entries_of_composes {depth : Nat} {s t : Feed} {members : List (Datum × Datum)}
    (h : ComposesMembers document depth s members t) (hs : s.events.length ≤ document.length)
    (fuel : Nat) (hfuel : members.length < fuel) (before : Entries Value) :
    entries (node document depth) fuel before s = reached t (Value.ofEntries before members) := by
  obtain ⟨fuel, rfl⟩ := Nat.exists_eq_succ_of_ne_zero (Nat.ne_zero_of_lt hfuel)
  cases h with
  | nil => rfl
  | @cons _ _ m m' _ k d members key value rest =>
      have hm := key.length_lt
      have hm' := value.length_lt
      have hkey := node_of_composes key hs
      have hvalue := node_of_composes value (by omega)
      have hrest := entries_of_composes rest (by omega) fuel (Nat.lt_of_succ_lt_succ hfuel)
      rw [entries_succ key.ne_closeMapping, hkey, Value.ofEntries]
      cases Value.ofDatum k with
      | error e => rfl
      | ok key =>
          cases htext : key.keyText with
          | error e =>
              simp only [reached, Except.bind, htext]
              rfl
          | ok text =>
              simp only [reached, Except.bind, htext]
              rw [hvalue]
              cases Value.ofDatum d with
              | error e => rfl
              | ok v => exact hrest (Entries.put text v before)
termination_by (sizeOf members, s.jumps)

end

/-! ## Trees of what is read -/

/-- Whether a reader reads only values of trees that are composed. -/
def ReadsComposed (document : List (Event Nat)) (depth : Nat) (node : FeedReader Value) : Prop :=
  ∀ ⦃s t : Feed⦄ ⦃v : Value⦄, node s = .ok (v, t) →
    ∃ d, Composes document depth s d t ∧ Value.ofDatum d = .ok v

theorem ReadsComposed.items {node : FeedReader Value} (hnode : ReadsComposed document depth node)
    {s t : Feed} {vs : List Value} (h : items node fuel s = .ok (vs, t)) :
    ∃ ds, ComposesItems document depth s ds t ∧ Value.ofItems ds = .ok vs := by
  induction fuel generalizing s vs with
  | zero => cases h
  | succ fuel ih =>
      by_cases hclosed : ∃ rest, s.events = .closeSequence :: rest
      · obtain ⟨rest, hrest⟩ := hclosed
        obtain ⟨events, jumps⟩ := s
        obtain rfl : events = .closeSequence :: rest := hrest
        cases h
        exact ⟨[], .nil, rfl⟩
      · rw [items_succ (fun rest hrest => hclosed ⟨rest, hrest⟩), bind_eq_ok_iff] at h
        obtain ⟨⟨v, m⟩, hfirst, hrest⟩ := h
        rw [map_eq_ok_iff] at hrest
        obtain ⟨⟨ws, m'⟩, hrest, hresult⟩ := hrest
        cases hresult
        obtain ⟨d, hd, hv⟩ := hnode hfirst
        obtain ⟨ds, hds, hws⟩ := ih hrest
        refine ⟨d :: ds, .cons hd hds, ?_⟩
        rw [Value.ofItems, hv, hws]
        rfl

theorem ReadsComposed.entries {node : FeedReader Value}
    (hnode : ReadsComposed document depth node) {before after : Entries Value} {s t : Feed}
    (h : entries node fuel before s = .ok (after, t)) :
    ∃ members, ComposesMembers document depth s members t ∧
      Value.ofEntries before members = .ok after := by
  induction fuel generalizing s before with
  | zero => cases h
  | succ fuel ih =>
      by_cases hclosed : ∃ rest, s.events = .closeMapping :: rest
      · obtain ⟨rest, hrest⟩ := hclosed
        obtain ⟨events, jumps⟩ := s
        obtain rfl : events = .closeMapping :: rest := hrest
        cases h
        exact ⟨[], .nil, rfl⟩
      · rw [entries_succ (fun rest hrest => hclosed ⟨rest, hrest⟩), bind_eq_ok_iff] at h
        obtain ⟨⟨key, m⟩, hfirst, h⟩ := h
        rw [bind_eq_ok_iff] at h
        obtain ⟨text, htext, h⟩ := h
        rw [bind_eq_ok_iff] at h
        obtain ⟨⟨v, m'⟩, hsecond, hrest⟩ := h
        obtain ⟨k, hk, hkey⟩ := hnode hfirst
        obtain ⟨d, hd, hv⟩ := hnode hsecond
        obtain ⟨members, hmembers, hafter⟩ := ih hrest
        refine ⟨(k, d) :: members, .cons hk hd hmembers, ?_⟩
        rw [Value.ofEntries, hkey]
        simp only [Except.bind, mapError_eq_ok_iff.1 htext, hv]
        exact hafter

/-- The nodes inside a collection are read with one collection less to be nested. -/
theorem exists_of_contentAt {e : Event Nat} {v : Value}
    (hinner : ∀ inner, depth = inner + 1 → ReadsComposed document inner (node document inner))
    (h : contentAt document depth e ⟨rest, jumps⟩ = .ok (v, t)) :
    ∃ d, Composes document depth ⟨e :: rest, jumps⟩ d t ∧ Value.ofDatum d = .ok v := by
  cases e with
  | scalar p text isPlain =>
      rw [contentAt_scalar] at h
      cases hscalar : Schema.scalar? p.tag text isPlain with
      | none =>
          rw [hscalar] at h
          cases h
      | some w =>
          rw [hscalar] at h
          cases h
          obtain ⟨d, hd⟩ := Schema.exists_datum?_of_scalar? hscalar
          exact ⟨d, .scalar hscalar hd, Value.ofDatum_of_datum? hd⟩
  | openSequence p =>
      cases depth with
      | zero => cases (untagged_eq_ok_iff.1 h).2
      | succ depth =>
          obtain ⟨huntagged, hread⟩ := untagged_eq_ok_iff.1 h
          rw [map_apply, map_eq_ok_iff] at hread
          obtain ⟨⟨vs, m⟩, hitems, hresult⟩ := hread
          cases hresult
          obtain ⟨ds, hds, hvs⟩ := (hinner depth rfl).items hitems
          refine ⟨.sequence ds, .sequence huntagged hds, ?_⟩
          rw [Value.ofDatum, hvs]
          rfl
  | openMapping p =>
      cases depth with
      | zero => cases (untagged_eq_ok_iff.1 h).2
      | succ depth =>
          obtain ⟨huntagged, hread⟩ := untagged_eq_ok_iff.1 h
          rw [map_apply, map_eq_ok_iff] at hread
          obtain ⟨⟨entries, m⟩, hentries, hresult⟩ := hread
          cases hresult
          obtain ⟨members, hmembers, hafter⟩ := (hinner depth rfl).entries hentries
          refine ⟨.mapping members, .mapping huntagged hmembers, ?_⟩
          rw [Value.ofDatum, hafter]
          rfl
  | «alias» n => cases depth <;> cases h
  | closeSequence => cases depth <;> cases h
  | closeMapping => cases depth <;> cases h

theorem readsComposed_node_of_inner
    (hinner : ∀ inner, depth = inner + 1 → ReadsComposed document inner (node document inner)) :
    ReadsComposed document depth (node document depth) := by
  intro s t v h
  obtain ⟨events, jumps⟩ := s
  cases events with
  | nil =>
      rw [node_eq] at h
      cases h
  | cons e rest =>
      by_cases halias : ∃ n, e = .alias n
      · obtain ⟨n, rfl⟩ := halias
        cases jumps with
        | zero =>
            rw [node_eq] at h
            cases h
        | succ jumps =>
            by_cases hfound : Document.afterAnchor n document = []
            · rw [node_eq, follow] at h
              simp only [bind_apply, get_apply, Except.bind, hfound] at h
              cases h
            · obtain ⟨e, es, hfound, hanchor, -⟩ := Document.exists_of_afterAnchor hfound
              have he := Event.ne_alias_of_anchor? hanchor
              rw [node_alias hfound he, node_of_ne_alias he, map_eq_ok_iff] at h
              obtain ⟨⟨w, m⟩, hread, hresult⟩ := h
              cases hresult
              obtain ⟨d, hd, hv⟩ := exists_of_contentAt hinner hread
              exact ⟨d, .followed hfound hd, hv⟩
      · rw [node_of_ne_alias (fun n hn => halias ⟨n, hn⟩)] at h
        exact exists_of_contentAt hinner h

/-- **Where a value is read, a tree of this value is composed.** -/
theorem readsComposed_node (document : List (Event Nat)) (depth : Nat) :
    ReadsComposed document depth (node document depth) := by
  induction depth with
  | zero => exact readsComposed_node_of_inner (fun inner h => by cases h)
  | succ depth ih =>
      refine readsComposed_node_of_inner (fun inner h => ?_)
      obtain rfl := Nat.succ.inj h
      exact ih

end FeedReader
end Yaml

/-! ## Texts -/

namespace Value

open Yaml FeedReader

theorem ofDocument_of_holds {document : Document} {d : Datum} (h : document.Holds d) :
    ofDocument document = (ofDatum d).mapError .key := by
  obtain ⟨hcomplete, ⟨hempty, rfl⟩ | ⟨t, hcomposes⟩⟩ := h
  · rw [ofDocument, hempty, hcomplete]
    rfl
  · have hnonempty : document.events.isEmpty = false := by
      have hlength := hcomposes.length_lt
      cases hevents : document.events with
      | nil => simp [hevents] at hlength
      | cons => rfl
    have hread := node_of_composes hcomposes (Nat.le_refl _)
    rw [ofDocument, hnonempty]
    simp only [StateT.run, hread, hcomplete]
    cases ofDatum d <;> rfl

theorem exists_holds_of_ofDocument {document : Document} {v : Value}
    (h : ofDocument document = .ok v) : ∃ d, document.Holds d ∧ ofDatum d = .ok v := by
  rw [ofDocument] at h
  split at h
  · next hempty =>
      cases h
      rw [Bool.and_eq_true, List.isEmpty_iff] at hempty
      exact ⟨.null, ⟨hempty.2, .inl ⟨hempty.1, rfl⟩⟩, rfl⟩
  · split at h
    · cases h
    · next p hread =>
        split at h
        · next hcomplete =>
            cases h
            obtain ⟨d, hd, hv⟩ := readsComposed_node _ _ hread
            exact ⟨d, ⟨hcomplete, .inr ⟨p.2, hd⟩⟩, hv⟩
        · cases h

/-- **A text that holds a tree is read as the tree**, to its value or to its first key that is no
scalar. -/
theorem readYaml_of_holds {text : String} {d : Datum} (h : (Document.ofText text).Holds d) :
    readYaml text = (ofDatum d).mapError (fun e => .yaml (.key e)) := by
  rw [readYaml, ofDocument_of_holds h]
  cases ofDatum d <;> rfl

/-- **Every text that is read holds a tree of the value.** -/
theorem exists_holds_of_readYaml {text : String} {v : Value} (h : readYaml text = .ok v) :
    ∃ d, (Document.ofText text).Holds d ∧ ofDatum d = .ok v := by
  rw [readYaml] at h
  split at h
  · next hread =>
      cases h
      exact exists_holds_of_ofDocument hread
  · cases h

end Value
end Stencil
