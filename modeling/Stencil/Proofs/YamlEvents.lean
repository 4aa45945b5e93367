import Stencil.Yaml.Document

/-!
# Documents are well nested

Events are read by a stack of expectations.  A step either takes a token or replaces what is
expected by something that comes to less, so the steps are as many as the tokens allow and no
bound on them is ever met.

What the events of a complete text say is one tree: each beginning of a collection has its end,
and a mapping has a value for each key.  An alias has an anchor before it.

**Results.**
* `run_fuel`: with as many steps as the tokens allow, reading does not depend on their number.
* `allGive_of_run`: what is read is what was expected.
* `Document.isNode_of_isComplete`: a complete document is empty or a single node.
* `Document.exists_anchor_before`: an anchor stands before each of its aliases.
* `Document.exists_afterAnchor_of_alias`: an alias always leads to a node.
-/

namespace Stencil
namespace Yaml

/-! ## Nesting -/

/-- What an event says about nesting. -/
inductive Form where
  | leaf
  | openSequence
  | closeSequence
  | openMapping
  | closeMapping

def Event.form {α : Type} : Event α → Form
  | .alias _ => .leaf
  | .scalar _ _ _ => .leaf
  | .openSequence _ => .openSequence
  | .closeSequence => .closeSequence
  | .openMapping _ => .openMapping
  | .closeMapping => .closeMapping

mutual

/-- The forms of one node. -/
inductive IsNode : List Form → Prop where
  | leaf : IsNode [.leaf]
  | sequence {es : List Form} (each : IsItems es) : IsNode (.openSequence :: es)
  | mapping {es : List Form} (each : IsMembers es) : IsNode (.openMapping :: es)

/-- The forms of the items of a sequence, up to its end. -/
inductive IsItems : List Form → Prop where
  | nil : IsItems [.closeSequence]
  | cons {a es : List Form} (first : IsNode a) (rest : IsItems es) : IsItems (a ++ es)

/-- The forms of the keys and values of a mapping, up to its end. -/
inductive IsMembers : List Form → Prop where
  | nil : IsMembers [.closeMapping]
  | cons {a b es : List Form} (key : IsNode a) (value : IsNode b) (rest : IsMembers es) :
      IsMembers (a ++ (b ++ es))

end

/-! ## What is expected -/

/-- A node and then something else. -/
def NodeThen (Rest : List Form → Prop) (es : List Form) : Prop :=
  ∃ a b, IsNode a ∧ Rest b ∧ es = a ++ b

theorem isItems_of_nodeThen (forms : List Form) (h : NodeThen IsItems forms) : IsItems forms := by
  obtain ⟨a, rest, ha, hrest, rfl⟩ := h
  exact .cons ha hrest

theorem isMembers_of_nodeThen (forms : List Form) (h : NodeThen (NodeThen IsMembers) forms) :
    IsMembers forms := by
  obtain ⟨k, _, hk, ⟨v, rest, hv, hrest, rfl⟩, rfl⟩ := h
  exact .cons hk hv hrest

/-- The forms of what is expected. -/
def Expected.Gives : Expected → List Form → Prop
  | .node _ _ => IsNode
  | .blockEntry => IsItems
  | .looseEntry => IsItems
  | .flowEntry _ => IsItems
  | .blockKey => IsMembers
  | .flowKey _ => IsMembers
  | .blockValue => NodeThen IsMembers
  | .flowValue => NodeThen IsMembers
  | .noValue => NodeThen IsMembers
  | .pairKey => NodeThen (NodeThen (· = [.closeMapping]))
  | .pairValue => NodeThen (· = [.closeMapping])
  | .pairEnd => (· = [.closeMapping])

/-- The forms of what is expected, one after the other. -/
def AllGive : List Expected → List Form → Prop
  | [], forms => forms = []
  | e :: es, forms => ∃ a b, e.Gives a ∧ AllGive es b ∧ forms = a ++ b

theorem allGive_append (es fs : List Expected) (forms : List Form) :
    AllGive (es ++ fs) forms ↔ ∃ a b, AllGive es a ∧ AllGive fs b ∧ forms = a ++ b := by
  induction es generalizing forms with
  | nil => simp [AllGive]
  | cons e es ih =>
      simp only [List.cons_append, AllGive, ih]
      constructor
      · rintro ⟨a, _, ha, ⟨b, c, hb, hc, rfl⟩, rfl⟩
        exact ⟨a ++ b, c, ⟨a, b, ha, hb, rfl⟩, hc, by simp⟩
      · rintro ⟨_, c, ⟨a, b, ha, hb, rfl⟩, hc, rfl⟩
        exact ⟨a, b ++ c, ha, ⟨b, c, hb, hc, rfl⟩, by simp⟩

theorem allGive_singleton {e : Expected} {forms : List Form} :
    AllGive [e] forms ↔ e.Gives forms := by
  simp [AllGive]

theorem allGive_pair {e f : Expected} {forms : List Form} :
    AllGive [e, f] forms ↔ ∃ a b, e.Gives a ∧ f.Gives b ∧ forms = a ++ b := by
  simp [AllGive]

/-- How many steps an expectation can take without a token. -/
def Expected.weight : Expected → Nat
  | .node _ _ => 2
  | .blockEntry => 1
  | .looseEntry => 1
  | .blockKey => 1
  | .blockValue => 2
  | .flowEntry isFirst => if isFirst then 4 else 1
  | .pairKey => 5
  | .pairValue => 2
  | .pairEnd => 1
  | .flowKey isFirst => if isFirst then 5 else 1
  | .flowValue => 2
  | .noValue => 2

theorem Expected.weight_pos (e : Expected) : 0 < e.weight := by
  cases e with
  | flowEntry isFirst => cases isFirst <;> simp [weight]
  | flowKey isFirst => cases isFirst <;> simp [weight]
  | _ => simp [weight]

/-- How many steps all that is expected can take without a token. -/
def weights : List Expected → Nat
  | [] => 0
  | e :: es => e.weight + weights es

theorem weights_append (es fs : List Expected) : weights (es ++ fs) = weights es + weights fs := by
  induction es with
  | nil => simp [weights]
  | cons e es ih => rw [List.cons_append, weights, weights, ih, Nat.add_assoc]

/-- How many steps can be taken: four for each token, and those without one. -/
def stepBound (es : List Expected) (ts : List Token) : Nat :=
  4 * ts.length + weights es

/-! ## Steps -/

/-- Whether a step leaves fewer steps than a bound, and completes events of some forms. -/
structure Step.Fits (s : Step) (bound : Nat) (Gives : List Form → Prop) : Prop where
  stepBound_lt : stepBound s.next s.rest < bound
  gives : ∀ forms, AllGive s.next forms → Gives (s.event.toList.map Event.form ++ forms)

variable {ts : List Token} {s : Step}

theorem Step.Fits.of_le {bound bound' : Nat} {Gives : List Form → Prop} (h : s.Fits bound Gives)
    (hle : bound ≤ bound') : s.Fits bound' Gives :=
  ⟨Nat.lt_of_lt_of_le h.stepBound_lt hle, h.gives⟩

theorem Step.Fits.imp {bound : Nat} {Gives Gives' : List Form → Prop} (h : s.Fits bound Gives)
    (himp : ∀ forms, Gives forms → Gives' forms) : s.Fits bound Gives' :=
  ⟨h.stepBound_lt, fun forms hforms => himp _ (h.gives forms hforms)⟩

theorem fits_last {e : Event Name} {Gives : List Form → Prop} (he : Gives [e.form]) {bound : Nat}
    (hlt : 4 * ts.length < bound) : Step.Fits ⟨some e, [], ts⟩ bound Gives := by
  refine ⟨by simpa [stepBound, weights] using hlt, fun forms hforms => ?_⟩
  cases hforms
  exact he

theorem fits_last_cons {e : Event Name} {Gives : List Form → Prop} (he : Gives [e.form])
    (t : Token) (weight : Nat) :
    Step.Fits ⟨some e, [], ts⟩ (4 * (t :: ts).length + weight) Gives :=
  fits_last he (by rw [List.length_cons]; omega)

/-- The beginning of a sequence is a node together with its items. -/
theorem fits_openSequence (p : Properties Name) {rest : Expected} (hrest : rest.Gives = IsItems)
    {bound : Nat} (hlt : 4 * ts.length + rest.weight < bound) :
    Step.Fits ⟨some (.openSequence p), [rest], ts⟩ bound IsNode := by
  refine ⟨by simpa [stepBound, weights] using hlt, fun forms hforms => ?_⟩
  have hitems := allGive_singleton.1 hforms
  rw [hrest] at hitems
  exact .sequence hitems

/-- The beginning of a mapping is a node together with its members. -/
theorem fits_openMapping (p : Properties Name) {rest : Expected} (hrest : rest.Gives = IsMembers)
    {bound : Nat} (hlt : 4 * ts.length + rest.weight < bound) :
    Step.Fits ⟨some (.openMapping p), [rest], ts⟩ bound IsNode := by
  refine ⟨by simpa [stepBound, weights] using hlt, fun forms hforms => ?_⟩
  have hmembers := allGive_singleton.1 hforms
  rw [hrest] at hmembers
  exact .mapping hmembers

theorem fits_emptyThen {next : Expected} {bound : Nat} (hlt : 4 * ts.length + next.weight < bound) :
    Step.Fits ⟨some .empty, [next], ts⟩ bound (NodeThen next.Gives) :=
  ⟨by simpa [stepBound, weights] using hlt,
    fun forms hforms => ⟨[.leaf], forms, .leaf, allGive_singleton.1 hforms, rfl⟩⟩

theorem fits_nodeThen {isBlock allowsEntries : Bool} {next : Expected} {bound : Nat}
    (hlt : 4 * ts.length + next.weight + 2 < bound) :
    Step.Fits ⟨none, [.node isBlock allowsEntries, next], ts⟩ bound (NodeThen next.Gives) := by
  refine ⟨?_, fun forms hforms => allGive_pair.1 hforms⟩
  have hbound : stepBound [.node isBlock allowsEntries, next] ts =
      4 * ts.length + (2 + next.weight) := rfl
  rw [hbound]
  omega

/-- After a token, a node is read or left out, and then something else is expected. -/
theorem fits_nodeUnless {stops : List Token} {isBlock allowsEntries : Bool} {next : Expected}
    (h : nodeUnless stops (.node isBlock allowsEntries) next ts = some s) (t : Token)
    {weight : Nat} (hle : next.weight ≤ weight + 1) :
    s.Fits (4 * (t :: ts).length + weight) (NodeThen next.Gives) := by
  have hlength : (t :: ts).length = ts.length + 1 := List.length_cons
  cases ts with
  | nil => cases h
  | cons u us =>
      rw [nodeUnless] at h
      split at h
      · cases h
        exact fits_emptyThen (by omega)
      · cases h
        exact fits_nodeThen (by omega)

theorem fits_leaveOut {next : Expected} (h : leaveOut next ts = some s) :
    s.Fits (4 * ts.length + next.weight + 1) (NodeThen next.Gives) := by
  cases ts with
  | nil => cases h
  | cons t ts =>
      cases h
      exact fits_emptyThen (Nat.lt_succ_self _)

theorem length_le_of_properties? {handles : Handles} {p : Properties Name} {rest : List Token}
    (h : properties? handles ts = some (p, rest)) : rest.length ≤ ts.length := by
  unfold properties? at h
  split at h
  · obtain ⟨_, _, heq⟩ := Option.map_eq_some_iff.1 h
    cases heq
    exact Nat.le_add_right _ 2
  · obtain ⟨_, _, heq⟩ := Option.map_eq_some_iff.1 h
    cases heq
    exact Nat.le_add_right _ 2
  · cases h
    exact Nat.le_succ _
  · obtain ⟨_, _, heq⟩ := Option.map_eq_some_iff.1 h
    cases heq
    exact Nat.le_succ _
  · cases h
    exact Nat.le_refl _

theorem fits_content? {isBlock allowsEntries : Bool} {p : Properties Name}
    (h : content? isBlock allowsEntries p ts = some s) : s.Fits (4 * ts.length + 2) IsNode := by
  have hentries : Expected.looseEntry.weight = 1 ∧ Expected.blockEntry.weight = 1 := ⟨rfl, rfl⟩
  have hkeys : Expected.blockKey.weight = 1 ∧ (Expected.flowKey true).weight = 5 := ⟨rfl, rfl⟩
  have hflow : (Expected.flowEntry true).weight = 4 := rfl
  unfold content? at h
  split at h
  · cases h
    exact fits_last_cons .leaf _ 2
  · cases h
    exact fits_openSequence p rfl (by rw [List.length_cons]; omega)
  · cases h
    exact fits_openMapping p rfl (by rw [List.length_cons]; omega)
  · split at h
    · cases h
      exact fits_openSequence p rfl (by omega)
    split at h
    · cases h
      exact fits_openSequence p rfl (by rw [List.length_cons]; omega)
    split at h
    · cases h
      exact fits_openMapping p rfl (by rw [List.length_cons]; omega)
    split at h
    · cases h
    · cases h
      exact fits_last .leaf (by omega)
  · cases h

theorem fits_node? {handles : Handles} {isBlock allowsEntries : Bool}
    (h : node? handles isBlock allowsEntries ts = some s) :
    s.Fits (4 * ts.length + 2) IsNode := by
  unfold node? at h
  split at h
  · cases h
    exact fits_last_cons .leaf _ 2
  · obtain ⟨⟨p, rest⟩, hp, hcontent⟩ := Option.bind_eq_some_iff.1 h
    have hlength : rest.length ≤ ts.length := length_le_of_properties? hp
    exact (fits_content? hcontent).of_le (by simp only; omega)

/-- What is left after a comma, unless there is none because the collection begins or ends. -/
theorem skipComma?_cases {isFirst : Bool} {close : Token} {rest : List Token}
    (h : skipComma? isFirst close ts = some rest) :
    rest = ts ∧ (isFirst = true ∨ rest.head? = some close) ∨ ts = .flowEntry :: rest := by
  cases ts with
  | nil => cases h
  | cons t ts =>
      rw [skipComma?] at h
      split at h
      · next hor =>
          cases h
          exact .inl ⟨rfl, hor.imp_right (fun heq => by rw [heq]; rfl)⟩
      split at h
      · next heq =>
          cases h
          exact .inr (by rw [heq])
      · cases h

theorem fits_flowEntry (h : flowEntry? ts = some s) : s.Fits (4 * ts.length + 4) IsItems := by
  unfold flowEntry? at h
  split at h
  · cases h
    exact fits_last_cons .nil _ 4
  · next us =>
      cases h
      refine ⟨?_, fun forms hforms => ?_⟩
      · have hbound : stepBound [.pairKey, .flowEntry false] us = 4 * us.length + 6 := rfl
        rw [hbound, List.length_cons]
        omega
      obtain ⟨_, items, ⟨k, _, hk, ⟨v, _, hv, rfl, rfl⟩, rfl⟩, hitems, rfl⟩ :=
        allGive_pair.1 hforms
      -- a single pair is a mapping of its own
      have hpair : IsNode (.openMapping :: (k ++ (v ++ [.closeMapping]))) :=
        .mapping (.cons hk hv .nil)
      exact (IsItems.cons hpair hitems :)
  · cases h
  · cases h
    exact (fits_nodeThen (Nat.lt_succ_self _)).imp isItems_of_nodeThen

theorem fits_flowKey? (h : flowKey? ts = some s) : s.Fits (4 * ts.length + 5) IsMembers := by
  unfold flowKey? at h
  split at h
  · cases h
    exact fits_last_cons .nil _ 5
  · exact (fits_nodeUnless h _ (by decide)).imp isMembers_of_nodeThen
  · cases h
  · cases h
    exact (fits_nodeThen (Nat.lt_succ_self _)).imp isMembers_of_nodeThen

/-- **Every step fits what was expected.** -/
theorem fits_step? {handles : Handles} {e : Expected} (h : step? handles e ts = some s) :
    s.Fits (4 * ts.length + e.weight) e.Gives := by
  cases e with
  | node isBlock allowsEntries => exact fits_node? h
  | blockEntry =>
      unfold step? at h
      split at h <;> try contradiction
      · exact (fits_nodeUnless h _ (by decide)).imp isItems_of_nodeThen
      · cases h
        exact fits_last_cons .nil _ _
  | looseEntry =>
      unfold step? at h
      split at h <;> try contradiction
      · exact (fits_nodeUnless h _ (by decide)).imp isItems_of_nodeThen
      · cases h
        exact fits_last .nil (Nat.lt_succ_self _)
  | blockKey =>
      unfold step? at h
      split at h <;> try contradiction
      · exact (fits_nodeUnless h _ (by decide)).imp isMembers_of_nodeThen
      · cases h
        exact fits_last_cons .nil _ _
  | blockValue =>
      unfold step? at h
      split at h <;> try contradiction
      · exact fits_nodeUnless h _ (by decide)
      · exact fits_leaveOut h
  | flowEntry isFirst =>
      obtain ⟨us, hus, hentry⟩ := Option.bind_eq_some_iff.1 h
      rcases skipComma?_cases hus with ⟨rfl, rfl | hclose⟩ | rfl
      · exact fits_flowEntry hentry
      · obtain ⟨rest, rfl⟩ := List.head?_eq_some_iff.1 hclose
        cases hentry
        exact fits_last_cons .nil _ _
      · exact (fits_flowEntry hentry).of_le (by rw [List.length_cons]; omega)
  | pairKey =>
      unfold step? at h
      split at h <;> try contradiction
      split at h
      · cases h
        refine fits_emptyThen ?_
        have hlt : Expected.pairValue.weight < Expected.pairKey.weight := by decide
        rw [List.length_cons]
        omega
      · cases h
        exact fits_nodeThen (Nat.lt_succ_self _)
  | pairValue =>
      unfold step? at h
      split at h <;> try contradiction
      · exact fits_nodeUnless h _ (by decide)
      · exact fits_leaveOut h
  | pairEnd =>
      cases h
      refine ⟨Nat.lt_succ_self _, fun forms hforms => ?_⟩
      cases hforms
      rfl
  | flowKey isFirst =>
      obtain ⟨us, hus, hkey⟩ := Option.bind_eq_some_iff.1 h
      rcases skipComma?_cases hus with ⟨rfl, rfl | hclose⟩ | rfl
      · exact fits_flowKey? hkey
      · obtain ⟨rest, rfl⟩ := List.head?_eq_some_iff.1 hclose
        cases hkey
        exact fits_last_cons .nil _ _
      · have hpos := (Expected.flowKey isFirst).weight_pos
        exact (fits_flowKey? hkey).of_le (by rw [List.length_cons]; omega)
  | flowValue =>
      unfold step? at h
      split at h <;> try contradiction
      · exact fits_nodeUnless h _ (by decide)
      · exact fits_leaveOut h
  | noValue => exact fits_leaveOut h

theorem stepBound_lt_of_step? {handles : Handles} {e : Expected} (es : List Expected)
    (h : step? handles e ts = some s) :
    stepBound (s.next ++ es) s.rest < stepBound (e :: es) ts := by
  have hlt := (fits_step? h).stepBound_lt
  rw [stepBound] at hlt
  rw [stepBound, stepBound, weights_append, weights]
  omega

/-! ## Runs -/

section

variable (handles : Handles)

theorem run_nil (fuel : Nat) (ts : List Token) : run handles fuel [] ts = ⟨[], some ts⟩ := by
  cases fuel <;> rfl

/-- **With as many steps as the tokens allow, reading does not depend on their number.** -/
theorem run_fuel {fuel fuel' : Nat} {es : List Expected} {ts : List Token}
    (h : stepBound es ts ≤ fuel) (h' : stepBound es ts ≤ fuel') :
    run handles fuel es ts = run handles fuel' es ts := by
  induction fuel generalizing fuel' es ts with
  | zero =>
      cases es with
      | nil => rw [run_nil, run_nil]
      | cons e es =>
          have hpos := e.weight_pos
          rw [stepBound, weights] at h
          omega
  | succ fuel ih =>
      cases es with
      | nil => rw [run_nil, run_nil]
      | cons e es =>
          cases fuel' with
          | zero =>
              have hpos := e.weight_pos
              rw [stepBound, weights] at h'
              omega
          | succ fuel' =>
              rw [run, run]
              cases hstep : step? handles e ts with
              | none => rfl
              | some s =>
                  have hlt := stepBound_lt_of_step? es hstep
                  have hnext : run handles fuel (s.next ++ es) s.rest =
                      run handles fuel' (s.next ++ es) s.rest := ih (by omega) (by omega)
                  simp only [hnext]

theorem readTop_eq_run {fuel : Nat} {ts : List Token} (h : 4 * ts.length + 2 ≤ fuel) :
    readTop handles ts = run handles fuel [.node true false] ts := by
  have hbound : stepBound [.node true false] ts = 4 * ts.length + 2 := rfl
  exact run_fuel handles (by omega) (by omega)

/-- **What is read is what was expected.** -/
theorem allGive_of_run {fuel : Nat} {es : List Expected} {ts rest : List Token}
    (h : (run handles fuel es ts).rest = some rest) :
    AllGive es ((run handles fuel es ts).events.map Event.form) := by
  induction fuel generalizing es ts with
  | zero =>
      cases es with
      | nil => rfl
      | cons e es => cases h
  | succ fuel ih =>
      cases es with
      | nil => rfl
      | cons e es =>
          rw [run] at h ⊢
          cases hstep : step? handles e ts with
          | none =>
              rw [hstep] at h
              cases h
          | some s =>
              rw [hstep] at h
              obtain ⟨a, b, ha, hb, heq⟩ := (allGive_append _ _ _).1 (ih h)
              refine ⟨_, b, (fits_step? hstep).gives a ha, hb, ?_⟩
              simp [heq]

theorem isNode_readTop {ts rest : List Token} (h : (readTop handles ts).rest = some rest) :
    IsNode ((readTop handles ts).events.map Event.form) :=
  allGive_singleton.1 (allGive_of_run handles h)

end

/-! ## Documents -/

namespace Document

variable {handles : Handles} {ts rest : List Token}

theorem isNode_readMarked (h : (readMarked handles ts).rest = some rest) :
    IsNode ((readMarked handles ts).events.map Event.form) := by
  cases ts with
  | nil => cases h
  | cons t ts =>
      rw [readMarked] at h ⊢
      by_cases hboundary : isBoundary t = true
      · rw [if_pos hboundary]
        exact .leaf
      · rw [if_neg hboundary] at h ⊢
        exact isNode_readTop handles h

theorem isNode_readFirst (h : (readFirst ts).rest = some rest) :
    IsNode ((readFirst ts).events.map Event.form) := by
  revert h
  unfold readFirst
  split
  · rintro ⟨⟩
  · split
    · split
      · exact isNode_readMarked
      · rintro ⟨⟩
    · exact isNode_readTop defaultHandles

theorem form_of_number? {names names' : Numbering} {e : Event Name} {n : Event Nat}
    (h : names.number? e = some (n, names')) : n.form = e.form := by
  cases e with
  | «alias» a =>
      obtain ⟨_, _, heq⟩ := Option.map_eq_some_iff.1 h
      cases heq
      rfl
  | _ =>
      cases h
      rfl

/-- Numbering anchors does not change how events are nested. -/
theorem map_form_number {names : Numbering} {es : List (Event Name)}
    (h : (number names es).2 = true) : (number names es).1.map Event.form = es.map Event.form := by
  induction es generalizing names with
  | nil => rfl
  | cons e es ih =>
      rw [number] at h ⊢
      cases hnumber : names.number? e with
      | none =>
          rw [hnumber] at h
          cases h
      | some p =>
          rw [hnumber] at h
          simp [form_of_number? hnumber, ih h]

/-- **A complete document is empty or a single node.** -/
theorem isNode_of_isComplete (h : (ofTokens ts).isComplete = true) :
    (ofTokens ts).events = [] ∨ IsNode ((ofTokens ts).events.map Event.form) := by
  rw [ofTokens] at h ⊢
  by_cases hend : ts.head? = some .streamEnd
  · rw [if_pos hend]
    exact .inl rfl
  · rw [if_neg hend] at h ⊢
    obtain ⟨hnumber, hany⟩ := Bool.and_eq_true_iff.1 h
    right
    rw [map_form_number hnumber]
    cases hrest : (readFirst ts).rest with
    | none =>
        rw [hrest] at hany
        cases hany
    | some rest => exact isNode_readFirst hrest

/-! ## Aliases -/

theorem mem_enter {names : Numbering} {anchor : Option Name} {a : Name} {k : Nat}
    (h : (a, k) ∈ (names.enter anchor).2) : (a, k) ∈ names ∨ (names.enter anchor).1 = some k := by
  cases anchor with
  | none => exact .inl h
  | some b =>
      rcases List.mem_cons.1 h with heq | hmem
      · cases heq
        exact .inr rfl
      · exact .inl (List.mem_filter.1 hmem).1

/-- A number that is in use after an event was in use before it, or is the one of its anchor. -/
theorem mem_of_number? {names names' : Numbering} {e : Event Name} {n : Event Nat} {a : Name}
    {k : Nat} (h : names.number? e = some (n, names')) (hmem : (a, k) ∈ names') :
    (a, k) ∈ names ∨ n.anchor? = some k := by
  cases e with
  | «alias» b =>
      obtain ⟨_, _, heq⟩ := Option.map_eq_some_iff.1 h
      cases heq
      exact .inl hmem
  | scalar p text isPlain =>
      cases h
      exact mem_enter hmem
  | openSequence p =>
      cases h
      exact mem_enter hmem
  | openMapping p =>
      cases h
      exact mem_enter hmem
  | closeSequence =>
      cases h
      exact .inl hmem
  | closeMapping =>
      cases h
      exact .inl hmem

theorem exists_mem_of_number?_alias {names names' : Numbering} {e : Event Name} {k : Nat}
    (h : names.number? e = some (.alias k, names')) : ∃ a, (a, k) ∈ names := by
  cases e with
  | «alias» a =>
      obtain ⟨_, hlookup, heq⟩ := Option.map_eq_some_iff.1 h
      obtain ⟨before, after, hsplit, -⟩ := List.lookup_eq_some_iff.1 hlookup
      cases heq
      exact ⟨a, by rw [hsplit]; exact List.mem_append_right _ List.mem_cons_self⟩
  | _ => cases h

/-- **An anchor stands before each of its aliases,** if no number is in use at the beginning. -/
theorem exists_anchor_before {names : Numbering} {es : List (Event Name)}
    {before after : List (Event Nat)} {k : Nat}
    (h : (number names es).1 = before ++ .alias k :: after) :
    (∃ a, (a, k) ∈ names) ∨ ∃ e ∈ before, e.anchor? = some k := by
  induction es generalizing names before with
  | nil => simp [number] at h
  | cons e es ih =>
      rw [number] at h
      cases hnumber : names.number? e with
      | none => simp [hnumber] at h
      | some p =>
          obtain ⟨n, names'⟩ := p
          rw [hnumber] at h
          cases before with
          | nil =>
              cases h
              exact .inl (exists_mem_of_number?_alias hnumber)
          | cons b before =>
              obtain ⟨rfl, hrest⟩ := List.cons.inj h
              rcases ih hrest with ⟨a, hmem⟩ | ⟨e', hmem, hanchor⟩
              · rcases mem_of_number? hnumber hmem with hmem | hanchor
                · exact .inl ⟨a, hmem⟩
                · exact .inr ⟨_, List.mem_cons_self, hanchor⟩
              · exact .inr ⟨e', List.mem_cons_of_mem _ hmem, hanchor⟩

/-- **An alias always leads to a node.** -/
theorem exists_afterAnchor_of_alias {k : Nat} (h : .alias k ∈ (ofTokens ts).events) :
    ∃ e rest, afterAnchor k (ofTokens ts).events = e :: rest ∧ e.anchor? = some k := by
  have hanchor : ∃ e ∈ (ofTokens ts).events, e.anchor? = some k := by
    obtain ⟨before, after, hsplit⟩ := List.append_of_mem h
    rw [hsplit]
    rw [ofTokens] at hsplit
    by_cases hend : ts.head? = some .streamEnd
    · rw [if_pos hend] at hsplit
      simp at hsplit
    · rw [if_neg hend] at hsplit
      rcases exists_anchor_before hsplit with ⟨a, hmem⟩ | ⟨e, hmem, he⟩
      · cases hmem
      · exact ⟨e, List.mem_append_left _ hmem, he⟩
  obtain ⟨e, hmem, he⟩ := hanchor
  obtain ⟨e', rest, hfound, he', _⟩ := exists_of_afterAnchor (afterAnchor_ne_nil hmem he)
  exact ⟨e', rest, hfound, he'⟩

end Document

end Yaml
end Stencil
