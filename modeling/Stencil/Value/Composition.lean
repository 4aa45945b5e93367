import Stencil.Value.Datum
import Stencil.Value.Yaml

/-!
# Trees that documents hold

The events of a document compose a tree.  A scalar is the tree of its value, a collection has
the trees of the nodes up to its end, and an alias stands for the tree of the node with its
anchor.  The limits are part of this: how many collections are nested, and how many aliases
are followed.

**Results.**
* `Composes.length_lt`, `ComposesItems.length_lt`, `ComposesMembers.length_lt`: every node takes
  an event, so that a collection has fewer nodes than there are events.
* `Composes.ne_closeSequence`, `Composes.ne_closeMapping`: no node begins with an end.
-/

namespace Stencil

/-- The tree that a scalar is. -/
def Value.datum? : Value → Option Datum
  | null => some .null
  | bool b => some (.bool b)
  | int n => some (.int n)
  | float f => some (.float f)
  | string s => some (.string s)
  | sequence _ => none
  | mapping _ => none

namespace Yaml

mutual

/-- Which tree is composed where a document is read with at most so many collections in one
another, and what is left of the document then. -/
inductive Composes (document : List (Event Nat)) : Nat → Feed → Datum → Feed → Prop where
  | scalar {depth jumps : Nat} {p : Properties Nat} {text : List Char} {isPlain : Bool}
      {rest : List (Event Nat)} {v : Value} {d : Datum}
      (value : Schema.scalar? p.tag text isPlain = some v) (leaf : v.datum? = some d) :
      Composes document depth ⟨.scalar p text isPlain :: rest, jumps⟩ d ⟨rest, jumps⟩
  | sequence {depth jumps : Nat} {p : Properties Nat} {events : List (Event Nat)}
      {items : List Datum} {t : Feed} (untagged : p.tag.any Schema.isLocal = false)
      (each : ComposesItems document depth ⟨events, jumps⟩ items t) :
      Composes document (depth + 1) ⟨.openSequence p :: events, jumps⟩ (.sequence items) t
  | mapping {depth jumps : Nat} {p : Properties Nat} {events : List (Event Nat)}
      {members : List (Datum × Datum)} {t : Feed} (untagged : p.tag.any Schema.isLocal = false)
      (each : ComposesMembers document depth ⟨events, jumps⟩ members t) :
      Composes document (depth + 1) ⟨.openMapping p :: events, jumps⟩ (.mapping members) t
  | followed {depth jumps n : Nat} {rest anchored : List (Event Nat)} {d : Datum} {t : Feed}
      (found : Document.afterAnchor n document = anchored)
      (target : Composes document depth ⟨anchored, jumps⟩ d t) :
      Composes document depth ⟨.alias n :: rest, jumps + 1⟩ d ⟨rest, t.jumps⟩

/-- Which items are composed up to the end of a sequence. -/
inductive ComposesItems (document : List (Event Nat)) :
    Nat → Feed → List Datum → Feed → Prop where
  | nil {depth jumps : Nat} {rest : List (Event Nat)} :
      ComposesItems document depth ⟨.closeSequence :: rest, jumps⟩ [] ⟨rest, jumps⟩
  | cons {depth : Nat} {s m t : Feed} {d : Datum} {items : List Datum}
      (first : Composes document depth s d m) (rest : ComposesItems document depth m items t) :
      ComposesItems document depth s (d :: items) t

/-- Which members are composed up to the end of a mapping. -/
inductive ComposesMembers (document : List (Event Nat)) :
    Nat → Feed → List (Datum × Datum) → Feed → Prop where
  | nil {depth jumps : Nat} {rest : List (Event Nat)} :
      ComposesMembers document depth ⟨.closeMapping :: rest, jumps⟩ [] ⟨rest, jumps⟩
  | cons {depth : Nat} {s m m' t : Feed} {k d : Datum} {members : List (Datum × Datum)}
      (key : Composes document depth s k m) (value : Composes document depth m d m')
      (rest : ComposesMembers document depth m' members t) :
      ComposesMembers document depth s ((k, d) :: members) t

end

/-- Whether a document is complete and holds a tree, which is null if there are no events. -/
def Document.Holds (document : Document) (d : Datum) : Prop :=
  document.isComplete = true ∧
    (document.events = [] ∧ d = .null ∨
      ∃ t, Composes document.events maxDepth
        ⟨document.events, 100 * document.events.length⟩ d t)

variable {document : List (Event Nat)}

mutual

theorem Composes.length_lt {depth : Nat} {s t : Feed} {d : Datum}
    (h : Composes document depth s d t) : t.events.length < s.events.length := by
  cases h with
  | scalar => simp
  | sequence _ each =>
      have hlt := each.length_lt
      simp only [List.length_cons] at hlt ⊢
      omega
  | mapping _ each =>
      have hlt := each.length_lt
      simp only [List.length_cons] at hlt ⊢
      omega
  | followed => simp

theorem ComposesItems.length_lt {depth : Nat} {s t : Feed} {items : List Datum}
    (h : ComposesItems document depth s items t) :
    items.length + t.events.length < s.events.length := by
  cases h with
  | nil => simp
  | cons first rest =>
      have hfirst := first.length_lt
      have hrest := rest.length_lt
      simp only [List.length_cons]
      omega

theorem ComposesMembers.length_lt {depth : Nat} {s t : Feed} {members : List (Datum × Datum)}
    (h : ComposesMembers document depth s members t) :
    members.length + t.events.length < s.events.length := by
  cases h with
  | nil => simp
  | cons key value rest =>
      have hkey := key.length_lt
      have hvalue := value.length_lt
      have hrest := rest.length_lt
      simp only [List.length_cons]
      omega

end

variable {depth : Nat} {s t : Feed}

theorem Composes.ne_closeSequence {d : Datum} (h : Composes document depth s d t)
    (rest : List (Event Nat)) : s.events ≠ .closeSequence :: rest := by
  cases h <;> simp

theorem Composes.ne_closeMapping {d : Datum} (h : Composes document depth s d t)
    (rest : List (Event Nat)) : s.events ≠ .closeMapping :: rest := by
  cases h <;> simp

end Yaml

end Stencil
