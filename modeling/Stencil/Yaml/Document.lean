import Stencil.Yaml.Event

/-!
# Documents of a YAML text

A text holds one document, with headers before it and end marks after it.  Anchors get
numbers: an anchor's number is how many different names were in use before it.  An alias
stands for the number that its name had there; of several anchors with one number the
last one of the document is meant.

**Results.**
* `afterAnchor_ne_nil`, `exists_of_afterAnchor`: a node with an anchor is found if there is one.
-/

namespace Stencil
namespace Yaml

/-- A document as far as it is well-formed. -/
structure Document where
  events : List (Event Nat)
  /-- Whether the document and the text end well after these events. -/
  isComplete : Bool

namespace Document

/-- The headers before a document: whether its version was given, and its handles. -/
structure Headers where
  hasVersion : Bool := false
  handles : Handles := []

/-- Reads headers.  Only versions 1.1 and 1.2 are known, and no header may be repeated. -/
def headers? : Headers → List Token → Option (Headers × List Token)
  | h, .version major minor :: ts =>
      if h.hasVersion ∨ major ≠ 1 ∨ (minor ≠ 1 ∧ minor ≠ 2) then none
      else headers? { h with hasVersion := true } ts
  | h, .tagHandle handle lead :: ts =>
      if (h.handles.lookup handle).isSome then none
      else headers? { h with handles := h.handles ++ [(handle, lead)] } ts
  | h, ts => some (h, ts)

/-- Tokens before which a document has no content. -/
def isBoundary : Token → Bool
  | .version _ _ => true
  | .tagHandle _ _ => true
  | .documentStart => true
  | .documentEnd => true
  | .streamEnd => true
  | _ => false

/-- Reads the content of a document after its start mark. -/
def readMarked (handles : Handles) : List Token → Reading
  | [] => ⟨[], none⟩
  | t :: ts => if isBoundary t then ⟨[.empty], some (t :: ts)⟩ else readTop handles (t :: ts)

def readFirst : List Token → Reading
  | [] => ⟨[], none⟩
  | t :: ts =>
      if isBoundary t ∧ t ≠ .documentEnd then
        match headers? {} (t :: ts) with
        | some (h, .documentStart :: rest) => readMarked (h.handles ++ defaultHandles) rest
        | _ => ⟨[], none⟩
      else readTop defaultHandles (t :: ts)

/-- The names in use with their numbers. -/
abbrev Numbering := List (Name × Nat)

/-- Numbers the anchor of a node. -/
def Numbering.enter (names : Numbering) : Option Name → Option Nat × Numbering
  | none => (none, names)
  | some a => (some names.length, (a, names.length) :: names.filter (fun p => p.1 ≠ a))

def Numbering.enterProperties (names : Numbering) (p : Properties Name) :
    Properties Nat × Numbering :=
  (⟨(names.enter p.anchor).1, p.tag⟩, (names.enter p.anchor).2)

/-- Numbers an event; the name of an alias has to be in use. -/
def Numbering.number? (names : Numbering) : Event Name → Option (Event Nat × Numbering)
  | .alias a => (names.lookup a).map (fun n => (.alias n, names))
  | .scalar p text isPlain =>
      let q := names.enterProperties p
      some (.scalar q.1 text isPlain, q.2)
  | .openSequence p => some (.openSequence (names.enterProperties p).1, (names.enterProperties p).2)
  | .openMapping p => some (.openMapping (names.enterProperties p).1, (names.enterProperties p).2)
  | .closeSequence => some (.closeSequence, names)
  | .closeMapping => some (.closeMapping, names)

/-- Numbers events up to an alias of an unknown name, and says whether there is none. -/
def number : Numbering → List (Event Name) → List (Event Nat) × Bool
  | _, [] => ([], true)
  | names, e :: es =>
      match names.number? e with
      | none => ([], false)
      | some (n, names) => (n :: (number names es).1, (number names es).2)

/-- Whether nothing but end marks and the end of the stream is left. -/
def isEnd (rest : List Token) : Bool :=
  (rest.dropWhile (· = .documentEnd)).head? = some .streamEnd

def ofTokens (ts : List Token) : Document :=
  if ts.head? = some .streamEnd then ⟨[], true⟩
  else
    let r := readFirst ts
    let p := number [] r.events
    ⟨p.1, p.2 && r.rest.any isEnd⟩

def ofText (text : String) : Document :=
  ofTokens (tokens text.toList)

def afterAnchor (n : Nat) : List (Event Nat) → List (Event Nat)
  | [] => []
  | e :: es =>
      match afterAnchor n es with
      | [] => if e.anchor? = some n then e :: es else []
      | found => found

theorem afterAnchor_ne_nil {es : List (Event Nat)} {e : Event Nat} {k : Nat} (he : e ∈ es)
    (h : e.anchor? = some k) : afterAnchor k es ≠ [] := by
  induction es with
  | nil => cases he
  | cons e' es ih =>
      rw [afterAnchor]
      split
      · next hlater =>
          rcases List.mem_cons.1 he with rfl | hmem
          · simp [h]
          · exact absurd hlater (ih hmem)
      · next found hlater => simpa using hlater

/-- What is found for an anchor is a node that has it, with what follows it in the document. -/
theorem exists_of_afterAnchor {n : Nat} {es : List (Event Nat)} (h : afterAnchor n es ≠ []) :
    ∃ e rest, afterAnchor n es = e :: rest ∧ e.anchor? = some n ∧ rest.length < es.length := by
  induction es with
  | nil => exact absurd rfl h
  | cons e es ih =>
      rw [afterAnchor] at h ⊢
      split
      · next hlater =>
          rw [hlater] at h
          by_cases hanchor : e.anchor? = some n
          · exact ⟨e, es, if_pos hanchor, hanchor, by simp⟩
          · simp [hanchor] at h
      · next found hlater =>
          obtain ⟨e', rest, hfound, hanchor, hlt⟩ := ih (by simpa using hlater)
          exact ⟨e', rest, hfound, hanchor, by simp only [List.length_cons]; omega⟩

end Document

end Yaml
end Stencil
