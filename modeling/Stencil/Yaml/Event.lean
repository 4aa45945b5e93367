import Stencil.Yaml.Token

/-!
# Events of a YAML document

An event is an alias, a scalar, or the beginning or the end of a collection.  Collections
may be written in blocks or in brackets, and what is left out stands for an empty scalar;
events no longer show the difference.

What may follow is a stack of expectations.  A step takes the one on top, reads tokens
for it, and replaces it by the expectations that it consists of.
-/

namespace Stencil
namespace Yaml

/-- What may stand before a node: an anchor and a tag. -/
structure Properties (α : Type) where
  anchor : Option α := none
  tag : Option (List Char) := none
  deriving DecidableEq

/-- An event of a document whose anchors are named by `α`. -/
inductive Event (α : Type) where
  | alias (anchor : α)
  | scalar (properties : Properties α) (text : List Char) (isPlain : Bool)
  | openSequence (properties : Properties α)
  | closeSequence
  | openMapping (properties : Properties α)
  | closeMapping

def Event.anchor? {α : Type} : Event α → Option α
  | scalar p _ _ => p.anchor
  | openSequence p => p.anchor
  | openMapping p => p.anchor
  | _ => none

/-- The scalar that stands where nothing is written. -/
def Event.empty {α : Type} : Event α :=
  scalar {} [] true

/-- What may follow in a document. -/
inductive Expected where
  /-- A node; block collections only if `isBlock`, and the entries of a sequence without
  indentation only if `allowsEntries`. -/
  | node (isBlock allowsEntries : Bool)
  /-- An entry of a block sequence, or its end. -/
  | blockEntry
  /-- An entry of a block sequence without indentation, or its end. -/
  | looseEntry
  /-- A key of a block mapping, or its end. -/
  | blockKey
  | blockValue
  /-- An entry of a bracketed sequence, after a comma unless it is the first, or its end. -/
  | flowEntry (isFirst : Bool)
  /-- The parts of a single pair in a bracketed sequence. -/
  | pairKey
  | pairValue
  | pairEnd
  /-- A key of a bracketed mapping, after a comma unless it is the first, or its end. -/
  | flowKey (isFirst : Bool)
  | flowValue
  /-- The value of an entry that is only a key. -/
  | noValue

/-- A name as it stands in a text. -/
abbrev Name := List Char

/-- What a step reads, what is expected then, and the tokens after it. -/
structure Step where
  event : Option (Event Name)
  next : List Expected
  rest : List Token

/-- What the handles of tags stand for. -/
abbrev Handles := List (Name × List Char)

/-- The handles that need no header. -/
def defaultHandles : Handles :=
  [(['!'], ['!']), (['!', '!'], "tag:yaml.org,2002:".toList)]

def fullTag? (handles : Handles) (handle suffix : List Char) : Option (List Char) :=
  if handle = [] then some suffix
  else (handles.lookup handle).map (· ++ suffix)

/-- Reads the anchor and the tag of a node, in either order. -/
def properties? (handles : Handles) : List Token → Option (Properties Name × List Token)
  | .anchor a :: .tag h s :: ts => (fullTag? handles h s).map (fun t => (⟨some a, some t⟩, ts))
  | .tag h s :: .anchor a :: ts => (fullTag? handles h s).map (fun t => (⟨some a, some t⟩, ts))
  | .anchor a :: ts => some (⟨some a, none⟩, ts)
  | .tag h s :: ts => (fullTag? handles h s).map (fun t => (⟨none, some t⟩, ts))
  | ts => some ({}, ts)

def content? (isBlock allowsEntries : Bool) (p : Properties Name) (ts : List Token) :
    Option Step :=
  match ts with
  | .scalar text isPlain :: rest => some ⟨some (.scalar p text isPlain), [], rest⟩
  | .openSequence :: rest => some ⟨some (.openSequence p), [.flowEntry true], rest⟩
  | .openMapping :: rest => some ⟨some (.openMapping p), [.flowKey true], rest⟩
  | t :: rest =>
      if allowsEntries ∧ t = .blockEntry then some ⟨some (.openSequence p), [.looseEntry], ts⟩
      else if isBlock ∧ t = .blockSequence then
        some ⟨some (.openSequence p), [.blockEntry], rest⟩
      else if isBlock ∧ t = .blockMapping then
        some ⟨some (.openMapping p), [.blockKey], rest⟩
      else if p = {} then none
      else some ⟨some (.scalar p [] true), [], ts⟩
  | [] => none

def node? (handles : Handles) (isBlock allowsEntries : Bool) : List Token → Option Step
  | .alias name :: rest => some ⟨some (.alias name), [], rest⟩
  | ts => (properties? handles ts).bind (fun p => content? isBlock allowsEntries p.1 p.2)

/-- Expects a node, or takes the empty scalar before one of some tokens. -/
def nodeUnless (stops : List Token) (node next : Expected) : List Token → Option Step
  | [] => none
  | t :: ts =>
      if t ∈ stops then some ⟨some .empty, [next], t :: ts⟩
      else some ⟨none, [node, next], t :: ts⟩

/-- Takes the empty scalar; there has to be a further token. -/
def leaveOut (next : Expected) : List Token → Option Step
  | [] => none
  | ts => some ⟨some .empty, [next], ts⟩

/-- Skips the comma between two parts of a bracketed collection. -/
def skipComma? (isFirst : Bool) (close : Token) : List Token → Option (List Token)
  | [] => none
  | t :: ts =>
      if isFirst ∨ t = close then some (t :: ts)
      else if t = .flowEntry then some ts
      else none

/-- Reads an entry of a bracketed sequence, or its end. -/
def flowEntry? : List Token → Option Step
  | .closeSequence :: ts => some ⟨some .closeSequence, [], ts⟩
  | .key :: ts => some ⟨some (.openMapping {}), [.pairKey, .flowEntry false], ts⟩
  | [] => none
  | ts => some ⟨none, [.node false false, .flowEntry false], ts⟩

/-- Reads a key of a bracketed mapping, or its end. -/
def flowKey? : List Token → Option Step
  | .closeMapping :: ts => some ⟨some .closeMapping, [], ts⟩
  | .key :: ts =>
      nodeUnless [.value, .flowEntry, .closeMapping] (.node false false) .flowValue ts
  | [] => none
  | ts => some ⟨none, [.node false false, .noValue], ts⟩

def step? (handles : Handles) : Expected → List Token → Option Step
  | .node isBlock allowsEntries, ts => node? handles isBlock allowsEntries ts
  | .blockEntry, .blockEntry :: ts =>
      nodeUnless [.blockEntry, .blockEnd] (.node true false) .blockEntry ts
  | .blockEntry, .blockEnd :: ts => some ⟨some .closeSequence, [], ts⟩
  | .blockEntry, _ => none
  | .looseEntry, .blockEntry :: ts =>
      nodeUnless [.blockEntry, .key, .value, .blockEnd] (.node true false) .looseEntry ts
  | .looseEntry, [] => none
  | .looseEntry, ts => some ⟨some .closeSequence, [], ts⟩
  | .blockKey, .key :: ts =>
      nodeUnless [.key, .value, .blockEnd] (.node true true) .blockValue ts
  | .blockKey, .blockEnd :: ts => some ⟨some .closeMapping, [], ts⟩
  | .blockKey, _ => none
  | .blockValue, .value :: ts =>
      nodeUnless [.key, .value, .blockEnd] (.node true true) .blockKey ts
  | .blockValue, ts => leaveOut .blockKey ts
  | .flowEntry isFirst, ts => (skipComma? isFirst .closeSequence ts).bind flowEntry?
  | .pairKey, t :: ts =>
      if t ∈ [.value, .flowEntry, .closeSequence] then some ⟨some .empty, [.pairValue], ts⟩
      else some ⟨none, [.node false false, .pairValue], t :: ts⟩
  | .pairKey, [] => none
  | .pairValue, .value :: ts =>
      nodeUnless [.flowEntry, .closeSequence] (.node false false) .pairEnd ts
  | .pairValue, ts => leaveOut .pairEnd ts
  | .pairEnd, ts => some ⟨some .closeMapping, [], ts⟩
  | .flowKey isFirst, ts => (skipComma? isFirst .closeMapping ts).bind flowKey?
  | .flowValue, .value :: ts =>
      nodeUnless [.flowEntry, .closeMapping] (.node false false) (.flowKey false) ts
  | .flowValue, ts => leaveOut (.flowKey false) ts
  | .noValue, ts => leaveOut (.flowKey false) ts

/-- The events of a text as far as it is well-formed, and the tokens after it if all of it
is. -/
structure Reading where
  events : List (Event Name)
  rest : Option (List Token)

/-- Reads what is expected, one after the other. -/
def run (handles : Handles) : Nat → List Expected → List Token → Reading
  | _, [], ts => ⟨[], some ts⟩
  | 0, _ :: _, _ => ⟨[], none⟩
  | fuel + 1, e :: es, ts =>
      match step? handles e ts with
      | none => ⟨[], none⟩
      | some s =>
          let r := run handles fuel (s.next ++ es) s.rest
          ⟨s.event.toList ++ r.events, r.rest⟩

/-- Reads a node at the top of a document.  A token gives rise to at most four events, and
an event takes at most two steps. -/
def readTop (handles : Handles) (ts : List Token) : Reading :=
  run handles (8 * ts.length + 8) [.node true false] ts

end Yaml
end Stencil
