import Stencil.Error
import Stencil.Yaml.Schema

/-!
# Values from YAML

A document becomes a value event by event, so that of two errors the first one in the
text is reported.  At most 128 collections are nested, and for every event of the
document at most a hundred aliases are followed.
-/

namespace Stencil
namespace Yaml

/-- What is left of a document while it is read. -/
structure Feed where
  events : List (Event Nat)
  /-- How many more aliases may be followed. -/
  jumps : Nat

/-- Reads part of a document. -/
abbrev FeedReader := StateT Feed (Except YamlError)

namespace FeedReader

def refuse {α : Type} : FeedReader α :=
  throw .malformed

/-- Puts other events in place of those that are left. -/
def goTo (events : List (Event Nat)) : FeedReader Unit :=
  modify (fun s => { s with events := events })

/-- Counts an alias. -/
def jump : FeedReader Unit := do
  let s ← get
  if s.jumps = 0 then refuse else set { s with jumps := s.jumps - 1 }

def items (node : FeedReader Value) : Nat → FeedReader (List Value)
  | 0 => refuse
  | fuel + 1 => do
      match (← get).events with
      | .closeSequence :: rest =>
          goTo rest
          return []
      | _ =>
          let v ← node
          let vs ← items node fuel
          return v :: vs

/-- Reads the entries of a mapping and its end, putting them after those before. -/
def entries (node : FeedReader Value) : Nat → Entries Value → FeedReader (Entries Value)
  | 0, _ => refuse
  | fuel + 1, before => do
      match (← get).events with
      | .closeMapping :: rest =>
          goTo rest
          return before
      | _ =>
          let key ← node
          match key.keyText with
          | .error e => throw (.key e)
          | .ok text =>
              let v ← node
              entries node fuel (Entries.put text v before)

/-- Refuses a collection with a tag of the application's own. -/
def untagged {α : Type} (p : Properties Nat) (read : FeedReader α) : FeedReader α :=
  if p.tag.any Schema.isLocal then refuse else read

def content (items : FeedReader (List Value)) (entries : FeedReader (Entries Value)) :
    Event Nat → FeedReader Value
  | .scalar p text isPlain =>
      match Schema.scalar? p.tag text isPlain with
      | some v => return v
      | none => refuse
  | .openSequence p => untagged p (Value.sequence <$> items)
  | .openMapping p => untagged p (Value.mapping <$> entries)
  | _ => refuse

/-- Reads a node where the next event says, or the node that an alias stands for. -/
def follow (document : List (Event Nat)) (read : Event Nat → FeedReader Value) :
    FeedReader Value := do
  match (← get).events with
  | [] => refuse
  | .alias n :: rest =>
      jump
      match Document.afterAnchor n document with
      | [] => refuse
      | e :: es =>
          goTo es
          let v ← read e
          goTo rest
          return v
  | e :: rest =>
      goTo rest
      read e

/-- Reads a node with at most so many collections in one another. -/
def node (document : List (Event Nat)) : Nat → FeedReader Value
  | 0 => follow document (content refuse refuse)
  | depth + 1 =>
      follow document
        (content (items (node document depth) (document.length + 1))
          (entries (node document depth) (document.length + 1) []))

end FeedReader

/-- The greatest number of collections in one another. -/
def maxDepth : Nat :=
  128

end Yaml

namespace Value

def ofDocument (d : Yaml.Document) : Except YamlError Value :=
  if d.events.isEmpty && d.isComplete then .ok null
  else
    match (Yaml.FeedReader.node d.events Yaml.maxDepth).run
        ⟨d.events, 100 * d.events.length⟩ with
    | .error e => .error e
    | .ok p => if d.isComplete then .ok p.1 else .error .malformed

def readYaml (text : String) : Except Error Value :=
  match ofDocument (Yaml.Document.ofText text) with
  | .ok v => .ok v
  | .error e => .error (.yaml e)

end Value
end Stencil
