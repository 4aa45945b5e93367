import Stencil.Log
import Stencil.Render.Machine

/-!
# Engines

An engine keeps parsed templates under names.  Each registration has a serial number, so
that two answers can be told to be the same template and not merely equal ones.  A
failing registration changes nothing.
-/

namespace Stencil

/-- A registered template. -/
structure Registered where
  serial : Nat
  template : Template

/-- Templates under names, with the settings for all of them. -/
structure Engine where
  config : Config
  cache : Entries Registered := []
  /-- The number of successful registrations. -/
  registrations : Nat := 0

namespace Engine

/-- An engine without templates. -/
def new (config : Config) : Engine :=
  { config := config }

/-- Parses a template and keeps it under a name. -/
def register (e : Engine) (name source : String) : Engine × Except Error Registered :=
  match Template.parse e.config source with
  | .error (.config err) => (e, .error (.config err))
  | .error err => (e, .error (.context ("parsing template \"" ++ name ++ "\"") err))
  | .ok t =>
      let r : Registered := ⟨e.registrations, t⟩
      ({ e with
          cache := Entries.put name r e.cache,
          registrations := e.registrations + 1 }, .ok r)

/-- The template under a name. -/
def get (e : Engine) (name : String) : Option Registered :=
  e.cache.lookup name

/-- Whether there is a template under a name. -/
def contains (e : Engine) (name : String) : Bool :=
  (e.get name).isSome

/-- The names in ascending order. -/
def names (e : Engine) : List String :=
  (Entries.keys e.cache).mergeSort (fun a b => decide (a ≤ b))

/-- The engine without the template under a name. -/
def remove (e : Engine) (name : String) : Engine :=
  { e with cache := Entries.erase name e.cache }

/-- The engine without any template. -/
def clear (e : Engine) : Engine :=
  { e with cache := [] }

/-- The number of templates. -/
def size (e : Engine) : Nat :=
  e.cache.length

def render (e : Engine) (name : String) (data : Value) : Except Error String :=
  match e.get name with
  | none => .error (.templateNotFound name)
  | some r => Error.within ("rendering template \"" ++ name ++ "\"") (r.template.generate data)

/-- Parses and renders a text without keeping it. -/
def renderText (e : Engine) (source : String) (data : Value) : Except Error String :=
  (Template.parse e.config source).bind (fun t => t.generate data)

/-- A call of an engine. -/
inductive Call where
  | register (name source : String)
  | get (name : String)
  | contains (name : String)
  | names
  | remove (name : String)
  | clear
  | size
  | isEmpty
  | render (name : String) (data : Value)
  | renderText (source : String) (data : Value)

/-- The answer to a call. -/
inductive Reply where
  | done
  | template (r : Option Registered)
  | flag (b : Bool)
  | names (names : List String)
  | count (n : Nat)
  | text (s : String)
  | failed (e : Error)

def Reply.ofExcept {α : Type} (f : α → Reply) : Except Error α → Reply
  | .ok a => f a
  | .error e => .failed e

def call (e : Engine) : Call → Engine × Reply
  | .register name source =>
      ((e.register name source).1,
        Reply.ofExcept (fun r => .template (some r)) (e.register name source).2)
  | .get name => (e, .template (e.get name))
  | .contains name => (e, .flag (e.contains name))
  | .names => (e, .names e.names)
  | .remove name => (e.remove name, .template (e.get name))
  | .clear => (e.clear, .done)
  | .size => (e, .count e.size)
  | .isEmpty => (e, .flag (e.size == 0))
  | .render name data => (e, Reply.ofExcept .text (e.render name data))
  | .renderText source data => (e, Reply.ofExcept .text (e.renderText source data))

/-- Answers calls one after the other. -/
def run : Engine → List Call → Engine × List Reply
  | e, [] => (e, [])
  | e, c :: cs => ((run (e.call c).1 cs).1, (e.call c).2 :: (run (e.call c).1 cs).2)

def events (e : Engine) : Call → List LogEvent
  | .register name source =>
      parseEvents e.config source ++
        (match (e.register name source).2 with
          | .ok r =>
              if e.contains name then [.replaced name]
              else [.registered name r.template.directiveCount]
          | .error _ => [])
  | .renderText source _ => parseEvents e.config source
  | _ => []

end Engine

end Stencil
