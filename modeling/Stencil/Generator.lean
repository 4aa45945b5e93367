import Stencil.Log
import Stencil.Render.Machine

/-!
# Generators

A generator holds outputs, each a template for a name and one for a body.  All outputs are
rendered on the same data, in the order in which they were added; the first failure
ends the run.
-/

namespace Stencil

/-- A template for a name, with its text, and one for a body. -/
structure Output where
  nameSource : String
  name : Template
  body : Template

/-- A generated text with its name. -/
structure GeneratedFile where
  name : String
  content : String
  deriving DecidableEq

/-- Outputs, with the settings for all of them. -/
structure Generator where
  config : Config
  outputs : List Output := []

namespace Generator

/-- A generator without outputs. -/
def new (config : Config) : Generator :=
  { config := config }

/-- The output of two texts. -/
def output (g : Generator) (name body : String) : Except Error Output :=
  (Error.within ("parsing output name \"" ++ name ++ "\"") (Template.parse g.config name)).bind
    (fun n =>
      (Error.within ("parsing body of \"" ++ name ++ "\"") (Template.parse g.config body)).map
        (fun b => ⟨name, n, b⟩))

/-- Adds an output; on failure the generator stays as it is. -/
def add (g : Generator) (name body : String) : Generator × Except Error Unit :=
  match g.output name body with
  | .ok o => ({ g with outputs := g.outputs ++ [o] }, .ok ())
  | .error e => (g, .error e)

/-- The number of outputs. -/
def size (g : Generator) : Nat :=
  g.outputs.length

end Generator

namespace Output

def generateName (o : Output) (data : Value) : Except Error String :=
  Error.within ("generating name of \"" ++ o.nameSource ++ "\"") (o.name.generate data)

def generate (o : Output) (data : Value) : Except Error GeneratedFile :=
  (o.generateName data).bind (fun name =>
    (Error.within ("generating " ++ name) (o.body.generate data)).map (fun content =>
      ⟨name, content⟩))

/-- Generates outputs in order: what succeeds before the first failure, and the failure. -/
def generateAll (data : Value) : List Output → List GeneratedFile × Option Error
  | [] => ([], none)
  | o :: os =>
      match o.generate data with
      | .error e => ([], some e)
      | .ok f => (f :: (generateAll data os).1, (generateAll data os).2)

end Output

namespace Generator

/-- All generated texts, or the first failure. -/
def generate (g : Generator) (data : Value) : Except Error (List GeneratedFile) :=
  match Output.generateAll data g.outputs with
  | (files, none) => .ok files
  | (_, some e) => .error e

/-- The records of adding an output. -/
def addEvents (g : Generator) (name body : String) : List LogEvent :=
  parseEvents g.config name ++
    (match Template.parse g.config name with
      | .ok _ => parseEvents g.config body
      | .error _ => [])

def generateEvents (g : Generator) (data : Value) : List LogEvent :=
  (Output.generateAll data g.outputs).1.map (fun f =>
    .generated f.name f.content.utf8ByteSize)

end Generator

end Stencil
