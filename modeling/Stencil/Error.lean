import Stencil.Config
import Stencil.Value.Datum

/-!
# Errors

Errors are told apart by their cause.  `message` words them, `code` names them for
tools, and `line` says where in the template they point.  A context wraps an error in
a note on what was being done and keeps its code and line.

**Results.**
* `code_context`, `line_context`: contexts change neither code nor line.
-/

namespace Stencil

/-- Why a template text is malformed; each carries the directive as it stands there. -/
inductive ParseCause where
  | invalidDirective (directive : String)
  | unmatchedBlock (directive : String)
  | unclosedBlock (directive : String)
  deriving DecidableEq

/-- A malformed template text. -/
structure ParseError where
  line : Nat
  cause : ParseCause
  deriving DecidableEq

def ParseCause.message : ParseCause → String
  | invalidDirective d => "invalid directive \"" ++ d ++ "\""
  | unmatchedBlock d => "unmatched block \"" ++ d ++ "\""
  | unclosedBlock d => "block \"" ++ d ++ "\" is never closed"

def atLine (line : Nat) (message : String) : String :=
  "line " ++ toString line ++ ": " ++ message

def ParseError.message (e : ParseError) : String :=
  atLine e.line e.cause.message

/-- Why a template does not fit the data. -/
inductive RenderCause where
  /-- No scope resolves the whole key. -/
  | notFound (key : String)
  /-- The value of a key has no text form. -/
  | notText (key : String) (found : Kind)
  /-- The value of a key is no sequence. -/
  | notSequence (key : String) (found : Kind)
  /-- No enclosing loop binds a variable. -/
  | unbound (var : String)
  | custom (text : String)
  deriving DecidableEq

/-- A failure of a template on some data, at the line of a directive. -/
structure RenderError where
  line : Nat
  cause : RenderCause
  deriving DecidableEq

def RenderCause.message : RenderCause → String
  | notFound key => "value not found for \"" ++ key ++ "\""
  | notText key found =>
      "\"" ++ key ++ "\" should have string, int or float value, found " ++ found.name
  | notSequence key found =>
      "\"" ++ key ++ "\" should have list value, found " ++ found.name
  | unbound var => "\"" ++ var ++ "\" is not bound by an enclosing loop"
  | custom text => text

/-- The wording of a failure. -/
def RenderError.message (e : RenderError) : String :=
  atLine e.line e.cause.message

/-- Why a YAML text does not give a value. -/
inductive YamlError where
  | malformed
  | key (e : KeyError)
  deriving DecidableEq

def YamlError.message : YamlError → String
  | malformed => "malformed text"
  | key e => e.message

/-- Any error of the library. -/
inductive Error where
  | parse (e : ParseError)
  | generation (e : RenderError)
  | templateNotFound (name : String)
  | config (e : ConfigError)
  | json
  | yaml (e : YamlError)
  | toml
  | context (message : String) (source : Error)
  deriving DecidableEq

namespace Error

def message : Error → String
  | parse e => "Parse error: " ++ e.message
  | generation e => "Generation error: " ++ e.message
  | templateNotFound name => "Template not found: " ++ name
  | config e => "Configuration error: " ++ e.message
  | json => "JSON error: malformed text"
  | yaml e => "YAML error: " ++ e.message
  | toml => "TOML error: malformed text"
  | context text _ => text

def line : Error → Option Nat
  | parse e => some e.line
  | generation e => some e.line
  | context _ source => source.line
  | _ => none

/-- The code of an error, for tools. -/
def code : Error → String
  | parse ⟨_, .invalidDirective _⟩ => "E_INVALID_DIRECTIVE"
  | parse ⟨_, .unmatchedBlock _⟩ => "E_UNMATCHED_BLOCK"
  | parse ⟨_, .unclosedBlock _⟩ => "E_UNCLOSED_BLOCK"
  | generation ⟨_, .notFound _⟩ => "E_NOT_FOUND"
  | generation _ => "E_UNEXPECTED_DATA"
  | templateNotFound _ => "E_TEMPLATE_NOT_FOUND"
  | config _ => "E_CONFIG"
  | json => "E_JSON"
  | yaml _ => "E_YAML"
  | toml => "E_TOML"
  | context _ source => source.code

def isDataFormat : Error → Bool
  | json => true
  | yaml _ => true
  | toml => true
  | _ => false

/-- The wordings of what lies behind an error, from the outside in. -/
def causes : Error → List String
  | parse e => [e.message]
  | generation e => [e.message]
  | context _ source =>
      if source.isDataFormat then [] else source.message :: source.causes
  | _ => []

/-- Wraps the error of a result in a note on what was being done. -/
def within {α : Type} (text : String) : Except Error α → Except Error α
  | .ok a => .ok a
  | .error e => .error (context text e)

theorem code_context (text : String) (e : Error) : (context text e).code = e.code :=
  rfl

theorem line_context (text : String) (e : Error) : (context text e).line = e.line :=
  rfl

end Error

end Stencil
