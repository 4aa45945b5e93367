import Stencil.Template.Descent
import Stencil.Template.Equality

/-!
# Records

What the library does is recorded: each directive that is found in a text, each template
that is assembled, what happens to registered templates, and each text that is generated.
A record is an event with a level and a wording.
-/

namespace Stencil

/-- How important a record is. -/
inductive LogLevel where
  | trace
  | debug
  | warn
  deriving DecidableEq

def LogLevel.name : LogLevel → String
  | trace => "TRACE"
  | debug => "DEBUG"
  | warn => "WARN"

/-- Something worth a record. -/
inductive LogEvent where
  | found (t : Token)
  | parsed (tokens directives : Nat)
  | registered (name : String) (directives : Nat)
  | replaced (name : String)
  | generated (name : String) (bytes : Nat)
  deriving DecidableEq

namespace LogEvent

def level : LogEvent → LogLevel
  | found _ => .trace
  | replaced _ => .warn
  | _ => .debug

/-- The wording of a record. -/
def text : LogEvent → String
  | found t => "lexed " ++ t.display
  | parsed tokens directives =>
      "Parsed template: " ++ toString tokens ++ " tokens, " ++ toString directives ++ " directives"
  | registered name directives =>
      "Registered template \"" ++ name ++ "\" (" ++ toString directives ++ " directives)"
  | replaced name => "Replacing registered template \"" ++ name ++ "\""
  | generated name bytes => "Generated " ++ name ++ " (" ++ toString bytes ++ " bytes)"

end LogEvent

def Token.isDirective (t : Token) : Bool :=
  match t.kind with
  | .text _ => false
  | _ => true

def directiveEvents (tokens : List Token) : List LogEvent :=
  (tokens.filter Token.isDirective).map LogEvent.found

/-- The records of cutting a text into tokens. -/
def tokenizeEvents (config : Config) (text : String) : List LogEvent :=
  match Token.tokenize config text with
  | .ok tokens => directiveEvents tokens
  | .error _ => []

def assemblyEvents (tokens : List Token) : List LogEvent :=
  match Template.ofTokens tokens with
  | .ok t => [.parsed tokens.length t.directiveCount]
  | .error _ => []

def parseEvents (config : Config) (text : String) : List LogEvent :=
  match Token.tokenize config text with
  | .ok tokens => directiveEvents tokens ++ assemblyEvents tokens
  | .error _ => []

end Stencil
