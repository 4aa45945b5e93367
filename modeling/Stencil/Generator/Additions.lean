import Mathlib.Data.List.Forall2
import Stencil.Generator

/-!
# What a generator remembers

After any additions a generator stands for the additions whose texts can both be parsed, in
their order.  What it generates is said here of these additions alone: each text is parsed
and rendered on its own, and the first failure in the order name, body, next name, next body
is the failure of all.

**Results.**
* `Addition.Fails.unique`: an addition fails in one way only.
-/

namespace Stencil

/-- The texts of an output: a template for its name and one for its body. -/
structure Addition where
  name : String
  body : String
  deriving DecidableEq

/-- The text that a template text gives on data. -/
def Template.rendered (config : Config) (text : String) (data : Value) : Except Error String :=
  (Template.parse config text).bind (fun t => t.generate data)

namespace Addition

/-- The error of the name, or of the body if the name can be parsed. -/
def error? (config : Config) (a : Addition) : Option Error :=
  match Template.parse config a.name, Template.parse config a.body with
  | .error e, _ => some e
  | .ok _, .error e => some e
  | .ok _, .ok _ => none

/-- What the reply to an addition must be: its error with a note, if it has one. -/
def Replied (config : Config) (a : Addition) (reply : Except Error Unit) : Prop :=
  match a.error? config with
  | none => reply = .ok ()
  | some e => ∃ note, reply = .error (.context note e) ∧
      (Error.context note e).code = e.code ∧ (Error.context note e).line = e.line

/-- Whether both texts of an addition are generated on data. -/
def Gives (config : Config) (data : Value) (a : Addition) (file : GeneratedFile) : Prop :=
  Template.rendered config a.name data = .ok file.name ∧
    Template.rendered config a.body data = .ok file.content

/-- Whether an error is the first one of the name and the body on data.  The note names the
template of the name if that fails, and the name itself if the body fails. -/
def Fails (config : Config) (data : Value) (a : Addition) (note : String) (e : Error) : Prop :=
  (Template.rendered config a.name data = .error e ∧
    note = "generating name of \"" ++ a.name ++ "\"") ∨
  ∃ name, Template.rendered config a.name data = .ok name ∧
    Template.rendered config a.body data = .error e ∧ note = "generating " ++ name

/-- An addition fails in one way only. -/
theorem Fails.unique {config : Config} {data : Value} {a : Addition} {note note' : String}
    {e e' : Error} (h : Fails config data a note e) (h' : Fails config data a note' e') :
    note = note' ∧ e = e' := by
  rcases h with ⟨hname, rfl⟩ | ⟨name, hname, hbody, rfl⟩
  · rcases h' with ⟨hname', rfl⟩ | ⟨name', hname', -, -⟩
    · rw [hname] at hname'
      cases hname'
      exact ⟨rfl, rfl⟩
    · rw [hname] at hname'
      cases hname'
  · rcases h' with ⟨hname', -⟩ | ⟨name', hname', hbody', rfl⟩
    · rw [hname] at hname'
      cases hname'
    · rw [hname] at hname'
      rw [hbody] at hbody'
      cases hname'
      cases hbody'
      exact ⟨rfl, rfl⟩

end Addition

namespace Generator

/-- The additions whose texts can both be parsed. -/
def accepted (config : Config) (additions : List Addition) : List Addition :=
  additions.filter (fun a => (a.error? config).isNone)

/-- Adds outputs one after the other. -/
def addAll : Generator → List Addition → Generator × List (Except Error Unit)
  | g, [] => (g, [])
  | g, a :: as =>
      ((addAll (g.add a.name a.body).1 as).1,
        (g.add a.name a.body).2 :: (addAll (g.add a.name a.body).1 as).2)

/-- Whether a generator, with its replies so far, is what additions make of a new one. -/
structure Reflects (config : Config) (additions : List Addition) (g : Generator)
    (replies : List (Except Error Unit)) : Prop where
  /-- Each addition succeeds if both texts can be parsed, and has the first error if not. -/
  replies : List.Forall₂ (Addition.Replied config) additions replies
  size_eq : g.size = (accepted config additions).length
  /-- An addition with an error changes nothing. -/
  unchanged : ∀ (a : Addition) (e : Error), a.error? config = some e →
    (g.add a.name a.body).1 = g
  /-- Everything is generated just if each accepted addition is. -/
  generates : ∀ data, (∃ files, g.generate data = .ok files) ↔
    ∀ a ∈ accepted config additions, ∃ file, a.Gives config data file
  /-- The files are those of the accepted additions in their order. -/
  files : ∀ data files, g.generate data = .ok files ↔
    List.Forall₂ (Addition.Gives config data) (accepted config additions) files
  /-- A failure is the first error, with a note, and has its code and line. -/
  failure : ∀ data err, g.generate data = .error err ↔
    ∃ before a after note e, accepted config additions = before ++ a :: after ∧
      (∀ b ∈ before, ∃ file, b.Gives config data file) ∧ a.Fails config data note e ∧
      err = .context note e ∧ err.message = note ∧ err.code = e.code ∧ err.line = e.line

end Generator
end Stencil
