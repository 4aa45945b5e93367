import Stencil.Config.Partial
import Stencil.Error
import Stencil.Toml.Statement

/-!
# Settings in TOML

The settings are the keys of the file, or if it has the key `template`, only what is
there: a table, or an array of the settings in order.  Other keys may hold anything.  The
marks have to be usable.

**Results.**
* `ofTable?_eq_some_iff`: the settings of a table are what is under their keys.
* `valid_of_readToml`: settings that are read from a file are valid.
-/

namespace Stencil
namespace Config

def nodeString? : Toml.Node → Option String
  | .string s => some s
  | _ => none

/-- A truth value. -/
def nodeBool? : Toml.Node → Option Bool
  | .bool b => some b
  | _ => none

/-- The values of a TOML file. -/
def nodeLeaf : Leaf Toml.Node :=
  ⟨nodeString?, nodeBool?⟩

/-- The value of a field that may be missing. -/
def field? {α : Type} (read : Toml.Node → Option α) : Option Toml.Node → Option (Option α)
  | none => some none
  | some n => (read n).map some

theorem field?_eq_some_iff {α : Type} {read : Toml.Node → Option α} {found : Option Toml.Node}
    {field : Option α} : field? read found = some field ↔ Given read found field := by
  cases found with
  | none => simp [field?, given_none, eq_comm]
  | some n => simp [field?, given_some, eq_comm]

def ofTable? (t : Toml.Table) : Option Partial :=
  (field? nodeString? (t.lookup "begin_mark")).bind (fun b =>
    (field? nodeString? (t.lookup "end_mark")).bind (fun e =>
      (field? nodeBool? (t.lookup "trim_directive_newline")).map (fun trim =>
        { beginMark := b, endMark := e, trimNewline := trim })))

theorem ofTable?_eq_some_iff {t : Toml.Table} {p : Partial} :
    ofTable? t = some p ↔
      Given nodeString? (t.lookup "begin_mark") p.beginMark ∧
        Given nodeString? (t.lookup "end_mark") p.endMark ∧
        Given nodeBool? (t.lookup "trim_directive_newline") p.trimNewline := by
  simp only [ofTable?, Option.bind_eq_some_iff, Option.map_eq_some_iff, field?_eq_some_iff]
  constructor
  · rintro ⟨b, hb, e, he, trim, htrim, rfl⟩
    exact ⟨hb, he, htrim⟩
  · rintro ⟨hb, he, htrim⟩
    exact ⟨p.beginMark, hb, p.endMark, he, p.trimNewline, htrim, rfl⟩

/-- The settings of a section.  Values of an array after the third do not count, and a
date has no fields. -/
def ofSection? : Toml.Node → Option Partial
  | .table _ entries => ofTable? entries
  | .array items => ofItems? nodeLeaf (items.take 3)
  | .dateTime => some {}
  | _ => none

def ofFile? (t : Toml.Table) : Option Config :=
  (match t.lookup "template" with
    | some n => ofSection? n
    | none => ofTable? t).map Partial.complete

def readToml (text : String) : Except Error Config :=
  match (Toml.read? text).bind ofFile? with
  | none => .error .toml
  | some c =>
      match c.validate with
      | .ok c => .ok c
      | .error e => .error (.config e)

/-- Settings that are read from a file are valid. -/
theorem valid_of_readToml {text : String} {c : Config} (h : readToml text = .ok c) : c.Valid := by
  unfold readToml at h
  split at h
  · cases h
  · next d _ =>
      unfold validate at h
      cases hmarks : d.marks with
      | error e =>
          rw [hmarks] at h
          cases h
      | ok m =>
          rw [hmarks] at h
          cases h
          exact ⟨m, hmarks⟩

end Config
end Stencil
