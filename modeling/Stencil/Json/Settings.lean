import Stencil.Config.Partial
import Stencil.Json.Draft

/-!
# Settings in JSON

Settings are an object with up to three known members, or an array of up to three values
in the order of the settings.  What is missing has its default.  A member that is not
known may hold anything well-formed; a known one may not be repeated.  The marks are not
checked here.

**Results.**
* `addMembers_eq_some_iff`: an object gives settings just if each known member is there at most
  once and of its kind.
-/

namespace Stencil
namespace Config

def draftString? : Json.Draft → Option String
  | .string s => s
  | _ => none

/-- A truth value. -/
def draftBool? : Json.Draft → Option Bool
  | .bool b => some b
  | _ => none

/-- Takes a value for a field that has none yet. -/
def setOnce {α : Type} (old : Option α) (new : Option α) : Option (Option α) :=
  match old, new with
  | none, some a => some (some a)
  | _, _ => none

/-- Takes one member of an object. -/
def Partial.addMember (p : Partial) (key : String) (d : Json.Draft) : Option Partial :=
  if key = "begin_mark" then
    (setOnce p.beginMark (draftString? d)).map (fun v => { p with beginMark := v })
  else if key = "end_mark" then
    (setOnce p.endMark (draftString? d)).map (fun v => { p with endMark := v })
  else if key = "trim_directive_newline" then
    (setOnce p.trimNewline (draftBool? d)).map (fun v => { p with trimNewline := v })
  else some p

/-- Takes the members of an object in order. -/
def Partial.addMembers : Partial → List (Option String × Json.Draft) → Option Partial
  | p, [] => some p
  | p, (k, d) :: ms => k.bind (fun key => (p.addMember key d).bind (fun q => q.addMembers ms))

/-! ## What an object gives -/

/-- The values of the members under a key. -/
def valuesOf (key : String) (members : List (Option String × Json.Draft)) : List Json.Draft :=
  (members.filter (fun m => m.1 = some key)).map Prod.snd

theorem valuesOf_cons_self (key : String) (d : Json.Draft)
    (ms : List (Option String × Json.Draft)) :
    valuesOf key ((some key, d) :: ms) = d :: valuesOf key ms := by
  simp [valuesOf]

theorem valuesOf_cons_of_ne {key other : String} (h : other ≠ key) (d : Json.Draft)
    (ms : List (Option String × Json.Draft)) :
    valuesOf key ((some other, d) :: ms) = valuesOf key ms := by
  simp [valuesOf, h]

/-- Whether a field that had a value or none has taken all values that were read for it; it
takes no second one, and none that was not of its kind. -/
def Takes {α : Type} (old : Option α) (read : List (Option α)) (new : Option α) : Prop :=
  old.toList.map some ++ read = new.toList.map some

theorem takes_nil {α : Type} {old new : Option α} : Takes old [] new ↔ new = old := by
  cases old <;> cases new <;> simp [Takes, eq_comm]

theorem takes_cons {α : Type} {old new a : Option α} {read : List (Option α)} :
    Takes old (a :: read) new ↔ ∃ next, setOnce old a = some next ∧ Takes next read new := by
  cases old <;> cases a <;> cases new <;> simp [Takes, setOnce]

/-- Each known member is there at most once and of its kind, and every key has a value. -/
theorem addMembers_eq_some_iff {p q : Partial} {ms : List (Option String × Json.Draft)} :
    q.addMembers ms = some p ↔
      (∀ m ∈ ms, m.1.isSome) ∧
        Takes q.beginMark ((valuesOf "begin_mark" ms).map draftString?) p.beginMark ∧
        Takes q.endMark ((valuesOf "end_mark" ms).map draftString?) p.endMark ∧
        Takes q.trimNewline ((valuesOf "trim_directive_newline" ms).map draftBool?)
          p.trimNewline := by
  induction ms generalizing q with
  | nil =>
      have hvalues (key : String) : valuesOf key [] = [] := rfl
      cases p
      cases q
      simp only [Partial.addMembers, hvalues, List.map_nil, takes_nil, Option.some.injEq,
        Partial.mk.injEq]
      grind
  | cons m ms ih =>
      obtain ⟨k, d⟩ := m
      cases k with
      | none => simp [Partial.addMembers]
      | some key =>
          rw [Partial.addMembers, Option.bind_some, Option.bind_eq_some_iff, List.forall_mem_cons]
          simp only [ih, Partial.addMember]
          by_cases hbegin : key = "begin_mark"
          · have hend : key ≠ "end_mark" := by rw [hbegin]; decide
            have htrim : key ≠ "trim_directive_newline" := by rw [hbegin]; decide
            rw [if_pos hbegin, valuesOf_cons_of_ne hend, valuesOf_cons_of_ne htrim, ← hbegin,
              valuesOf_cons_self, List.map_cons, takes_cons]
            simp only [Option.map_eq_some_iff]
            grind
          rw [if_neg hbegin, valuesOf_cons_of_ne hbegin]
          by_cases hend : key = "end_mark"
          · have htrim : key ≠ "trim_directive_newline" := by rw [hend]; decide
            rw [if_pos hend, valuesOf_cons_of_ne htrim, ← hend, valuesOf_cons_self,
              List.map_cons, takes_cons]
            simp only [Option.map_eq_some_iff]
            grind
          rw [if_neg hend, valuesOf_cons_of_ne hend]
          by_cases htrim : key = "trim_directive_newline"
          · rw [if_pos htrim, ← htrim, valuesOf_cons_self, List.map_cons, takes_cons]
            simp only [Option.map_eq_some_iff]
            grind
          -- a member that is not known changes nothing
          rw [if_neg htrim, valuesOf_cons_of_ne htrim]
          grind

/-- The values of a JSON tree. -/
def draftLeaf : Leaf Json.Draft :=
  ⟨draftString?, draftBool?⟩

/-- The settings of a JSON tree. -/
def ofDraft? : Json.Draft → Option Config
  | .object members => (Partial.addMembers {} members).map Partial.complete
  | .array items => (ofItems? draftLeaf items).map Partial.complete
  | _ => none

def readJson? (text : String) : Option Config :=
  (Json.Draft.ofText? text).bind ofDraft?

end Config
end Stencil
