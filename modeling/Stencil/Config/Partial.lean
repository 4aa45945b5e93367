import Stencil.Config

/-!
# Settings that are not complete

A file may give some of the settings.  What is missing has its default.  Each file format
has leaves of its own; `Leaf` says which of them are strings and truth values.

**Results.**
* `complete_eq_iff`: a setting that is given stays, and one that is missing has its default.
* `ofItems?_eq_some_iff`: the settings that a list gives are those at their places.
-/

namespace Stencil
namespace Config

/-- Settings of which some may be missing. -/
structure Partial where
  beginMark : Option String := none
  endMark : Option String := none
  trimNewline : Option Bool := none
  deriving DecidableEq

/-- Fills in the defaults. -/
def Partial.complete (p : Partial) : Config :=
  { beginMark := p.beginMark.getD "[",
    endMark := p.endMark.getD "]",
    trimNewline := p.trimNewline.getD true }

/-- Whether a value is the one that is given, or the default if none is. -/
def Settled {α : Type} (given : Option α) (default value : α) : Prop :=
  (∀ a, given = some a → value = a) ∧ (given = none → value = default)

theorem settled_iff {α : Type} {given : Option α} {default value : α} :
    Settled given default value ↔ given.getD default = value := by
  cases given <;> simp [Settled, eq_comm]

/-- A setting that is given stays, and one that is missing has its default. -/
theorem Partial.complete_eq_iff {p : Partial} {c : Config} :
    p.complete = c ↔
      Settled p.beginMark ({} : Config).beginMark c.beginMark ∧
        Settled p.endMark ({} : Config).endMark c.endMark ∧
        Settled p.trimNewline ({} : Config).trimNewline c.trimNewline := by
  simp only [settled_iff]
  constructor
  · rintro rfl
    exact ⟨rfl, rfl, rfl⟩
  · rintro ⟨hbegin, hend, htrim⟩
    obtain ⟨beginMark, endMark, trimNewline⟩ := c
    subst hbegin hend htrim
    rfl

/-- How the values of a file format are read. -/
structure Leaf (α : Type) where
  string? : α → Option String
  bool? : α → Option Bool

/-- The settings in a list of at most three values, in the order of the settings. -/
def ofItems? {α : Type} (leaf : Leaf α) : List α → Option Partial
  | [] => some {}
  | [b] => (leaf.string? b).map (fun x => { beginMark := some x })
  | [b, e] =>
      (leaf.string? b).bind (fun x =>
        (leaf.string? e).map (fun y => { beginMark := some x, endMark := some y }))
  | [b, e, t] =>
      (leaf.string? b).bind (fun x =>
        (leaf.string? e).bind (fun y =>
          (leaf.bool? t).map (fun z =>
            { beginMark := some x, endMark := some y, trimNewline := some z })))
  | _ => none

/-- Whether a field holds what is read from what was found for it, and nothing if nothing was
found. -/
def Given {α β : Type} (read : α → Option β) (found : Option α) (field : Option β) : Prop :=
  found.map read = field.map some

theorem given_none {α β : Type} {read : α → Option β} {field : Option β} :
    Given read none field ↔ field = none := by
  cases field <;> simp [Given]

theorem given_some {α β : Type} {read : α → Option β} {a : α} {field : Option β} :
    Given read (some a) field ↔ ∃ b, read a = some b ∧ field = some b := by
  cases field <;> simp [Given]

theorem ofItems?_eq_some_iff {α : Type} {leaf : Leaf α} {items : List α} {p : Partial} :
    ofItems? leaf items = some p ↔
      items.length ≤ 3 ∧ Given leaf.string? items[0]? p.beginMark ∧
        Given leaf.string? items[1]? p.endMark ∧ Given leaf.bool? items[2]? p.trimNewline := by
  obtain ⟨beginMark, endMark, trimNewline⟩ := p
  match items with
  | [] => simp [ofItems?, given_none, eq_comm]
  | [b] =>
      simp only [ofItems?, Option.map_eq_some_iff, Partial.mk.injEq, List.getElem?_cons_zero,
        List.getElem?_cons_succ, List.getElem?_nil, given_none, given_some, List.length_cons,
        List.length_nil]
      grind
  | [b, e] =>
      simp only [ofItems?, Option.bind_eq_some_iff, Option.map_eq_some_iff, Partial.mk.injEq,
        List.getElem?_cons_zero, List.getElem?_cons_succ, List.getElem?_nil, given_none,
        given_some, List.length_cons, List.length_nil]
      grind
  | [b, e, t] =>
      simp only [ofItems?, Option.bind_eq_some_iff, Option.map_eq_some_iff, Partial.mk.injEq,
        List.getElem?_cons_zero, List.getElem?_cons_succ, given_some, List.length_cons,
        List.length_nil]
      grind
  | b :: e :: t :: u :: rest => simp [ofItems?]

end Config
end Stencil
