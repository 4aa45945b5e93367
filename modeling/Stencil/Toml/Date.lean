import Stencil.Toml.Scalar
import Stencil.Toml.Table

/-!
# Dates encoded by tables

A table inside a file encodes a date if its least key is `dateKey`.  Then the text of a
date has to be under this key, and the other entries do not count.  The file itself is
never a date.

**Results.**
* `encodedDate?_eq_some_iff`: which tables encode a date, and whether its text is there.
* `holdsDates_table_of_perm`: the order of the entries does not count.
-/

namespace Stencil
namespace Toml

/-- The key under which a table encodes a date. -/
def dateKey : String :=
  "$__toml_private_datetime"

def isDateText : Node → Bool
  | .string s => isDateTime s.toList
  | _ => false

/-- If a table encodes a date, whether the text of one is there. -/
def encodedDate? (t : Table) : Option Bool :=
  if t.all (fun e => decide (dateKey ≤ e.1)) then (t.lookup dateKey).map isDateText
  else none

theorem encodedDate?_eq_some_iff {t : Table} {b : Bool} :
    encodedDate? t = some b ↔
      (∀ e ∈ t, dateKey ≤ e.1) ∧ ∃ n, t.lookup dateKey = some n ∧ isDateText n = b := by
  rw [encodedDate?, Option.ite_none_right_eq_some, Option.map_eq_some_iff, List.all_eq_true]
  simp only [decide_eq_true_eq]

theorem encodedDate?_eq_of_perm {t u : Table} (h : t.Perm u) (hkeys : (Entries.keys t).Nodup) :
    encodedDate? t = encodedDate? u := by
  rw [encodedDate?, encodedDate?, h.all_eq, Entries.lookup_eq_of_perm h hkeys]

mutual

/-- Whether the tables in a value hold the dates that they encode. -/
def holdsDates : Node → Bool
  | .array items => itemsHoldDates items
  | .table _ entries => (encodedDate? entries).getD (entriesHoldDates entries)
  | .tables earlier last =>
      tablesHoldDates earlier && (encodedDate? last).getD (entriesHoldDates last)
  | _ => true

def itemsHoldDates : List Node → Bool
  | [] => true
  | n :: ns => holdsDates n && itemsHoldDates ns

/-- Whether the tables in the values of entries hold the dates that they encode. -/
def entriesHoldDates : List (String × Node) → Bool
  | [] => true
  | (_, n) :: es => holdsDates n && entriesHoldDates es

/-- Whether tables, and the tables in them, hold the dates that they encode. -/
def tablesHoldDates : List (List (String × Node)) → Bool
  | [] => true
  | t :: ts => (encodedDate? t).getD (entriesHoldDates t) && tablesHoldDates ts

end

theorem entriesHoldDates_iff (es : List (String × Node)) :
    entriesHoldDates es = true ↔ ∀ e ∈ es, holdsDates e.2 = true := by
  induction es with
  | nil => simp [entriesHoldDates]
  | cons e es ih => simp [entriesHoldDates, ih]

theorem entriesHoldDates_eq_of_perm {es es' : List (String × Node)} (h : es.Perm es') :
    entriesHoldDates es = entriesHoldDates es' := by
  rw [Bool.eq_iff_iff, entriesHoldDates_iff, entriesHoldDates_iff]
  simp only [h.mem_iff]

/-- The order of the entries does not count. -/
theorem holdsDates_table_of_perm {t u : Table} (h : t.Perm u) (hkeys : (Entries.keys t).Nodup)
    (origin : Origin) : holdsDates (.table origin t) = holdsDates (.table origin u) := by
  rw [holdsDates, holdsDates, encodedDate?_eq_of_perm h hkeys, entriesHoldDates_eq_of_perm h]

end Toml
end Stencil
