import Stencil.Json.Token

/-!
# Well-formed JSON texts

A draft is the tree of a JSON text before its numbers and strings are judged: it keeps
the order of members and repeated keys.  Tokens are taken from left to right while a
stack holds the arrays and objects that are still open.

**Results.**
* `runText_of_first?`: the first token of a text is taken first.
-/

namespace Stencil
namespace Json

/-- The tree of a JSON text; a number or string without a value is missing. -/
inductive Draft where
  | null
  | bool (b : Bool)
  | number (n : Option Number)
  | string (s : Option String)
  | array (items : List Draft)
  | object (members : List (Option String × Draft))

/-- An open array or object; what it holds so far, the latest first. -/
inductive Nest where
  | array (items : List Draft)
  | object (members : List (Option String × Draft)) (key : Option String)

/-- What may come next, with the open arrays and objects, the innermost first. -/
inductive Reading where
  /-- A value. -/
  | value (nests : List Nest)
  /-- A value, or the end of an empty array. -/
  | firstItem (nests : List Nest)
  /-- A key. -/
  | key (members : List (Option String × Draft)) (nests : List Nest)
  /-- A key, or the end of an empty object. -/
  | firstKey (nests : List Nest)
  /-- The colon after a key. -/
  | colon (members : List (Option String × Draft)) (key : Option String) (nests : List Nest)
  /-- A comma or an end, after a value. -/
  | after (d : Draft) (nests : List Nest)

namespace Reading

def begin? (nests : List Nest) : Token → Option Reading
  | .null => some (after .null nests)
  | .bool b => some (after (.bool b) nests)
  | .number n => some (after (.number n) nests)
  | .string s => some (after (.string s) nests)
  | .openArray => some (firstItem nests)
  | .openObject => some (firstKey nests)
  | _ => none

/-- What follows a value, by the innermost open array or object. -/
def continue? (d : Draft) : List Nest → Token → Option Reading
  | .array items :: nests, .comma => some (value (.array (d :: items) :: nests))
  | .array items :: nests, .closeArray => some (after (.array (d :: items).reverse) nests)
  | .object members k :: nests, .comma => some (key ((k, d) :: members) nests)
  | .object members k :: nests, .closeObject =>
      some (after (.object ((k, d) :: members).reverse) nests)
  | _, _ => none

def step : Reading → Token → Option Reading
  | value nests, t => begin? nests t
  | firstItem nests, .closeArray => some (after (.array []) nests)
  | firstItem nests, t => begin? (.array [] :: nests) t
  | key members nests, .string k => some (colon members k nests)
  | key _ _, _ => none
  | firstKey nests, .closeObject => some (after (.object []) nests)
  | firstKey nests, .string k => some (colon [] k nests)
  | firstKey _, _ => none
  | colon members k nests, .colon => some (value (.object members k :: nests))
  | colon _ _ _, _ => none
  | after d nests, t => continue? d nests t

def run : Reading → List Token → Option Reading
  | r, [] => some r
  | r, t :: ts => (r.step t).bind (fun q => run q ts)

/-- The tree, if nothing is open. -/
def finish? : Reading → Option Draft
  | after d [] => some d
  | _ => none

/-! ## Reading a text from a place on -/

/-- Where a reader comes over the tokens of a text. -/
def runText (r : Reading) (cs : List Char) : Option Reading :=
  (Token.all? cs).bind r.run

theorem runText_nil (r : Reading) : r.runText [] = some r := by
  rw [runText, Token.all?]
  rfl

/-- A token is taken, and the reader goes on behind it. -/
theorem runText_of_first? {c : Char} {cs rest : List Char} {t : Token}
    (hspace : Token.isSpace c = false) (h : Token.first? (c :: cs) = some (t, rest))
    (r : Reading) : r.runText (c :: cs) = (r.step t).bind (fun q => q.runText rest) := by
  have hall : Token.all? (c :: cs) = (Token.all? rest).map (t :: ·) := by
    rw [Token.all?, hspace, if_neg Bool.false_ne_true]
    split
    · next hnone =>
        rw [h] at hnone
        cases hnone
    · next p hp =>
        rw [h] at hp
        cases hp
        rfl
  simp only [runText]
  rw [hall]
  cases Token.all? rest with
  | none => cases r.step t with | none => rfl | some q => rfl
  | some ts => cases hstep : r.step t with
    | none => simp [run, hstep]
    | some q => simp [run, hstep]

/-- A bracket, comma or colon is taken. -/
theorem runText_mark {c : Char} {t : Token} (h : Token.ofChar? c = some t)
    (hspace : Token.isSpace c = false) (cs : List Char) (r : Reading) :
    r.runText (c :: cs) = (r.step t).bind (fun q => q.runText cs) := by
  refine runText_of_first? hspace ?_ r
  rw [Token.first?, h]

end Reading

namespace Draft

def ofText? (text : String) : Option Draft :=
  (Token.all? text.toList).bind (fun ts =>
    ((Reading.value []).run ts).bind Reading.finish?)

theorem ofText?_eq (text : String) :
    ofText? text = ((Reading.value []).runText text.toList).bind Reading.finish? := by
  rw [ofText?, Reading.runText, Option.bind_assoc]

mutual

def depth : Draft → Nat
  | array items => 1 + depthItems items
  | object members => 1 + depthMembers members
  | _ => 0

def depthItems : List Draft → Nat
  | [] => 0
  | d :: ds => max (depth d) (depthItems ds)

def depthMembers : List (Option String × Draft) → Nat
  | [] => 0
  | (_, d) :: ms => max (depth d) (depthMembers ms)

end

end Draft

end Json
end Stencil
