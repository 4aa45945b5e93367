import Stencil.Toml.Date

/-!
# Statements of a TOML file

A file is a list of statements, one a line: a header, or a key with its value.  Arrays
and tables in braces may go over several lines, except within a key, and end with a comma;
at most eighty of them are nested.

The readers of lists are bounded by the number of characters, since each turn takes at least
one.

**Results.**
* `isRest_value?`, `isRest_statement?`: a value and a statement are the beginning of the text.
* `items?_fuel`, `pairs?_fuel`, `statements?_fuel`: the bound is never reached.
-/

namespace Stencil
namespace Toml

/-- A line of a TOML file. -/
inductive Statement where
  /-- The header of a table. -/
  | header (key : Key)
  /-- The header of the next of several tables. -/
  | nextHeader (key : Key)
  | assign (key : Key) (n : Node)

/-- The greatest number of parts of a key, and of nested values. -/
def maxDepth : Nat :=
  80

/-- Characters of numbers, dates and truth values. -/
def isWordChar (c : Char) : Bool :=
  c.isAlphanum || c == '_' || c == '-' || c == '+' || c == '.' || c == ':'

/-- A word; a date and a time may have one space between them. -/
def word (cs : List Char) : List Char × List Char :=
  let first := cs.takeWhile isWordChar
  match cs.dropWhile isWordChar with
  | ' ' :: d :: rest =>
      if afterDate? first = some [] ∧ d.isDigit then
        (first ++ ' ' :: (d :: rest).takeWhile isWordChar, (d :: rest).dropWhile isWordChar)
      else (first, ' ' :: d :: rest)
  | rest => (first, rest)

theorem isRest_word {cs : List Char} (h : (word cs).1 ≠ []) : IsRest (word cs).2 cs := by
  -- only a date is followed by a second word, and a date has characters
  have hdate : afterDate? [] ≠ some [] := by decide
  revert h
  simp only [word]
  split
  · next d rest heq =>
      have hsuffix : d :: rest <:+ cs.dropWhile isWordChar := heq ▸ List.suffix_cons _ _
      split
      · next hfirst =>
          intro _
          have hne : cs.takeWhile isWordChar ≠ [] := fun hnil => hdate (hnil ▸ hfirst.1)
          exact .suffix_trans ((List.dropWhile_suffix isWordChar).trans hsuffix) (.dropWhile hne)
      · intro hne
        rw [← heq]
        exact .dropWhile hne
  · intro hne
    exact .dropWhile hne

def wordNode? (cs : List Char) : Option Node :=
  if cs = "true".toList then some (.bool true)
  else if cs = "false".toList then some (.bool false)
  else if isNumber cs then some .number
  else if isDateTime cs then some .dateTime
  else none

/-- The items of an array after its bracket, and the text after the closing one. -/
def items? (value : List Char → Option (Node × List Char)) :
    Nat → List Char → Option (List Node × List Char)
  | 0, _ => none
  | fuel + 1, cs =>
      match skipFill false cs with
      | ']' :: rest => some ([], rest)
      | start =>
          (value start).bind (fun p =>
            match skipFill false p.2 with
            | ',' :: rest => (items? value fuel rest).map (fun q => (p.1 :: q.1, q.2))
            | ']' :: rest => some ([p.1], rest)
            | _ => none)

/-- What follows the part of a list that was read, up to a mark. -/
theorem isRest_of_skipFill {c : Char} {cs mid rest : List Char} (hmid : IsRest mid cs)
    (h : skipFill false mid = c :: rest) : IsRest rest cs :=
  .suffix_trans (IsRest.of_cons_suffix (h ▸ skipFill_suffix false mid)).suffix hmid

theorem isRest_items? {value : List Char → Option (Node × List Char)}
    (hvalue : ∀ {cs p}, value cs = some p → IsRest p.2 cs) {fuel : Nat} {cs : List Char}
    {p : List Node × List Char} (h : items? value fuel cs = some p) : IsRest p.2 cs := by
  fun_induction items? value fuel cs generalizing p with
  | case1 => cases h
  | case2 fuel cs rest hclose =>
      cases h
      exact .of_cons_suffix (hclose ▸ skipFill_suffix false cs)
  | case3 fuel cs _ ih =>
      obtain ⟨q, hq, h⟩ := Option.bind_eq_some_iff.1 h
      have hbehind := (hvalue hq).trans_suffix (skipFill_suffix false cs)
      split at h
      · next rest hcomma =>
          obtain ⟨r, hr, rfl⟩ := Option.map_eq_some_iff.1 h
          exact .suffix_trans (ih rest hr).suffix (isRest_of_skipFill hbehind hcomma)
      · next rest hclose =>
          cases h
          exact isRest_of_skipFill hbehind hclose
      · cases h

theorem items?_fuel {value : List Char → Option (Node × List Char)}
    (hvalue : ∀ {cs p}, value cs = some p → IsRest p.2 cs) {fuel fuel' : Nat} {cs : List Char}
    (h : cs.length < fuel) (h' : cs.length < fuel') :
    items? value fuel cs = items? value fuel' cs := by
  induction fuel generalizing fuel' cs with
  | zero => exact absurd h (Nat.not_lt_zero _)
  | succ fuel ih =>
      cases fuel' with
      | zero => exact absurd h' (Nat.not_lt_zero _)
      | succ fuel' =>
          rw [items?, items?]
          split
          · rfl
          · refine Option.bind_congr (fun q hq => ?_)
            have hbehind := (hvalue hq).trans_suffix (skipFill_suffix false cs)
            split
            · next rest hcomma =>
                have hrest := (isRest_of_skipFill hbehind hcomma).shorter
                have hmore : items? value fuel rest = items? value fuel' rest :=
                  ih (by omega) (by omega)
                rw [hmore]
            · rfl
            · rfl

/-- A key, an equals sign and a value; `skip` skips what may stand around the sign. -/
def pair? (skip : List Char → List Char) (value : List Char → Option (Node × List Char))
    (cs : List Char) : Option ((Key × Node) × List Char) :=
  (key? maxDepth cs).bind (fun k =>
    match skip k.2 with
    | '=' :: rest => (value (skip rest)).map (fun p => ((k.1, p.1), p.2))
    | _ => none)

theorem isRest_pair? {skip : List Char → List Char} (hskip : ∀ cs, skip cs <:+ cs)
    {value : List Char → Option (Node × List Char)}
    (hvalue : ∀ {cs p}, value cs = some p → IsRest p.2 cs) {cs : List Char}
    {p : (Key × Node) × List Char} (h : pair? skip value cs = some p) : IsRest p.2 cs := by
  obtain ⟨k, hk, h⟩ := Option.bind_eq_some_iff.1 h
  split at h
  · next rest hsign =>
      obtain ⟨q, hq, rfl⟩ := Option.map_eq_some_iff.1 h
      have hrest : rest <:+ k.2 := (hsign ▸ List.suffix_cons _ rest).trans (hskip k.2)
      exact .suffix_trans (((hvalue hq).suffix.trans (hskip rest)).trans hrest) (isRest_key? hk)
  · cases h

/-- The pairs of a table after its brace, added to those before, and the text after the
closing one. -/
def pairs? (value : List Char → Option (Node × List Char)) :
    Nat → Table → List Char → Option (Table × List Char)
  | 0, _, _ => none
  | fuel + 1, before, cs =>
      match skipFill false cs with
      | '\x7d' :: rest => some (before, rest)
      | start =>
          (pair? (skipFill false) value start).bind (fun p =>
            (before.assign? p.1.1.last p.1.2 p.1.1.lead).bind (fun t =>
              match skipFill false p.2 with
              | ',' :: rest => pairs? value fuel t rest
              | '\x7d' :: rest => some (t, rest)
              | _ => none))

theorem isRest_pairs? {value : List Char → Option (Node × List Char)}
    (hvalue : ∀ {cs p}, value cs = some p → IsRest p.2 cs) {fuel : Nat} {before : Table}
    {cs : List Char} {p : Table × List Char} (h : pairs? value fuel before cs = some p) :
    IsRest p.2 cs := by
  fun_induction pairs? value fuel before cs generalizing p with
  | case1 => cases h
  | case2 fuel before cs rest hclose =>
      cases h
      exact .of_cons_suffix (hclose ▸ skipFill_suffix false cs)
  | case3 fuel before cs _ ih =>
      obtain ⟨q, hq, h⟩ := Option.bind_eq_some_iff.1 h
      obtain ⟨t, -, h⟩ := Option.bind_eq_some_iff.1 h
      have hbehind := (isRest_pair? (skipFill_suffix false) hvalue hq).trans_suffix
        (skipFill_suffix false cs)
      split at h
      · next rest hcomma =>
          exact .suffix_trans (ih t rest h).suffix (isRest_of_skipFill hbehind hcomma)
      · next rest hclose =>
          cases h
          exact isRest_of_skipFill hbehind hclose
      · cases h

theorem pairs?_fuel {value : List Char → Option (Node × List Char)}
    (hvalue : ∀ {cs p}, value cs = some p → IsRest p.2 cs) {fuel fuel' : Nat} {before : Table}
    {cs : List Char} (h : cs.length < fuel) (h' : cs.length < fuel') :
    pairs? value fuel before cs = pairs? value fuel' before cs := by
  induction fuel generalizing fuel' before cs with
  | zero => exact absurd h (Nat.not_lt_zero _)
  | succ fuel ih =>
      cases fuel' with
      | zero => exact absurd h' (Nat.not_lt_zero _)
      | succ fuel' =>
          rw [pairs?, pairs?]
          split
          · rfl
          · refine Option.bind_congr (fun q hq => Option.bind_congr (fun t _ => ?_))
            have hbehind := (isRest_pair? (skipFill_suffix false) hvalue hq).trans_suffix
              (skipFill_suffix false cs)
            split
            · next rest hcomma =>
                have hrest := (isRest_of_skipFill hbehind hcomma).shorter
                exact ih (by omega) (by omega)
            · rfl
            · rfl

/-- A value with at most so many arrays and tables in one another. -/
def value? : Nat → List Char → Option (Node × List Char)
  | depth, cs =>
      match cs, depth with
      | '[' :: rest, d + 1 =>
          (items? (value? d) (rest.length + 1) rest).map (fun p => (.array p.1, p.2))
      | '\x7b' :: rest, d + 1 =>
          (pairs? (value? d) (rest.length + 1) [] rest).map
            (fun p => (.table .braces p.1, p.2))
      | '"' :: _, _ => (string? cs).map (fun p => (.string p.1, p.2))
      | '\x27' :: _, _ => (string? cs).map (fun p => (.string p.1, p.2))
      | _, _ => (wordNode? (word cs).1).map (fun n => (n, (word cs).2))

theorem isRest_value? {depth : Nat} {cs : List Char} {p : Node × List Char}
    (h : value? depth cs = some p) : IsRest p.2 cs := by
  induction depth using Nat.strongRecOn generalizing cs p with
  | ind depth ih =>
      unfold value? at h
      split at h
      · next rest d =>
          obtain ⟨q, hq, rfl⟩ := Option.map_eq_some_iff.1 h
          exact (isRest_items? (ih d (Nat.lt_succ_self d)) hq).cons _
      · next rest d =>
          obtain ⟨q, hq, rfl⟩ := Option.map_eq_some_iff.1 h
          exact (isRest_pairs? (ih d (Nat.lt_succ_self d)) hq).cons _
      · obtain ⟨q, hq, rfl⟩ := Option.map_eq_some_iff.1 h
        exact isRest_string? hq
      · obtain ⟨q, hq, rfl⟩ := Option.map_eq_some_iff.1 h
        exact isRest_string? hq
      · obtain ⟨n, hn, rfl⟩ := Option.map_eq_some_iff.1 h
        refine isRest_word (fun hnil => ?_)
        have hnone : wordNode? [] = none := by decide
        rw [hnil, hnone] at hn
        cases hn

/-- A statement, and the text after it. -/
def statement? : List Char → Option (Statement × List Char)
  | '[' :: '[' :: cs =>
      (key? maxDepth cs).bind (fun k =>
        match k.2 with
        | ']' :: ']' :: rest => some (.nextHeader k.1, rest)
        | _ => none)
  | '[' :: cs =>
      (key? maxDepth cs).bind (fun k =>
        match k.2 with
        | ']' :: rest => some (.header k.1, rest)
        | _ => none)
  | cs => (pair? skipBlanks (value? maxDepth) cs).map (fun p => (.assign p.1.1 p.1.2, p.2))

theorem isRest_statement? {cs : List Char} {p : Statement × List Char}
    (h : statement? cs = some p) : IsRest p.2 cs := by
  unfold statement? at h
  split at h
  · obtain ⟨k, hk, h⟩ := Option.bind_eq_some_iff.1 h
    split at h
    · next rest hclose =>
        cases h
        have hrest : rest <:+ k.2 := hclose ▸ ⟨[_, _], rfl⟩
        exact (IsRest.suffix_trans hrest (isRest_key? hk)).trans_suffix ⟨[_, _], rfl⟩
    · cases h
  · obtain ⟨k, hk, h⟩ := Option.bind_eq_some_iff.1 h
    split at h
    · next rest hclose =>
        cases h
        have hrest : rest <:+ k.2 := hclose ▸ List.suffix_cons _ rest
        exact (IsRest.suffix_trans hrest (isRest_key? hk)).cons _
    · cases h
  · obtain ⟨q, hq, rfl⟩ := Option.map_eq_some_iff.1 h
    exact isRest_pair? skipBlanks_suffix isRest_value? hq

/-- The statements of a text, each on a line of its own. -/
def statements? : Nat → List Char → Option (List Statement)
  | 0, _ => none
  | fuel + 1, cs =>
      match skipFill false cs with
      | [] => some []
      | start =>
          (statement? start).bind (fun p =>
            (lineEnd? p.2).bind (fun rest => (statements? fuel rest).map (p.1 :: ·)))

theorem statements?_fuel {fuel fuel' : Nat} {cs : List Char} (h : cs.length < fuel)
    (h' : cs.length < fuel') : statements? fuel cs = statements? fuel' cs := by
  induction fuel generalizing fuel' cs with
  | zero => exact absurd h (Nat.not_lt_zero _)
  | succ fuel ih =>
      cases fuel' with
      | zero => exact absurd h' (Nat.not_lt_zero _)
      | succ fuel' =>
          rw [statements?, statements?]
          split
          · rfl
          · refine Option.bind_congr (fun p hp => Option.bind_congr (fun rest hrest => ?_))
            have hbehind : IsRest rest cs := .suffix_trans (lineEnd?_suffix hrest)
              ((isRest_statement? hp).trans_suffix (skipFill_suffix false cs))
            have hshorter := hbehind.shorter
            have hmore : statements? fuel rest = statements? fuel' rest :=
              ih (by omega) (by omega)
            rw [hmore]

/-- A file that is being read: its tables, and the keys of the current one. -/
structure File where
  root : Table := []
  current : List String := []

def File.step? (f : File) : Statement → Option File
  | .header k =>
      (f.root.open? Table.openHeader? k.last k.lead).map (fun t => ⟨t, k.lead ++ [k.last]⟩)
  | .nextHeader k =>
      (f.root.open? Table.openNext? k.last k.lead).map (fun t => ⟨t, k.lead ++ [k.last]⟩)
  | .assign k n =>
      (f.root.update? (Table.assign? k.last n k.lead) f.current).map
        (fun t => { f with root := t })

/-- The table of a text; a byte order mark may stand before it.  Dates that tables encode
have to be there. -/
def read? (text : String) : Option Table :=
  let cs := match text.toList with
    | c :: rest => if c.toNat = 0xFEFF then rest else c :: rest
    | [] => []
  (statements? (cs.length + 1) cs).bind (fun ss =>
    ((ss.foldlM File.step? {}).map File.root).filter entriesHoldDates)

end Toml
end Stencil
