import Stencil.Config
import Stencil.Text.Word

/-!
# Segments of a template text

A template text is cut into segments: literal text, commands, escapes and comments.

* A command is a begin mark, arguments separated by blanks, and an end mark.  An
  argument is a run of item characters or text in double quotes in which a backslash
  takes the next character with it.  Of several readings the longest counts.
* An escape is two begin marks and an end mark.
* A comment is a begin mark, a number sign, and anything up to the first end mark.

A directive is looked for at every place from left to right; what lies between two
directives is literal text.

**Results.**
* `afterMark?_eq_some_iff`, `untilMark?_eq_append`, `commandBody?_eq_append`,
  `head?_eq_append`: what is read is the beginning of the text.
* `split_of_head?`, `split_of_head?_eq_none`: a text is split directive by directive and
  character by character.
* `flatMap_source_split`: the sources of the segments are the text.
-/

namespace Stencil

/-- What remains of a text after a mark at its beginning. -/
def afterMark? : List Char → List Char → Option (List Char)
  | [], cs => some cs
  | _ :: _, [] => none
  | m :: ms, c :: cs => if m = c then afterMark? ms cs else none

/-- The text before the first occurrence of a mark and the text after it. -/
def untilMark? (mark : List Char) : List Char → Option (List Char × List Char)
  | [] => (afterMark? mark []).map (fun rest => ([], rest))
  | c :: cs =>
      match afterMark? mark (c :: cs) with
      | some rest => some ([], rest)
      | none => (untilMark? mark cs).map (fun p => (c :: p.1, p.2))

/-- Where in a command's arguments a reader stands. -/
inductive Place where
  /-- Directly after the begin mark. -/
  | start
  /-- After at least one blank. -/
  | gap
  /-- In a bare argument. -/
  | bare
  /-- In a quoted argument. -/
  | quoted
  /-- In a quoted argument, directly after a backslash. -/
  | escaped
  /-- Directly after a quoted argument. -/
  | closed
  deriving DecidableEq

namespace Place

def step : Place → Char → Option Place
  | start, c => if c = '"' then some quoted else if Text.isItem c then some bare else none
  | gap, c =>
      if Text.isBlank c then some gap
      else if c = '"' then some quoted
      else if Text.isItem c then some bare
      else none
  | bare, c => if Text.isItem c then some bare else if Text.isBlank c then some gap else none
  | quoted, c => if c = '"' then some closed else if c = '\\' then some escaped else some quoted
  | escaped, c => if c = '\n' then none else some quoted
  | closed, c => if Text.isBlank c then some gap else none

/-- Whether the arguments may end here. -/
def isEnd : Place → Bool
  | bare => true
  | closed => true
  | _ => false

end Place

/-- The end of a command's arguments: the end mark, at a place where they may end. -/
def commandEnd? (closing : List Char) (p : Place) (cs : List Char) :
    Option (List Char × List Char) :=
  if p.isEnd then (afterMark? closing cs).map (fun rest => ([], rest)) else none

/-- The longest arguments that an end mark follows, and the text after the end mark. -/
def commandBody? (closing : List Char) : Place → List Char → Option (List Char × List Char)
  | p, [] => commandEnd? closing p []
  | p, c :: cs =>
      match (p.step c).bind (fun q => commandBody? closing q cs) with
      | some r => some (c :: r.1, r.2)
      | none => commandEnd? closing p (c :: cs)

/-- A piece of a template text. -/
inductive Segment where
  | text (chars : List Char)
  | command (body : List Char)
  | escape
  | comment (body : List Char)
  deriving DecidableEq

namespace Segment

def source (m : Marks) : Segment → List Char
  | text chars => chars
  | command body => m.opening ++ body ++ m.closing
  | escape => m.opening ++ m.opening ++ m.closing
  | comment body => m.opening ++ '#' :: body ++ m.closing

/-- The comment whose begin mark lies directly before the text. -/
def comment? (m : Marks) : List Char → Option (Segment × List Char)
  | '#' :: cs => (untilMark? m.closing cs).map (fun p => (comment p.1, p.2))
  | _ => none

/-- The escape whose first begin mark lies directly before the text. -/
def escape? (m : Marks) (cs : List Char) : Option (Segment × List Char) :=
  (afterMark? (m.opening ++ m.closing) cs).map (fun rest => (escape, rest))

/-- The command whose begin mark lies directly before the text. -/
def command? (m : Marks) (cs : List Char) : Option (Segment × List Char) :=
  (commandBody? m.closing .start cs).map (fun p => (command p.1, p.2))

/-- The directive at the beginning of a text, and the text after it. -/
def head? (m : Marks) (cs : List Char) : Option (Segment × List Char) :=
  (afterMark? m.opening cs).bind (fun inner =>
    (command? m inner).or ((escape? m inner).or (comment? m inner)))

def consChar (c : Char) : List Segment → List Segment
  | text chars :: rest => text (c :: chars) :: rest
  | rest => text [c] :: rest

end Segment

theorem afterMark?_eq_some_iff {mark cs rest : List Char} :
    afterMark? mark cs = some rest ↔ cs = mark ++ rest := by
  induction mark generalizing cs with
  | nil => simp [afterMark?]
  | cons m ms ih =>
      cases cs with
      | nil => simp [afterMark?]
      | cons c cs =>
          by_cases h : m = c
          · simp [afterMark?, h, ih]
          · simp [afterMark?, h, Ne.symm h]

theorem untilMark?_eq_append {mark cs : List Char} {p : List Char × List Char}
    (h : untilMark? mark cs = some p) : cs = p.1 ++ mark ++ p.2 := by
  induction cs generalizing p with
  | nil =>
      obtain ⟨rest, hr, rfl⟩ := Option.map_eq_some_iff.1 h
      simpa using afterMark?_eq_some_iff.1 hr
  | cons c cs ih =>
      simp only [untilMark?] at h
      split at h
      · next rest hr =>
          cases h
          simpa using afterMark?_eq_some_iff.1 hr
      · obtain ⟨q, hq, rfl⟩ := Option.map_eq_some_iff.1 h
        simpa using ih hq

theorem commandEnd?_eq_append {closing cs : List Char} {p : Place}
    {r : List Char × List Char} (h : commandEnd? closing p cs = some r) :
    cs = r.1 ++ closing ++ r.2 := by
  unfold commandEnd? at h
  split at h
  · obtain ⟨rest, hr, rfl⟩ := Option.map_eq_some_iff.1 h
    simpa using afterMark?_eq_some_iff.1 hr
  · cases h

theorem commandBody?_eq_append {closing cs : List Char} {p : Place}
    {r : List Char × List Char} (h : commandBody? closing p cs = some r) :
    cs = r.1 ++ closing ++ r.2 := by
  induction cs generalizing p r with
  | nil => exact commandEnd?_eq_append h
  | cons c cs ih =>
      simp only [commandBody?] at h
      split at h
      · next q hq =>
          cases h
          obtain ⟨place, _, hbody⟩ := Option.bind_eq_some_iff.1 hq
          simpa using ih hbody
      · exact commandEnd?_eq_append h

namespace Segment

theorem head?_eq_append {m : Marks} {cs : List Char} {r : Segment × List Char}
    (h : head? m cs = some r) : cs = r.1.source m ++ r.2 := by
  obtain ⟨inner, hi, h⟩ := Option.bind_eq_some_iff.1 h
  rw [afterMark?_eq_some_iff.1 hi]
  rcases Option.or_eq_some_iff.1 h with h | ⟨_, h⟩
  · obtain ⟨p, hp, rfl⟩ := Option.map_eq_some_iff.1 h
    simp [source, commandBody?_eq_append hp]
  rcases Option.or_eq_some_iff.1 h with h | ⟨_, h⟩
  · obtain ⟨rest, hr, rfl⟩ := Option.map_eq_some_iff.1 h
    simp [source, afterMark?_eq_some_iff.1 hr]
  · unfold comment? at h
    split at h
    · obtain ⟨p, hp, rfl⟩ := Option.map_eq_some_iff.1 h
      simp [source, untilMark?_eq_append hp]
    · cases h

theorem source_of_head? {m : Marks} {cs : List Char} {r : Segment × List Char}
    (h : head? m cs = some r) : ∃ tail, r.1.source m = m.opening ++ tail := by
  obtain ⟨inner, _, h⟩ := Option.bind_eq_some_iff.1 h
  rcases Option.or_eq_some_iff.1 h with h | ⟨_, h⟩
  · obtain ⟨p, _, rfl⟩ := Option.map_eq_some_iff.1 h
    exact ⟨p.1 ++ m.closing, by simp [source]⟩
  rcases Option.or_eq_some_iff.1 h with h | ⟨_, h⟩
  · obtain ⟨rest, _, rfl⟩ := Option.map_eq_some_iff.1 h
    exact ⟨m.opening ++ m.closing, by simp [source]⟩
  · unfold comment? at h
    split at h
    · obtain ⟨p, _, rfl⟩ := Option.map_eq_some_iff.1 h
      exact ⟨'#' :: p.1 ++ m.closing, by simp [source]⟩
    · cases h

theorem length_lt_of_head? {m : Marks} {cs : List Char} {r : Segment × List Char}
    (h : head? m cs = some r) : r.2.length < cs.length := by
  obtain ⟨tail, ht⟩ := source_of_head? h
  have hlen := congrArg List.length (head?_eq_append h)
  have hm := List.length_pos_iff.2 m.opening_ne_nil
  simp only [ht, List.length_append] at hlen
  omega

/-- The segments of a text. -/
def split (m : Marks) : List Char → List Segment
  | [] => []
  | c :: cs =>
      match _h : head? m (c :: cs) with
      | some r => r.1 :: split m r.2
      | none => consChar c (split m cs)
termination_by cs => cs.length
decreasing_by
  · exact length_lt_of_head? _h
  · simp

theorem split_of_head? {m : Marks} {cs : List Char} {r : Segment × List Char}
    (h : head? m cs = some r) : split m cs = r.1 :: split m r.2 := by
  cases cs with
  | nil =>
      have hlt := length_lt_of_head? h
      simp at hlt
  | cons c cs =>
      rw [split]
      split
      · next s hs =>
          rw [h] at hs
          cases hs
          rfl
      · next hs =>
          rw [h] at hs
          cases hs

theorem split_of_head?_eq_none {m : Marks} {c : Char} {cs : List Char}
    (h : head? m (c :: cs) = none) : split m (c :: cs) = consChar c (split m cs) := by
  rw [split]
  split
  · next s hs =>
      rw [h] at hs
      cases hs
  · rfl

theorem flatMap_source_consChar (m : Marks) (c : Char) (segments : List Segment) :
    (consChar c segments).flatMap (source m) = c :: segments.flatMap (source m) := by
  unfold consChar
  split <;> simp [source]

theorem flatMap_source_split (m : Marks) (cs : List Char) :
    (split m cs).flatMap (source m) = cs := by
  fun_induction split m cs with
  | case1 => rfl
  | case2 c cs r h ih => simp [ih, (head?_eq_append h).symm]
  | case3 c cs h ih => simp [flatMap_source_consChar, ih]

end Segment

end Stencil
