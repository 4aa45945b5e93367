import Mathlib.Data.List.Chain
import Stencil.Segment

/-!
# The segments of a text

A text is cut into segments that could not be cut otherwise: a literal text is never empty,
no two of them stand next to each other, and a comment ends with the first end mark behind
its number sign.

**Results.**
* `eq_of_untilMark?`: a mark is looked for up to its first occurrence.
* `Segment.isProper_of_mem_split`: what each segment of a text satisfies.
* `Segment.isChain_split`: literal texts are apart.
-/

namespace Stencil

theorem eq_nil_of_eq_append {mark pre post : List Char} (h : mark = pre ++ mark ++ post) :
    pre = [] := by
  have hlen := congrArg List.length h
  simp only [List.length_append] at hlen
  exact List.eq_nil_of_length_eq_zero (by omega)

/-- The mark that ends a text is its first occurrence. -/
theorem eq_of_untilMark? {mark cs : List Char} {p : List Char × List Char}
    (h : untilMark? mark cs = some p) {pre post : List Char}
    (heq : p.1 ++ mark = pre ++ mark ++ post) : pre = p.1 := by
  induction cs generalizing p pre with
  | nil =>
      obtain ⟨rest, _, rfl⟩ := Option.map_eq_some_iff.1 h
      exact eq_nil_of_eq_append heq
  | cons c cs ih =>
      rw [untilMark?] at h
      split at h
      · cases h
        exact eq_nil_of_eq_append heq
      · next hmark =>
          obtain ⟨q, hq, rfl⟩ := Option.map_eq_some_iff.1 h
          cases pre with
          | nil =>
              -- an occurrence at the very beginning would have been found
              have hcs : c :: cs = mark ++ (post ++ q.2) := by
                have hsplit := untilMark?_eq_append hq
                have hfirst : c :: (q.1 ++ mark) = mark ++ post := heq
                calc
                  c :: cs = c :: (q.1 ++ mark) ++ q.2 := by rw [hsplit, List.cons_append]
                  _ = mark ++ (post ++ q.2) := by rw [hfirst, List.append_assoc]
              rw [afterMark?_eq_some_iff.2 hcs] at hmark
              cases hmark
          | cons d pre =>
              obtain ⟨hd, hrest⟩ := List.cons.inj heq
              rw [← hd, ih hq hrest]

namespace Segment

def isText : Segment → Bool
  | text _ => true
  | _ => false

/-- What a segment of a text satisfies: a literal text is not empty, and a comment ends
with the first end mark. -/
def IsProper (m : Marks) : Segment → Prop
  | text chars => chars ≠ []
  | comment body => ∀ pre post, body ++ m.closing = pre ++ m.closing ++ post → pre = body
  | _ => True

variable {m : Marks}

/-- A directive that is read is no text, and it is proper. -/
theorem isProper_of_head? {cs : List Char} {r : Segment × List Char} (h : head? m cs = some r) :
    r.1.isText = false ∧ r.1.IsProper m := by
  obtain ⟨inner, _, h⟩ := Option.bind_eq_some_iff.1 h
  rcases Option.or_eq_some_iff.1 h with h | ⟨_, h⟩
  · obtain ⟨p, _, rfl⟩ := Option.map_eq_some_iff.1 h
    exact ⟨rfl, trivial⟩
  rcases Option.or_eq_some_iff.1 h with h | ⟨_, h⟩
  · obtain ⟨rest, _, rfl⟩ := Option.map_eq_some_iff.1 h
    exact ⟨rfl, trivial⟩
  · unfold comment? at h
    split at h
    · obtain ⟨p, hp, rfl⟩ := Option.map_eq_some_iff.1 h
      exact ⟨rfl, fun pre post heq => eq_of_untilMark? hp heq⟩
    · cases h

/-- No directive begins with a character with which the begin mark does not begin. -/
theorem head?_eq_none_of_ne {c : Char} (h : c ∉ m.opening.head?) (cs : List Char) :
    head? m (c :: cs) = none := by
  cases hopen : m.opening with
  | nil => exact absurd hopen m.opening_ne_nil
  | cons o os =>
      have hne : o ≠ c := by
        rintro rfl
        exact h (by rw [hopen]; rfl)
      rw [head?, hopen, afterMark?, if_neg hne]
      rfl

theorem consChar_of_isText_eq_false {segments : List Segment}
    (h : ∀ s ∈ segments.head?, s.isText = false) (c : Char) :
    consChar c segments = text [c] :: segments := by
  cases segments with
  | nil => rfl
  | cons s rest =>
      cases s with
      | text chars => cases h _ rfl
      | _ => rfl

theorem isProper_of_mem_consChar {c : Char} {segments : List Segment}
    (h : ∀ s ∈ segments, s.IsProper m) : ∀ s ∈ consChar c segments, s.IsProper m := by
  have hchar (chars : List Char) : (text (c :: chars)).IsProper m := List.cons_ne_nil c chars
  unfold consChar
  split
  · rw [List.forall_mem_cons] at h
    exact List.forall_mem_cons.2 ⟨hchar _, h.2⟩
  · exact List.forall_mem_cons.2 ⟨hchar [], h⟩

/-- Each segment of a text is proper. -/
theorem isProper_of_mem_split (cs : List Char) : ∀ s ∈ split m cs, s.IsProper m := by
  fun_induction split m cs with
  | case1 => simp
  | case2 c cs r h ih => exact List.forall_mem_cons.2 ⟨(isProper_of_head? h).2, ih⟩
  | case3 c cs h ih => exact isProper_of_mem_consChar ih

/-- Whether two segments in a row are not both text. -/
def meets (a b : Segment) : Prop :=
  ¬ (a.isText = true ∧ b.isText = true)

theorem isChain_cons {s : Segment} (hs : s.isText = false) {segments : List Segment}
    (h : segments.IsChain meets) : (s :: segments).IsChain meets := by
  have hmeets (t : Segment) : meets s t := by
    rintro ⟨hst, _⟩
    rw [hs] at hst
    cases hst
  cases segments with
  | nil => exact .singleton s
  | cons t rest => exact .cons_cons (hmeets t) h

theorem isChain_consChar (c : Char) {segments : List Segment} (h : segments.IsChain meets) :
    (consChar c segments).IsChain meets := by
  cases segments with
  | nil => exact .singleton _
  | cons s rest =>
      -- a new text stands before a directive
      have hapart (hs : s.isText = false) : meets (text [c]) s := by
        rintro ⟨_, hst⟩
        rw [hs] at hst
        cases hst
      cases s with
      | text chars =>
          have hsame (t : Segment) (ht : meets (text chars) t) : meets (text (c :: chars)) t := ht
          exact h.cons_of_imp hsame
      | command body => exact .cons_cons (hapart rfl) h
      | escape => exact .cons_cons (hapart rfl) h
      | comment body => exact .cons_cons (hapart rfl) h

/-- **No two literal texts stand next to each other.** -/
theorem isChain_split (cs : List Char) : (split m cs).IsChain meets := by
  fun_induction split m cs with
  | case1 => exact .nil
  | case2 c cs r h ih => exact isChain_cons (isProper_of_head? h).1 ih
  | case3 c cs h ih => exact isChain_consChar c ih

end Segment

end Stencil
