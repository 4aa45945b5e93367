import Stencil.Proofs.Forms

/-!
# Where a directive can be read

The reader of a directive finds one at the beginning of a text just if the grammar has one
there: what it takes is a directive, and where a directive begins it does not come back with
nothing.

From each place the reader can stand in, the grammar says what has to come before the
arguments may end (`Place.Finishes`).  A step over a character keeps this, so that a walk to
such an end has gone over a body.  Conversely a body is walked over, and at its end the mark is
in sight, if no longer arguments are taken.

**Results.**
* `Place.finishes_of_step`, `Place.finishes_of_walk`: what is walked over is what the grammar has.
* `commandBody?_eq_some_iff`: the arguments that are taken are the longest ones before a mark.
* `Segment.isWritten_of_head?`: what is read is a directive.
* `Segment.head?_eq_none_iff`: nothing is read just where no directive begins.
-/

namespace Stencil

/-! ## What is walked over -/

/-- What may follow an argument: nothing, or blanks and further arguments. -/
inductive IsTail : List Char → List (List Char) → Prop where
  | nil : IsTail [] []
  | more {blanks rest : List Char} {args : List (List Char)} (ne_nil : blanks ≠ [])
      (blank : ∀ c ∈ blanks, Text.isBlank c = true) (body : IsBody rest args) :
      IsTail (blanks ++ rest) args

theorem IsTail.isBody {arg tail : List Char} {args : List (List Char)} (h : IsTail tail args)
    (harg : IsArgument arg) : IsBody (arg ++ tail) (arg :: args) := by
  cases h with
  | nil =>
      rw [List.append_nil]
      exact .single harg
  | more ne_nil blank body =>
      rw [← List.append_assoc]
      exact .more harg ne_nil blank body

namespace Place

/-- What has to come from a place on so that the arguments may end behind it. -/
def Finishes : Place → List Char → Prop
  | start, cs => ∃ args, IsBody cs args
  | gap, cs => ∃ blanks rest args, cs = blanks ++ rest ∧
      (∀ c ∈ blanks, Text.isBlank c = true) ∧ IsBody rest args
  | bare, cs => ∃ items tail args, cs = items ++ tail ∧
      (∀ c ∈ items, Text.isItem c = true) ∧ IsTail tail args
  | quoted, cs => ∃ inner tail args, cs = inner ++ '"' :: tail ∧ IsQuoted inner ∧ IsTail tail args
  | escaped, cs => ∃ c inner tail args, cs = c :: (inner ++ '"' :: tail) ∧ c ≠ '\n' ∧
      IsQuoted inner ∧ IsTail tail args
  | closed, cs => ∃ args, IsTail cs args

variable {c : Char} {cs : List Char}

theorem finishes_nil {p : Place} (h : p.isEnd = true) : p.Finishes [] := by
  cases p with
  | bare => exact ⟨[], [], [], rfl, by simp, .nil⟩
  | closed => exact ⟨[], .nil⟩
  | start => cases h
  | gap => cases h
  | quoted => cases h
  | escaped => cases h

/-- A double quote and the rest of a quoted argument begin a body. -/
theorem exists_isBody_of_quoted (h : quoted.Finishes cs) : ∃ args, IsBody ('"' :: cs) args := by
  obtain ⟨inner, tail, args, rfl, hinner, htail⟩ := h
  have hbody := htail.isBody (.quoted hinner)
  rw [List.cons_append, List.cons_append, List.append_assoc] at hbody
  exact ⟨_, hbody⟩

/-- An item character and the rest of a bare argument begin a body. -/
theorem exists_isBody_of_bare (hc : Text.isItem c = true) (h : bare.Finishes cs) :
    ∃ args, IsBody (c :: cs) args := by
  obtain ⟨items, tail, args, rfl, hitems, htail⟩ := h
  have harg : IsArgument (c :: items) :=
    .bare (List.cons_ne_nil c items) (List.forall_mem_cons.2 ⟨hc, hitems⟩)
  exact ⟨_, htail.isBody harg⟩

/-- A blank and the rest of a gap follow an argument. -/
theorem exists_isTail_of_gap (hc : Text.isBlank c = true) (h : gap.Finishes cs) :
    ∃ args, IsTail (c :: cs) args := by
  obtain ⟨blanks, rest, args, rfl, hblanks, hbody⟩ := h
  exact ⟨args, .more (List.cons_ne_nil c blanks) (List.forall_mem_cons.2 ⟨hc, hblanks⟩) hbody⟩

/-- **A step leads to where the rest of what has to come is left.** -/
theorem finishes_of_step {p q : Place} (h : p.step c = some q) (hq : q.Finishes cs) :
    p.Finishes (c :: cs) := by
  cases p with
  | start =>
      simp only [step] at h
      split at h
      · next hquote =>
          cases h
          rw [hquote]
          exact exists_isBody_of_quoted hq
      split at h
      · next hitem =>
          cases h
          exact exists_isBody_of_bare hitem hq
      · cases h
  | gap =>
      simp only [step] at h
      split at h
      · next hblank =>
          cases h
          obtain ⟨blanks, rest, args, rfl, hblanks, hbody⟩ := hq
          exact ⟨c :: blanks, rest, args, rfl, List.forall_mem_cons.2 ⟨hblank, hblanks⟩, hbody⟩
      split at h
      · next hquote =>
          cases h
          obtain ⟨args, hbody⟩ := exists_isBody_of_quoted hq
          rw [hquote]
          exact ⟨[], _, args, rfl, by simp, hbody⟩
      split at h
      · next hitem =>
          cases h
          obtain ⟨args, hbody⟩ := exists_isBody_of_bare hitem hq
          exact ⟨[], _, args, rfl, by simp, hbody⟩
      · cases h
  | bare =>
      simp only [step] at h
      split at h
      · next hitem =>
          cases h
          obtain ⟨items, tail, args, rfl, hitems, htail⟩ := hq
          exact ⟨c :: items, tail, args, rfl, List.forall_mem_cons.2 ⟨hitem, hitems⟩, htail⟩
      split at h
      · next hblank =>
          cases h
          obtain ⟨args, htail⟩ := exists_isTail_of_gap hblank hq
          exact ⟨[], _, args, rfl, by simp, htail⟩
      · cases h
  | quoted =>
      simp only [step] at h
      split at h
      · next hquote =>
          cases h
          obtain ⟨args, htail⟩ := hq
          rw [hquote]
          exact ⟨[], cs, args, rfl, .nil, htail⟩
      split at h
      · next hbackslash =>
          cases h
          obtain ⟨d, inner, tail, args, rfl, hd, hinner, htail⟩ := hq
          rw [hbackslash]
          exact ⟨'\\' :: d :: inner, tail, args, rfl, .pair hd hinner, htail⟩
      · next hquote hbackslash =>
          cases h
          obtain ⟨inner, tail, args, rfl, hinner, htail⟩ := hq
          exact ⟨c :: inner, tail, args, rfl, .char hquote hbackslash hinner, htail⟩
  | escaped =>
      simp only [step] at h
      split at h
      · cases h
      · next hline =>
          cases h
          obtain ⟨inner, tail, args, rfl, hinner, htail⟩ := hq
          exact ⟨c, inner, tail, args, rfl, hline, hinner, htail⟩
  | closed =>
      simp only [step] at h
      split at h
      · next hblank =>
          cases h
          exact exists_isTail_of_gap hblank hq
      · cases h

/-- **A walk to where the arguments may end goes over what has to come.** -/
theorem finishes_of_walk {p q : Place} (h : p.walk cs = some q) (hq : q.isEnd = true) :
    p.Finishes cs := by
  induction cs generalizing p with
  | nil =>
      cases h
      exact finishes_nil hq
  | cons c cs ih =>
      rw [walk] at h
      obtain ⟨next, hstep, hwalk⟩ := Option.bind_eq_some_iff.1 h
      exact finishes_of_step hstep (ih hwalk)

end Place

/-! ## The body of a command -/

section Body

variable {closing : List Char}

/-- What is taken as arguments is walked over. -/
theorem walk_of_commandBody? {p : Place} {cs : List Char} {r : List Char × List Char}
    (h : commandBody? closing p cs = some r) : ∃ q, p.walk r.1 = some q ∧ q.isEnd = true := by
  have hend {cs : List Char} {p : Place} {r : List Char × List Char}
      (h : commandEnd? closing p cs = some r) : ∃ q, p.walk r.1 = some q ∧ q.isEnd = true := by
    unfold commandEnd? at h
    split at h
    · next hp =>
        obtain ⟨rest, _, rfl⟩ := Option.map_eq_some_iff.1 h
        exact ⟨p, rfl, hp⟩
    · cases h
  induction cs generalizing p r with
  | nil => exact hend h
  | cons c cs ih =>
      rw [commandBody?] at h
      split at h
      · next s hs =>
          cases h
          obtain ⟨next, hstep, hbody⟩ := Option.bind_eq_some_iff.1 hs
          obtain ⟨q, hwalk, hq⟩ := ih hbody
          refine ⟨q, ?_, hq⟩
          rw [Place.walk, hstep, Option.bind_some, hwalk]
      · exact hend h

/-- Where the arguments may end and an end mark stands, something is taken. -/
theorem exists_commandBody?_mark (closing : List Char) {p : Place} (hp : p.isEnd = true)
    (rest : List Char) :
    ∃ r, commandBody? closing p (closing ++ rest) = some r := by
  have hend : commandEnd? closing p (closing ++ rest) = some ([], rest) := by
    rw [commandEnd?, if_pos hp, afterMark?_eq_some_iff.2 rfl]
    rfl
  generalize closing ++ rest = cs at hend ⊢
  cases cs with
  | nil => exact ⟨_, hend⟩
  | cons c cs =>
      rw [commandBody?]
      split
      · exact ⟨_, rfl⟩
      · exact ⟨_, hend⟩

/-- Behind any arguments before an end mark, arguments that are at least as long are taken. -/
theorem exists_commandBody?_of_walk (closing : List Char) {p q : Place} {body : List Char}
    (h : p.walk body = some q) (hq : q.isEnd = true) (rest : List Char) :
    ∃ more left, commandBody? closing p (body ++ closing ++ rest) = some (body ++ more, left) := by
  obtain ⟨⟨more, left⟩, hr⟩ := exists_commandBody?_mark closing hq rest
  rw [List.append_assoc]
  exact ⟨more, left, commandBody?_walk h hr⟩

/-- **The arguments that are taken are the longest ones that an end mark follows.** -/
theorem commandBody?_eq_some_iff {cs : List Char} {r : List Char × List Char} :
    commandBody? closing .start cs = some r ↔
      cs = r.1 ++ closing ++ r.2 ∧ (∃ args, IsBody r.1 args) ∧
        ∀ body args rest, IsBody body args → cs = body ++ closing ++ rest →
          body.length ≤ r.1.length := by
  have hlongest {s : List Char × List Char} (hs : commandBody? closing .start cs = some s)
      {body rest : List Char} {args : List (List Char)} (hbody : IsBody body args)
      (hcs : cs = body ++ closing ++ rest) : body.length ≤ s.1.length := by
    obtain ⟨q, hwalk, hq⟩ := hbody.walk (p := .start) (Or.inl rfl)
    obtain ⟨more, left, hmore⟩ := exists_commandBody?_of_walk closing hwalk hq rest
    rw [← hcs, hs] at hmore
    cases hmore
    simp
  constructor
  · intro h
    obtain ⟨q, hwalk, hq⟩ := walk_of_commandBody? h
    exact ⟨commandBody?_eq_append h, Place.finishes_of_walk hwalk hq,
      fun body args rest hbody hcs => hlongest h hbody hcs⟩
  · rintro ⟨hcs, ⟨args, hbody⟩, hmax⟩
    obtain ⟨q, hwalk, hq⟩ := hbody.walk (p := .start) (Or.inl rfl)
    obtain ⟨more, left, hmore⟩ := exists_commandBody?_of_walk closing hwalk hq r.2
    rw [← hcs] at hmore
    obtain ⟨q', hwalk', hq'⟩ := walk_of_commandBody? hmore
    obtain ⟨args', hbody'⟩ : ∃ args', IsBody (r.1 ++ more) args' :=
      Place.finishes_of_walk hwalk' hq'
    have hle := hmax _ args' left hbody' (commandBody?_eq_append hmore)
    have hnil : more = [] := by
      rw [List.length_append] at hle
      exact List.eq_nil_of_length_eq_zero (by omega)
    subst hnil
    rw [List.append_nil] at hmore
    have hleft : left = r.2 := by
      have heq := (commandBody?_eq_append hmore).symm.trans hcs
      exact List.append_cancel_left heq
    rw [hmore, hleft]

end Body

/-! ## Directives -/

namespace Segment

variable {m : Marks}

/-- Whether a segment is a directive as the grammar has it, a comment up to the first end
mark. -/
def IsWritten (m : Marks) : Segment → Prop
  | text _ => False
  | command body => ∃ args, IsBody body args
  | escape => True
  | comment body => (comment body).IsProper m

theorem isDirective_of_isWritten {s : Segment} (h : s.IsWritten m) :
    IsDirective m (s.source m) := by
  cases s with
  | text chars => exact h.elim
  | command body =>
      obtain ⟨args, hbody⟩ := h
      exact .command hbody
  | escape => exact .escape
  | comment body => exact .comment body

/-- **What is read is a directive.** -/
theorem isWritten_of_head? {cs : List Char} {r : Segment × List Char}
    (h : head? m cs = some r) : r.1.IsWritten m := by
  have hproper := (isProper_of_head? h).2
  obtain ⟨inner, _, h⟩ := Option.bind_eq_some_iff.1 h
  rcases Option.or_eq_some_iff.1 h with h | ⟨_, h⟩
  · obtain ⟨p, hp, rfl⟩ := Option.map_eq_some_iff.1 h
    exact (commandBody?_eq_some_iff.1 hp).2.1
  rcases Option.or_eq_some_iff.1 h with h | ⟨_, h⟩
  · obtain ⟨rest, _, rfl⟩ := Option.map_eq_some_iff.1 h
    exact trivial
  · unfold comment? at h
    split at h
    · obtain ⟨p, _, rfl⟩ := Option.map_eq_some_iff.1 h
      exact hproper
    · cases h

/-- What a text is cut into are literal texts and directives. -/
theorem isWritten_of_mem_split (cs : List Char) :
    ∀ s ∈ split m cs, s.isText = false → s.IsWritten m := by
  have htext (chars : List Char) : (text chars).isText = false → (text chars).IsWritten m := by
    intro h
    cases h
  fun_induction split m cs with
  | case1 => simp
  | case2 c cs r h ih => exact List.forall_mem_cons.2 ⟨fun _ => isWritten_of_head? h, ih⟩
  | case3 c cs h ih =>
      unfold consChar
      split
      · next chars rest heq =>
          rw [heq, List.forall_mem_cons] at ih
          exact List.forall_mem_cons.2 ⟨htext (c :: chars), ih.2⟩
      · exact List.forall_mem_cons.2 ⟨htext [c], ih⟩

/-- Where a directive begins, one is read. -/
theorem exists_head?_of_isDirective {d : List Char} (h : IsDirective m d) (rest : List Char) :
    ∃ r, head? m (d ++ rest) = some r := by
  have hopen (cs : List Char) : afterMark? m.opening (m.opening ++ cs) = some cs :=
    afterMark?_eq_some_iff.2 rfl
  cases h with
  | @command body args is_body =>
      obtain ⟨q, hwalk, hq⟩ := is_body.walk (p := .start) (Or.inl rfl)
      obtain ⟨more, left, hbody⟩ :=
        exists_commandBody?_of_walk m.closing hwalk hq rest
      refine ⟨(.command (body ++ more), left), ?_⟩
      rw [List.append_assoc, List.append_assoc, head?, hopen, Option.bind_some, command?,
        ← List.append_assoc, hbody]
      rfl
  | escape =>
      have hescape : escape? m (m.opening ++ m.closing ++ rest) = some (escape, rest) := by
        rw [escape?, afterMark?_eq_some_iff.2 rfl]
        rfl
      rw [List.append_assoc, List.append_assoc, head?, hopen, Option.bind_some,
        ← List.append_assoc, hescape]
      cases command? m (m.opening ++ m.closing ++ rest) with
      | none => exact ⟨_, rfl⟩
      | some s => exact ⟨_, rfl⟩
  | comment body =>
      obtain ⟨p, hp⟩ := exists_untilMark? m.closing body rest
      have hcomment : comment? m ('#' :: (body ++ m.closing ++ rest)) =
          some (comment p.1, p.2) := by
        rw [comment?, hp]
        rfl
      rw [List.append_assoc, List.append_assoc, head?, hopen, Option.bind_some, List.cons_append,
        ← List.append_assoc, hcomment]
      cases command? m ('#' :: (body ++ m.closing ++ rest)) with
      | some s => exact ⟨_, rfl⟩
      | none =>
          cases escape? m ('#' :: (body ++ m.closing ++ rest)) with
          | none => exact ⟨_, rfl⟩
          | some s => exact ⟨_, rfl⟩

/-- **Nothing is read just where no directive begins.** -/
theorem head?_eq_none_iff {cs : List Char} :
    head? m cs = none ↔ ∀ d, IsDirective m d → ¬ d <+: cs := by
  constructor
  · rintro h d hd ⟨rest, rfl⟩
    obtain ⟨r, hr⟩ := exists_head?_of_isDirective hd rest
    rw [h] at hr
    cases hr
  · intro h
    cases hr : head? m cs with
    | none => rfl
    | some r =>
        have hd := isDirective_of_isWritten (isWritten_of_head? hr)
        exact absurd ⟨r.2, (head?_eq_append hr).symm⟩ (h _ hd)

end Segment

end Stencil
