import Stencil.Proofs.Argument
import Stencil.Template.Printer

/-!
# Reading a command back

The reader of a command walks over its arguments place by place and takes the longest
arguments that an end mark follows.  An end mark in which some character is neither an item
character nor a blank, and the first such character is no double quote, cannot be taken for
arguments, so that a body that is followed by the mark is read up to it and no further.

**Results.**
* `IsBody.walk`: over a body the reader comes to a place where the arguments may end.
* `Marks.StopsArguments.commandBody?_closing`: from there nothing but the end mark is read.
* `IsBody.head?_command`: a command that was written is read back.
-/

namespace Stencil

namespace Place

def walk : Place → List Char → Option Place
  | p, [] => some p
  | p, c :: cs => (p.step c).bind (fun q => q.walk cs)

theorem walk_append (p : Place) (as bs : List Char) :
    p.walk (as ++ bs) = (p.walk as).bind (fun q => q.walk bs) := by
  induction as generalizing p with
  | nil => rfl
  | cons c cs ih =>
      rw [List.cons_append, walk, walk]
      cases p.step c with
      | none => rfl
      | some q => exact ih q

def IsBegin (p : Place) : Prop :=
  p = start ∨ p = gap

/-- Whether a place lies outside of quoted arguments, behind the begin of one. -/
def IsOutside (p : Place) : Prop :=
  p = bare ∨ p = closed ∨ p = gap

theorem walk_quoted {cs : List Char} (h : IsQuoted cs) : quoted.walk cs = some quoted := by
  induction h with
  | nil => rfl
  | char quote backslash _ ih =>
      rw [walk, step, if_neg quote, if_neg backslash]
      exact ih
  | pair lineFeed _ ih =>
      rw [walk, step, if_neg (by decide), if_pos rfl, Option.bind_some, walk, step,
        if_neg lineFeed]
      exact ih

theorem walk_bare {cs : List Char} (h : ∀ c ∈ cs, Text.isItem c = true) :
    bare.walk cs = some bare := by
  induction cs with
  | nil => rfl
  | cons c cs ih =>
      rw [walk, step, if_pos (h c (by simp))]
      exact ih (fun d hd => h d (by simp [hd]))

theorem walk_gap {cs : List Char} (h : ∀ c ∈ cs, Text.isBlank c = true) :
    gap.walk cs = some gap := by
  induction cs with
  | nil => rfl
  | cons c cs ih =>
      rw [walk, step, if_pos (h c (by simp))]
      exact ih (fun d hd => h d (by simp [hd]))

/-- A double quote opens a quoted argument. -/
theorem step_quote {p : Place} (hp : p.IsBegin) : p.step '"' = some quoted := by
  rcases hp with rfl | rfl
  · rfl
  · rfl

/-- An item character begins a bare argument. -/
theorem step_item {p : Place} (hp : p.IsBegin) {c : Char} (hc : Text.isItem c = true) :
    p.step c = some bare := by
  have hq : c ≠ '"' := Text.ne_quote_of_isItem hc
  rcases hp with rfl | rfl
  · rw [step, if_neg hq, if_pos hc]
  · have hb : Text.isBlank c ≠ true := fun h => by
      rw [Text.isItem_of_isBlank h] at hc
      cases hc
    rw [step, if_neg hb, if_neg hq, if_pos hc]

/-- A blank behind an argument begins a gap. -/
theorem step_blank {p : Place} (hp : p.isEnd = true) {c : Char}
    (hc : Text.isBlank c = true) : p.step c = some gap := by
  cases p with
  | bare => rw [step, if_neg (by simp [Text.isItem_of_isBlank hc]), if_pos hc]
  | closed => rw [step, if_pos hc]
  | start => cases hp
  | gap => cases hp
  | quoted => cases hp
  | escaped => cases hp

theorem isOutside_of_isEnd {p : Place} (h : p.isEnd = true) : p.IsOutside := by
  cases p with
  | bare => exact Or.inl rfl
  | closed => exact Or.inr (Or.inl rfl)
  | start => cases h
  | gap => cases h
  | quoted => cases h
  | escaped => cases h

/-- Item characters and blanks do not lead into a quoted argument. -/
theorem isOutside_of_step {p q : Place} (hp : p.IsOutside) {c : Char} (hc : c ≠ '"')
    (h : p.step c = some q) : q.IsOutside := by
  rcases hp with rfl | rfl | rfl
  · simp only [step] at h
    split at h
    · cases h
      exact Or.inl rfl
    · split at h
      · cases h
        exact Or.inr (Or.inr rfl)
      · cases h
  · simp only [step] at h
    split at h
    · cases h
      exact Or.inr (Or.inr rfl)
    · cases h
  · simp only [step, if_neg hc] at h
    split at h
    · cases h
      exact Or.inr (Or.inr rfl)
    · split at h
      · cases h
        exact Or.inl rfl
      · cases h

/-- Any other character ends the arguments. -/
theorem step_eq_none {p : Place} (hp : p.IsOutside) {c : Char} (hq : c ≠ '"')
    (hi : Text.isItem c = false) (hb : Text.isBlank c = false) : p.step c = none := by
  rcases hp with rfl | rfl | rfl
  · simp [step, hi, hb]
  · simp [step, hb]
  · simp [step, hi, hb, hq]

end Place

open Place

/-- An argument is walked over to a place where the arguments may end. -/
theorem IsArgument.walk {arg : List Char} (h : IsArgument arg) {p : Place}
    (hp : p.IsBegin) : ∃ q, p.walk arg = some q ∧ q.isEnd = true := by
  cases h with
  | bare ne_nil items =>
      cases arg with
      | nil => exact absurd rfl ne_nil
      | cons c cs =>
          refine ⟨.bare, ?_, rfl⟩
          rw [Place.walk, step_item hp (items c (by simp))]
          exact walk_bare (fun d hd => items d (by simp [hd]))
  | quoted inner =>
      refine ⟨closed, ?_, rfl⟩
      rw [List.cons_append, Place.walk, step_quote hp, Option.bind_some, walk_append,
        walk_quoted inner]
      rfl

/-- **A body is walked over to a place where the arguments may end.** -/
theorem IsBody.walk {body : List Char} {args : List (List Char)} (h : IsBody body args)
    {p : Place} (hp : p.IsBegin) : ∃ q, p.walk body = some q ∧ q.isEnd = true := by
  induction h generalizing p with
  | single argument => exact argument.walk hp
  | @more arg blanks rest args argument ne_nil blank _ ih =>
      obtain ⟨q, hq, hend⟩ := argument.walk hp
      cases blanks with
      | nil => exact absurd rfl ne_nil
      | cons c cs =>
          obtain ⟨r, hr, hrend⟩ := ih (Or.inr rfl)
          have hgap : q.walk (c :: cs) = some gap := by
            rw [Place.walk, step_blank hend (blank c (by simp))]
            exact walk_gap (fun d hd => blank d (by simp [hd]))
          refine ⟨r, ?_, hrend⟩
          rw [walk_append, walk_append, hq, Option.bind_some, hgap, Option.bind_some, hr]

/-- A mark whose first character of some kind comes later cannot be found before it. -/
theorem afterMark?_eq_none_of_length_lt {before after pre tail : List Char} {w : Char}
    (hw : w ∉ before) (hlt : pre.length < before.length) :
    afterMark? (before ++ w :: after) (pre ++ w :: tail) = none := by
  cases h : afterMark? (before ++ w :: after) (pre ++ w :: tail) with
  | none => rfl
  | some rest =>
      have heq := congrArg (fun cs => cs[pre.length]?) (afterMark?_eq_some_iff.1 h)
      simp only [List.append_assoc, List.getElem?_append_left hlt,
        List.getElem?_append_right (Nat.le_refl _), Nat.sub_self, List.getElem?_cons_zero] at heq
      exact absurd (List.mem_of_getElem? heq.symm) hw

section Closing

variable {before after : List Char} {w : Char} (hbefore : w ∉ before)
  (hwq : w ≠ '"') (hwi : Text.isItem w = false) (hwb : Text.isBlank w = false)
include hbefore hwq hwi hwb

/-- Behind the begin of an end mark no arguments are read. -/
theorem commandBody?_eq_none {p : Place} (hp : p.IsOutside) {pre : List Char}
    (hpre : ∀ c ∈ pre, c ≠ '"') (hlt : pre.length < before.length) (tail : List Char) :
    commandBody? (before ++ w :: after) p (pre ++ w :: tail) = none := by
  induction pre generalizing p with
  | nil =>
      have hmark : afterMark? (before ++ w :: after) ([] ++ w :: tail) = none :=
        afterMark?_eq_none_of_length_lt hbefore hlt
      rw [List.nil_append, commandBody?, step_eq_none hp hwq hwi hwb]
      simp only [Option.bind_none, commandEnd?]
      rw [List.nil_append] at hmark
      rw [hmark]
      split
      · rfl
      · rfl
  | cons c cs ih =>
      have hmark : afterMark? (before ++ w :: after) (c :: cs ++ w :: tail) = none :=
        afterMark?_eq_none_of_length_lt hbefore hlt
      have hrest : (p.step c).bind (fun q =>
          commandBody? (before ++ w :: after) q (cs ++ w :: tail)) = none := by
        cases hstep : p.step c with
        | none => rfl
        | some q =>
            refine ih (isOutside_of_step hp (hpre c (by simp)) hstep)
              (fun d hd => hpre d (by simp [hd])) ?_
            simp only [List.length_cons] at hlt
            omega
      rw [List.cons_append] at hmark ⊢
      rw [commandBody?, hrest]
      simp only [commandEnd?, hmark]
      split
      · rfl
      · rfl

/-- **Where the arguments may end, nothing but the end mark is read.** -/
theorem commandBody?_mark (hquote : ∀ c ∈ before, c ≠ '"') {p : Place}
    (hp : p.isEnd = true) (rest : List Char) :
    commandBody? (before ++ w :: after) p (before ++ w :: after ++ rest) = some ([], rest) := by
  have hout : p.IsOutside := isOutside_of_isEnd hp
  have hend : commandEnd? (before ++ w :: after) p (before ++ w :: after ++ rest) =
      some ([], rest) := by
    rw [commandEnd?, if_pos hp, afterMark?_eq_some_iff.2 rfl]
    rfl
  cases before with
  | nil =>
      rw [List.nil_append, List.cons_append] at hend ⊢
      rw [commandBody?, step_eq_none hout hwq hwi hwb]
      exact hend
  | cons c cs =>
      have hrest : (p.step c).bind (fun q =>
          commandBody? (c :: cs ++ w :: after) q (cs ++ w :: (after ++ rest))) = none := by
        cases hstep : p.step c with
        | none => rfl
        | some q =>
            refine commandBody?_eq_none hbefore hwq hwi hwb
              (isOutside_of_step hout (hquote c (by simp)) hstep)
              (fun d hd => hquote d (by simp [hd])) ?_ (after ++ rest)
            simp
      simp only [List.append_assoc, List.cons_append] at hend hrest ⊢
      rw [commandBody?, hrest]
      exact hend

end Closing

/-- Whether the end mark stops arguments: the first character of it that is neither an item
character nor a blank is there, and it is no double quote. -/
def Marks.StopsArguments (m : Marks) : Prop :=
  ∃ w, m.closing.find? (fun c => !Text.isItem c && !Text.isBlank c) = some w ∧ w ≠ '"'

/-- An end mark that stands apart stops arguments. -/
theorem Marks.ClosesApart.stopsArguments {m : Marks} (h : m.ClosesApart) : m.StopsArguments := by
  obtain ⟨hquote, hapart⟩ := h
  have hsome : (m.closing.find? (fun c => !Text.isItem c && !Text.isBlank c)).isSome := by
    rw [List.find?_isSome]
    obtain ⟨c, hc, hi, hb⟩ := hapart
    exact ⟨c, hc, by simp [hi, hb]⟩
  obtain ⟨w, hw⟩ := Option.isSome_iff_exists.1 hsome
  refine ⟨w, hw, ?_⟩
  rintro rfl
  exact hquote (List.mem_of_find?_eq_some hw)

/-- An end mark that stops arguments is read where they may end. -/
theorem Marks.StopsArguments.commandBody?_closing {m : Marks} (h : m.StopsArguments) {p : Place}
    (hp : p.isEnd = true) (rest : List Char) :
    commandBody? m.closing p (m.closing ++ rest) = some ([], rest) := by
  obtain ⟨w, hw, hwq⟩ := h
  obtain ⟨hwp, before, after, hsplit, hbefore⟩ := List.find?_eq_some_iff_append.1 hw
  simp only [Bool.and_eq_true, Bool.not_eq_true'] at hwp
  have hne (c : Char) (hc : c ∈ before) : c ≠ '"' := by
    rintro rfl
    have hquote := hbefore '"' hc
    rw [Text.isItem_quote, Text.isBlank_quote] at hquote
    cases hquote
  rw [hsplit]
  refine commandBody?_mark ?_ hwq hwp.1 hwp.2 hne hp rest
  intro hmem
  have := hbefore w hmem
  simp [hwp.1, hwp.2] at this

/-- Characters that the reader walks over are taken before what is read behind them. -/
theorem commandBody?_walk {closing : List Char} {p q : Place} {body : List Char}
    (h : p.walk body = some q) {cs : List Char} {r : List Char × List Char}
    (hr : commandBody? closing q cs = some r) :
    commandBody? closing p (body ++ cs) = some (body ++ r.1, r.2) := by
  induction body generalizing p with
  | nil =>
      cases h
      exact hr
  | cons c body ih =>
      rw [Place.walk] at h
      obtain ⟨p', hp', hwalk⟩ := Option.bind_eq_some_iff.1 h
      rw [List.cons_append, commandBody?, hp', Option.bind_some, ih hwalk]
      rfl

/-- **A command that was written is read back.** -/
theorem IsBody.head?_command {m : Marks} (hm : m.StopsArguments) {body : List Char}
    {args : List (List Char)} (h : IsBody body args) (rest : List Char) :
    Segment.head? m (m.opening ++ body ++ m.closing ++ rest) =
      some (.command body, rest) := by
  obtain ⟨q, hq, hend⟩ := h.walk (p := .start) (Or.inl rfl)
  have hbody := commandBody?_walk hq (hm.commandBody?_closing hend rest)
  have hopen : afterMark? m.opening (m.opening ++ body ++ m.closing ++ rest) =
      some (body ++ (m.closing ++ rest)) := by
    rw [afterMark?_eq_some_iff]
    simp
  rw [Segment.head?, hopen, Option.bind_some, Segment.command?, hbody]
  simp

end Stencil
