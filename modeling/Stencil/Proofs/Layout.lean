import Stencil.Proofs.Reading
import Stencil.Proofs.TokenStream

/-!
# How the body of a command is laid out

The body of a command is taken by a reader that looks for the longest one before an end mark,
and its arguments are split off by another that skips whatever it does not know.  They agree:
what the first takes is made up of arguments with blanks between them, there is only one way to
see it so, and this is the way in which the second splits it.

A layout is such a way: an argument, and further ones with the blanks before each.  Its
arguments decide it, since none of them begins with a blank.

A command alone is read as itself, with any marks: behind its body there is no room for longer
arguments and another end mark.

**Results.**
* `Layout.isBody`, `IsBody.exists_layout`: bodies are what layouts make up.
* `Layout.IsProper.unique`: there is only one layout of a body.
* `IsBody.head?_command_alone`: a command alone is read as itself.
* `Token.command_layout`: the arguments of a command are those of the only layout of its body,
  and the command alone is read as itself.
-/

namespace Stencil

/-! ## Layouts -/

/-- The first argument of a body, and the further ones with the blanks before each. -/
structure Layout where
  first : List Char
  more : List (List Char × List Char)

namespace Layout

def args (l : Layout) : List (List Char) :=
  l.first :: l.more.map Prod.snd

def chars (l : Layout) : List Char :=
  l.first ++ l.more.flatMap (fun p => p.1 ++ p.2)

/-- Whether a layout is made of arguments with blanks between them. -/
structure IsProper (l : Layout) : Prop where
  argument : ∀ arg ∈ l.args, IsArgument arg
  blank : ∀ p ∈ l.more, p.1 ≠ [] ∧ ∀ c ∈ p.1, Text.isBlank c = true

/-- Without its first argument a layout of several is proper still. -/
theorem IsProper.tail {first : List Char} {p : List Char × List Char}
    {more : List (List Char × List Char)} (h : IsProper ⟨first, p :: more⟩) :
    IsProper ⟨p.2, more⟩ :=
  ⟨fun arg harg => h.argument arg (List.mem_cons_of_mem _ harg),
    fun q hq => h.blank q (List.mem_cons_of_mem _ hq)⟩

/-- **A layout makes up a body of its arguments.** -/
theorem isBody {l : Layout} (h : l.IsProper) : IsBody l.chars l.args := by
  obtain ⟨first, more⟩ := l
  induction more generalizing first with
  | nil =>
      rw [chars, List.flatMap_nil, List.append_nil]
      exact .single (h.argument first (List.mem_cons_self ..))
  | cons p more ih =>
      have hfirst : IsArgument first := h.argument first (List.mem_cons_self ..)
      obtain ⟨hne, hblank⟩ := h.blank p (List.mem_cons_self ..)
      have hchars : chars ⟨first, p :: more⟩ = first ++ p.1 ++ chars ⟨p.2, more⟩ := by
        simp [chars]
      rw [hchars]
      exact .more hfirst hne hblank (ih p.2 h.tail)

end Layout

/-- A body has a layout. -/
theorem IsBody.exists_layout {body : List Char} {args : List (List Char)} (h : IsBody body args) :
    ∃ l : Layout, l.IsProper ∧ l.chars = body ∧ l.args = args := by
  induction h with
  | @single arg argument =>
      refine ⟨⟨arg, []⟩, ⟨?_, by simp⟩, by simp [Layout.chars], rfl⟩
      rw [Layout.args, List.map_nil, List.forall_mem_singleton]
      exact argument
  | @more arg blanks rest args argument ne_nil blank _ ih =>
      obtain ⟨⟨first, more⟩, hproper, hchars, hargs⟩ := ih
      refine ⟨⟨arg, (blanks, first) :: more⟩, ⟨?_, ?_⟩, ?_, ?_⟩
      · exact List.forall_mem_cons.2 ⟨argument, hproper.argument⟩
      · exact List.forall_mem_cons.2 ⟨⟨ne_nil, blank⟩, hproper.blank⟩
      · rw [← hchars]
        simp [Layout.chars]
      · rw [← hargs]
        rfl

/-- No argument begins with a blank. -/
theorem IsArgument.exists_cons {arg : List Char} (h : IsArgument arg) :
    ∃ c cs, arg = c :: cs ∧ Text.isBlank c = false := by
  cases h with
  | bare ne_nil items =>
      cases arg with
      | nil => exact absurd rfl ne_nil
      | cons c cs =>
          refine ⟨c, cs, rfl, Bool.eq_false_iff.2 (fun hblank => ?_)⟩
          have hitem := items c (List.mem_cons_self ..)
          rw [Text.isItem_of_isBlank hblank] at hitem
          cases hitem
  | quoted inner => exact ⟨_, _, rfl, Text.isBlank_quote⟩

/-- Blanks before an argument are all the blanks there. -/
theorem takeWhile_blanks_append {blanks arg : List Char}
    (hblanks : ∀ c ∈ blanks, Text.isBlank c = true) (harg : IsArgument arg) (rest : List Char) :
    (blanks ++ (arg ++ rest)).takeWhile Text.isBlank = blanks := by
  obtain ⟨c, cs, rfl, hc⟩ := harg.exists_cons
  rw [List.takeWhile_append_of_pos hblanks, List.cons_append,
    List.takeWhile_cons_of_neg (by simp [hc]), List.append_nil]

namespace Layout

/-- The arguments of a layout decide where its blanks are. -/
theorem more_eq {as bs : List (List Char × List Char)}
    (has : ∀ p ∈ as, (∀ c ∈ p.1, Text.isBlank c = true) ∧ IsArgument p.2)
    (hbs : ∀ p ∈ bs, (∀ c ∈ p.1, Text.isBlank c = true) ∧ IsArgument p.2)
    (hargs : as.map Prod.snd = bs.map Prod.snd)
    (hchars : as.flatMap (fun p => p.1 ++ p.2) = bs.flatMap (fun p => p.1 ++ p.2)) : as = bs := by
  induction as generalizing bs with
  | nil =>
      rw [List.map_nil] at hargs
      exact (List.map_eq_nil_iff.1 hargs.symm).symm
  | cons a as ih =>
      cases bs with
      | nil => cases hargs
      | cons b bs =>
          obtain ⟨blanks, arg⟩ := a
          obtain ⟨blanks', arg'⟩ := b
          obtain ⟨⟨hblanks, harg⟩, hrestAs⟩ := List.forall_mem_cons.1 has
          obtain ⟨⟨hblanks', harg'⟩, hrestBs⟩ := List.forall_mem_cons.1 hbs
          obtain ⟨heq, hmore⟩ := List.cons.inj hargs
          cases heq
          rw [List.flatMap_cons, List.flatMap_cons, List.append_assoc, List.append_assoc] at hchars
          have hgap : blanks = blanks' := by
            have htake := congrArg (fun cs => cs.takeWhile Text.isBlank) hchars
            simpa only [takeWhile_blanks_append hblanks harg,
              takeWhile_blanks_append hblanks' harg] using htake
          subst hgap
          have hrest := List.append_cancel_left (List.append_cancel_left hchars)
          rw [ih hrestAs hrestBs hmore hrest]

/-- **There is only one layout of a body.** -/
theorem IsProper.unique {l l' : Layout} (h : l.IsProper) (h' : l'.IsProper)
    (hchars : l.chars = l'.chars) : l = l' := by
  have hargs : l.args = l'.args := by
    rw [← (isBody h).split_eq, ← (isBody h').split_eq, hchars]
  obtain ⟨first, more⟩ := l
  obtain ⟨first', more'⟩ := l'
  obtain ⟨rfl, hmore⟩ := List.cons.inj hargs
  have hpairs {first : List Char} {more : List (List Char × List Char)}
      (h : IsProper ⟨first, more⟩) (p : List Char × List Char) (hp : p ∈ more) :
      (∀ c ∈ p.1, Text.isBlank c = true) ∧ IsArgument p.2 :=
    ⟨(h.blank p hp).2, h.argument p.2 (List.mem_cons_of_mem _ (List.mem_map_of_mem hp))⟩
  rw [more_eq (hpairs h) (hpairs h') hmore (List.append_cancel_left hchars)]

end Layout

/-! ## Commands -/

/-- **A command alone is read as itself**, whatever the marks. -/
theorem IsBody.head?_command_alone {m : Marks} {body : List Char} {args : List (List Char)}
    (h : IsBody body args) :
    Segment.head? m (m.opening ++ body ++ m.closing) = some (.command body, []) := by
  have hbody : commandBody? m.closing .start (body ++ m.closing) = some (body, []) := by
    rw [commandBody?_eq_some_iff]
    refine ⟨by simp, ⟨args, h⟩, fun other _ rest _ heq => ?_⟩
    have hlen := congrArg List.length heq
    simp only [List.length_append] at hlen ⊢
    omega
  have hopen : afterMark? m.opening (m.opening ++ body ++ m.closing) =
      some (body ++ m.closing) := by
    rw [afterMark?_eq_some_iff, List.append_assoc]
  rw [Segment.head?, hopen, Option.bind_some, Segment.command?, hbody]
  rfl

namespace Token

/-- A command among the tokens of segments is that of a segment. -/
theorem exists_of_mem_ofSegments {m : Marks} {trim drop : Bool} {first line : Nat}
    {segments : List Segment} {args : List String} {raw : String}
    (h : ⟨.command args raw, line⟩ ∈ ofSegments m trim drop first segments) :
    ∃ body, Segment.command body ∈ segments ∧
      args = (Argument.split body).map String.ofList ∧
        raw = String.ofList ((Segment.command body).source m) := by
  induction segments generalizing drop first with
  | nil => cases h
  | cons s rest ih =>
      rw [ofSegments] at h
      rcases List.mem_append.1 h with h | h
      · cases s with
        | command body =>
            cases List.mem_singleton.1 h
            exact ⟨body, List.mem_cons_self .., rfl, rfl⟩
        | text chars =>
            rw [ofSegment, ofText_eq] at h
            split at h
            · cases h
            · simp at h
        | escape => simp [ofSegment] at h
        | comment body => simp [ofSegment] at h
      · obtain ⟨body, hmem, heq⟩ := ih h
        exact ⟨body, List.mem_cons_of_mem _ hmem, heq⟩

/-- **The arguments of a command are those of the only layout of its body**, and the command
alone is read as itself. -/
theorem command_layout {config : Config} {m : Marks} (hm : config.marks = .ok m)
    {text raw : String} {tokens : List Token} {args : List String} {line : Nat}
    (htokens : tokenize config text = .ok tokens) (hmem : ⟨.command args raw, line⟩ ∈ tokens) :
    ∃ body : String, raw = config.beginMark ++ body ++ config.endMark ∧
      args = Argument.splitText body ∧
      (∃ l : Layout, (l.IsProper ∧ l.chars = body.toList ∧ l.args = args.map String.toList) ∧
        ∀ l' : Layout, l'.IsProper → l'.chars = body.toList → l' = l) ∧
      tokenize config raw = .ok [⟨.command args raw, 1⟩] := by
  obtain ⟨hopen, hclose⟩ := Config.marks_eq_ok hm
  rw [tokenize, hm] at htokens
  cases htokens
  obtain ⟨body, hbody, rfl, rfl⟩ := exists_of_mem_ofSegments hmem
  obtain ⟨args, hargs⟩ := Segment.isWritten_of_mem_split _ _ hbody rfl
  obtain ⟨l, hproper, hchars, hlayout⟩ := hargs.exists_layout
  refine ⟨String.ofList body, ?_, ?_, ⟨l, ⟨hproper, ?_, ?_⟩, fun l' hproper' hchars' => ?_⟩, ?_⟩
  · simp [Segment.source, hopen, hclose, String.ofList_append, String.append_assoc]
  · rw [Argument.splitText, String.toList_ofList]
  · rw [hchars, String.toList_ofList]
  · rw [hlayout, hargs.split_eq]
    simp
  · rw [String.toList_ofList] at hchars'
    exact hproper'.unique hproper (hchars'.trans hchars.symm)
  · have hhead : Segment.head? m ((Segment.command body).source m) = some (.command body, []) :=
      hargs.head?_command_alone
    have hnil : Segment.split m [] = [] := by rw [Segment.split]
    rw [tokenize, hm, Except.map, String.toList_ofList, ofChars_of_head? hhead hnil, ofText_nil]
    rfl

/-- A quoted argument with both marks in it, behind a tab and a space. -/
theorem command_layout_quoted :
    let text := "[x\t \"] [\"] y"
    let raw := "[x\t \"] [\"]"
    let args := ["x", "\"] [\""]
    tokenize {} text = .ok [⟨.command args raw, 1⟩, ⟨.text " y", 1⟩] ∧
    ∃ body : String, raw = "[" ++ body ++ "]" ∧ args = Argument.splitText body ∧
      (∃ l : Layout, (l.IsProper ∧ l.chars = body.toList ∧ l.args = args.map String.toList) ∧
        ∀ l' : Layout, l'.IsProper → l'.chars = body.toList → l' = l) ∧
      tokenize {} raw = .ok [⟨.command args raw, 1⟩] := by
  intro text raw args
  have hmarks : Config.marks {} = .ok
      ⟨['['], [']'], by decide, by decide, by decide, by decide⟩ := rfl
  have hname : IsArgument ['x'] := .bare (by decide) (List.all_eq_true.1 (by decide))
  have hinner : IsQuoted [']', ' ', '['] :=
    .char (by decide) (by decide) (.char (by decide) (by decide)
      (.char (by decide) (by decide) .nil))
  have hblanks : ∀ c ∈ ['\t', ' '], Text.isBlank c = true := List.all_eq_true.1 (by decide)
  have hbody : IsBody "x\t \"] [\"".toList [['x'], "\"] [\"".toList] :=
    .more hname (List.cons_ne_nil _ _) hblanks (.single (.quoted hinner))
  have htokens : tokenize {} text = .ok [⟨.command args raw, 1⟩, ⟨.text " y", 1⟩] := by
    rw [Config.tokenize_of_head? hmarks (r := (.command "x\t \"] [\"".toList, " y".toList))
      (by decide) (by decide), ofSegment, hbody.split_eq]
    rfl
  exact ⟨htokens, command_layout hmarks htokens (List.mem_cons_self ..)⟩

end Token

end Stencil
