import Stencil.Proofs.Command
import Stencil.Proofs.Segments
import Stencil.Template.WellFormed

/-!
# Commands, escapes and comments between marks

Settings are valid if their marks are not empty, differ, and the end mark does not begin
with a number sign.  That is not enough for the three kinds of directives to be told apart:

* the arguments of a command go on into an end mark that reads as arguments itself;
* two begin marks that read as arguments make a command and no escape;
* a comment whose begin mark begins with a number sign may be an escape.

Each kind has a condition of its own on the marks, under which it is read as what it is,
whatever stands in it and behind it.

**Results.**
* `Marks.OpensNoArgument.head?_escape`, `head?_comment`: escapes and comments are read back.
* `split_of_not_infix`: a text without begin marks is one literal text.
* `Config.readsComments_iff`: comments are told apart just if the begin mark does not begin
  with a number sign.
* `Config.reads_forms`: the three conditions together.
* `Config.valid_not_reads_forms`: valid marks for which each of them fails.
-/

namespace Stencil

/-! ## The kinds of directives -/

/-- Whether no argument begins with the begin mark. -/
def Marks.OpensNoArgument (m : Marks) : Prop :=
  ∀ c ∈ m.opening.head?, Text.isItem c = false ∧ c ≠ '"'

theorem Marks.OpensApart.opensNoArgument {m : Marks} (h : m.OpensApart) :
    m.OpensNoArgument := by
  obtain ⟨c, cs, hopen, hitem, hquote, -, -⟩ := h
  intro d hd
  rw [hopen] at hd
  cases hd
  exact ⟨hitem, hquote⟩

/-- No arguments are read where none begins. -/
theorem commandBody?_start_eq_none {closing cs : List Char}
    (h : ∀ c ∈ cs.head?, Text.isItem c = false ∧ c ≠ '"') :
    commandBody? closing .start cs = none := by
  cases cs with
  | nil => rfl
  | cons c cs =>
      obtain ⟨hitem, hquote⟩ := h c rfl
      have hstep : Place.start.step c = none := by
        rw [Place.step, if_neg hquote, hitem]
        rfl
      rw [commandBody?, hstep]
      rfl

/-- An escape is read as one, since its second begin mark begins no arguments. -/
theorem Marks.OpensNoArgument.head?_escape {m : Marks} (h : m.OpensNoArgument)
    (rest : List Char) :
    Segment.head? m (Segment.escape.source m ++ rest) = some (.escape, rest) := by
  have hmark : afterMark? m.opening (Segment.escape.source m ++ rest) =
      some (m.opening ++ m.closing ++ rest) := by
    rw [afterMark?_eq_some_iff]
    simp [Segment.source]
  have hhead : (m.opening ++ m.closing ++ rest).head? = m.opening.head? := by
    rw [List.append_assoc, List.head?_append_of_ne_nil _ m.opening_ne_nil]
  have hcommand : Segment.command? m (m.opening ++ m.closing ++ rest) = none := by
    rw [Segment.command?, commandBody?_start_eq_none (by rw [hhead]; exact h)]
    rfl
  have hescape : Segment.escape? m (m.opening ++ m.closing ++ rest) = some (.escape, rest) := by
    rw [Segment.escape?, afterMark?_eq_some_iff.2 rfl]
    rfl
  rw [Segment.head?, hmark, Option.bind_some, hcommand, hescape]
  rfl

/-- A mark is found where it first occurs. -/
theorem untilMark?_append {mark body : List Char}
    (hfirst : ∀ pre post, body ++ mark = pre ++ mark ++ post → pre = body) (rest : List Char) :
    untilMark? mark (body ++ mark ++ rest) = some (body, rest) := by
  induction body with
  | nil =>
      have hmark : afterMark? mark (mark ++ rest) = some rest := afterMark?_eq_some_iff.2 rfl
      rw [List.nil_append]
      generalize mark ++ rest = cs at hmark ⊢
      cases cs with
      | nil => rw [untilMark?, hmark]; rfl
      | cons c cs => rw [untilMark?, hmark]
  | cons c cs ih =>
      have hnone : afterMark? mark (c :: (cs ++ mark ++ rest)) = none := by
        cases hr : afterMark? mark (c :: (cs ++ mark ++ rest)) with
        | none => rfl
        | some left =>
            -- the occurrence would lie within the text before the end of the mark
            have heq : (c :: cs ++ mark) ++ rest = mark ++ left := by
              rw [← afterMark?_eq_some_iff.1 hr]
              simp
            have hle : mark.length ≤ (c :: cs ++ mark).length := by
              simp only [List.cons_append, List.length_cons, List.length_append]
              omega
            obtain ⟨post, hpost⟩ := List.prefix_of_prefix_length_le
              (heq ▸ List.prefix_append mark left) (List.prefix_append _ rest) hle
            exact absurd (hfirst [] post hpost.symm) (List.cons_ne_nil c cs).symm
      have hrest (pre post : List Char) (h : cs ++ mark = pre ++ mark ++ post) : pre = cs := by
        have hcons := hfirst (c :: pre) post (by rw [List.cons_append, h]; simp)
        exact (List.cons.inj hcons).2
      rw [List.cons_append, List.cons_append, untilMark?, hnone, ih hrest]
      rfl

/-- A mark that occurs is found. -/
theorem exists_untilMark? (mark pre post : List Char) :
    ∃ p, untilMark? mark (pre ++ mark ++ post) = some p := by
  induction pre with
  | nil =>
      have hmark : afterMark? mark (mark ++ post) = some post := afterMark?_eq_some_iff.2 rfl
      rw [List.nil_append]
      generalize mark ++ post = cs at hmark ⊢
      cases cs with
      | nil => exact ⟨([], post), by rw [untilMark?, hmark]; rfl⟩
      | cons c cs => exact ⟨([], post), by rw [untilMark?, hmark]⟩
  | cons c cs ih =>
      obtain ⟨p, hp⟩ := ih
      rw [List.cons_append, List.cons_append, untilMark?, hp]
      split
      · exact ⟨_, rfl⟩
      · exact ⟨_, rfl⟩

/-- A comment is read up to the first end mark, unless it could be an escape. -/
theorem head?_comment {m : Marks} (h : m.opening.head? ≠ some '#') {body : List Char}
    (hbody : (Segment.comment body).IsProper m) (rest : List Char) :
    Segment.head? m ((Segment.comment body).source m ++ rest) = some (.comment body, rest) := by
  have hmark : afterMark? m.opening ((Segment.comment body).source m ++ rest) =
      some ('#' :: (body ++ m.closing ++ rest)) := by
    rw [afterMark?_eq_some_iff]
    simp [Segment.source]
  have hcommand : Segment.command? m ('#' :: (body ++ m.closing ++ rest)) = none := by
    rw [Segment.command?, commandBody?_start_eq_none]
    · rfl
    · intro c hc
      cases hc
      decide
  have hescape : Segment.escape? m ('#' :: (body ++ m.closing ++ rest)) = none := by
    cases hopen : m.opening with
    | nil => exact absurd hopen m.opening_ne_nil
    | cons c cs =>
        have hne : c ≠ '#' := by
          rintro rfl
          exact h (by rw [hopen]; rfl)
        rw [Segment.escape?, hopen, List.cons_append, afterMark?, if_neg hne]
        rfl
  rw [Segment.head?, hmark, Option.bind_some, hcommand, hescape, Segment.comment?,
    untilMark?_append hbody]
  rfl

/-! ## The text behind a directive -/

namespace Segment

/-- A text in which the reader finds nothing anywhere is one literal text, if it is not empty. -/
theorem split_of_suffix {m : Marks} {cs : List Char}
    (h : ∀ c s, c :: s <:+ cs → head? m (c :: s) = none) :
    split m cs = if cs = [] then [] else [text cs] := by
  induction cs with
  | nil => rw [split]; rfl
  | cons c cs ih =>
      have hrest : ∀ d s, d :: s <:+ cs → head? m (d :: s) = none :=
        fun d s hs => h d s (hs.trans (List.suffix_cons c cs))
      rw [split_of_head?_eq_none (h c cs (List.suffix_refl _)), ih hrest,
        if_neg (List.cons_ne_nil c cs)]
      by_cases hcs : cs = []
      · rw [if_pos hcs, hcs]
        rfl
      · rw [if_neg hcs]
        rfl

/-- A text without begin marks is one literal text. -/
theorem split_of_not_infix {m : Marks} {cs : List Char} (h : ¬ m.opening <:+: cs) :
    split m cs = if cs = [] then [] else [text cs] := by
  refine split_of_suffix (fun c s hs => ?_)
  cases hr : afterMark? m.opening (c :: s) with
  | none => rw [head?, hr]; rfl
  | some rest =>
      have hprefix : m.opening <+: c :: s := ⟨rest, (afterMark?_eq_some_iff.1 hr).symm⟩
      have hsuffix : c :: s <:+: cs := hs.isInfix
      have hwithin : m.opening <:+: c :: s := hprefix.isInfix
      exact absurd (hwithin.trans hsuffix) h

end Segment

namespace Token

/-- A text that is empty leaves no token. -/
theorem ofText_nil (drop : Bool) (line : Nat) : ofText drop line [] = [] := by
  cases drop with
  | false => rfl
  | true => rfl

/-- A directive at the beginning of a text comes first, and then what is left of the text behind
it if that is one literal text. -/
theorem ofChars_of_head? {m : Marks} {cs : List Char} {r : Segment × List Char}
    (h : Segment.head? m cs = some r)
    (hrest : Segment.split m r.2 = if r.2 = [] then [] else [.text r.2]) (trim : Bool) :
    ofChars m trim cs =
      ofSegment m false 1 r.1 ++
        ofText (trim && isCommand r.1) (1 + lineFeeds (r.1.source m)) r.2 := by
  rw [ofChars, Segment.split_of_head? h, hrest, ofSegments]
  by_cases hnil : r.2 = []
  · rw [if_pos hnil, hnil, ofText_nil]
    rfl
  · rw [if_neg hnil, ofSegments, ofSegments, ofSegment, List.append_nil]

end Token

namespace Config

/-! ## What settings make of the kinds -/

/-- Whether a name between the marks is read as a command. -/
def ReadsCommands (config : Config) : Prop :=
  ∀ name text : String, IsName name → ¬ config.beginMark.toList <:+: text.toList →
    ∃ line rest, Token.tokenize config (config.beginMark ++ name ++ config.endMark ++ text) =
      .ok (⟨.command [name] (config.beginMark ++ name ++ config.endMark), line⟩ :: rest)

/-- Whether two begin marks and an end mark are read as an escape. -/
def ReadsEscapes (config : Config) : Prop :=
  ∀ text : String, ¬ config.beginMark.toList <:+: text.toList →
    ∃ line rest, Token.tokenize config
        (config.beginMark ++ config.beginMark ++ config.endMark ++ text) =
      .ok (⟨.escape config.beginMark, line⟩ :: rest)

/-- Whether a number sign and text up to the first end mark are read as a comment, with
nothing but the text behind the end mark left. -/
def ReadsComments (config : Config) : Prop :=
  ∀ body text : String,
    (∀ pre post, body.toList ++ config.endMark.toList = pre ++ config.endMark.toList ++ post →
      pre = body.toList) →
    ¬ config.beginMark.toList <:+: text.toList →
    ∃ line, Token.tokenize config
        (config.beginMark ++ "#" ++ body ++ config.endMark ++ text) =
      .ok (⟨.comment, line⟩ :: Token.ofText false
        (line + lineFeeds (config.beginMark ++ "#" ++ body ++ config.endMark).toList) text.toList)

variable {config : Config} {m : Marks} (hm : config.marks = .ok m)
include hm

theorem tokenize_of_head? {text : String} {r : Segment × List Char}
    (h : Segment.head? m text.toList = some r) (hrest : ¬ m.opening <:+: r.2) :
    Token.tokenize config text =
      .ok (Token.ofSegment m false 1 r.1 ++
        Token.ofText (config.trimNewline && Token.isCommand r.1) (1 + lineFeeds (r.1.source m))
          r.2) := by
  rw [Token.tokenize, hm, Except.map, Token.ofChars_of_head? h (Segment.split_of_not_infix hrest)]

/-- Names are told from an end mark that stops arguments. -/
theorem readsCommands (h : m.StopsArguments) : config.ReadsCommands := by
  obtain ⟨hopen, hclose⟩ := marks_eq_ok hm
  intro name text hname htext
  have hbody : IsBody name.toList [name.toList] :=
    .single (.bare (by simpa using hname.1) hname.2)
  have hhead : Segment.head? m
      (config.beginMark ++ name ++ config.endMark ++ text).toList =
        some (.command name.toList, text.toList) := by
    have hread := hbody.head?_command h text.toList
    rw [hopen, hclose] at hread
    simpa only [String.toList_append] using hread
  have htokens := tokenize_of_head? hm hhead (by rw [hopen]; exact htext)
  rw [Token.ofSegment, hbody.split_eq, Segment.source, hopen, hclose, ← String.toList_append,
    ← String.toList_append, List.map_singleton, String.ofList_toList, String.ofList_toList]
    at htokens
  exact ⟨1, _, htokens⟩

/-- Escapes are told from commands if no argument begins with the begin mark. -/
theorem readsEscapes (h : m.OpensNoArgument) : config.ReadsEscapes := by
  obtain ⟨hopen, hclose⟩ := marks_eq_ok hm
  intro text htext
  have hhead : Segment.head? m
      (config.beginMark ++ config.beginMark ++ config.endMark ++ text).toList =
        some (.escape, text.toList) := by
    have hread := h.head?_escape text.toList
    rw [Segment.source, hopen, hclose] at hread
    simpa only [String.toList_append] using hread
  have htokens := tokenize_of_head? hm hhead (by rw [hopen]; exact htext)
  rw [Token.ofSegment, hopen, String.ofList_toList] at htokens
  exact ⟨1, _, htokens⟩

/-- **Comments are told from escapes just if the begin mark does not begin with a number
sign.** -/
theorem readsComments_iff : config.ReadsComments ↔ m.opening.head? ≠ some '#' := by
  obtain ⟨hopen, hclose⟩ := marks_eq_ok hm
  constructor
  · intro h hhash
    obtain ⟨os, hos⟩ : ∃ os, m.opening = '#' :: os := List.head?_eq_some_iff.1 hhash
    -- the comment that begins like an escape, up to the first end mark in it
    obtain ⟨⟨body, text⟩, hp⟩ := exists_untilMark? m.closing os []
    have hsplit : os ++ m.closing = body ++ m.closing ++ text := by
      simpa using untilMark?_eq_append hp
    have htext : ¬ m.opening <:+: text := by
      intro hi
      have hle := hi.length_le
      have hlen := congrArg List.length hsplit
      rw [hos] at hle
      simp only [List.length_append, List.length_cons] at hle hlen
      omega
    have hfirst : ∀ pre post, body ++ m.closing = pre ++ m.closing ++ post → pre = body :=
      fun pre post heq => eq_of_untilMark? hp heq
    have hopens : m.OpensNoArgument := by
      intro c hc
      rw [hhash] at hc
      cases hc
      decide
    obtain ⟨line, hline⟩ := h (String.ofList body) (String.ofList text)
      (by rw [String.toList_ofList, ← hclose]; exact hfirst)
      (by rw [String.toList_ofList, ← hopen]; exact htext)
    have hescape : (config.beginMark ++ "#" ++ String.ofList body ++ config.endMark ++
        String.ofList text).toList = Segment.escape.source m ++ [] := by
      simp only [String.toList_append, String.toList_ofList, ← hopen, ← hclose, Segment.source,
        List.append_assoc, List.append_nil]
      rw [← List.append_assoc body, ← hsplit, hos]
      rfl
    have hhead : Segment.head? m (config.beginMark ++ "#" ++ String.ofList body ++
        config.endMark ++ String.ofList text).toList = some (.escape, []) := by
      rw [hescape]
      exact hopens.head?_escape []
    rw [tokenize_of_head? hm hhead (by simpa using m.opening_ne_nil)] at hline
    simp [Token.ofSegment] at hline
  · intro h body text hbody htext
    have hproper : (Segment.comment body.toList).IsProper m := by
      rw [← hclose] at hbody
      exact hbody
    have hsource : (config.beginMark ++ "#" ++ body ++ config.endMark).toList =
        (Segment.comment body.toList).source m := by
      simp [Segment.source, hopen, hclose]
    have hhead : Segment.head? m
        (config.beginMark ++ "#" ++ body ++ config.endMark ++ text).toList =
          some (.comment body.toList, text.toList) := by
      rw [String.toList_append, hsource]
      exact head?_comment h hproper text.toList
    refine ⟨1, ?_⟩
    rw [tokenize_of_head? hm hhead (by rw [hopen]; exact htext), hsource]
    simp [Token.ofSegment, Token.isCommand]

/-- **What valid marks need so that each kind of directive is read as what it is.** -/
theorem reads_forms : (m.StopsArguments → config.ReadsCommands) ∧
    (m.OpensNoArgument → config.ReadsEscapes) ∧
    (config.ReadsComments ↔ m.opening.head? ≠ some '#') :=
  ⟨readsCommands hm, readsEscapes hm, readsComments_iff hm⟩

omit hm in
/-- Marks of two characters that meet all three conditions. -/
theorem reads_forms_percent : Config.marks ⟨"<%", "%>", true⟩ = .ok
      ⟨['<', '%'], ['%', '>'], by decide, by decide, by decide, by decide⟩ ∧
    ReadsCommands ⟨"<%", "%>", true⟩ ∧ ReadsEscapes ⟨"<%", "%>", true⟩ ∧
    ReadsComments ⟨"<%", "%>", true⟩ := by
  have hm : Config.marks ⟨"<%", "%>", true⟩ = .ok
      ⟨['<', '%'], ['%', '>'], by decide, by decide, by decide, by decide⟩ := rfl
  obtain ⟨hcommands, hescapes, hcomments⟩ := reads_forms hm
  refine ⟨hm, hcommands ⟨'%', by decide, by decide⟩, hescapes ?_, hcomments.2 (by decide)⟩
  intro c hc
  cases hc
  decide

omit hm in
/-- Valid marks that do not keep the kinds apart: a name runs on over an end mark of item
characters, two begin marks of item characters are a command, and two begin marks that begin
with a number sign are an escape where a comment without text stands. -/
theorem valid_not_reads_forms :
    (Config.Valid ⟨"[", "a", true⟩ ∧
      Token.tokenize ⟨"[", "a", true⟩ "[xaya" = .ok [⟨.command ["xay"] "[xaya", 1⟩] ∧
      ¬ ReadsCommands ⟨"[", "a", true⟩) ∧
    (Config.Valid ⟨"a", "]", true⟩ ∧
      Token.tokenize ⟨"a", "]", true⟩ "aa]" = .ok [⟨.command ["a"] "aa]", 1⟩] ∧
      ¬ ReadsEscapes ⟨"a", "]", true⟩) ∧
    (Config.Valid ⟨"#", "]", true⟩ ∧
      Token.tokenize ⟨"#", "]", true⟩ "##]" = .ok [⟨.escape "#", 1⟩] ∧
      ¬ ReadsComments ⟨"#", "]", true⟩) := by
  have hrunsOn : Argument.split ['x', 'a', 'y'] = [['x', 'a', 'y']] :=
    IsBody.split_eq (.single (.bare (by decide) (List.all_eq_true.1 (by decide))))
  have hmarks : Argument.split ['a'] = [['a']] :=
    IsBody.split_eq (.single (.bare (by decide) (List.all_eq_true.1 (by decide))))
  have hname : Token.tokenize ⟨"[", "a", true⟩ "[xaya" =
      .ok [⟨.command ["xay"] "[xaya", 1⟩] := by
    rw [tokenize_of_head? (m := ⟨['['], ['a'], by decide, by decide, by decide, by decide⟩)
      (r := (.command ['x', 'a', 'y'], [])) rfl (by decide) (by decide), Token.ofSegment, hrunsOn]
    rfl
  have hmark : Token.tokenize ⟨"a", "]", true⟩ "aa]" = .ok [⟨.command ["a"] "aa]", 1⟩] := by
    rw [tokenize_of_head? (m := ⟨['a'], [']'], by decide, by decide, by decide, by decide⟩)
      (r := (.command ['a'], [])) rfl (by decide) (by decide), Token.ofSegment, hmarks]
    rfl
  have hhash : Token.tokenize ⟨"#", "]", true⟩ "##]" = .ok [⟨.escape "#", 1⟩] := by
    rw [tokenize_of_head? (m := ⟨['#'], [']'], by decide, by decide, by decide, by decide⟩)
      (r := (.escape, [])) rfl (by decide) (by decide)]
    rfl
  refine ⟨⟨⟨_, rfl⟩, hname, fun h => ?_⟩, ⟨⟨_, rfl⟩, hmark, fun h => ?_⟩,
    ⟨⟨_, rfl⟩, hhash, fun h => ?_⟩⟩
  · obtain ⟨line, rest, hread⟩ := h "x" "ya" ⟨by decide, List.all_eq_true.1 (by decide)⟩
      (by decide)
    have hread' : Token.tokenize ⟨"[", "a", true⟩ "[xaya" = _ := hread
    rw [hname] at hread'
    simp at hread'
  · obtain ⟨line, rest, hread⟩ := h "" (by decide)
    have hread' : Token.tokenize ⟨"a", "]", true⟩ "aa]" = _ := hread
    rw [hmark] at hread'
    simp at hread'
  · exact (readsComments_iff (m := ⟨['#'], [']'], by decide, by decide, by decide, by decide⟩)
      rfl).1 h rfl

end Config

end Stencil
