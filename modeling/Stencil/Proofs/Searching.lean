import Stencil.Proofs.Descent
import Stencil.Proofs.Reading
import Stencil.Proofs.Rendering
import Stencil.Proofs.TokenStream

/-!
# No directive is missed

A directive is looked for at every place from left to right, so that none begins in what is
left as literal text: neither in the text of a token, nor in a line break that is dropped
behind a command, however far the directive would go on.  It does not matter where an attempt
before that place has failed.

A text in which no directive begins is therefore cut into nothing but itself.  The text of a
token is such a text when it stands alone, since less follows it there.

**Results.**
* `clear_cons_iff`, `clear_append_iff`: places are clear one after the other.
* `Segment.literalsClear_split`: no directive begins in the literal texts of a text.
* `MissesNone.ofSegments`: what holds of the segments holds of the stretches of the tokens.
* `Segment.split_of_clear`: a text without directives is one literal text.
* `Token.misses_none`: tokens miss no directive, and a text without directives stands for itself.
-/

namespace Stencil

/-! ## Places at which no directive begins -/

/-- Whether no directive begins at any of some characters when others follow them. -/
def Clear (m : Marks) (chars after : List Char) : Prop :=
  ∀ pre c post, chars = pre ++ c :: post → ∀ d, IsDirective m d → ¬ d <+: c :: (post ++ after)

section Clear

variable {m : Marks}

theorem clear_nil (after : List Char) : Clear m [] after := by
  intro pre c post h
  simp at h

/-- Characters are clear if the reader finds nothing at the first, and the others are. -/
theorem clear_cons_iff {c : Char} {cs after : List Char} :
    Clear m (c :: cs) after ↔
      Segment.head? m (c :: (cs ++ after)) = none ∧ Clear m cs after := by
  rw [Segment.head?_eq_none_iff]
  constructor
  · intro h
    refine ⟨h [] c cs rfl, fun pre d post hcs => h (c :: pre) d post ?_⟩
    rw [hcs, List.cons_append]
  · rintro ⟨hfirst, hrest⟩ pre d post hcs
    cases pre with
    | nil =>
        cases hcs
        exact hfirst
    | cons e pre =>
        obtain ⟨-, hcs⟩ := List.cons.inj hcs
        exact hrest pre d post hcs

theorem clear_append_iff {as bs after : List Char} :
    Clear m (as ++ bs) after ↔ Clear m as (bs ++ after) ∧ Clear m bs after := by
  induction as with
  | nil => simp [clear_nil]
  | cons a as ih =>
      rw [List.cons_append, clear_cons_iff, clear_cons_iff, ih, List.append_assoc, and_assoc]

instance decidableClear : ∀ chars after : List Char, Decidable (Clear m chars after)
  | [], after => .isTrue (clear_nil after)
  | _ :: chars, after =>
      have := decidableClear chars after
      decidable_of_iff _ clear_cons_iff.symm

/-- A text is clear if no directive occurs in it. -/
theorem clear_iff {cs : List Char} :
    Clear m cs [] ↔ ∀ pre d post, cs = pre ++ d ++ post → ¬ IsDirective m d := by
  constructor
  · intro h pre d post hcs hd
    obtain ⟨c, ds, rfl⟩ : ∃ c ds, d = c :: ds := List.exists_cons_of_ne_nil hd.ne_nil
    refine h pre c (ds ++ post) (by simp [hcs]) (c :: ds) hd ?_
    rw [List.append_nil]
    exact List.prefix_append (c :: ds) post
  · rintro h pre c post hcs d hd ⟨rest, hrest⟩
    rw [List.append_nil] at hrest
    refine h pre d rest ?_ hd
    rw [hcs, ← hrest, List.append_assoc]

/-- Fewer characters behind a place begin no more directives there. -/
theorem Clear.of_append {chars after : List Char} (h : Clear m chars after) :
    Clear m chars [] := by
  rintro pre c post hchars d hd ⟨rest, hrest⟩
  rw [List.append_nil] at hrest
  refine h pre c post hchars d hd ⟨rest ++ after, ?_⟩
  rw [← List.append_assoc, hrest, List.cons_append]

end Clear

/-! ## Segments -/

namespace Segment

variable {m : Marks}

/-- Whether no directive begins in the literal texts among segments. -/
def LiteralsClear (m : Marks) : List Segment → Prop
  | [] => True
  | s :: rest =>
      (s.isText = true → Clear m (s.source m) (rest.flatMap (source m))) ∧ LiteralsClear m rest

/-- A character at which nothing is read leaves the literal texts clear. -/
theorem literalsClear_consChar {c : Char} {segments : List Segment}
    (hc : head? m (c :: segments.flatMap (source m)) = none) (h : LiteralsClear m segments) :
    LiteralsClear m (consChar c segments) := by
  -- a new text before a directive, or none, is the character alone
  have halone : LiteralsClear m (text [c] :: segments) :=
    ⟨fun _ => clear_cons_iff.2 ⟨hc, clear_nil _⟩, h⟩
  cases segments with
  | nil => exact halone
  | cons s rest =>
      cases s with
      | text chars => exact ⟨fun _ => clear_cons_iff.2 ⟨hc, h.1 rfl⟩, h.2⟩
      | command body => exact halone
      | escape => exact halone
      | comment body => exact halone

/-- **No directive begins in the literal texts of a text.** -/
theorem literalsClear_split (cs : List Char) : LiteralsClear m (split m cs) := by
  fun_induction split m cs with
  | case1 => exact trivial
  | case2 c cs r h ih =>
      refine ⟨fun htext => ?_, ih⟩
      rw [(isProper_of_head? h).1] at htext
      cases htext
  | case3 c cs h ih =>
      refine literalsClear_consChar ?_ ih
      rw [flatMap_source_split]
      exact h

/-- **A text in which no directive begins is one literal text**, if it is not empty. -/
theorem split_of_clear {cs : List Char} (h : Clear m cs []) :
    split m cs = if cs = [] then [] else [text cs] := by
  refine split_of_suffix (fun c s hs => head?_eq_none_iff.2 (fun d hd hprefix => ?_))
  obtain ⟨pre, hpre⟩ := hs
  refine h pre c s hpre.symm d hd ?_
  rw [List.append_nil]
  exact hprefix

end Segment

/-! ## Stretches -/

/-- Whether stretches miss no directive of the text that they make up. -/
structure MissesNone (m : Marks) (stretches : List Stretch) : Prop where
  /-- No directive begins in what a text takes up. -/
  texts : ∀ before s after, stretches = before ++ s :: after → s.token.kind.isText = true →
    Clear m s.source (s.dropped ++ after.flatMap Stretch.chars)
  /-- No directive begins in a line break that is dropped. -/
  breaks : ∀ before s after, stretches = before ++ s :: after →
    Clear m s.dropped (after.flatMap Stretch.chars)

namespace MissesNone

variable {m : Marks}

theorem nil : MissesNone m [] :=
  ⟨fun before s after h => by simp at h, fun before s after h => by simp at h⟩

theorem cons {s : Stretch} {stretches : List Stretch}
    (htext : s.token.kind.isText = true →
      Clear m s.source (s.dropped ++ stretches.flatMap Stretch.chars))
    (hbreak : Clear m s.dropped (stretches.flatMap Stretch.chars)) (h : MissesNone m stretches) :
    MissesNone m (s :: stretches) := by
  constructor
  · intro before t after heq
    cases before with
    | nil =>
        cases heq
        exact htext
    | cons u before =>
        obtain ⟨-, heq⟩ := List.cons.inj heq
        exact h.texts before t after heq
  · intro before t after heq
    cases before with
    | nil =>
        cases heq
        exact hbreak
    | cons u before =>
        obtain ⟨-, heq⟩ := List.cons.inj heq
        exact h.breaks before t after heq

/-- What is left of a clear text misses no directive. -/
theorem consText {chars : List Char} {stretches : List Stretch} (drop : Bool) (line : Nat)
    (hchars : Clear m chars (stretches.flatMap Stretch.chars)) (h : MissesNone m stretches) :
    MissesNone m (Stretch.consText drop line chars stretches) := by
  rw [← leadingBreak_append_keptText drop chars, clear_append_iff] at hchars
  rw [Stretch.consText]
  split
  · exact h
  · exact .cons (fun _ => hchars.2) (clear_nil _) h

/-- No directive begins in the line break at the beginning of a clear text. -/
theorem clear_leadingBreak {segments : List Segment} {cs : List Char} (drop : Bool)
    (h : Segment.LiteralsClear m segments)
    (hcs : segments.flatMap (Segment.source m) =
      leadingBreak drop (Segment.literal segments) ++ cs) :
    Clear m (leadingBreak drop (Segment.literal segments)) cs := by
  have hnone (heq : Segment.literal segments = []) :
      Clear m (leadingBreak drop (Segment.literal segments)) cs := by
    rw [heq, leadingBreak_nil]
    exact clear_nil cs
  cases segments with
  | nil => exact hnone rfl
  | cons s rest =>
      cases s with
      | text chars =>
          -- behind the line break comes the rest of the text, and what follows the text
          have hkept : keptText drop chars ++ rest.flatMap (Segment.source m) = cs := by
            have hsplit : leadingBreak drop chars ++
                (keptText drop chars ++ rest.flatMap (Segment.source m)) =
                  leadingBreak drop chars ++ cs := by
              rw [← List.append_assoc, leadingBreak_append_keptText]
              exact hcs
            exact List.append_cancel_left hsplit
          have hchars : Clear m chars (rest.flatMap (Segment.source m)) := h.1 rfl
          rw [← leadingBreak_append_keptText drop chars, clear_append_iff, hkept] at hchars
          exact hchars.1
      | command body => exact hnone rfl
      | escape => exact hnone rfl
      | comment body => exact hnone rfl

/-- **What holds of the literal texts of segments holds of the stretches of the tokens.** -/
theorem ofSegments {segments : List Segment} (hproper : ∀ s ∈ segments, s.IsProper m)
    (hchain : segments.IsChain Segment.meets) (hclear : Segment.LiteralsClear m segments)
    (trim drop : Bool) (line : Nat) :
    MissesNone m (Stretch.ofSegments m trim drop line segments) := by
  induction segments generalizing drop line with
  | nil => exact nil
  | cons s rest ih =>
      obtain ⟨_, hrest⟩ := List.forall_mem_cons.1 hproper
      obtain ⟨hsource, hclear⟩ := hclear
      have hmisses := ih hrest hchain.of_cons hclear (trim && Token.isCommand s)
        (line + lineFeeds (s.source m))
      -- what follows is made up by the stretches, behind the line break that is dropped
      obtain ⟨_, _, cs, hcs, htiles⟩ := covers_ofSegments hrest hchain.of_cons trim
        (trim && Token.isCommand s) (line + lineFeeds (s.source m))
      rw [Stretch.ofSegments]
      generalize Stretch.ofSegments m trim (trim && Token.isCommand s)
        (line + lineFeeds (s.source m)) rest = stretches at hmisses htiles ⊢
      rw [← htiles.chars_eq] at hcs
      cases ht : s.isText with
      | true =>
          rw [Segment.literal_of_isChain ht hchain, leadingBreak_nil, List.nil_append] at hcs
          rw [if_pos rfl]
          refine consText drop line ?_ hmisses
          rw [← hcs]
          exact hsource ht
      | false =>
          rw [if_neg Bool.false_ne_true]
          refine .cons (fun htext => ?_) (clear_leadingBreak _ hclear hcs) hmisses
          rw [Segment.isText_tokenKind, ht] at htext
          cases htext

end MissesNone

/-! ## Texts without directives -/

/-- A text in which no directive begins is one token, if it is not empty. -/
theorem Token.ofChars_of_clear {m : Marks} {cs : List Char} (h : Clear m cs []) (trim : Bool) :
    ofChars m trim cs = if cs = [] then [] else [⟨.text (String.ofList cs), 1⟩] := by
  rw [ofChars, Segment.split_of_clear h]
  by_cases hcs : cs = []
  · rw [if_pos hcs, if_pos hcs]
    rfl
  · have htext : ofText false 1 cs = [⟨.text (String.ofList cs), 1⟩] := by
      rw [ofText_eq, leadingBreak_false, keptText, if_neg Bool.false_ne_true, if_neg hcs]
      rfl
    rw [if_neg hcs, if_neg hcs, ofSegments, ofSegment, htext]
    rfl

/-- The template of a literal text: one node, or none if the text is empty. -/
def Template.ofText (text : String) : Template :=
  ⟨if text = "" then [] else [.text text]⟩

theorem Template.generate_ofText (text : String) (data : Value) :
    (ofText text).generate data = .ok text := by
  rw [generate_eq_evaluate, ofText]
  by_cases htext : text = ""
  · rw [if_pos htext, htext]
    rfl
  · rw [if_neg htext]
    exact congrArg Except.ok String.append_empty

section Config

variable {config : Config} {m : Marks} (hm : config.marks = .ok m)
include hm

/-- A text in which no directive begins is read as itself. -/
theorem Template.parse_of_clear {text : String} (h : Clear m text.toList []) :
    parse config text = .ok (ofText text) := by
  rw [parse_eq_template hm (Token.ofChars_of_clear h config.trimNewline), ofText]
  by_cases htext : text = ""
  · rw [if_pos htext, htext]
    rfl
  · rw [if_neg htext, if_neg (by simpa using htext), String.ofList_toList]
    rfl

namespace Token

/-- The tokens of a text account for it, and no directive begins in what they leave as
literal text. -/
theorem exists_missesNone (text : String) : ∃ stretches,
    tokenize config text = .ok (stretches.map Stretch.token) ∧
      Accounts m config.trimNewline text.toList stretches ∧ MissesNone m stretches := by
  have hproper := Segment.isProper_of_mem_split (m := m) text.toList
  have hchain := Segment.isChain_split (m := m) text.toList
  have hmisses := MissesNone.ofSegments hproper hchain (Segment.literalsClear_split text.toList)
    config.trimNewline false 1
  obtain ⟨htokens, _, cs, hcs, htiles⟩ :=
    covers_ofSegments hproper hchain config.trimNewline false 1
  rw [Segment.flatMap_source_split, leadingBreak_false, List.nil_append] at hcs
  rw [← hcs] at htiles
  refine ⟨_, ?_, Tiles.accounts htiles, hmisses⟩
  rw [tokenize, hm, Except.map, ofChars, htokens]

/-- A text in which no directive begins is one token, if it is not empty. -/
theorem tokenize_of_clear {text : String} (hne : text ≠ "") (h : Clear m text.toList []) :
    tokenize config text = .ok [⟨.text text, 1⟩] := by
  rw [tokenize, hm, Except.map, ofChars_of_clear h, if_neg (by simpa using hne),
    String.ofList_toList]

/-- The text of a token is just that token when it stands alone. -/
theorem tokenize_of_mem {text s : String} {tokens : List Token} {line : Nat}
    (htokens : tokenize config text = .ok tokens) (hmem : ⟨.text s, line⟩ ∈ tokens) :
    tokenize config s = .ok [⟨.text s, 1⟩] := by
  obtain ⟨stretches, hread, haccounts, hmisses⟩ := exists_missesNone hm text
  rw [htokens] at hread
  cases hread
  obtain ⟨t, ht, htoken⟩ := List.mem_map.1 hmem
  obtain ⟨before, after, hsplit⟩ := List.append_of_mem ht
  have htext : t.token.kind.isText = true := by
    rw [htoken]
    rfl
  have hclear := (hmisses.texts before t after hsplit htext).of_append
  have hspelled := haccounts.spelled t ht
  rw [Stretch.Spelled, htoken] at hspelled
  obtain ⟨hne, hsource⟩ := hspelled
  rw [hsource] at hclear
  exact tokenize_of_clear hm hne hclear

/-- **No directive is missed**: none begins in what tokens leave as literal text, the text of a
token is just that token when it stands alone, and a text in which no directive occurs is read
as itself and generates itself on all data. -/
theorem misses_none :
    (∀ text : String, ∃ stretches,
      tokenize config text = .ok (stretches.map Stretch.token) ∧
        Accounts m config.trimNewline text.toList stretches ∧ MissesNone m stretches) ∧
    (∀ (text s : String) (tokens : List Token) (line : Nat),
      tokenize config text = .ok tokens → ⟨.text s, line⟩ ∈ tokens →
        tokenize config s = .ok [⟨.text s, 1⟩]) ∧
    ∀ text : String, (∀ pre d post, text.toList = pre ++ d ++ post → ¬ IsDirective m d) →
      ∃ t, Template.parse config text = .ok t ∧
        t.nodes = (if text = "" then [] else [.text text]) ∧
          ∀ data, t.generate data = .ok text := by
  refine ⟨exists_missesNone hm, fun text s tokens line htokens hmem => ?_, fun text htext => ?_⟩
  · exact tokenize_of_mem hm htokens hmem
  · exact ⟨_, Template.parse_of_clear hm (clear_iff.2 htext), rfl, Template.generate_ofText text⟩

omit hm in
/-- Brackets that are no directives, behind a command and alone. -/
theorem misses_none_brackets :
    let marks : Marks := ⟨['['], [']'], by decide, by decide, by decide, by decide⟩
    let text := "int a[ ]; f([a, b]);"
    (∃ stretches, tokenize {} ("[x]\n" ++ text) = .ok (stretches.map Stretch.token) ∧
      Accounts marks true ("[x]\n" ++ text).toList stretches ∧ MissesNone marks stretches) ∧
    tokenize {} ("[x]\n" ++ text) = .ok [⟨.command ["x"] "[x]", 1⟩, ⟨.text text, 2⟩] ∧
    tokenize {} text = .ok [⟨.text text, 1⟩] ∧
    ∃ t, Template.parse {} text = .ok t ∧ t.nodes = [.text text] ∧
      ∀ data, t.generate data = .ok text := by
  intro marks text
  have hmarks : Config.marks {} = .ok marks := rfl
  have hclear : Clear marks text.toList [] := by decide
  have hargs : Argument.split ['x'] = [['x']] :=
    IsBody.split_eq (.single (.bare (by decide) (List.all_eq_true.1 (by decide))))
  have htokens : tokenize {} ("[x]\n" ++ text) =
      .ok [⟨.command ["x"] "[x]", 1⟩, ⟨.text text, 2⟩] := by
    have hhead : Segment.head? marks ("[x]\n" ++ text).toList =
        some (.command ['x'], '\n' :: text.toList) := by decide
    have hrest : Clear marks ('\n' :: text.toList) [] := by decide
    have hkept : keptText true ('\n' :: text.toList) = text.toList := rfl
    have htext : ofText true 1 ('\n' :: text.toList) = [⟨.text text, 2⟩] := by
      rw [ofText_eq, hkept, if_neg (by decide), String.ofList_toList]
      rfl
    have hcommand : ofSegment marks false 1 (.command ['x']) = [⟨.command ["x"] "[x]", 1⟩] := by
      rw [ofSegment, hargs]
      rfl
    rw [tokenize, hmarks, Except.map, ofChars_of_head? hhead (Segment.split_of_clear hrest),
      hcommand]
    exact congrArg (fun ts => Except.ok (_ :: ts)) htext
  obtain ⟨hmisses, htext, hparse⟩ := misses_none hmarks
  exact ⟨hmisses _, htokens, htext _ text _ 2 htokens (by simp), hparse text (clear_iff.1 hclear)⟩

end Token

end Config

end Stencil
