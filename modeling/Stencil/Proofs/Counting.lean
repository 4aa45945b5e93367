import Stencil.Proofs.Concatenation
import Stencil.Proofs.Spelling

/-!
# Every directive is counted once

While a template is assembled, the directives that it will have are those in the nodes that
are there and one for the opener of each body that is under way.  A command adds one, unless it
closes a block: what it closes has been counted when it was opened.  So the directives of a
template are its commands without those that close blocks.

Where nothing is counted nothing is open, and there is nothing to close: a template without
directives is made of tokens without commands, and such tokens leave one text, in which all of
theirs are joined.

**Results.**
* `Assembly.directives_of_advances`, `Assembly.directives_run`: what a directive and what tokens
  add to the directives.
* `Assembly.directives_pos_of_advances`: behind a directive there are directives.
* `Assembly.IsLiteral.run`: tokens without commands add their texts and nothing else.
* `Template.directiveCount_add_closings`: the directives of a template are the commands that
  close no block.
* `Template.isStatic_iff`, `Template.directiveCount_eq_zero_iff`: a template is static just if
  there are no commands, and just if it has no directives.
* `Template.directiveCount_ofTokens`: the parser neither drops nor repeats a directive or a text.
-/

namespace Stencil

/-! ## What tokens hold -/

namespace Token

/-- The arguments of a command. -/
def args? (t : Token) : Option (List String) :=
  match t.kind with
  | .command args _ => some args
  | _ => none

/-- The text that a token stands for, if it is no command. -/
def literal? (t : Token) : Option String :=
  match t.kind with
  | .text s => some s
  | .escape mark => some mark
  | _ => none

/-- The arguments of the commands among tokens, in their order. -/
def commands (tokens : List Token) : List (List String) :=
  tokens.filterMap args?

theorem commands_cons (t : Token) (ts : List Token) :
    commands (t :: ts) = commands [t] ++ commands ts :=
  List.filterMap_append (l := [t])

/-- The texts of the tokens that are no commands, one after the other. -/
def literalText (tokens : List Token) : String :=
  String.join (tokens.filterMap literal?)

/-- How many of some commands close a block. -/
def closings (commands : List (List String)) : Nat :=
  commands.count ["endfor"] + commands.count ["endif"]

end Token

/-! ## Directives -/

theorem branchDirectives_append (as bs : List Branch) :
    branchDirectives (as ++ bs) = branchDirectives as + branchDirectives bs := by
  induction as with
  | nil => simp [branchDirectives]
  | cons b as ih =>
      obtain ⟨test, body, line⟩ := b
      simp only [List.cons_append, branchDirectives, ih]
      omega

theorem branchDirectives_reverse (bs : List Branch) :
    branchDirectives bs.reverse = branchDirectives bs := by
  induction bs with
  | nil => rfl
  | cons b bs ih =>
      obtain ⟨test, body, line⟩ := b
      rw [List.reverse_cons, branchDirectives_append, ih]
      simp only [branchDirectives]
      omega

namespace Directive

/-- How many directives a command adds to a tree that says this: one that closes a block adds
none. -/
def added : Directive → Nat
  | endLoop => 0
  | endCondition => 0
  | _ => 1

/-- **Each command adds a directive or closes a block.** -/
theorem added_of_ofArgs? {vars args : List String} {d : Directive}
    (h : ofArgs? vars args = some d) : d.added + Token.closings [args] = 1 := by
  by_cases hloop : args = ["endfor"]
  · rw [hloop] at h ⊢
    cases h
    rfl
  by_cases hcondition : args = ["endif"]
  · rw [hcondition] at h ⊢
    cases h
    rfl
  have hspelled := spelled_of_ofArgs? h
  have hadded : d.added = 1 := by
    cases d with
    | endLoop => exact absurd hspelled hloop
    | endCondition => exact absurd hspelled hcondition
    | _ => rfl
  have hclosings : Token.closings [args] = 0 := by
    simp [Token.closings, hloop, hcondition]
  omega

end Directive

/-- The directives of an open block: the openers of its bodies, and what is in those that are
done. -/
def Block.directives : Block → Nat
  | loop _ _ _ => 1
  | branch done _ _ => branchDirectives done + 1
  | otherwise done => branchDirectives done + 1

namespace Assembly

def framesDirectives : List Frame → Nat
  | [] => 0
  | f :: frames => framesDirectives frames + bodyDirectives f.outer + f.block.directives

/-- The directives that have been assembled; the opener of each body under way counts. -/
def directives (a : Assembly) : Nat :=
  framesDirectives a.frames + bodyDirectives a.nodes

theorem directives_pushText (a : Assembly) (s : String) :
    (a.pushText s).directives = a.directives := by
  simp [directives, pushText, directives_appendText]

theorem directives_push (frames : List Frame) (nodes : List Node) (n : Node) :
    directives ⟨frames, n :: nodes⟩ = directives ⟨frames, nodes⟩ + n.directives := by
  simp only [directives, bodyDirectives]
  omega

/-- What a block adds where it is opened. -/
theorem directives_enter (frames : List Frame) (nodes : List Node) (block : Block)
    (opener : String) (line : Nat) :
    directives ⟨⟨block, opener, line, nodes⟩ :: frames, []⟩ =
      directives ⟨frames, nodes⟩ + block.directives :=
  rfl

/-- **A directive is added to those that have been assembled, unless it closes a block.** -/
theorem directives_of_advances {a b : Assembly} {raw : String} {line : Nat} {d : Directive}
    (h : Advances raw line a d b) : b.directives = a.directives + d.added := by
  cases h with
  | lookup frames nodes key => exact directives_push frames nodes (.lookup key line)
  | last frames nodes inside => exact directives_push frames nodes (.last line)
  | loop frames nodes var key reverse => exact directives_enter frames nodes _ raw line
  | condition frames nodes test => exact directives_enter frames nodes _ raw line
  | alternative frames nodes done test next testLine opener first outer same =>
      simp only [directives, framesDirectives, Block.directives, bodyDirectives, branchDirectives,
        directives_reverse, Directive.added]
      omega
  | otherwise frames nodes done test testLine opener first outer =>
      simp only [directives, framesDirectives, Block.directives, bodyDirectives, branchDirectives,
        directives_reverse, Directive.added]
      omega
  | endLoop frames nodes var key reverse opener first outer =>
      rw [directives_push, Node.directives, directives_reverse]
      simp only [directives, framesDirectives, Block.directives, Directive.added]
      omega
  | endBranch frames nodes done test testLine opener first outer =>
      rw [directives_push, Node.directives, branchDirectives_reverse]
      simp only [directives, framesDirectives, Block.directives, branchDirectives,
        otherwiseDirectives, directives_reverse, Directive.added]
      omega
  | endOtherwise frames nodes done opener first outer =>
      rw [directives_push, Node.directives, branchDirectives_reverse]
      simp only [directives, framesDirectives, Block.directives, otherwiseDirectives,
        directives_reverse, Directive.added]
      omega

/-- Each open block has been counted. -/
theorem length_frames_le (a : Assembly) : a.frames.length ≤ a.directives := by
  obtain ⟨frames, nodes⟩ := a
  have hframes : frames.length ≤ framesDirectives frames := by
    induction frames with
    | nil => exact Nat.le_refl 0
    | cons f frames ih =>
        have hblock : 1 ≤ f.block.directives := by
          cases f.block with
          | loop var key reverse => exact Nat.le_refl 1
          | branch done test line => exact Nat.le_add_left 1 _
          | otherwise done => exact Nat.le_add_left 1 _
        simp only [List.length_cons, framesDirectives]
        omega
  exact Nat.le_add_right_of_le hframes

/-- A directive that adds none closes a block that was open. -/
theorem added_add_length_pos {a b : Assembly} {raw : String} {line : Nat} {d : Directive}
    (h : Advances raw line a d b) : 0 < d.added + a.frames.length := by
  cases h with
  | endLoop => exact Nat.add_pos_right _ (Nat.succ_pos _)
  | endBranch => exact Nat.add_pos_right _ (Nat.succ_pos _)
  | endOtherwise => exact Nat.add_pos_right _ (Nat.succ_pos _)
  | _ => exact Nat.add_pos_left Nat.one_pos _

/-- **Behind a directive something has been counted**: this directive, or the block that it
closes. -/
theorem directives_pos_of_advances {a b : Assembly} {raw : String} {line : Nat} {d : Directive}
    (h : Advances raw line a d b) : 0 < b.directives := by
  have hadded := directives_of_advances h
  have hopen := length_frames_le a
  have hpos := added_add_length_pos h
  omega

/-! ## Commands -/

/-- A token adds one directive if it is a command, unless this closes a block. -/
theorem directives_step {a b : Assembly} {t : Token} (h : a.step t = .ok b) :
    b.directives + Token.closings (Token.commands [t]) =
      a.directives + (Token.commands [t]).length := by
  obtain ⟨kind, line⟩ := t
  cases kind with
  | text s =>
      cases h
      exact directives_pushText a s
  | escape mark =>
      cases h
      exact directives_pushText a mark
  | comment =>
      cases h
      rfl
  | command args raw =>
      obtain ⟨d, hd, hadvance⟩ := exists_of_command h
      have hadded := Directive.added_of_ofArgs? hd
      have hdirectives := directives_of_advances (advances_of_advance? hadvance)
      show b.directives + Token.closings [args] = a.directives + 1
      omega

/-- **Tokens add one directive for each of their commands that closes no block.** -/
theorem directives_run {a b : Assembly} {ts : List Token} (h : a.run ts = .ok b) :
    b.directives + Token.closings (Token.commands ts) =
      a.directives + (Token.commands ts).length := by
  induction ts generalizing a with
  | nil =>
      cases h
      rfl
  | cons t ts ih =>
      obtain ⟨c, hc, hrest⟩ := exists_of_run_cons h
      have hstep := directives_step hc
      have hrun := ih hrest
      rw [Token.commands_cons, List.length_append]
      simp only [Token.closings, List.count_append] at hstep hrun ⊢
      omega

/-- Behind a command something has been counted. -/
theorem directives_pos_of_run {a b : Assembly} {ts : List Token} (h : a.run ts = .ok b)
    (hcommands : Token.commands ts ≠ []) : 0 < b.directives := by
  induction ts generalizing a with
  | nil => exact absurd rfl hcommands
  | cons t ts ih =>
      obtain ⟨c, hc, hrest⟩ := exists_of_run_cons h
      by_cases htail : Token.commands ts = []
      · -- the last command, behind which nothing is added
        have hrun := directives_run hrest
        rw [htail] at hrun
        obtain ⟨kind, line⟩ := t
        cases kind with
        | command args raw =>
            obtain ⟨d, -, hadvance⟩ := exists_of_command hc
            have hpos := directives_pos_of_advances (advances_of_advance? hadvance)
            have heq : b.directives = c.directives := hrun
            omega
        | _ => exact absurd htail hcommands
      · exact ih hrest htail

/-! ## Tokens without commands -/

/-- Whether only text has been assembled, which comes to some text. -/
structure IsLiteral (a : Assembly) (text : String) : Prop where
  texts : a.nodes.all Node.isText = true
  meaning : ∀ env, evaluateBody env a.nodes.reverse = Meaning.text text

theorem isLiteral_start : start.IsLiteral "" :=
  ⟨rfl, fun _ => rfl⟩

theorem IsLiteral.pushText {a : Assembly} {text : String} (h : a.IsLiteral text) (s : String) :
    (a.pushText s).IsLiteral (text ++ s) := by
  obtain ⟨htexts, hmeaning⟩ := h
  constructor
  · obtain ⟨frames, nodes⟩ := a
    cases nodes with
    | nil => rfl
    | cons n nodes =>
        cases n with
        | text last => exact htexts
        | _ => exact htexts
  · intro env
    have hattach := evaluateBody_attach env a.nodes (.text s)
    rw [hmeaning env] at hattach
    exact hattach

/-- **Tokens without commands add their texts**, one after the other. -/
theorem IsLiteral.run {a b : Assembly} {ts : List Token} {text : String} (h : a.IsLiteral text)
    (hrun : a.run ts = .ok b) (hcommands : Token.commands ts = []) :
    b.IsLiteral (text ++ Token.literalText ts) := by
  induction ts generalizing a text with
  | nil =>
      cases hrun
      rw [Token.literalText, List.filterMap_nil, String.join_nil, String.append_empty]
      exact h
  | cons t ts ih =>
      obtain ⟨c, hc, hrest⟩ := exists_of_run_cons hrun
      rw [Token.commands_cons, List.append_eq_nil_iff] at hcommands
      obtain ⟨htoken, hcommands⟩ := hcommands
      have hadd (s : String) (hliteral : Token.literalText (t :: ts) = s ++ Token.literalText ts)
          (hpush : c = a.pushText s) : b.IsLiteral (text ++ Token.literalText (t :: ts)) := by
        rw [hliteral, ← String.append_assoc]
        rw [hpush] at hrest
        exact ih (h.pushText s) hrest hcommands
      obtain ⟨kind, line⟩ := t
      cases kind with
      | text s =>
          cases hc
          exact hadd s String.join_cons rfl
      | escape mark =>
          cases hc
          exact hadd mark String.join_cons rfl
      | comment =>
          cases hc
          exact ih h hrest hcommands
      | command args raw => cases htoken

end Assembly

/-! ## Templates -/

namespace Template

/-- Texts are no directives. -/
theorem directiveCount_eq_zero_of_isStatic {t : Template} (h : t.isStatic = true) :
    t.directiveCount = 0 := by
  obtain ⟨nodes⟩ := t
  simp only [isStatic, directiveCount] at h ⊢
  induction nodes with
  | nil => rfl
  | cons n nodes ih =>
      rw [List.all_cons, Bool.and_eq_true] at h
      obtain ⟨hn, hnodes⟩ := h
      cases n with
      | text s => rw [bodyDirectives, Node.directives, ih hnodes]
      | _ => cases hn

section Tokens

variable {tokens : List Token} {t : Template} (h : ofTokens tokens = .ok t)
include h

/-- **The directives of a template are the commands that close no block.** -/
theorem directiveCount_add_closings :
    t.directiveCount + Token.closings (Token.commands tokens) =
      (Token.commands tokens).length := by
  obtain ⟨nodes, hrun, hnodes⟩ := exists_of_ofTokens h
  have hdirectives := Assembly.directives_run hrun
  simp only [Assembly.directives, Assembly.framesDirectives, Assembly.start, bodyDirectives,
    Nat.zero_add] at hdirectives
  rw [directiveCount, hnodes, directives_reverse]
  exact hdirectives

/-- **A template without directives is made of tokens without commands.** -/
theorem directiveCount_eq_zero_iff : t.directiveCount = 0 ↔ Token.commands tokens = [] := by
  constructor
  · intro hzero
    obtain ⟨nodes, hrun, hnodes⟩ := exists_of_ofTokens h
    rw [directiveCount, hnodes, directives_reverse] at hzero
    by_cases hcommands : Token.commands tokens = []
    · exact hcommands
    · have hpos := Assembly.directives_pos_of_run hrun hcommands
      simp only [Assembly.directives, Assembly.framesDirectives] at hpos
      omega
  · intro hcommands
    have hcount := directiveCount_add_closings h
    rw [hcommands] at hcount
    exact hcount

/-- Tokens without commands are read as a literal text. -/
theorem isLiteral_ofTokens (hcommands : Token.commands tokens = []) :
    t.isStatic = true ∧ ∀ data, t.generate data = .ok (Token.literalText tokens) := by
  obtain ⟨nodes, hrun, hnodes⟩ := exists_of_ofTokens h
  have hliteral := Assembly.isLiteral_start.run hrun hcommands
  rw [String.empty_append] at hliteral
  constructor
  · rw [isStatic, hnodes, List.all_reverse]
    exact hliteral.texts
  · intro data
    rw [generate_eq_evaluate, evaluate, hnodes, hliteral.meaning]
    rfl

/-- **A template is static just if there are no commands.** -/
theorem isStatic_iff : t.isStatic = true ↔ Token.commands tokens = [] := by
  constructor
  · intro hstatic
    exact (directiveCount_eq_zero_iff h).1 (directiveCount_eq_zero_of_isStatic hstatic)
  · intro hcommands
    exact (isLiteral_ofTokens h hcommands).1

/-- **No directive and no text is dropped or repeated**: a template has as many directives as
there are commands that close no block; it is static just if there are no commands, and just if
it has no directives; and then it generates the texts of its tokens in their order. -/
theorem directiveCount_ofTokens :
    t.directiveCount + Token.closings (Token.commands tokens) =
      (Token.commands tokens).length ∧
    (t.isStatic = true ↔ Token.commands tokens = []) ∧
    (t.isStatic = true ↔ t.directiveCount = 0) ∧
    (t.isStatic = true → ∀ data, t.generate data = .ok (Token.literalText tokens)) := by
  refine ⟨directiveCount_add_closings h, isStatic_iff h, ?_, fun hstatic => ?_⟩
  · exact (isStatic_iff h).trans (directiveCount_eq_zero_iff h).symm
  · exact (isLiteral_ofTokens h ((isStatic_iff h).1 hstatic)).2

omit h in
/-- A loop with a conditional in it, whose ends are not counted, and texts that are joined. -/
theorem directiveCount_ofTokens_loop :
    let loop : List Token := [
      ⟨.command ["for", "x", "in", "xs"] "[for x in xs]", 1⟩,
      ⟨.command ["if", "x", "is", "b"] "[if x is b]", 1⟩, ⟨.command ["last"] "[last]", 1⟩,
      ⟨.command ["else"] "[else]", 1⟩, ⟨.command ["x"] "[x]", 1⟩,
      ⟨.command ["endif"] "[endif]", 1⟩, ⟨.command ["endfor"] "[endfor]", 1⟩, ⟨.escape "[", 1⟩]
    let texts : List Token := [⟨.text "a", 1⟩, ⟨.escape "[", 1⟩, ⟨.comment, 1⟩, ⟨.text "b", 1⟩]
    (∃ t, ofTokens loop = .ok t ∧ t.directiveCount = 5 ∧ t.isStatic = false) ∧
    ∃ t, ofTokens texts = .ok t ∧ t.isStatic = true ∧ t.directiveCount = 0 ∧
      ∀ data, t.generate data = .ok "a[b" := by
  intro loop texts
  have hloop : ofTokens loop = .ok ⟨[.loop "x" "xs" false [.conditional
      [.mk (.is "x" "b") [.last 1] 1] (some [.lookup "x" 1])] 1, .text "["]⟩ := by
    rw [ofTokens_eq_template]
    rfl
  have htexts : ofTokens texts = .ok ⟨[.text "a[b"]⟩ := by
    rw [ofTokens_eq_template]
    rfl
  obtain ⟨hcount, hstatic, -, -⟩ := directiveCount_ofTokens hloop
  obtain ⟨-, hstatic', hzero, hgenerate⟩ := directiveCount_ofTokens htexts
  have hcommands : Token.commands texts = [] := rfl
  refine ⟨⟨_, hloop, ?_, ?_⟩, _, htexts, hstatic'.2 hcommands, ?_, ?_⟩
  · have hseven : (Token.commands loop).length = 7 := rfl
    have htwo : Token.closings (Token.commands loop) = 2 := rfl
    omega
  · exact Bool.eq_false_iff.2 (fun h => List.cons_ne_nil _ _ (hstatic.1 h))
  · exact hzero.1 (hstatic'.2 hcommands)
  · exact hgenerate (hstatic'.2 hcommands)

end Tokens

end Template

end Stencil
