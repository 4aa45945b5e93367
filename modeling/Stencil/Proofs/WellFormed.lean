import Stencil.Proofs.Lexed
import Stencil.Proofs.Sites
import Stencil.Proofs.Spelling

/-!
# Templates that are read are well-formed

A directive that is made of arguments has names and variables of item characters, and its
tests of positions are of loops that are open.  An assembly is well-formed if this holds of
all that stands in it, if no two texts meet and if the branches of each conditional are of one
kind.  Every directive that fits keeps an assembly so, and what is closed in it becomes a
well-formed node.

The nodes of an assembly are given latest first, and so are the branches that are done; being
well-formed does not depend on the order.

**Results.**
* `Directive.wellFormed_of_ofArgs?`: directives of a text are well-formed.
* `Assembly.wellFormed_of_advances`, `Assembly.wellFormed_run`: what directives and tokens keep.
* `Template.linesAscend_of_ofTokens`: lines of directives go on as those of the tokens.
* `Template.wellFormed_of_parse`: a template that is read is well-formed, and its lines ascend.
-/

namespace Stencil

/-! ## Order -/

theorem bodyWellFormed_reverse (vars : List String) (ns : List Node) :
    bodyWellFormed vars ns.reverse ↔ bodyWellFormed vars ns := by
  induction ns with
  | nil => rfl
  | cons n ns ih =>
      rw [List.reverse_cons, bodyWellFormed_append, ih]
      simp [bodyWellFormed, and_comm]

theorem branchesWellFormed_append (vars : List String) (kind : ConditionKind)
    (as bs : List Branch) : branchesWellFormed vars kind (as ++ bs) ↔
      branchesWellFormed vars kind as ∧ branchesWellFormed vars kind bs := by
  induction as with
  | nil => simp [branchesWellFormed]
  | cons b as ih =>
      obtain ⟨test, body, line⟩ := b
      simp [branchesWellFormed, ih, and_assoc]

theorem branchesWellFormed_reverse (vars : List String) (kind : ConditionKind)
    (bs : List Branch) :
    branchesWellFormed vars kind bs.reverse ↔ branchesWellFormed vars kind bs := by
  induction bs with
  | nil => rfl
  | cons b bs ih =>
      obtain ⟨test, body, line⟩ := b
      rw [List.reverse_cons, branchesWellFormed_append, ih]
      simp only [branchesWellFormed, and_true]
      constructor
      · rintro ⟨hbs, hkind, htest, hbody, hapart⟩
        exact ⟨hkind, htest, hbody, hapart, hbs⟩
      · rintro ⟨hkind, htest, hbody, hapart, hbs⟩
        exact ⟨hbs, hkind, htest, hbody, hapart⟩

theorem textsApart_iff_isChain (ns : List Node) : textsApart ns ↔ ns.IsChain Node.meets := by
  induction ns with
  | nil => simp [textsApart]
  | cons a ns ih =>
      cases ns with
      | nil => simp [textsApart]
      | cons b ns => rw [textsApart, List.isChain_cons_cons, ih]

theorem Node.meets_comm (a b : Node) : a.meets b ↔ b.meets a :=
  not_congr and_comm

theorem textsApart_reverse (ns : List Node) : textsApart ns.reverse ↔ textsApart ns := by
  have hflip : (fun a b : Node => b.meets a) = Node.meets := by
    funext a b
    exact propext (b.meets_comm a)
  rw [textsApart_iff_isChain, List.isChain_reverse, hflip, textsApart_iff_isChain]

/-- Behind a node that is no text anything can stand. -/
theorem textsApart_cons {n : Node} (hn : n.isText = false) {ns : List Node}
    (h : textsApart ns) : textsApart (n :: ns) := by
  cases ns with
  | nil => exact trivial
  | cons a ns =>
      refine ⟨fun htexts => ?_, h⟩
      rw [hn] at htexts
      cases htexts.1

/-! ## Directives -/

namespace Directive

/-- Names in a directive inside of the loops of some variables. -/
def WellFormed (vars : List String) : Directive → Prop
  | lookup key => IsName key ∧ key ∉ reservedNames
  | loop var key _ => IsVariable var ∧ IsName key
  | condition test => test.WellFormed vars
  | alternative test => test.WellFormed vars
  | _ => True

end Directive

/-- The position of a predicate that a text names is in range. -/
theorem IndexPredicate.inRange_of_ofText? {text : String} {p : IndexPredicate}
    (h : ofText? text = some p) : p.InRange := by
  cases p with
  | nth n =>
      unfold ofText? at h
      split at h
      · cases h
      split at h
      · cases h
      split at h
      · cases h
      split at h
      · cases h
      · obtain ⟨n', hn, hnth⟩ := Option.map_eq_some_iff.1 h
        cases hnth
        obtain ⟨_, hlt⟩ := Option.filter_eq_some_iff.1 hn
        simpa [InRange] using hlt
  | _ => exact trivial

theorem Test.wellFormed_of_spelled {vars args : List String} {isFirst : Bool} {test : Test}
    (hargs : ∀ arg ∈ args, IsArgument arg.toList) (h : test.Spelled vars isFirst args) :
    test.WellFormed vars := by
  cases test with
  | is key literal =>
      obtain ⟨hbare, arg, rfl, _⟩ := h
      exact (hargs key (by simp)).isName hbare
  | index var predicate =>
      obtain ⟨hvar, hmem, arg, rfl, hpredicate⟩ := h
      exact ⟨(hargs var (by simp)).isVariable hvar, hmem,
        IndexPredicate.inRange_of_ofText? hpredicate⟩
  | any key =>
      obtain ⟨hbare, rfl⟩ := h
      exact (hargs key (by simp)).isName hbare

/-- **Directives of a text are well-formed.** -/
theorem Directive.wellFormed_of_ofArgs? {vars args : List String} {d : Directive}
    (hargs : ∀ arg ∈ args, IsArgument arg.toList) (h : ofArgs? vars args = some d) :
    d.WellFormed vars := by
  have hspelled := Directive.ofArgs?_eq_some_iff.1 h
  cases d with
  | lookup key =>
      obtain ⟨hbare, hkey, rfl⟩ := hspelled
      exact ⟨(hargs key (by simp)).isName hbare, hkey⟩
  | loop var key reverse =>
      obtain ⟨hvar, hbare, rfl⟩ := hspelled
      exact ⟨(hargs var (by simp)).isVariable hvar, (hargs key (by simp)).isName hbare⟩
  | condition test => exact Test.wellFormed_of_spelled hargs hspelled
  | alternative test => exact Test.wellFormed_of_spelled hargs hspelled
  | _ => exact trivial

/-! ## Assemblies -/

/-- Whether what an open block is going to be is well-formed so far. -/
def Block.WellFormed (vars : List String) : Block → Prop
  | loop var key _ => IsVariable var ∧ IsName key
  | branch done test _ => test.WellFormed vars ∧ branchesWellFormed vars test.kind done
  | otherwise done => ∃ kind, done ≠ [] ∧ branchesWellFormed vars kind done

namespace Assembly

/-- Whether the open blocks and the nodes before each of them are well-formed. -/
def framesWellFormed : List Frame → Prop
  | [] => True
  | f :: frames =>
      f.block.WellFormed (varsOf frames) ∧
        (bodyWellFormed (varsOf frames) f.outer ∧ textsApart f.outer) ∧
          framesWellFormed frames

/-- Whether all that has been assembled is well-formed. -/
structure WellFormed (a : Assembly) : Prop where
  frames : framesWellFormed a.frames
  nodes : bodyWellFormed a.vars a.nodes
  apart : textsApart a.nodes

theorem wellFormed_start : start.WellFormed :=
  ⟨trivial, trivial, trivial⟩

/-- A node that is no text can be added. -/
theorem WellFormed.push {frames : List Frame} {nodes : List Node}
    (h : WellFormed ⟨frames, nodes⟩) {n : Node} (hn : n.WellFormed (varsOf frames))
    (htext : n.isText = false) : WellFormed ⟨frames, n :: nodes⟩ :=
  ⟨h.frames, ⟨hn, h.nodes⟩, textsApart_cons htext h.apart⟩

/-- Text that is not empty can be added: it is joined to the text before. -/
theorem WellFormed.pushText {a : Assembly} (h : a.WellFormed) {s : String} (hs : s ≠ "") :
    (a.pushText s).WellFormed := by
  obtain ⟨frames, nodes⟩ := a
  obtain ⟨hframes, hnodes, hapart⟩ := h
  cases nodes with
  | nil => exact ⟨hframes, ⟨hs, trivial⟩, trivial⟩
  | cons n nodes =>
      cases n with
      | text before =>
          have hjoined : before ++ s ≠ "" := by simp [hs]
          refine ⟨hframes, ⟨hjoined, hnodes.2⟩, ?_⟩
          cases nodes with
          | nil => exact trivial
          | cons n nodes => exact hapart
      | _ =>
          refine ⟨hframes, ⟨hs, hnodes⟩, fun htexts => ?_, hapart⟩
          cases htexts.2

/-- A block can be opened. -/
theorem WellFormed.enter {frames : List Frame} {nodes : List Node}
    (h : WellFormed ⟨frames, nodes⟩) (block : Block) (hblock : block.WellFormed (varsOf frames))
    (opener : String) (line : Nat) :
    WellFormed ⟨⟨block, opener, line, nodes⟩ :: frames, []⟩ :=
  ⟨⟨hblock, ⟨h.nodes, h.apart⟩, h.frames⟩, trivial, trivial⟩

/-- Around an open block is what was assembled before it. -/
theorem WellFormed.outer {f : Frame} {frames : List Frame} {nodes : List Node}
    (h : WellFormed ⟨f :: frames, nodes⟩) : WellFormed ⟨frames, f.outer⟩ :=
  ⟨h.frames.2.2, h.frames.2.1.1, h.frames.2.1.2⟩

/-- The body of an open block, in its order. -/
theorem WellFormed.body {frames : List Frame} {nodes : List Node}
    (h : WellFormed ⟨frames, nodes⟩) :
    bodyWellFormed (varsOf frames) nodes.reverse ∧ textsApart nodes.reverse :=
  ⟨(bodyWellFormed_reverse _ _).2 h.nodes, (textsApart_reverse _).2 h.apart⟩

/-- A branch whose body is over is of the kind of the branches before it. -/
theorem WellFormed.branch {done : List Branch} {test : Test} {testLine : Nat} {opener : String}
    {line : Nat} {outer : List Node} {frames : List Frame} {nodes : List Node}
    (h : WellFormed ⟨⟨.branch done test testLine, opener, line, outer⟩ :: frames, nodes⟩) :
    branchesWellFormed (varsOf frames) test.kind (.mk test nodes.reverse testLine :: done) := by
  obtain ⟨htest, hdone⟩ := h.frames.1
  obtain ⟨hbody, hapart⟩ := h.body
  exact ⟨rfl, htest, hbody, hapart, hdone⟩

/-- **A directive keeps an assembly well-formed.** -/
theorem wellFormed_of_advances {a b : Assembly} {raw : String} {line : Nat} {d : Directive}
    (h : Advances raw line a d b) (hd : d.WellFormed a.vars) (ha : a.WellFormed) :
    b.WellFormed := by
  cases h with
  | lookup frames nodes key => exact ha.push hd rfl
  | last frames nodes inside => exact ha.push inside rfl
  | loop frames nodes var key reverse => exact ha.enter (.loop var key reverse) hd raw line
  | condition frames nodes test => exact ha.enter (.branch [] test line) ⟨hd, trivial⟩ raw line
  | alternative frames nodes done test next testLine opener first outer same =>
      have hbranch := ha.branch
      rw [← same] at hbranch
      exact ha.outer.enter (.branch _ next line) ⟨hd, hbranch⟩ opener first
  | otherwise frames nodes done test testLine opener first outer =>
      exact ha.outer.enter (.otherwise _) ⟨test.kind, List.cons_ne_nil _ _, ha.branch⟩ opener
        first
  | endLoop frames nodes var key reverse opener first outer =>
      obtain ⟨hvar, hkey⟩ := ha.frames.1
      exact ha.outer.push ⟨hvar, hkey, ha.body⟩ rfl
  | endBranch frames nodes done test testLine opener first outer =>
      have hbranches := (branchesWellFormed_reverse _ _ _).2 ha.branch
      have hne : (Branch.mk test nodes.reverse testLine :: done).reverse ≠ [] := by simp
      exact ha.outer.push ⟨⟨test.kind, hne, hbranches⟩, trivial⟩ rfl
  | endOtherwise frames nodes done opener first outer =>
      obtain ⟨kind, hdone, hbranches⟩ := ha.frames.1
      have hne : done.reverse ≠ [] := by simpa using hdone
      exact ha.outer.push
        ⟨⟨kind, hne, (branchesWellFormed_reverse _ _ _).2 hbranches⟩, ha.body⟩ rfl

/-- A token of a text keeps an assembly well-formed. -/
theorem wellFormed_step {a b : Assembly} {t : Token} (ht : t.kind.IsLexed) (ha : a.WellFormed)
    (h : a.step t = .ok b) : b.WellFormed := by
  obtain ⟨kind, line⟩ := t
  cases kind with
  | text s =>
      cases h
      exact ha.pushText ht
  | escape mark =>
      cases h
      exact ha.pushText ht
  | comment =>
      cases h
      exact ha
  | command args raw =>
      obtain ⟨d, hd, hadvance⟩ := exists_of_command h
      exact wellFormed_of_advances (advances_of_advance? hadvance)
        (Directive.wellFormed_of_ofArgs? ht hd) ha

/-- **Tokens of a text keep an assembly well-formed.** -/
theorem wellFormed_run {a b : Assembly} {ts : List Token} (hts : ∀ t ∈ ts, t.kind.IsLexed)
    (ha : a.WellFormed) (h : a.run ts = .ok b) : b.WellFormed :=
  run_induction (fun t ht _ _ ha' hstep => wellFormed_step (hts t ht) ha' hstep) ha h

end Assembly

/-! ## Templates -/

namespace Template

theorem wellFormed_of_ofTokens {tokens : List Token} (htokens : ∀ t ∈ tokens, t.kind.IsLexed)
    {t : Template} (h : ofTokens tokens = .ok t) : t.WellFormed := by
  obtain ⟨nodes, hrun, hnodes⟩ := exists_of_ofTokens h
  rw [WellFormed, hnodes]
  exact (Assembly.wellFormed_run htokens Assembly.wellFormed_start hrun).body

/-- The lines of directives go on as those of the tokens. -/
theorem linesAscend_of_ofTokens {tokens : List Token} (hpos : ∀ t ∈ tokens, 1 ≤ t.line)
    (hlines : (tokens.map Token.line).Pairwise (· ≤ ·)) {t : Template}
    (h : ofTokens tokens = .ok t) : t.LinesAscend := by
  have hsub : (bodyLines t.nodes).Sublist (tokens.map Token.line) := by
    rw [bodyLines_eq [], sites_eq h]
    exact Assembly.sublist_sitesOf Assembly.start tokens
  refine ⟨fun line hline => ?_, hlines.sublist hsub⟩
  obtain ⟨token, htoken, rfl⟩ := List.mem_map.1 (hsub.subset hline)
  exact hpos token htoken

/-- **A template that is read is well-formed**, and its lines start at one and never go back. -/
theorem wellFormed_of_parse {config : Config} {text : String} {t : Template}
    (h : parse config text = .ok t) : t.WellFormed ∧ t.LinesAscend := by
  obtain ⟨m, _, _, ht⟩ := exists_of_parse h
  have hlexed := Token.isLexed_of_mem_ofSegments m config.trimNewline false 1
    (Segment.split m text.toList)
  obtain ⟨hpos, hlines⟩ := Token.lines_ofSegments m config.trimNewline false 1
    (Segment.split m text.toList)
  exact ⟨wellFormed_of_ofTokens hlexed ht, linesAscend_of_ofTokens hpos hlines ht⟩

/-- A comment and an escape between texts, branches on two lines, and an exit. -/
theorem wellFormed_of_parse_loop :
    let tree : Template := ⟨[
      .loop "x" "xs" false [
        .text "a[b\n",
        .conditional [.mk (.is "x" "]") [.lookup "x" 2] 2, .mk (.is "x" "u") [.last 3] 3] none] 1]⟩
    parse {} "[for x in xs]a[#-][[]b\n[if x is \"]\"][x]\n[elif x is u][last][endif][endfor]" =
        .ok tree ∧ tree.WellFormed ∧ tree.LinesAscend := by
  intro tree
  refine (and_iff_left_of_imp wellFormed_of_parse).2 ?_
  have hm : Config.marks {} = .ok Marks.brackets := rfl
  have htokens : Token.ofChars Marks.brackets true
      "[for x in xs]a[#-][[]b\n[if x is \"]\"][x]\n[elif x is u][last][endif][endfor]".toList = [
        ⟨.command ["for", "x", "in", "xs"] "[for x in xs]", 1⟩, ⟨.text "a", 1⟩, ⟨.comment, 1⟩,
        ⟨.escape "[", 1⟩, ⟨.text "b\n", 1⟩,
        ⟨.command ["if", "x", "is", "\"]\""] "[if x is \"]\"]", 2⟩, ⟨.command ["x"] "[x]", 2⟩,
        ⟨.command ["elif", "x", "is", "u"] "[elif x is u]", 3⟩, ⟨.command ["last"] "[last]", 3⟩,
        ⟨.command ["endif"] "[endif]", 3⟩, ⟨.command ["endfor"] "[endfor]", 3⟩] := by
    decide +kernel
  exact parse_eq_template hm htokens

end Template

end Stencil
