import Stencil.Proofs.Descent
import Stencil.Proofs.Printed

/-!
# Printed templates are read back

A well-formed tree that is printed between suitable marks is read back as the same tree;
only the lines of its directives are those of the printed text.

The printed text is read as the pieces of the tree, and tokens that stand for these
pieces are assembled to the tree, node by node and with the open blocks untouched.  How a
text comes in parts does not matter, since text that is added to text is joined.

**Results.**
* `exists_complete_text`, `exists_complete_command`: the first piece that tokens stand for
  is assembled first.
* `exists_complete_node`, `exists_complete_body`: the pieces of a node and of a body are
  assembled to the same node and the same body up to lines.
* `exists_complete_branches`, `exists_complete_otherwise`: so are those of the later branches
  of a conditional and of its else.
* `Template.parse_print`: a printed template is read back.
-/

namespace Stencil

open Assembly

/-! ## Tokens that stand for pieces -/

theorem Assembly.pushText_pushText (a : Assembly) (s t : String) :
    (a.pushText s).pushText t = a.pushText (s ++ t) :=
  congrArg (Assembly.mk a.frames) (appendText_appendText a.nodes s t)

theorem Piece.consText_eq_cons {s t : String} {ps qs : List Piece} (hps : NoTextFirst ps)
    (h : consText t qs = .text s :: ps) :
    (s = t ∧ qs = ps) ∨ ∃ u, qs = .text u :: ps ∧ s = t ++ u := by
  cases qs with
  | nil =>
      cases h
      exact Or.inl ⟨rfl, rfl⟩
  | cons q qs =>
      cases q with
      | text u =>
          cases h
          exact Or.inr ⟨u, rfl, rfl⟩
      | command args =>
          cases h
          exact Or.inl ⟨rfl, rfl⟩

theorem Piece.consText_ne_command (s : String) (args : List String) (ps qs : List Piece) :
    consText s qs ≠ .command args :: ps := by
  cases qs with
  | nil => simp [consText]
  | cons q qs =>
      cases q with
      | text u => simp [consText]
      | command other => simp [consText]

/-- A text that tokens begin with is added to the body that is under way. -/
theorem exists_complete_text {ts : List Token} {s : String} {ps : List Piece}
    (hps : Piece.NoTextFirst ps) (h : Token.pieces ts = .text s :: ps) :
    ∃ rest, Token.pieces rest = ps ∧
      ∀ a : Assembly, a.complete ts = (a.pushText s).complete rest := by
  induction ts generalizing s with
  | nil => cases h
  | cons t ts ih =>
      -- a text and an escape are both added to the body
      have hadd (u : String) (hu : Piece.consText u (Token.pieces ts) = .text s :: ps)
          (hstep : ∀ a : Assembly, a.complete (t :: ts) = (a.pushText u).complete ts) :
          ∃ rest, Token.pieces rest = ps ∧
            ∀ a : Assembly, a.complete (t :: ts) = (a.pushText s).complete rest := by
        rcases Piece.consText_eq_cons hps hu with ⟨rfl, hts⟩ | ⟨v, hts, rfl⟩
        · exact ⟨ts, hts, hstep⟩
        · obtain ⟨rest, hrest, hcomplete⟩ := ih hts
          refine ⟨rest, hrest, fun a => ?_⟩
          rw [hstep, hcomplete, pushText_pushText]
      obtain ⟨kind, line⟩ := t
      cases kind with
      | text u => exact hadd u h (fun a => rfl)
      | escape mark => exact hadd mark h (fun a => rfl)
      | comment => exact ih h
      | command args raw => cases h

/-- A command that tokens begin with is carried out, wherever it stands. -/
theorem exists_complete_command {ts : List Token} {args : List String} {ps : List Piece}
    (h : Token.pieces ts = .command args :: ps) :
    ∃ raw line rest, Token.pieces rest = ps ∧
      ∀ a : Assembly, a.complete ts = a.complete (⟨.command args raw, line⟩ :: rest) := by
  induction ts with
  | nil => cases h
  | cons t ts ih =>
      obtain ⟨kind, line⟩ := t
      cases kind with
      | text u => exact absurd h (Piece.consText_ne_command u args ps _)
      | escape mark => exact absurd h (Piece.consText_ne_command mark args ps _)
      | comment => exact ih h
      | command args' raw =>
          cases h
          exact ⟨raw, line, ts, rfl, fun a => rfl⟩

/-- Tokens that stand for nothing are comments. -/
theorem complete_of_pieces_nil {ts : List Token} (h : Token.pieces ts = []) (a : Assembly) :
    a.complete ts = a.finish := by
  induction ts with
  | nil => rfl
  | cons t ts ih =>
      have hne (u : String) : Piece.consText u (Token.pieces ts) ≠ [] := by
        cases Token.pieces ts with
        | nil => simp [Piece.consText]
        | cons q qs => cases q <;> simp [Piece.consText]
      obtain ⟨kind, line⟩ := t
      cases kind with
      | text u => exact absurd h (hne u)
      | escape mark => exact absurd h (hne mark)
      | comment => exact ih h
      | command args raw => cases h

/-- The directive that tokens begin with is carried out, wherever it stands. -/
theorem exists_complete_directive {ts : List Token} {args : List String} {ps : List Piece}
    (h : Token.pieces ts = .command args :: ps) {vars : List String} {d : Directive}
    (hd : Directive.ofArgs? vars args = some d) :
    ∃ raw line rest, Token.pieces rest = ps ∧
      ∀ a : Assembly, a.vars = vars → a.complete ts = a.follow raw line d rest := by
  obtain ⟨raw, line, rest, hrest, hcomplete⟩ := exists_complete_command h
  refine ⟨raw, line, rest, hrest, fun a ha => ?_⟩
  rw [hcomplete, complete_command, ha, hd]

/-! ## Trees -/

theorem Node.isText_unlined (n : Node) : n.unlined.isText = n.isText := by
  cases n <;> rfl

theorem Node.isText_eq {n n' : Node} (h : n'.unlined = n.unlined) : n'.isText = n.isText := by
  rw [← isText_unlined n', h, isText_unlined n]

/-- Text that follows no text is a node of its own. -/
theorem pushText_eq_push {frames : List Frame} {before : List Node}
    (h : ∀ b ∈ before.head?, b.isText = false) (s : String) :
    pushText ⟨frames, before⟩ s = ⟨frames, .text s :: before⟩ := by
  cases before with
  | nil => rfl
  | cons b bs =>
      cases b with
      | text t => cases h (.text t) rfl
      | _ => rfl

/-- What begins with a test of a later branch begins with no text. -/
theorem noTextFirst_branchPieces (bs : List Branch) {ps : List Piece}
    (hps : Piece.NoTextFirst ps) : Piece.NoTextFirst (branchPieces false bs ++ ps) := by
  cases bs with
  | nil =>
      rw [branchPieces]
      exact hps
  | cons b bs =>
      obtain ⟨test, body, line⟩ := b
      simp [branchPieces, Piece.NoTextFirst, Piece.isCommand]

theorem noTextFirst_otherwisePieces (o : Option (List Node)) {ps : List Piece}
    (hps : Piece.NoTextFirst ps) : Piece.NoTextFirst (otherwisePieces o ++ ps) := by
  cases o with
  | none =>
      rw [otherwisePieces]
      exact hps
  | some body => simp [otherwisePieces, Piece.NoTextFirst, Piece.isCommand]

theorem noTextFirst_command (args : List String) (ps : List Piece) :
    Piece.NoTextFirst (.command args :: ps) := by
  simp [Piece.NoTextFirst, Piece.isCommand]

mutual

/-- The pieces of a node are assembled to this node. -/
theorem exists_complete_node {vars : List String} : ∀ n : Node, n.WellFormed vars →
    ∀ ts ps, Token.pieces ts = n.pieces ++ ps → (n.isText = true → Piece.NoTextFirst ps) →
      ∀ frames before, Assembly.vars ⟨frames, before⟩ = vars →
        (n.isText = true → ∀ b ∈ before.head?, b.isText = false) →
          ∃ n' rest, n'.unlined = n.unlined ∧ Token.pieces rest = ps ∧
            complete ⟨frames, before⟩ ts = complete ⟨frames, n' :: before⟩ rest
  | .text s, _, ts, ps, hts, hps, frames, before, _, hbefore => by
      obtain ⟨rest, hrest, hcomplete⟩ := exists_complete_text (hps rfl) hts
      refine ⟨.text s, rest, rfl, hrest, ?_⟩
      rw [hcomplete, pushText_eq_push (hbefore rfl)]
  | .lookup key _, h, ts, ps, hts, _, frames, before, hvars, _ => by
      have hd : Directive.ofArgs? vars [key] = some (.lookup key) :=
        Directive.ofArgs?_singleton h.2 h.1.head_ne_quote
      obtain ⟨raw, line, rest, hrest, hcomplete⟩ := exists_complete_directive hts hd
      exact ⟨.lookup key line, rest, rfl, hrest, hcomplete _ hvars⟩
  | .last _, h, ts, ps, hts, _, frames, before, hvars, _ => by
      have hd : Directive.ofArgs? vars ["last"] = some .last := rfl
      have hinside : Assembly.vars ⟨frames, before⟩ ≠ [] := by
        rw [hvars]
        exact h
      obtain ⟨raw, line, rest, hrest, hcomplete⟩ := exists_complete_directive hts hd
      refine ⟨.last line, rest, rfl, hrest, ?_⟩
      rw [hcomplete _ hvars]
      simp only [follow, advance?, pushLast?, if_neg hinside]
      rfl
  | .loop var key reverse body _, h, ts, ps, hts, _, frames, before, hvars, _ => by
      obtain ⟨hvar, hkey, hbody, hapart⟩ := h
      rw [Node.pieces, List.cons_append, List.cons_append, List.append_assoc] at hts
      obtain ⟨raw, line, inner, hinner, hopen⟩ :=
        exists_complete_directive hts (ofArgs?_loop hvar hkey reverse)
      obtain ⟨body', after, hbody', hafter, hread⟩ :=
        exists_complete_body body hbody hapart inner _ hinner (noTextFirst_command _ _)
          (⟨.loop var key reverse, raw, line, before⟩ :: frames) []
          (congrArg (var :: ·) hvars) (by simp)
      have hd : Directive.ofArgs? (var :: vars) ["endfor"] = some .endLoop := rfl
      obtain ⟨_, _, rest, hrest, hclose⟩ := exists_complete_directive hafter hd
      have hinside : Assembly.vars ⟨⟨.loop var key reverse, raw, line, before⟩ :: frames,
          body'.reverse ++ []⟩ = var :: vars := congrArg (var :: ·) hvars
      refine ⟨.loop var key reverse body' line, rest, ?_, hrest, ?_⟩
      · rw [Node.unlined, Node.unlined, hbody']
      · rw [hopen _ hvars]
        simp only [follow, advance?, enter]
        rw [hread, hclose _ hinside]
        simp [follow, advance?, closeLoop?]
  | .conditional [] _, h, _, _, _, _, _, _, _, _ => by
      obtain ⟨⟨_, hne, _⟩, _⟩ := h
      exact absurd rfl hne
  | .conditional (.mk test body _ :: bs) otherwise, h, ts, ps, hts, _, frames, before, hvars,
      _ => by
      obtain ⟨⟨kind, _, hkind, htest, hbody, hapart, hbs⟩, hotherwise⟩ := h
      simp only [Node.pieces, branchPieces, List.cons_append, List.append_assoc,
        List.nil_append] at hts
      obtain ⟨raw, line, inner, hinner, hopen⟩ :=
        exists_complete_directive hts (Test.ofArgs?_args htest true)
      obtain ⟨body', after, hbody', hafter, hread⟩ :=
        exists_complete_body body hbody hapart inner _ hinner
          (noTextFirst_branchPieces bs
            (noTextFirst_otherwisePieces otherwise (noTextFirst_command ["endif"] ps)))
          (⟨.branch [] test line, raw, line, before⟩ :: frames) [] hvars (by simp)
      obtain ⟨done, last, nodes, lastLine, bs', behind, hdone, hbs', hbehind, hgo⟩ :=
        exists_complete_branches bs hbs after _ hafter
          (noTextFirst_otherwisePieces otherwise (noTextFirst_command ["endif"] ps)) frames before
          [] test body'.reverse line raw line hvars hkind
      obtain ⟨otherwise', rest, hotherwise', hrest, hclose⟩ :=
        exists_complete_otherwise otherwise hotherwise behind ps hbehind frames before done last
          nodes lastLine raw line hvars
      refine ⟨.conditional (.mk test body' line :: bs') otherwise', rest, ?_, hrest, ?_⟩
      · rw [Node.unlined, Node.unlined, branchesUnlined, branchesUnlined, hbody', hbs',
          hotherwise']
      · rw [hopen _ hvars]
        simp only [follow, Test.directive, if_pos, advance?, enter]
        rw [hread, List.append_nil, hgo, hclose, hdone]
        simp
termination_by structural n => n

/-- The pieces of a body are assembled to this body, after the nodes that are there. -/
theorem exists_complete_body {vars : List String} : ∀ ns : List Node, bodyWellFormed vars ns →
    textsApart ns → ∀ ts ps, Token.pieces ts = bodyPieces ns ++ ps → Piece.NoTextFirst ps →
      ∀ frames before, Assembly.vars ⟨frames, before⟩ = vars →
        (∀ b ∈ before.head?, ∀ n ∈ ns.head?, b.meets n) →
          ∃ ns' rest, bodyUnlined ns' = bodyUnlined ns ∧ Token.pieces rest = ps ∧
            complete ⟨frames, before⟩ ts = complete ⟨frames, ns'.reverse ++ before⟩ rest
  | [], _, _, ts, ps, hts, _, frames, before, _, _ => by
      rw [bodyPieces, List.nil_append] at hts
      exact ⟨[], ts, rfl, hts, rfl⟩
  | n :: ns, h, hapart, ts, ps, hts, hps, frames, before, hvars, hmeets => by
      rw [bodyPieces, List.append_assoc] at hts
      have hbefore : n.isText = true → ∀ b ∈ before.head?, b.isText = false := by
        intro hn b hb
        exact Bool.eq_false_iff.2 (fun hbt => hmeets b hb n rfl ⟨hbt, hn⟩)
      obtain ⟨n', after, hn', hafter, hread⟩ :=
        exists_complete_node n h.1 ts _ hts
          (fun hn => noTextFirst_bodyPieces h.2 hapart hn hps) frames before hvars hbefore
      have hnext : ∀ b ∈ (n' :: before).head?, ∀ next ∈ ns.head?, b.meets next := by
        intro b hb next hnext
        cases hb
        cases ns with
        | nil => cases hnext
        | cons c cs =>
            cases hnext
            rw [Node.meets, Node.isText_eq hn']
            exact hapart.1
      obtain ⟨ns', rest, hns', hrest, hgo⟩ :=
        exists_complete_body ns h.2 (textsApart_tail hapart) after ps hafter hps frames
          (n' :: before) hvars hnext
      refine ⟨n' :: ns', rest, ?_, hrest, ?_⟩
      · rw [bodyUnlined, bodyUnlined, hn', hns']
      · rw [hread, hgo]
        simp
termination_by structural ns => ns

/-- Behind the body of a branch the later branches are assembled, one after the other. -/
theorem exists_complete_branches {vars : List String} {kind : ConditionKind} :
    ∀ bs : List Branch, branchesWellFormed vars kind bs → ∀ ts ps,
      Token.pieces ts = branchPieces false bs ++ ps → Piece.NoTextFirst ps →
      ∀ frames outer done test nodes line opener first, Assembly.vars ⟨frames, outer⟩ = vars →
        test.kind = kind → ∃ done' test' nodes' line' bs' rest,
          (Branch.mk test' (List.reverse nodes') line' :: done').reverse =
            (Branch.mk test nodes.reverse line :: done).reverse ++ bs' ∧
          branchesUnlined bs' = branchesUnlined bs ∧ Token.pieces rest = ps ∧
          complete ⟨⟨.branch done test line, opener, first, outer⟩ :: frames, nodes⟩ ts =
            complete ⟨⟨.branch done' test' line', opener, first, outer⟩ :: frames, nodes'⟩ rest
  | [], _, ts, ps, hts, _, frames, outer, done, test, nodes, line, opener, first, _, _ => by
      rw [branchPieces, List.nil_append] at hts
      exact ⟨done, test, nodes, line, [], ts, by simp, rfl, hts, rfl⟩
  | .mk next body _ :: bs, h, ts, ps, hts, hps, frames, outer, done, test, nodes, line, opener,
      first, hvars, hkind => by
      obtain ⟨hnext, htest, hbody, hapart, hbs⟩ := h
      rw [branchPieces, List.cons_append, List.cons_append, List.append_assoc] at hts
      obtain ⟨raw, nextLine, inner, hinner, hopen⟩ :=
        exists_complete_directive hts (Test.ofArgs?_args htest false)
      obtain ⟨body', after, hbody', hafter, hread⟩ :=
        exists_complete_body body hbody hapart inner _ hinner (noTextFirst_branchPieces bs hps)
          (⟨.branch (.mk test nodes.reverse line :: done) next nextLine, opener, first, outer⟩ ::
            frames) [] hvars (by simp)
      obtain ⟨done', test', nodes', line', bs', rest, hdone, hbs', hrest, hgo⟩ :=
        exists_complete_branches bs hbs after ps hafter hps frames outer
          (.mk test nodes.reverse line :: done) next body'.reverse nextLine opener first hvars hnext
      have hinside : Assembly.vars ⟨⟨.branch done test line, opener, first, outer⟩ :: frames,
          nodes⟩ = vars := hvars
      refine ⟨done', test', nodes', line', .mk next body' nextLine :: bs', rest, ?_, ?_, hrest, ?_⟩
      · rw [hdone]
        simp
      · rw [branchesUnlined, branchesUnlined, hbody', hbs']
      · rw [hopen _ hinside]
        simp only [follow, Test.directive, Bool.false_eq_true, if_false, advance?, beginBranch?,
          hnext.trans hkind.symm, if_true]
        rw [hread, List.append_nil, hgo]
termination_by structural bs => bs

/-- Behind the last branch an else is assembled, and the conditional is closed. -/
theorem exists_complete_otherwise {vars : List String} : ∀ o : Option (List Node),
    otherwiseWellFormed vars o → ∀ ts ps,
      Token.pieces ts = otherwisePieces o ++ .command ["endif"] :: ps →
      ∀ frames outer done test nodes line opener first, Assembly.vars ⟨frames, outer⟩ = vars →
        ∃ o' rest, otherwiseUnlined o' = otherwiseUnlined o ∧ Token.pieces rest = ps ∧
          complete ⟨⟨.branch done test line, opener, first, outer⟩ :: frames, nodes⟩ ts =
            complete ⟨frames, .conditional
              (Branch.mk test nodes.reverse line :: done).reverse o' :: outer⟩ rest
  | none, _, ts, ps, hts, frames, outer, done, test, nodes, line, opener, first, hvars => by
      have hd : Directive.ofArgs? vars ["endif"] = some .endCondition := rfl
      rw [otherwisePieces, List.nil_append] at hts
      obtain ⟨_, _, rest, hrest, hclose⟩ := exists_complete_directive hts hd
      exact ⟨none, rest, rfl, hrest, hclose _ hvars⟩
  | some body, h, ts, ps, hts, frames, outer, done, test, nodes, line, opener, first, hvars => by
      have helse : Directive.ofArgs? vars ["else"] = some .otherwise := rfl
      have hend : Directive.ofArgs? vars ["endif"] = some .endCondition := rfl
      rw [otherwisePieces, List.cons_append] at hts
      obtain ⟨_, _, inner, hinner, hopen⟩ := exists_complete_directive hts helse
      obtain ⟨body', after, hbody', hafter, hread⟩ :=
        exists_complete_body body h.1 h.2 inner _ hinner (noTextFirst_command _ _)
          (⟨.otherwise (.mk test nodes.reverse line :: done), opener, first, outer⟩ :: frames) []
          hvars (by simp)
      obtain ⟨_, _, rest, hrest, hclose⟩ := exists_complete_directive hafter hend
      have hinside : Assembly.vars ⟨⟨.branch done test line, opener, first, outer⟩ :: frames,
          nodes⟩ = vars := hvars
      have hotherwise : Assembly.vars ⟨⟨.otherwise (.mk test nodes.reverse line :: done), opener,
          first, outer⟩ :: frames, body'.reverse ++ []⟩ = vars := hvars
      refine ⟨some body', rest, ?_, hrest, ?_⟩
      · rw [otherwiseUnlined, otherwiseUnlined, hbody']
      · rw [hopen _ hinside]
        simp only [follow, advance?, beginOtherwise?]
        rw [hread, hclose _ hotherwise]
        simp [follow, advance?, closeConditional?]
termination_by structural o => o

end

/-! ## Templates -/

/-- Tokens that stand for the pieces of a well-formed tree are assembled to this tree. -/
theorem Template.exists_template_eq {t : Template} (ht : t.WellFormed) {ts : List Token}
    (hts : Token.pieces ts = bodyPieces t.nodes) :
    ∃ u : Template, Assembly.template ts = .ok u ∧ u.unlined = t.unlined := by
  have hpieces : Token.pieces ts = bodyPieces t.nodes ++ [] := by
    rw [hts, List.append_nil]
  obtain ⟨nodes, rest, hnodes, hrest, hread⟩ :=
    exists_complete_body t.nodes ht.1 ht.2 ts [] hpieces (by simp [Piece.NoTextFirst]) [] [] rfl
      (by simp)
  refine ⟨⟨nodes⟩, ?_, ?_⟩
  · have hstart : Assembly.template ts = complete ⟨[], []⟩ ts := rfl
    rw [hstart, hread, complete_of_pieces_nil hrest, finish]
    simp
  · rw [unlined, unlined, hnodes]

/-- **A printed template is read back.** -/
theorem Template.parse_print {config : Config} {m : Marks} (hm : config.marks = .ok m)
    (ho : m.OpensApart) (hc : m.ClosesApart) {t : Template} (ht : t.WellFormed) :
    ∃ u : Template, Template.parse config (t.print m config.trimNewline) = .ok u ∧
      u.unlined = t.unlined := by
  have hread : readPieces m config.trimNewline false
      (Piece.charsOf m config.trimNewline false (bodyPieces t.nodes)) = bodyPieces t.nodes := by
    have hpieces : Piece.Readable (bodyPieces t.nodes) := by
      have h := readable_bodyPieces t.nodes ht.1 ht.2 [] trivial (by simp [Piece.NoTextFirst])
      rwa [List.append_nil] at h
    have h := readPieces_charsOf ho hc config.trimNewline hpieces false
    rwa [Bool.and_false] at h
  obtain ⟨u, hu, hlines⟩ := exists_template_eq ht hread
  refine ⟨u, ?_, hlines⟩
  rw [parse_of_marks hm, Template.print, String.toList_ofList, ofTokens_eq_template,
    Token.ofChars, hu]
  rfl

/-- A loop, tests, a quoted literal and texts that need care are read back. -/
theorem Template.parse_print_brackets :
    let tree : Template := ⟨[
      .loop "x" "items" true [
        .text "\r\n[x]",
        .conditional [.mk (.index "x" (.nth 3)) [.last 0] 0, .mk (.index "x" .even) [] 0]
          (some [.lookup "x.name" 0])] 0,
      .conditional [.mk (.is "kind" "a \"]\" \\\n") [.text "]\n"] 0] none]⟩
    ∃ u : Template, Template.parse {}
        (tree.print ⟨['['], [']'], by decide, by decide, by decide, by decide⟩ true) = .ok u ∧
      u.unlined = tree.unlined := by
  intro tree
  have hx : IsVariable "x" := ⟨isName_of_all (by decide) (by decide), by decide⟩
  have hitems : IsName "items" := isName_of_all (by decide) (by decide)
  have hname : IsName "x.name" := isName_of_all (by decide) (by decide)
  have hkind : IsName "kind" := isName_of_all (by decide) (by decide)
  refine @parse_print {} _ rfl ⟨'[', [], rfl, ?_⟩ ⟨by decide, ']', ?_⟩ _ ?_
  · decide
  · decide
  · simp [tree, Template.WellFormed, bodyWellFormed, Node.WellFormed, branchesWellFormed,
      otherwiseWellFormed, textsApart, Node.meets, Node.isText, Test.WellFormed, Test.kind,
      reservedNames, hx, hitems, hname, hkind, IndexPredicate.InRange]

end Stencil
