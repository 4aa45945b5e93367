import Stencil.Proofs.Rendering
import Stencil.Proofs.Sites

/-!
# Templates one after the other

Tokens that are read as a template leave no block open, so tokens behind them are read as if they
stood alone, except that their first text is joined to a text at the end of the template before.
An assembly behind some nodes is the same assembly with these nodes before all that stands in it;
a directive that fits the one fits the other, and what it makes of them differs by the same nodes.

To join texts changes no meaning.  Nor does anything in the first template keep the second from
being rendered: its exits stand in loops, and a loop is all that an exit leaves.

**Results.**
* `weld_appendText`, `directives_weld`, `evaluateBody_weld`: what becomes of bodies that are put
  one behind the other.
* `Assembly.advance?_behind`, `Assembly.run_behind`: a directive and tokens do the same behind
  other nodes.
* `evaluateBody_stays`: a body whose exits stand in loops leaves no loop.
* `Template.exitsInLoops_of_ofTokens`: the exits of a template that is read stand in loops.
* `Template.ofTokens_append_eq`: tokens one after the other are read as both templates.
* `Template.ofTokens_append`: templates compose by concatenation.
-/

namespace Stencil

/-! ## Nodes behind nodes -/

/-- A body, given latest first, with one more node; text is joined to a text before it. -/
def attach (nodes : List Node) : Node → List Node
  | .text s => appendText nodes s
  | n => n :: nodes

/-- A body behind another, both given latest first; where two texts meet they are joined. -/
def weld (before nodes : List Node) : List Node :=
  nodes.foldr (fun n joined => attach joined n) before

theorem weld_nil (before : List Node) : weld before [] = before :=
  rfl

theorem weld_cons (before nodes : List Node) (n : Node) :
    weld before (n :: nodes) = attach (weld before nodes) n :=
  rfl

theorem attach_of_isText_eq_false {n : Node} (h : n.isText = false) (nodes : List Node) :
    attach nodes n = n :: nodes := by
  cases n with
  | text s => cases h
  | _ => rfl

theorem weld_cons_of_isText_eq_false {n : Node} (h : n.isText = false) (before nodes : List Node) :
    weld before (n :: nodes) = n :: weld before nodes := by
  rw [weld_cons, attach_of_isText_eq_false h]

/-- Text at the end of a body that stands behind another. -/
theorem weld_appendText (before nodes : List Node) (s : String) :
    weld before (appendText nodes s) = appendText (weld before nodes) s := by
  cases nodes with
  | nil => rfl
  | cons n nodes =>
      cases n with
      | text last => exact (appendText_appendText _ last s).symm
      | _ => rfl

/-! ### Directives -/

theorem directives_attach (nodes : List Node) (n : Node) :
    bodyDirectives (attach nodes n) = n.directives + bodyDirectives nodes := by
  cases n with
  | text s => simp [attach, directives_appendText, Node.directives]
  | _ => rfl

/-- The directives of bodies one behind the other add up. -/
theorem directives_weld (before nodes : List Node) :
    bodyDirectives (weld before nodes) = bodyDirectives before + bodyDirectives nodes := by
  induction nodes with
  | nil => rfl
  | cons n nodes ih =>
      rw [weld_cons, directives_attach, ih, bodyDirectives]
      omega

/-! ### Meaning -/

theorem evaluateBody_reverse_cons (env : Environment) (n : Node) (nodes : List Node) :
    evaluateBody env (n :: nodes).reverse =
      (evaluateBody env nodes.reverse).followedBy (n.evaluate env) := by
  rw [List.reverse_cons, evaluateBody_append, evaluateBody, evaluateBody, Meaning.followedBy_text]

/-- To join texts changes no meaning. -/
theorem evaluateBody_attach (env : Environment) (nodes : List Node) (n : Node) :
    evaluateBody env (attach nodes n).reverse =
      (evaluateBody env nodes.reverse).followedBy (n.evaluate env) := by
  cases n with
  | text s =>
      cases nodes with
      | nil => exact evaluateBody_reverse_cons env (.text s) []
      | cons last nodes =>
          cases last with
          | text before =>
              rw [attach, appendText, evaluateBody_reverse_cons, evaluateBody_reverse_cons,
                Meaning.followedBy_assoc, Node.evaluate, Node.evaluate, Node.evaluate,
                Meaning.text_followedBy_text]
          | _ => exact evaluateBody_reverse_cons env (.text s) _
  | _ => exact evaluateBody_reverse_cons env _ nodes

/-- **A body behind another means what both mean one after the other.** -/
theorem evaluateBody_weld (env : Environment) (before nodes : List Node) :
    evaluateBody env (weld before nodes).reverse =
      (evaluateBody env before.reverse).followedBy (evaluateBody env nodes.reverse) := by
  induction nodes with
  | nil =>
      rw [weld_nil, List.reverse_nil, evaluateBody, Meaning.followedBy_text]
  | cons n nodes ih =>
      rw [weld_cons, evaluateBody_attach, ih, evaluateBody_reverse_cons, Meaning.followedBy_assoc]

/-! ## Assemblies behind nodes -/

namespace Assembly

/-- An assembly that is given by its frames and nodes, with other nodes before all of it. -/
def behindNodes (before : List Node) : List Frame → List Node → Assembly
  | [], nodes => ⟨[], weld before nodes⟩
  | f :: frames, nodes =>
      let outer := behindNodes before frames f.outer
      ⟨⟨f.block, f.opener, f.line, outer.nodes⟩ :: outer.frames, nodes⟩

/-- An assembly with other nodes before all that stands in it. -/
def behind (before : List Node) (a : Assembly) : Assembly :=
  behindNodes before a.frames a.nodes

theorem behind_start (before : List Node) : start.behind before = ⟨[], before⟩ :=
  rfl

/-- Inside of an open block only what stands around it is behind other nodes. -/
theorem behind_enter (before : List Node) (frames : List Frame) (block : Block) (opener : String)
    (line : Nat) (outer nodes : List Node) :
    behind before ⟨⟨block, opener, line, outer⟩ :: frames, nodes⟩ =
      ⟨⟨block, opener, line, (behind before ⟨frames, outer⟩).nodes⟩ ::
        (behind before ⟨frames, outer⟩).frames, nodes⟩ :=
  rfl

/-- The same loops are open. -/
theorem vars_behind (before : List Node) (a : Assembly) : (a.behind before).vars = a.vars := by
  obtain ⟨frames, nodes⟩ := a
  induction frames generalizing nodes with
  | nil => rfl
  | cons f frames ih =>
      obtain ⟨block, opener, line, outer⟩ := f
      have houter : vars (behind before ⟨frames, outer⟩) = vars ⟨frames, outer⟩ := ih outer
      rw [behind_enter]
      cases block with
      | loop var key reverse => exact congrArg (var :: ·) houter
      | branch done test testLine => exact houter
      | otherwise done => exact houter

/-- A node that is no text is added in the same way. -/
theorem behind_push (before : List Node) (frames : List Frame) {n : Node}
    (hn : n.isText = false) (nodes : List Node) :
    behind before ⟨frames, n :: nodes⟩ = (behind before ⟨frames, nodes⟩).push n := by
  cases frames with
  | nil => exact congrArg (Assembly.mk []) (weld_cons_of_isText_eq_false hn before nodes)
  | cons f frames => rfl

/-- Text is added in the same way. -/
theorem behind_pushText (before : List Node) (a : Assembly) (s : String) :
    (a.pushText s).behind before = (a.behind before).pushText s := by
  obtain ⟨frames, nodes⟩ := a
  cases frames with
  | nil => exact congrArg (Assembly.mk []) (weld_appendText before nodes s)
  | cons f frames => rfl

/-- **A directive does the same behind other nodes.** -/
theorem advance?_behind {a b : Assembly} {raw : String} {line : Nat} {d : Directive}
    (h : Advances raw line a d b) (before : List Node) :
    (a.behind before).advance? raw line d = some (b.behind before) := by
  cases h with
  | lookup frames nodes key =>
      rw [behind_push before frames rfl]
      rfl
  | last frames nodes inside =>
      rw [behind_push before frames rfl, advance?, pushLast?, vars_behind, if_neg inside]
  | loop frames nodes var key reverse => rfl
  | condition frames nodes test => rfl
  | alternative frames nodes done test next testLine opener first outer same =>
      rw [behind_enter, behind_enter, advance?, beginBranch?]
      exact if_pos same
  | otherwise frames nodes done test testLine opener first outer => rfl
  | endLoop frames nodes var key reverse opener first outer =>
      rw [behind_push before frames rfl]
      rfl
  | endBranch frames nodes done test testLine opener first outer =>
      rw [behind_push before frames rfl]
      rfl
  | endOtherwise frames nodes done opener first outer =>
      rw [behind_push before frames rfl]
      rfl

theorem step_behind {a b : Assembly} {t : Token} (h : a.step t = .ok b) (before : List Node) :
    (a.behind before).step t = .ok (b.behind before) := by
  obtain ⟨kind, line⟩ := t
  cases kind with
  | text s =>
      cases h
      exact congrArg Except.ok (behind_pushText before a s).symm
  | escape mark =>
      cases h
      exact congrArg Except.ok (behind_pushText before a mark).symm
  | comment =>
      cases h
      rfl
  | command args raw =>
      obtain ⟨d, hd, hadvance⟩ := exists_of_command h
      have hbehind := advance?_behind (advances_of_advance? hadvance) before
      simp only [step, command, vars_behind, hd, hbehind]

/-- **Tokens do the same behind other nodes.** -/
theorem run_behind {a b : Assembly} {ts : List Token} (h : a.run ts = .ok b)
    (before : List Node) : (a.behind before).run ts = .ok (b.behind before) := by
  induction ts generalizing a with
  | nil =>
      cases h
      rfl
  | cons t ts ih =>
      obtain ⟨c, hc, hrest⟩ := exists_of_run_cons h
      rw [run, step_behind hc before]
      exact ih hrest

end Assembly

/-! ## Exits -/

/-- Whether the exits among some sites stand in loops. -/
def ExitsInLoops (sites : List Site) : Prop :=
  ∀ line, ⟨[], .last, line⟩ ∉ sites

theorem exitsInLoops_append {as bs : List Site} :
    ExitsInLoops (as ++ bs) ↔ ExitsInLoops as ∧ ExitsInLoops bs := by
  simp [ExitsInLoops, forall_and]

namespace Meaning

/-- Whether a meaning leaves no loop, if it has an outcome at all. -/
def Stays (a : Meaning) : Prop :=
  ∀ o, a = .ok o → o.leaves = false

theorem stays_text (s : String) : (text s).Stays := by
  intro o ho
  cases ho
  rfl

theorem stays_closed (a : Meaning) : a.closed.Stays := by
  intro o ho
  cases a with
  | error e => cases ho
  | ok p =>
      cases ho
      rfl

/-- Whether a loop is left is decided by what is done with an answer. -/
theorem stays_bind {α : Type} {x : Except RenderError α} {f : α → Meaning}
    (h : ∀ a, (f a).Stays) : Meaning.Stays (x.bind f) := by
  cases x with
  | error e =>
      intro o ho
      cases ho
  | ok a => exact h a

theorem Stays.followedBy {a b : Meaning} (ha : a.Stays) (hb : b.Stays) :
    (a.followedBy b).Stays := by
  intro o ho
  rcases a with e | ⟨s, leaves⟩
  · cases ho
  · obtain rfl : leaves = false := ha _ rfl
    rcases b with e | p
    · cases ho
    · cases ho
      exact hb p rfl

/-- A meaning that leaves no loop goes on with what follows it. -/
theorem Stays.map_followedBy {a : Meaning} (ha : a.Stays) (b : Meaning) :
    (a.followedBy b).map Outcome.text =
      (a.map Outcome.text).bind (fun s => (b.map Outcome.text).map (fun u => s ++ u)) := by
  rcases a with e | ⟨s, leaves⟩
  · rfl
  · obtain rfl : leaves = false := ha _ rfl
    cases b with
    | error e => rfl
    | ok o => rfl

end Meaning

mutual

/-- A node whose exits stand in loops leaves no loop. -/
theorem Node.evaluate_stays (env : Environment) : ∀ (n : Node),
    ExitsInLoops (n.sites []) → (n.evaluate env).Stays
  | .text s, _ => Meaning.stays_text s
  | .lookup key line, _ => by
      rw [Node.evaluate]
      exact Meaning.stays_bind Meaning.stays_text
  | .loop var key reverse nodes line, _ => by
      rw [Node.evaluate]
      exact Meaning.stays_bind (fun items => Meaning.stays_closed _)
  | .conditional bs other, h => by
      obtain ⟨hbs, hother⟩ := exitsInLoops_append.1 h
      rw [Node.evaluate]
      exact evaluateBranches_stays env true bs (evaluateOtherwise_stays env other hother) hbs
  | .last line, h => absurd (List.mem_singleton.2 rfl) (h line)

/-- **A body whose exits stand in loops leaves no loop.** -/
theorem evaluateBody_stays (env : Environment) : ∀ (ns : List Node),
    ExitsInLoops (bodySites [] ns) → (evaluateBody env ns).Stays
  | [], _ => Meaning.stays_text ""
  | n :: ns, h => by
      obtain ⟨hn, hns⟩ := exitsInLoops_append.1 h
      rw [evaluateBody]
      exact (Node.evaluate_stays env n hn).followedBy (evaluateBody_stays env ns hns)

/-- Branches whose exits stand in loops leave no loop, if the fallback leaves none. -/
theorem evaluateBranches_stays (env : Environment) : ∀ (isFirst : Bool) (bs : List Branch)
    {fallback : Meaning}, fallback.Stays → ExitsInLoops (branchSites [] isFirst bs) →
      (evaluateBranches env fallback bs).Stays
  | _, [], _, hfallback, _ => hfallback
  | isFirst, .mk test nodes line :: bs, fallback, hfallback, h => by
      obtain ⟨hfirst, hbs⟩ := exitsInLoops_append.1 h
      have hnodes : ExitsInLoops (bodySites [] nodes) :=
        fun l hmem => hfirst l (List.mem_cons_of_mem _ hmem)
      rw [evaluateBranches]
      refine Meaning.stays_bind (fun holds => ?_)
      cases holds with
      | true => exact evaluateBody_stays env nodes hnodes
      | false => exact evaluateBranches_stays env false bs hfallback hbs

/-- An else whose exits stand in loops leaves no loop. -/
theorem evaluateOtherwise_stays (env : Environment) : ∀ (other : Option (List Node)),
    ExitsInLoops (otherwiseSites [] other) → (evaluateOtherwise env other).Stays
  | none, _ => Meaning.stays_text ""
  | some nodes, h => by
      rw [evaluateOtherwise]
      exact evaluateBody_stays env nodes h

end

/-! ## Templates -/

namespace Template

/-- The template of tokens that leave no block open. -/
theorem ofTokens_of_run {tokens : List Token} {nodes : List Node}
    (h : Assembly.start.run tokens = .ok ⟨[], nodes⟩) : ofTokens tokens = .ok ⟨nodes.reverse⟩ := by
  rw [ofTokens_eq_template, Assembly.template, h]
  rfl

/-- **The exits of a template that is read stand in loops.** -/
theorem exitsInLoops_of_ofTokens {tokens : List Token} {t : Template}
    (h : ofTokens tokens = .ok t) : ExitsInLoops (bodySites [] t.nodes) := by
  intro line hmem
  rw [sites_eq h] at hmem
  obtain ⟨before, args, raw, after, a, rfl, hbefore, hvars, hargs⟩ :=
    Assembly.exists_of_mem_sitesOf hmem
  obtain ⟨nodes, hrun, _⟩ := exists_of_ofTokens h
  rw [Assembly.run_append, hbefore] at hrun
  obtain ⟨b, hstep, _⟩ := Assembly.exists_of_run_cons hrun
  obtain ⟨d, hd, hadvance⟩ := Assembly.exists_of_command hstep
  obtain rfl : d = .last := Option.some.inj (hd.symm.trans hargs)
  cases Assembly.advances_of_advance? hadvance with
  | last frames nodes inside => exact inside hvars

/-- A template behind another; where two texts meet they are joined. -/
def append (t₁ t₂ : Template) : Template :=
  ⟨(weld t₁.nodes.reverse t₂.nodes.reverse).reverse⟩

theorem directiveCount_append (t₁ t₂ : Template) :
    (t₁.append t₂).directiveCount = t₁.directiveCount + t₂.directiveCount := by
  rw [directiveCount, append, directives_reverse, directives_weld, directives_reverse,
    directives_reverse]
  rfl

/-- A template behind another means the text of both, unless one of them fails. -/
theorem evaluate_append {t₁ : Template} (h : ExitsInLoops (bodySites [] t₁.nodes))
    (t₂ : Template) (data : Value) :
    (t₁.append t₂).evaluate data =
      (t₁.evaluate data).bind (fun s => (t₂.evaluate data).map (fun u => s ++ u)) := by
  have hstays := evaluateBody_stays (.data data) t₁.nodes h
  rw [evaluate, append, evaluateBody_weld, List.reverse_reverse, List.reverse_reverse,
    hstays.map_followedBy]
  rfl

/-- A template behind another generates the text of both, unless one of them fails. -/
theorem generate_append {t₁ : Template} (h : ExitsInLoops (bodySites [] t₁.nodes))
    (t₂ : Template) (data : Value) :
    (t₁.append t₂).generate data =
      (t₁.generate data).bind (fun s => (t₂.generate data).map (fun u => s ++ u)) := by
  rw [generate_eq_evaluate, generate_eq_evaluate, generate_eq_evaluate, evaluate_append h]
  cases t₁.evaluate data with
  | error e => rfl
  | ok s =>
      cases t₂.evaluate data with
      | error e => rfl
      | ok u => rfl

/-- **Tokens one after the other are read as both templates**, the second behind the first. -/
theorem ofTokens_append_eq {ts₁ ts₂ : List Token} {t₁ t₂ : Template}
    (h₁ : ofTokens ts₁ = .ok t₁) (h₂ : ofTokens ts₂ = .ok t₂) :
    ofTokens (ts₁ ++ ts₂) = .ok (t₁.append t₂) := by
  obtain ⟨before, hrun₁, hnodes₁⟩ := exists_of_ofTokens h₁
  obtain ⟨nodes, hrun₂, hnodes₂⟩ := exists_of_ofTokens h₂
  rw [append, hnodes₁, hnodes₂, List.reverse_reverse, List.reverse_reverse]
  refine ofTokens_of_run ?_
  have hbehind := Assembly.run_behind hrun₂ before
  rw [Assembly.behind_start] at hbehind
  rw [Assembly.run_append, hrun₁]
  exact hbehind

/-- What is wrong with a directive is wrong whatever follows it. -/
theorem ofTokens_append_eq_error {ts₁ : List Token} {e : ParseError}
    (h : ofTokens ts₁ = .error e) {directive : String}
    (hcause : e.cause = .invalidDirective directive ∨ e.cause = .unmatchedBlock directive)
    (ts₂ : List Token) : ofTokens (ts₁ ++ ts₂) = .error e := by
  rw [ofTokens_eq_template, Assembly.template] at h ⊢
  rw [Assembly.run_append]
  cases hrun : Assembly.start.run ts₁ with
  | error e' =>
      rw [hrun] at h
      cases h
      rfl
  | ok a =>
      -- the tokens end inside of a block, which is another error
      rw [hrun] at h
      obtain ⟨frames, nodes⟩ := a
      cases frames with
      | nil => cases h
      | cons f frames =>
          cases h
          rcases hcause with hcause | hcause
          · cases hcause
          · cases hcause

/-- **Templates compose by concatenation.**  Tokens one after the other are read as a template
with the directives of both, which generates the text of the first and then that of the second,
or fails as the first of them does that fails.  A wrong directive among the first tokens is wrong
whatever follows them. -/
theorem ofTokens_append (ts₁ ts₂ : List Token) :
    (∀ t₁ t₂, ofTokens ts₁ = .ok t₁ → ofTokens ts₂ = .ok t₂ →
      ∃ t, ofTokens (ts₁ ++ ts₂) = .ok t ∧
        t.directiveCount = t₁.directiveCount + t₂.directiveCount ∧
          ∀ data, t.generate data =
            (t₁.generate data).bind (fun s => (t₂.generate data).map (fun u => s ++ u))) ∧
    ∀ e directive, ofTokens ts₁ = .error e →
      e.cause = .invalidDirective directive ∨ e.cause = .unmatchedBlock directive →
        ofTokens (ts₁ ++ ts₂) = .error e := by
  constructor
  · intro t₁ t₂ h₁ h₂
    refine ⟨t₁.append t₂, ofTokens_append_eq h₁ h₂, directiveCount_append t₁ t₂, ?_⟩
    exact generate_append (exitsInLoops_of_ofTokens h₁) t₂
  · intro e directive he hcause
    exact ofTokens_append_eq_error he hcause ts₂

/-- A loop that is left before a text, and a text before a lookup. -/
theorem ofTokens_append_loop :
    let ts₁ : List Token := [
      ⟨.command ["for", "x", "in", "xs"] "[for x in xs]", 1⟩, ⟨.command ["x"] "[x]", 1⟩,
      ⟨.command ["last"] "[last]", 1⟩, ⟨.command ["endfor"] "[endfor]", 1⟩, ⟨.text "a", 1⟩]
    let ts₂ : List Token := [⟨.escape "[", 1⟩, ⟨.command ["y"] "[y]", 1⟩]
    let t₁ : Template := ⟨[.loop "x" "xs" false [.lookup "x" 1, .last 1] 1, .text "a"]⟩
    let t₂ : Template := ⟨[.text "[", .lookup "y" 1]⟩
    let data : Value := .mapping [
      ("xs", .sequence [.string "1", .string "2"]), ("y", .string "3")]
    ofTokens ts₁ = .ok t₁ ∧ ofTokens ts₂ = .ok t₂ ∧ t₁.generate data = .ok "1a" ∧
      (∃ t, ofTokens (ts₁ ++ ts₂) = .ok t ∧ t.directiveCount = 4 ∧ t.generate data = .ok "1a[3") ∧
        ofTokens (⟨.command ["endif"] "[endif]", 7⟩ :: ts₁) =
          .error ⟨7, .unmatchedBlock "[endif]"⟩ := by
  intro ts₁ ts₂ t₁ t₂ data
  have h₁ : ofTokens ts₁ = .ok t₁ := by
    rw [ofTokens_eq_template]
    rfl
  have h₂ : ofTokens ts₂ = .ok t₂ := by
    rw [ofTokens_eq_template]
    rfl
  have hgenerate₁ : t₁.generate data = .ok "1a" := by
    rw [generate_eq_evaluate]
    rfl
  have hgenerate₂ : t₂.generate data = .ok "[3" := by
    rw [generate_eq_evaluate]
    rfl
  have hwrong : ofTokens [⟨.command ["endif"] "[endif]", 7⟩] =
      .error ⟨7, .unmatchedBlock "[endif]"⟩ := by
    rw [ofTokens_eq_template]
    rfl
  obtain ⟨t, ht, hcount, hgenerate⟩ := (ofTokens_append ts₁ ts₂).1 t₁ t₂ h₁ h₂
  refine ⟨h₁, h₂, hgenerate₁, ⟨t, ht, hcount, ?_⟩, ?_⟩
  · rw [hgenerate, hgenerate₁, hgenerate₂]
    rfl
  · exact (ofTokens_append _ ts₁).2 _ "[endif]" hwrong (Or.inr rfl)

end Template

end Stencil
