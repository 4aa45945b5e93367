import Stencil.Proofs.Concatenation
import Stencil.Template.Names

/-!
# Loops over parts of a sequence

What a loop comes to depends on its items in the order in which they are taken, and on nothing
else of the key that leads to them.  So a loop from the back is a loop over the reversed sequence.

A loop over two sequences one after the other is the loop over the first and then the loop over
the second, if a body cannot tell in which of them it is: it leaves the loop at no item, and it
does not test the position.  Environments that differ only in the positions of one variable give
the same values to all keys, inside of further loops too, so a body that does not test these
positions means the same in all of them.

**Results.**
* `Meaning.loop_append`, `Meaning.loop_eq_of_forall`: iterations over parts, and iterations that
  do not depend on the position.
* `Environment.SameBut.evaluateBody_eq`: a body means the same where only positions differ that
  it does not test.
* `evaluate_loop_reverse`, `evaluate_loop_append`: loops over a reversed sequence and over two
  sequences.
* `Template.generate_loop`: a template generates the same with the one loop or with the others.
-/

namespace Stencil

/-! ## Iterations -/

namespace Meaning

/-- Iterations over two lists are those over the first and then those over the second. -/
theorem loop_append (iteration : Nat → Value → Meaning) (index : Nat) (as bs : List Value) :
    loop iteration index (as ++ bs) =
      (loop iteration index as).followedBy (loop iteration (index + as.length) bs) := by
  induction as generalizing index with
  | nil => exact (text_followedBy _).symm
  | cons a as ih =>
      have hindex : index + 1 + as.length = index + (a :: as).length := by
        rw [List.length_cons]
        omega
      rw [List.cons_append, loop, ih, hindex, loop, followedBy_assoc]

/-- Iterations that do not depend on the position can begin at any. -/
theorem loop_eq_of_forall {f g : Nat → Value → Meaning} (h : ∀ i j item, f i item = g j item)
    (i j : Nat) (items : List Value) : loop f i items = loop g j items := by
  induction items generalizing i j with
  | nil => rfl
  | cons item items ih => rw [loop, loop, h i j item, ih (i + 1) (j + 1)]

/-- Iterations that do not leave the loop go through to its end. -/
theorem stays_loop {iteration : Nat → Value → Meaning} (h : ∀ i item, (iteration i item).Stays)
    (index : Nat) (items : List Value) : (loop iteration index items).Stays := by
  induction items generalizing index with
  | nil => exact stays_text ""
  | cons item items ih => exact (h index item).followedBy (ih (index + 1))

/-- To close a loop in two parts is to close each of them, if the first is not left. -/
theorem Stays.closed_followedBy {a : Meaning} (ha : a.Stays) (b : Meaning) :
    (a.followedBy b).closed = a.closed.followedBy b.closed := by
  rcases a with e | ⟨s, leaves⟩
  · rfl
  · obtain rfl : leaves = false := ha _ rfl
    cases b with
    | error e => rfl
    | ok o => rfl

end Meaning

/-! ## Positions that are not tested -/

namespace Environment

/-- Whether environments differ at most in the positions of a variable. -/
structure SameBut (var : String) (e₁ e₂ : Environment) : Prop where
  lookup : ∀ path, e₁.lookup? path = e₂.lookup? path
  position : ∀ v, v ≠ var → e₁.position? v = e₂.position? v

namespace SameBut

variable {var : String} {e₁ e₂ : Environment}

theorem iteration (h : SameBut var e₁ e₂) (v : String) (item : Value) (index count : Nat) :
    SameBut var (.iteration v item index count e₁) (.iteration v item index count e₂) := by
  constructor
  · intro path
    rw [lookup?, lookup?, h.lookup path]
  · intro w hw
    rw [position?, position?, h.position w hw]

/-- Iterations of one item differ only in the position of their variable. -/
theorem moved (var : String) (item : Value) (env : Environment) (i m j n : Nat) :
    SameBut var (.iteration var item i m env) (.iteration var item j n env) := by
  constructor
  · intro path
    rw [lookup?, lookup?]
  · intro w hw
    rw [position?, position?, if_neg hw.symm, if_neg hw.symm]

theorem text_eq (h : SameBut var e₁ e₂) (key : String) (line : Nat) :
    e₁.text key line = e₂.text key line := by
  rw [text, text, h.lookup]

theorem items_eq (h : SameBut var e₁ e₂) (key : String) (line : Nat) :
    e₁.items key line = e₂.items key line := by
  rw [items, items, h.lookup]

theorem holds_eq (h : SameBut var e₁ e₂) {test : Test} (htest : var ∉ test.var?.toList)
    (line : Nat) : e₁.holds line test = e₂.holds line test := by
  cases test with
  | is key literal => rw [holds, holds, h.text_eq]
  | any key => rw [holds, holds, h.lookup]
  | index v predicate =>
      have hv : v ≠ var := fun heq => htest (List.mem_singleton.2 heq.symm)
      rw [holds, holds, h.position v hv]

mutual

/-- A node means the same where only positions differ that it does not test. -/
theorem evaluate_eq : ∀ {e₁ e₂ : Environment} (n : Node), SameBut var e₁ e₂ →
    var ∉ n.testedVars → n.evaluate e₁ = n.evaluate e₂
  | _, _, .text _, _, _ => rfl
  | _, _, .lookup key line, h, _ => by
      rw [Node.evaluate, Node.evaluate, h.text_eq]
  | e₁, e₂, .loop v key reverse nodes line, h, hvar => by
      have hbody (index : Nat) (item : Value) (count : Nat) :
          evaluateBody (.iteration v item index count e₁) nodes =
            evaluateBody (.iteration v item index count e₂) nodes :=
        evaluateBody_eq nodes (h.iteration v item index count) hvar
      rw [Node.evaluate, Node.evaluate, h.items_eq]
      simp only [hbody]
  | e₁, e₂, .conditional bs other, h, hvar => by
      rw [Node.testedVars, List.mem_append, not_or] at hvar
      rw [Node.evaluate, Node.evaluate, evaluateOtherwise_eq other h hvar.2]
      exact evaluateBranches_eq bs h hvar.1
  | _, _, .last _, _, _ => rfl

/-- **A body means the same where only positions differ that it does not test.** -/
theorem evaluateBody_eq : ∀ {e₁ e₂ : Environment} (ns : List Node), SameBut var e₁ e₂ →
    var ∉ bodyTestedVars ns → evaluateBody e₁ ns = evaluateBody e₂ ns
  | _, _, [], _, _ => rfl
  | e₁, e₂, n :: ns, h, hvar => by
      rw [bodyTestedVars, List.mem_append, not_or] at hvar
      rw [evaluateBody, evaluateBody, evaluate_eq n h hvar.1, evaluateBody_eq ns h hvar.2]

/-- Branches mean the same where only positions differ that they do not test. -/
theorem evaluateBranches_eq : ∀ {e₁ e₂ : Environment} {fallback : Meaning} (bs : List Branch),
    SameBut var e₁ e₂ → var ∉ branchTestedVars bs →
      evaluateBranches e₁ fallback bs = evaluateBranches e₂ fallback bs
  | _, _, _, [], _, _ => rfl
  | e₁, e₂, fallback, .mk test nodes line :: bs, h, hvar => by
      rw [branchTestedVars, List.mem_append, List.mem_append, not_or, not_or] at hvar
      obtain ⟨⟨htest, hnodes⟩, hbs⟩ := hvar
      rw [evaluateBranches, evaluateBranches, h.holds_eq htest, evaluateBody_eq nodes h hnodes,
        evaluateBranches_eq bs h hbs]

/-- An else means the same where only positions differ that it does not test. -/
theorem evaluateOtherwise_eq : ∀ {e₁ e₂ : Environment} (other : Option (List Node)),
    SameBut var e₁ e₂ → var ∉ otherwiseTestedVars other →
      evaluateOtherwise e₁ other = evaluateOtherwise e₂ other
  | _, _, none, _, _ => rfl
  | _, _, some nodes, h, hvar => by
      rw [evaluateOtherwise, evaluateOtherwise]
      exact evaluateBody_eq nodes h hvar

end

end SameBut

end Environment

/-! ## Loops -/

section Loop

variable {env : Environment} {var : String} {body : List Node}

/-- **A loop from the back is a loop over the reversed sequence.** -/
theorem evaluate_loop_reverse {k r : String} {line line' : Nat} {items : List Value}
    (hk : env.items k line = .ok items) (hr : env.items r line' = .ok items.reverse) :
    (Node.loop var k true body line).evaluate env =
      (Node.loop var r false body line').evaluate env := by
  rw [Node.evaluate, Node.evaluate, hk, hr]
  simp only [Except.bind, List.length_reverse, if_true, Bool.false_eq_true, if_false]

/-- **A loop over two sequences is the loop over the first and then that over the second**, if
its body leaves it at no item and does not test its position. -/
theorem evaluate_loop_append {l a b : String} {line line₁ line₂ : Nat} {as bs : List Value}
    (hl : env.items l line = .ok (as ++ bs)) (ha : env.items a line₁ = .ok as)
    (hb : env.items b line₂ = .ok bs) (hexits : ExitsInLoops (bodySites [] body))
    (htested : var ∉ bodyTestedVars body) :
    (Node.loop var l false body line).evaluate env =
      ((Node.loop var a false body line₁).evaluate env).followedBy
        ((Node.loop var b false body line₂).evaluate env) := by
  -- an iteration means the same wherever its item stands, in whichever sequence
  have hsame (m n i j : Nat) (item : Value) :
      evaluateBody (.iteration var item i m env) body =
        evaluateBody (.iteration var item j n env) body :=
    Environment.SameBut.evaluateBody_eq body (.moved var item env i m j n) htested
  have hstays (n i : Nat) (item : Value) :
      (evaluateBody (.iteration var item i n env) body).Stays :=
    evaluateBody_stays _ body hexits
  rw [Node.evaluate, Node.evaluate, Node.evaluate, hl, ha, hb]
  simp only [Except.bind, Bool.false_eq_true, if_false]
  rw [Meaning.loop_append, (Meaning.stays_loop (hstays _) 0 as).closed_followedBy,
    Meaning.loop_eq_of_forall (hsame (as ++ bs).length as.length) 0 0 as,
    Meaning.loop_eq_of_forall (hsame (as ++ bs).length bs.length) (0 + as.length) 0 bs]

end Loop

/-! ## Templates -/

/-- A key that leads to a sequence in data has its items there. -/
theorem items_of_getValue {data : Value} {key : String} {line : Nat} {items : List Value}
    (h : (Renderer.new data).getValue key line = .ok (.sequence items)) :
    (Environment.data data).items key line = .ok items := by
  have henv : Scopes.environment ⟨data, []⟩ = .data data := rfl
  have hvalue : Scopes.value ⟨data, []⟩ key line = .ok (.sequence items) := h
  rw [← henv, Scopes.items_environment, Scopes.items, hvalue]
  rfl

namespace Template

/-- Nodes that mean the same can stand for one another among others. -/
theorem generate_congr_nodes {data : Value} {as bs : List Node}
    (h : evaluateBody (.data data) as = evaluateBody (.data data) bs) (before after : List Node) :
    generate ⟨before ++ as ++ after⟩ data = generate ⟨before ++ bs ++ after⟩ data := by
  rw [generate_eq_evaluate, generate_eq_evaluate, evaluate, evaluate, evaluateBody_append,
    evaluateBody_append, evaluateBody_append, evaluateBody_append, h]

/-- What stands behind a loop is generated behind it, however the loop ends. -/
theorem generate_loop_cons (var key : String) (reverse : Bool) (body : List Node) (line : Nat)
    (nodes : List Node) (data : Value) :
    generate ⟨.loop var key reverse body line :: nodes⟩ data =
      (generate ⟨[.loop var key reverse body line]⟩ data).bind (fun s =>
        (generate ⟨nodes⟩ data).map (fun u => s ++ u)) := by
  have hstays : ((Node.loop var key reverse body line).evaluate (.data data)).Stays := by
    rw [Node.evaluate]
    exact Meaning.stays_bind (fun items => Meaning.stays_closed _)
  have halone : evaluateBody (.data data) [.loop var key reverse body line] =
      (Node.loop var key reverse body line).evaluate (.data data) := by
    rw [evaluateBody, evaluateBody, Meaning.followedBy_text]
  rw [generate_eq_evaluate, generate_eq_evaluate, generate_eq_evaluate, evaluate, evaluate,
    evaluate, halone, evaluateBody, hstays.map_followedBy]
  cases ((Node.loop var key reverse body line).evaluate (.data data)).map Outcome.text with
  | error e => rfl
  | ok s =>
      cases (evaluateBody (.data data) nodes).map Outcome.text with
      | error e => rfl
      | ok u => rfl

/-- **Loops over parts of a sequence.**  A template generates the same with a loop from the back
over one key and with a loop over another that leads to the reversed sequence.  If a body leaves
no loop around it and does not test the position, a template generates the same with a loop over
two sequences one after the other and with a loop over each of them: the text of the one and
then that of the other, or the first failure. -/
theorem generate_loop (data : Value) (var : String) (body before after : List Node) :
    (∀ (k r : String) (line line' : Nat) (items : List Value),
      (Renderer.new data).getValue k line = .ok (.sequence items) →
      (Renderer.new data).getValue r line' = .ok (.sequence items.reverse) →
        generate ⟨before ++ [.loop var k true body line] ++ after⟩ data =
          generate ⟨before ++ [.loop var r false body line'] ++ after⟩ data) ∧
    ∀ (l a b : String) (line line₁ line₂ : Nat) (as bs : List Value),
      (Renderer.new data).getValue l line = .ok (.sequence (as ++ bs)) →
      (Renderer.new data).getValue a line₁ = .ok (.sequence as) →
      (Renderer.new data).getValue b line₂ = .ok (.sequence bs) →
      ExitsInLoops (bodySites [] body) → var ∉ bodyTestedVars body →
        generate ⟨before ++ [.loop var l false body line] ++ after⟩ data =
          generate ⟨before ++ [.loop var a false body line₁, .loop var b false body line₂] ++
            after⟩ data ∧
        generate ⟨[.loop var l false body line]⟩ data =
          (generate ⟨[.loop var a false body line₁]⟩ data).bind (fun s =>
            (generate ⟨[.loop var b false body line₂]⟩ data).map (fun u => s ++ u)) := by
  constructor
  · intro k r line line' items hk hr
    have hloop : (Node.loop var k true body line).evaluate (.data data) =
        (Node.loop var r false body line').evaluate (.data data) :=
      evaluate_loop_reverse (items_of_getValue hk) (items_of_getValue hr)
    refine generate_congr_nodes ?_ before after
    simp only [evaluateBody, hloop]
  · intro l a b line line₁ line₂ as bs hl ha hb hexits htested
    have hloop := evaluate_loop_append (items_of_getValue hl) (items_of_getValue ha)
      (items_of_getValue hb) hexits htested
    have hbody : evaluateBody (.data data) [.loop var l false body line] =
        evaluateBody (.data data) [.loop var a false body line₁, .loop var b false body line₂] := by
      simp only [evaluateBody, hloop, Meaning.followedBy_assoc]
    refine ⟨generate_congr_nodes hbody before after, ?_⟩
    rw [← generate_loop_cons]
    have halone := generate_congr_nodes hbody [] []
    exact halone

/-- A body that tests the position and leaves the loop at an item, from both ends; and a body with
an inner loop that is left at once, over two parts. -/
theorem generate_loop_parts :
    let data : Value := .mapping [
      ("all", .sequence [.string "a", .string "b", .string "c"]),
      ("back", .sequence [.string "c", .string "b", .string "a"]),
      ("front", .sequence [.string "a"]), ("rest", .sequence [.string "b", .string "c"])]
    let leaving : List Node := [
      .conditional [.mk (.index "x" .first) [] 1] (some [.text ","]), .lookup "x" 1,
      .conditional [.mk (.is "x" "b") [.last 1] 1] none]
    let staying : List Node := [.lookup "x" 1, .loop "y" "all" true [.lookup "y" 1, .last 1] 1]
    (ExitsInLoops (bodySites [] staying) ∧ "x" ∉ bodyTestedVars staying) ∧
    generate ⟨[.loop "x" "back" false leaving 2, .text "."]⟩ data = .ok "c,b." ∧
    generate ⟨[.loop "x" "all" true leaving 1, .text "."]⟩ data = .ok "c,b." ∧
    generate ⟨[.loop "x" "all" false staying 1]⟩ data =
      ((generate ⟨[.loop "x" "front" false staying 1]⟩ data).bind (fun s =>
        (generate ⟨[.loop "x" "rest" false staying 1]⟩ data).map (fun u => s ++ u))) ∧
    generate ⟨[.loop "x" "all" false staying 1]⟩ data = .ok "acbccc" := by
  intro data leaving staying
  have hexits : ExitsInLoops (bodySites [] staying) := by
    intro line hmem
    simp [staying, bodySites, Node.sites] at hmem
  have htested : "x" ∉ bodyTestedVars staying := List.not_mem_nil
  have hback : generate ⟨[.loop "x" "back" false leaving 2, .text "."]⟩ data = .ok "c,b." := by
    rw [generate_eq_evaluate]
    rfl
  have hfront : generate ⟨[.loop "x" "front" false staying 1]⟩ data = .ok "ac" := by
    rw [generate_eq_evaluate]
    rfl
  have hrest : generate ⟨[.loop "x" "rest" false staying 1]⟩ data = .ok "bccc" := by
    rw [generate_eq_evaluate]
    rfl
  obtain ⟨hreverse, -⟩ := generate_loop data "x" leaving [] [.text "."]
  obtain ⟨-, happend⟩ := generate_loop data "x" staying [] []
  have hparts := (happend "all" "front" "rest" 1 1 1 [.string "a"] [.string "b", .string "c"]
    rfl rfl rfl hexits htested).2
  refine ⟨⟨hexits, htested⟩, hback, ?_, hparts, ?_⟩
  · have hequal := hreverse "all" "back" 1 2 [.string "a", .string "b", .string "c"] rfl rfl
    exact hequal.trans hback
  · rw [hparts, hfront, hrest]
    rfl

end Template

end Stencil
