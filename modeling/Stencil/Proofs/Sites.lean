import Stencil.Proofs.Assembly
import Stencil.Proofs.Descent
import Stencil.Template.Site

/-!
# The sites of a template are those of its commands

While a template is assembled, each command adds its directive to the sites that are there:
with the variables of the loops that are open at that moment, and with the line of the
command.  Closing a block turns frames into nodes and changes no site.  So the sites of a
template are read off the commands of its tokens, in their order.

**Results.**
* `Assembly.sites_of_advances`, `Assembly.sites_run`: what a directive and what tokens add to
  the sites.
* `Template.sites_eq`: the sites of a template are those of the commands.
* `Assembly.exists_of_mem_sitesOf`: each of them belongs to a command, read inside of the loops
  that are open before it.
* `Assembly.sublist_sitesOf`: their lines are lines of tokens, in their order.
-/

namespace Stencil

namespace Directive

/-- Whether a directive has a line of its own in a tree. -/
def hasLine : Directive → Bool
  | endLoop => false
  | otherwise => false
  | endCondition => false
  | _ => true

/-- The site of a directive inside of the loops of some variables, if it has one. -/
def sites (vars : List String) (line : Nat) (d : Directive) : List Site :=
  if d.hasLine then [⟨vars, d, line⟩] else []

end Directive

/-- The sites of the bodies of an open block that are done, and of the directive that began
the body that is under way. -/
def Block.sites (vars : List String) (line : Nat) : Block → List Site
  | loop var key reverse => [⟨vars, .loop var key reverse, line⟩]
  | branch done test branchLine =>
      branchSites vars true done.reverse ++
        [⟨vars, test.directive done.reverse.isEmpty, branchLine⟩]
  | otherwise done => branchSites vars true done.reverse

namespace Assembly

/-- The variables of the loops among some frames. -/
def varsOf (frames : List Frame) : List String :=
  vars ⟨frames, []⟩

theorem vars_eq_varsOf (frames : List Frame) (nodes : List Node) :
    vars ⟨frames, nodes⟩ = varsOf frames :=
  rfl

section Variables

variable (frames : List Frame) (done : List Branch) (opener : String) (line : Nat)
  (outer : List Node)

@[simp] theorem varsOf_loop (var key : String) (reverse : Bool) :
    varsOf (⟨.loop var key reverse, opener, line, outer⟩ :: frames) = var :: varsOf frames :=
  rfl

@[simp] theorem varsOf_branch (test : Test) (testLine : Nat) :
    varsOf (⟨.branch done test testLine, opener, line, outer⟩ :: frames) = varsOf frames :=
  rfl

@[simp] theorem varsOf_otherwise :
    varsOf (⟨.otherwise done, opener, line, outer⟩ :: frames) = varsOf frames :=
  rfl

end Variables

/-- The sites before the body that is under way. -/
def framesSites : List Frame → List Site
  | [] => []
  | f :: frames =>
      framesSites frames ++ bodySites (varsOf frames) f.outer.reverse ++
        f.block.sites (varsOf frames) f.line

/-- The sites of all that has been assembled. -/
def sites (a : Assembly) : List Site :=
  framesSites a.frames ++ bodySites a.vars a.nodes.reverse

/-- A node at the end of the innermost body adds its sites. -/
theorem sites_push (frames : List Frame) (n : Node) (nodes : List Node) :
    sites ⟨frames, n :: nodes⟩ = sites ⟨frames, nodes⟩ ++ n.sites (varsOf frames) := by
  simp [sites, vars_eq_varsOf, bodySites_append, bodySites]

/-- Text has no site. -/
theorem sites_pushText (a : Assembly) (s : String) : (a.pushText s).sites = a.sites := by
  obtain ⟨frames, nodes⟩ := a
  have hpush (t : String) : sites ⟨frames, .text t :: nodes⟩ = sites ⟨frames, nodes⟩ := by
    rw [sites_push, Node.sites, List.append_nil]
  cases nodes with
  | nil => exact hpush s
  | cons n nodes =>
      cases n with
      | text before =>
          rw [pushText, appendText, sites_push, sites_push]
          rfl
      | _ => exact hpush s

/-- Inside of an open block are the sites before it, its own, and those of its body. -/
theorem sites_cons (f : Frame) (frames : List Frame) (nodes : List Node) :
    sites ⟨f :: frames, nodes⟩ =
      sites ⟨frames, f.outer⟩ ++ f.block.sites (varsOf frames) f.line ++
        bodySites (varsOf (f :: frames)) nodes.reverse := by
  simp [sites, framesSites, vars_eq_varsOf]

/-- A branch that is done has the site of its test and those of its body. -/
theorem branchSites_reverse_cons (vars : List String) (done : List Branch) (test : Test)
    (nodes : List Node) (line : Nat) :
    branchSites vars true (Branch.mk test nodes.reverse line :: done).reverse =
      branchSites vars true done.reverse ++
        ⟨vars, test.directive done.reverse.isEmpty, line⟩ :: bodySites vars nodes.reverse := by
  simp [branchSites_append, branchSites]

/-- **A directive adds its site, if it has one.** -/
theorem sites_of_advances {a b : Assembly} {raw : String} {line : Nat} {d : Directive}
    (h : Advances raw line a d b) : b.sites = a.sites ++ d.sites a.vars line := by
  cases h with
  | lookup frames nodes key => exact sites_push frames (.lookup key line) nodes
  | last frames nodes inside => exact sites_push frames (.last line) nodes
  | loop frames nodes var key reverse =>
      rw [sites_cons, List.append_assoc]
      rfl
  | condition frames nodes test =>
      rw [sites_cons, List.append_assoc]
      rfl
  | alternative frames nodes done test next testLine opener first outer same =>
      rw [sites_cons, sites_cons]
      simp only [Block.sites, branchSites_reverse_cons, vars_eq_varsOf]
      simp [Directive.sites, Directive.hasLine, Test.directive, bodySites]
  | otherwise frames nodes done test testLine opener first outer =>
      rw [sites_cons, sites_cons]
      simp only [Block.sites, branchSites_reverse_cons]
      simp [Directive.sites, Directive.hasLine, bodySites]
  | endLoop frames nodes var key reverse opener first outer =>
      rw [sites_push, sites_cons]
      simp [Block.sites, Node.sites, Directive.sites, Directive.hasLine]
  | endBranch frames nodes done test testLine opener first outer =>
      rw [sites_push, sites_cons, Node.sites, branchSites_reverse_cons]
      simp [Block.sites, otherwiseSites, Directive.sites, Directive.hasLine]
  | endOtherwise frames nodes done opener first outer =>
      rw [sites_push, sites_cons, Node.sites]
      simp [Block.sites, otherwiseSites, Directive.sites, Directive.hasLine]

/-! ## Commands -/

/-- The site of a token among the open blocks, if it is a command that has one. -/
def tokenSites (a : Assembly) (t : Token) : List Site :=
  match t.kind with
  | .command args _ =>
      match Directive.ofArgs? a.vars args with
      | some d => d.sites a.vars t.line
      | none => []
  | _ => []

/-- The sites of the commands among tokens, which are carried out one after the other. -/
def sitesOf : Assembly → List Token → List Site
  | _, [] => []
  | a, t :: ts =>
      a.tokenSites t ++
        match a.step t with
        | .ok b => b.sitesOf ts
        | .error _ => []

theorem sites_step {a b : Assembly} {t : Token} (h : a.step t = .ok b) :
    b.sites = a.sites ++ a.tokenSites t := by
  obtain ⟨kind, line⟩ := t
  cases kind with
  | text s =>
      cases h
      rw [sites_pushText, tokenSites, List.append_nil]
  | escape mark =>
      cases h
      rw [sites_pushText, tokenSites, List.append_nil]
  | comment =>
      cases h
      rw [tokenSites, List.append_nil]
  | command args raw =>
      obtain ⟨d, hd, hadvance⟩ := exists_of_command h
      simp only [sites_of_advances (advances_of_advance? hadvance), tokenSites, hd]

/-- **Tokens add the sites of their commands.** -/
theorem sites_run {a b : Assembly} {ts : List Token} (h : a.run ts = .ok b) :
    b.sites = a.sites ++ a.sitesOf ts := by
  induction ts generalizing a with
  | nil =>
      cases h
      rw [sitesOf, List.append_nil]
  | cons t ts ih =>
      obtain ⟨c, hc, hrest⟩ := exists_of_run_cons h
      rw [ih hrest, sites_step hc, sitesOf, hc, List.append_assoc]

/-- A site of a token is that of its directive. -/
theorem exists_of_mem_tokenSites {a : Assembly} {t : Token} {s : Site}
    (h : s ∈ a.tokenSites t) : ∃ args raw, t = ⟨.command args raw, s.line⟩ ∧ s.vars = a.vars ∧
      Directive.ofArgs? a.vars args = some s.directive := by
  obtain ⟨kind, line⟩ := t
  cases kind with
  | command args raw =>
      simp only [tokenSites] at h
      cases hd : Directive.ofArgs? a.vars args with
      | none =>
          rw [hd] at h
          cases h
      | some d =>
          simp only [hd, Directive.sites] at h
          split at h
          · cases List.mem_singleton.1 h
            exact ⟨args, raw, rfl, rfl, hd⟩
          · cases h
  | _ => cases h

/-- **A site of tokens belongs to a command**, read inside of the loops that are open behind
the tokens before it. -/
theorem exists_of_mem_sitesOf {a : Assembly} {ts : List Token} {s : Site}
    (h : s ∈ a.sitesOf ts) : ∃ before args raw after b,
      ts = before ++ ⟨.command args raw, s.line⟩ :: after ∧ a.run before = .ok b ∧
        b.vars = s.vars ∧ Directive.ofArgs? b.vars args = some s.directive := by
  induction ts generalizing a with
  | nil => cases h
  | cons t ts ih =>
      rw [sitesOf, List.mem_append] at h
      rcases h with h | h
      · obtain ⟨args, raw, ht, hvars, hd⟩ := exists_of_mem_tokenSites h
        exact ⟨[], args, raw, ts, a, by rw [ht, List.nil_append], rfl, hvars.symm, hd⟩
      · split at h
        · next c hc =>
            obtain ⟨before, args, raw, after, b, hts, hrun, hvars, hd⟩ := ih h
            refine ⟨t :: before, args, raw, after, b, by rw [hts, List.cons_append], ?_, hvars, hd⟩
            rw [run, hc]
            exact hrun
        · cases h

theorem sublist_tokenSites (a : Assembly) (t : Token) :
    ((a.tokenSites t).map Site.line).Sublist [t.line] := by
  unfold tokenSites
  split
  · split
    · next d _ =>
        unfold Directive.sites
        split
        · exact List.Sublist.refl _
        · exact List.nil_sublist _
    · exact List.nil_sublist _
  · exact List.nil_sublist _

/-- **The lines of the sites of tokens are lines of the tokens**, in their order. -/
theorem sublist_sitesOf (a : Assembly) (ts : List Token) :
    ((a.sitesOf ts).map Site.line).Sublist (ts.map Token.line) := by
  induction ts generalizing a with
  | nil => exact List.Sublist.refl _
  | cons t ts ih =>
      rw [sitesOf, List.map_append, List.map_cons]
      refine (sublist_tokenSites a t).append ?_
      split
      · next b _ => exact ih b
      · exact List.nil_sublist _

end Assembly

namespace Template

/-- The template of tokens is what is assembled of them, with all blocks closed. -/
theorem exists_of_ofTokens {tokens : List Token} {t : Template} (h : ofTokens tokens = .ok t) :
    ∃ nodes, Assembly.start.run tokens = .ok ⟨[], nodes⟩ ∧ t.nodes = nodes.reverse := by
  rw [ofTokens_eq_template, Assembly.template] at h
  cases hrun : Assembly.start.run tokens with
  | error e =>
      rw [hrun] at h
      cases h
  | ok a =>
      rw [hrun] at h
      obtain ⟨frames, nodes⟩ := a
      cases frames with
      | nil =>
          cases h
          exact ⟨nodes, rfl, rfl⟩
      | cons f frames => cases h

/-- **The sites of a template are those of the commands.** -/
theorem sites_eq {tokens : List Token} {t : Template} (h : ofTokens tokens = .ok t) :
    bodySites [] t.nodes = Assembly.start.sitesOf tokens := by
  obtain ⟨nodes, hrun, hnodes⟩ := exists_of_ofTokens h
  rw [hnodes]
  exact Assembly.sites_run hrun

end Template

end Stencil
