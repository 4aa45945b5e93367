import Stencil.Template.Assembly

/-!
# What a directive does to an assembly

A directive that fits the open blocks either adds a node, opens a block, goes on to the next
body of a conditional, or closes the innermost block.  `Assembly.Advances` lists these cases
with the frames that they need and leave, and everything that holds of an assembly through
its run is proved case by case along it.

**Results.**
* `Assembly.advances_of_advance?`: a directive that fits is one of the cases.
* `Assembly.run_induction`: what every token keeps holds after a run.
-/

namespace Stencil
namespace Assembly

/-- What a directive on a line makes of an assembly. -/
inductive Advances (raw : String) (line : Nat) : Assembly → Directive → Assembly → Prop
  | lookup (frames : List Frame) (nodes : List Node) (key : String) :
      Advances raw line ⟨frames, nodes⟩ (.lookup key) ⟨frames, .lookup key line :: nodes⟩
  | last (frames : List Frame) (nodes : List Node) (inside : vars ⟨frames, nodes⟩ ≠ []) :
      Advances raw line ⟨frames, nodes⟩ .last ⟨frames, .last line :: nodes⟩
  | loop (frames : List Frame) (nodes : List Node) (var key : String) (reverse : Bool) :
      Advances raw line ⟨frames, nodes⟩ (.loop var key reverse)
        ⟨⟨.loop var key reverse, raw, line, nodes⟩ :: frames, []⟩
  | condition (frames : List Frame) (nodes : List Node) (test : Test) :
      Advances raw line ⟨frames, nodes⟩ (.condition test)
        ⟨⟨.branch [] test line, raw, line, nodes⟩ :: frames, []⟩
  | alternative (frames : List Frame) (nodes : List Node) (done : List Branch)
      (test next : Test) (testLine : Nat) (opener : String) (first : Nat) (outer : List Node)
      (same : next.kind = test.kind) :
      Advances raw line ⟨⟨.branch done test testLine, opener, first, outer⟩ :: frames, nodes⟩
        (.alternative next)
        ⟨⟨.branch (.mk test nodes.reverse testLine :: done) next line, opener, first, outer⟩ ::
          frames, []⟩
  | otherwise (frames : List Frame) (nodes : List Node) (done : List Branch) (test : Test)
      (testLine : Nat) (opener : String) (first : Nat) (outer : List Node) :
      Advances raw line ⟨⟨.branch done test testLine, opener, first, outer⟩ :: frames, nodes⟩
        .otherwise
        ⟨⟨.otherwise (.mk test nodes.reverse testLine :: done), opener, first, outer⟩ :: frames,
          []⟩
  | endLoop (frames : List Frame) (nodes : List Node) (var key : String) (reverse : Bool)
      (opener : String) (first : Nat) (outer : List Node) :
      Advances raw line ⟨⟨.loop var key reverse, opener, first, outer⟩ :: frames, nodes⟩ .endLoop
        ⟨frames, .loop var key reverse nodes.reverse first :: outer⟩
  | endBranch (frames : List Frame) (nodes : List Node) (done : List Branch) (test : Test)
      (testLine : Nat) (opener : String) (first : Nat) (outer : List Node) :
      Advances raw line ⟨⟨.branch done test testLine, opener, first, outer⟩ :: frames, nodes⟩
        .endCondition
        ⟨frames, .conditional (Branch.mk test nodes.reverse testLine :: done).reverse none ::
          outer⟩
  | endOtherwise (frames : List Frame) (nodes : List Node) (done : List Branch)
      (opener : String) (first : Nat) (outer : List Node) :
      Advances raw line ⟨⟨.otherwise done, opener, first, outer⟩ :: frames, nodes⟩ .endCondition
        ⟨frames, .conditional done.reverse (some nodes.reverse) :: outer⟩

/-- **A directive that fits is one of the cases.** -/
theorem advances_of_advance? {a b : Assembly} {raw : String} {line : Nat} {d : Directive}
    (h : a.advance? raw line d = some b) : Advances raw line a d b := by
  obtain ⟨frames, nodes⟩ := a
  cases d with
  | lookup key =>
      cases h
      exact .lookup frames nodes key
  | loop var key reverse =>
      cases h
      exact .loop frames nodes var key reverse
  | condition test =>
      cases h
      exact .condition frames nodes test
  | last =>
      simp only [advance?, pushLast?] at h
      split at h
      · cases h
      · next inside =>
          cases h
          exact .last frames nodes inside
  | endLoop =>
      simp only [advance?, closeLoop?] at h
      split at h
      · cases h
        exact .endLoop ..
      · cases h
  | endCondition =>
      simp only [advance?, closeConditional?] at h
      split at h
      · cases h
        exact .endBranch ..
      · cases h
        exact .endOtherwise ..
      · cases h
  | otherwise =>
      simp only [advance?, beginOtherwise?] at h
      split at h
      · cases h
        exact .otherwise ..
      · cases h
  | alternative next =>
      simp only [advance?, beginBranch?] at h
      split at h
      · split at h
        · next same =>
            cases h
            exact .alternative _ _ _ _ _ _ _ _ _ same
        · cases h
      · cases h

/-- What a command does: its directive fits the open blocks. -/
theorem exists_of_command {a b : Assembly} {args : List String} {raw : String} {line : Nat}
    (h : a.command args raw line = .ok b) :
    ∃ d, Directive.ofArgs? a.vars args = some d ∧ a.advance? raw line d = some b := by
  unfold command at h
  split at h
  · cases h
  · next d hd =>
      split at h
      · cases h
      · next c hc =>
          cases h
          exact ⟨d, hd, hc⟩

/-- Tokens are carried out one after the other. -/
theorem exists_of_run_cons {a b : Assembly} {t : Token} {ts : List Token}
    (h : a.run (t :: ts) = .ok b) : ∃ c, a.step t = .ok c ∧ c.run ts = .ok b := by
  rw [run] at h
  split at h
  · cases h
  · next c hc => exact ⟨c, hc, h⟩

/-- **What every token keeps holds after a run.** -/
theorem run_induction {P : Assembly → Prop} {ts : List Token}
    (hstep : ∀ t ∈ ts, ∀ a b : Assembly, P a → a.step t = .ok b → P b) {a b : Assembly}
    (ha : P a) (h : a.run ts = .ok b) : P b := by
  induction ts generalizing a with
  | nil =>
      cases h
      exact ha
  | cons t ts ih =>
      obtain ⟨c, hc, hrest⟩ := exists_of_run_cons h
      have hfirst : P c := hstep t (by simp) a c ha hc
      exact ih (fun u hu => hstep u (by simp [hu])) hfirst hrest

end Assembly
end Stencil
