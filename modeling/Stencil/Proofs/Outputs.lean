import Stencil.Generator.Additions

/-!
# What a generator makes of its additions

A generator keeps an output for each accepted addition, in order, and nothing else
(`Output.Of`).  An addition that fails leaves it as it was, so after any additions its
outputs are those of the accepted ones.  Generating goes through the outputs as through the
accepted additions: the first of them that fails makes everything fail.

**Results.**
* `add_of_error?_eq_none`, `add_of_error?_eq_some`: what one addition does.
* `addAll_keeps`: what any additions leave behind.
* `Output.Of.generate_eq_ok_iff`, `Output.Of.generate_eq_error_iff`: an output is generated
  as its addition.
* `Generator.addAll_new_reflects`: a generator is what the additions make of it.
-/

namespace Stencil

/-- Whether an output is the one of an addition. -/
structure Output.Of (config : Config) (a : Addition) (o : Output) : Prop where
  nameSource_eq : o.nameSource = a.name
  parse_name : Template.parse config a.name = .ok o.name
  parse_body : Template.parse config a.body = .ok o.body

/-! ## Adding -/

namespace Generator

variable {config : Config} {g : Generator} {a : Addition}

/-- An addition without an error adds its output at the end. -/
theorem add_of_error?_eq_none (hg : g.config = config) (h : a.error? config = none) :
    ∃ o, Output.Of config a o ∧
      g.add a.name a.body = ({ g with outputs := g.outputs ++ [o] }, .ok ()) := by
  rw [Addition.error?] at h
  split at h
  · cases h
  · cases h
  · next n b hname hbody =>
      refine ⟨⟨a.name, n, b⟩, ⟨rfl, hname, hbody⟩, ?_⟩
      rw [add, output, hg, hname, hbody]
      rfl

/-- An addition with an error leaves the generator as it is. -/
theorem add_of_error?_eq_some (hg : g.config = config) {e : Error}
    (h : a.error? config = some e) :
    ∃ note, g.add a.name a.body = (g, .error (.context note e)) := by
  rw [Addition.error?] at h
  split at h
  · next e' hname =>
      cases h
      exact ⟨_, by rw [add, output, hg, hname]; rfl⟩
  · next n e' hname hbody =>
      cases h
      exact ⟨_, by rw [add, output, hg, hname, hbody]; rfl⟩
  · cases h

/-- **Additions leave behind an output for each accepted one.** -/
theorem addAll_keeps {before : List Addition} (hg : g.config = config)
    (h : List.Forall₂ (Output.Of config) before g.outputs) (as : List Addition) :
    (g.addAll as).1.config = config ∧
      List.Forall₂ (Output.Of config) (before ++ accepted config as) (g.addAll as).1.outputs ∧
      List.Forall₂ (Addition.Replied config) as (g.addAll as).2 := by
  induction as generalizing g before with
  | nil =>
      rw [accepted, List.filter_nil, List.append_nil]
      exact ⟨hg, h, .nil⟩
  | cons a as ih =>
      cases herror : a.error? config with
      | none =>
          obtain ⟨o, ho, hadd⟩ := add_of_error?_eq_none hg herror
          have hkept : accepted config (a :: as) = [a] ++ accepted config as := by
            simp [accepted, herror]
          have houtputs : List.Forall₂ (Output.Of config) (before ++ [a]) (g.outputs ++ [o]) :=
            List.rel_append h (.cons ho .nil)
          obtain ⟨hconfig, hrest, hreplies⟩ :=
            ih (g := { g with outputs := g.outputs ++ [o] }) hg houtputs
          rw [addAll, hadd, hkept, ← List.append_assoc]
          refine ⟨hconfig, hrest, .cons ?_ hreplies⟩
          rw [Addition.Replied, herror]
      | some e =>
          obtain ⟨note, hadd⟩ := add_of_error?_eq_some hg herror
          have hdropped : accepted config (a :: as) = accepted config as := by
            simp [accepted, herror]
          obtain ⟨hconfig, hrest, hreplies⟩ := ih hg h
          rw [addAll, hadd, hdropped]
          refine ⟨hconfig, hrest, .cons ?_ hreplies⟩
          rw [Addition.Replied, herror]
          exact ⟨note, rfl, Error.code_context note e, Error.line_context note e⟩

end Generator

/-! ## Generating -/

namespace Output

variable {config : Config} {a : Addition} {o : Output} {data : Value}

theorem Of.rendered_name (h : Of config a o) :
    Template.rendered config a.name data = o.name.generate data := by
  rw [Template.rendered, h.parse_name]
  rfl

theorem Of.rendered_body (h : Of config a o) :
    Template.rendered config a.body data = o.body.generate data := by
  rw [Template.rendered, h.parse_body]
  rfl

/-- An output is generated just if its addition is, with the same texts. -/
theorem Of.generate_eq_ok_iff (h : Of config a o) (file : GeneratedFile) :
    o.generate data = .ok file ↔ a.Gives config data file := by
  obtain ⟨name, content⟩ := file
  rw [Addition.Gives, h.rendered_name, h.rendered_body, generate, generateName]
  cases o.name.generate data with
  | error e => simp [Error.within, Except.bind]
  | ok name' =>
      cases o.body.generate data with
      | error e => simp [Error.within, Except.bind, Except.map]
      | ok content' => simp [Error.within, Except.bind, Except.map]

/-- An output fails just as its addition. -/
theorem Of.generate_eq_error_iff (h : Of config a o) (err : Error) :
    o.generate data = .error err ↔
      ∃ note e, a.Fails config data note e ∧ err = .context note e := by
  have hfails (note : String) (e : Error) : a.Fails config data note e ↔
      (o.name.generate data = .error e ∧ note = "generating name of \"" ++ o.nameSource ++ "\"") ∨
        ∃ name, o.name.generate data = .ok name ∧ o.body.generate data = .error e ∧
          note = "generating " ++ name := by
    rw [Addition.Fails, h.rendered_name, h.rendered_body, h.nameSource_eq]
  simp only [hfails, generate, generateName]
  cases o.name.generate data with
  | error e => simp [Error.within, Except.bind, eq_comm]
  | ok name =>
      cases o.body.generate data with
      | error e => simp [Error.within, Except.bind, Except.map, eq_comm]
      | ok content => simp [Error.within, Except.bind, Except.map]

end Output

namespace Generator

variable {config : Config} {data : Value} {as : List Addition} {os : List Output}

/-- Outputs are all generated just if their additions are. -/
theorem generateAll_eq_none_iff (h : List.Forall₂ (Output.Of config) as os)
    (files : List GeneratedFile) :
    Output.generateAll data os = (files, none) ↔
      List.Forall₂ (Addition.Gives config data) as files := by
  induction h generalizing files with
  | nil => simp [Output.generateAll, eq_comm]
  | @cons a o as os ho _ ih =>
      rw [Output.generateAll]
      cases hfile : o.generate data with
      | error err =>
          constructor
          · intro hall
            cases hall
          · rintro (_ | ⟨hgives, _⟩)
            rw [(ho.generate_eq_ok_iff _).2 hgives] at hfile
            cases hfile
      | ok file =>
          have hgives : a.Gives config data file := (ho.generate_eq_ok_iff file).1 hfile
          constructor
          · intro hall
            obtain ⟨hfiles, hnone⟩ := Prod.mk.inj hall
            rw [← hfiles]
            exact .cons hgives ((ih _).1 (Prod.ext rfl hnone))
          · rintro (_ | ⟨hgives', hrest⟩)
            rw [(ho.generate_eq_ok_iff _).2 hgives'] at hfile
            cases hfile
            rw [(ih _).2 hrest]

/-- **Outputs fail with the first error of their additions.** -/
theorem generateAll_eq_some_iff (h : List.Forall₂ (Output.Of config) as os) (err : Error) :
    (Output.generateAll data os).2 = some err ↔
      ∃ before a after note e, as = before ++ a :: after ∧
        (∀ b ∈ before, ∃ file, b.Gives config data file) ∧ a.Fails config data note e ∧
        err = .context note e := by
  induction h with
  | nil => simp [Output.generateAll]
  | @cons a o as os ho _ ih =>
      rw [Output.generateAll]
      cases hfile : o.generate data with
      | error err' =>
          obtain ⟨note, e, hfails, rfl⟩ := (ho.generate_eq_error_iff err').1 hfile
          constructor
          · intro hall
            cases hall
            exact ⟨[], a, as, note, e, rfl, by simp, hfails, rfl⟩
          · rintro ⟨before, b, after, note', e', hsplit, hbefore, hfails', rfl⟩
            cases before with
            | nil =>
                obtain ⟨rfl, -⟩ := List.cons.inj hsplit
                obtain ⟨rfl, rfl⟩ := hfails.unique hfails'
                rfl
            | cons c before =>
                obtain ⟨rfl, -⟩ := List.cons.inj hsplit
                obtain ⟨file, hgives⟩ := hbefore a (by simp)
                rw [(ho.generate_eq_ok_iff file).2 hgives] at hfile
                cases hfile
      | ok file =>
          have hgives : a.Gives config data file := (ho.generate_eq_ok_iff file).1 hfile
          simp only
          rw [ih]
          constructor
          · rintro ⟨before, b, after, note, e, rfl, hbefore, hfails, rfl⟩
            refine ⟨a :: before, b, after, note, e, rfl, ?_, hfails, rfl⟩
            exact List.forall_mem_cons.2 ⟨⟨file, hgives⟩, hbefore⟩
          · rintro ⟨before, b, after, note, e, hsplit, hbefore, hfails, rfl⟩
            cases before with
            | nil =>
                obtain ⟨rfl, -⟩ := List.cons.inj hsplit
                have herror := (ho.generate_eq_error_iff _).2 ⟨note, e, hfails, rfl⟩
                rw [hfile] at herror
                cases herror
            | cons c before =>
                obtain ⟨rfl, hrest⟩ := List.cons.inj hsplit
                exact ⟨before, b, after, note, e, hrest, (List.forall_mem_cons.1 hbefore).2,
                  hfails, rfl⟩

theorem generate_eq_ok_iff (g : Generator) (files : List GeneratedFile) :
    g.generate data = .ok files ↔ Output.generateAll data g.outputs = (files, none) := by
  rw [generate]
  split
  · next h => simp [h]
  · next h => simp [h]

theorem generate_eq_error_iff (g : Generator) (err : Error) :
    g.generate data = .error err ↔ (Output.generateAll data g.outputs).2 = some err := by
  rw [generate]
  split
  · next h => simp [h]
  · next h => simp [h]

/-- Each of some additions can be generated just if all of them can be. -/
theorem exists_forall₂_gives_iff (as : List Addition) :
    (∃ files, List.Forall₂ (Addition.Gives config data) as files) ↔
      ∀ a ∈ as, ∃ file, a.Gives config data file := by
  induction as with
  | nil => simp
  | cons a as ih =>
      rw [List.forall_mem_cons, ← ih]
      constructor
      · rintro ⟨_, _ | ⟨hgives, hrest⟩⟩
        exact ⟨⟨_, hgives⟩, _, hrest⟩
      · rintro ⟨⟨file, hgives⟩, files, hrest⟩
        exact ⟨file :: files, .cons hgives hrest⟩

/-- **A generator is what the additions make of it.** -/
theorem addAll_new_reflects (config : Config) (additions : List Addition) :
    Reflects config additions ((new config).addAll additions).1
      ((new config).addAll additions).2 := by
  have hnew : (new config).config = config := rfl
  have hnone : List.Forall₂ (Output.Of config) [] (new config).outputs := .nil
  obtain ⟨hconfig, houtputs, hreplies⟩ := addAll_keeps hnew hnone additions
  rw [List.nil_append] at houtputs
  have hfiles (data : Value) (files : List GeneratedFile) :
      ((new config).addAll additions).1.generate data = .ok files ↔
        List.Forall₂ (Addition.Gives config data) (accepted config additions) files :=
    (generate_eq_ok_iff _ files).trans (generateAll_eq_none_iff houtputs files)
  refine ⟨hreplies, houtputs.length_eq.symm, ?_, ?_, hfiles, ?_⟩
  · intro a e herror
    obtain ⟨note, hadd⟩ := add_of_error?_eq_some hconfig herror
    rw [hadd]
  · intro data
    rw [← exists_forall₂_gives_iff]
    exact exists_congr (hfiles data)
  · intro data err
    rw [generate_eq_error_iff, generateAll_eq_some_iff houtputs]
    constructor
    · rintro ⟨before, a, after, note, e, hsplit, hbefore, hfails, rfl⟩
      exact ⟨before, a, after, note, e, hsplit, hbefore, hfails, rfl, rfl,
        Error.code_context note e, Error.line_context note e⟩
    · rintro ⟨before, a, after, note, e, hsplit, hbefore, hfails, rfl, -⟩
      exact ⟨before, a, after, note, e, hsplit, hbefore, hfails, rfl⟩

end Generator
end Stencil
