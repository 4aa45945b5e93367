import Mathlib.Data.List.Induction
import Stencil.Engine.History
import Stencil.Proofs.Descent
import Stencil.Text.Bytes

/-!
# An engine stands for a map from names to sources

A source is live under a name if the name was registered with it, could be read, and since
then has neither been registered again, nor removed, nor cleared away.  After any calls the
templates of an engine are those of the live sources, and the replies of the engine are the
ones that a map from names to live sources would give: nothing is left of a registration that
failed, and rendering a name is rendering its source.

Between the history of calls and the engine stand the remembered sources: they are the live
ones, and each call keeps the engine in step with them.

**Results.**
* `Engine.lookup_sources_iff`: the remembered sources are the live ones.
* `Engine.represents_call`, `Engine.represents_run`: an engine stays in step with its sources.
* `Engine.fits_call`: the reply of an engine that is in step fits the live sources.
* `Engine.run_new_fits`: a new engine replies to any calls as a map of the live sources.
-/

namespace Stencil
namespace Engine

/-! ## Live sources -/

section Live

variable (config : Config)

/-- Whether a call puts another source under a name or takes it away. -/
def Call.Overwrites (name : String) : Call → Prop
  | .register other source => other = name ∧ ∃ t, Template.parse config source = .ok t
  | .remove other => other = name
  | .clear => True
  | _ => False

/-- Whether a source is that of the latest registration of a name that succeeded, with nothing
behind it that takes the name away. -/
def Live (calls : List Call) (name source : String) : Prop :=
  ∃ before after t, calls = before ++ .register name source :: after ∧
    Template.parse config source = .ok t ∧ ∀ c ∈ after, ¬ c.Overwrites config name

/-- Whether a call changes the templates of an engine. -/
def Call.Changes : Call → Prop
  | .register _ source => ∃ t, Template.parse config source = .ok t
  | .remove _ => True
  | .clear => True
  | _ => False

/-- Whether names are those with a live source, ascending as bytes. -/
def Lists (calls : List Call) (names : List String) : Prop :=
  (names.map Text.bytes).Pairwise (· < ·) ∧
    ∀ name, name ∈ names ↔ ∃ source, Live config calls name source

/-- Whether a template, if there is one, is that of the live source of a name. -/
def Holds (calls : List Call) (name : String) (r : Option Registered) : Prop :=
  (∀ source, Live config calls name source →
    ∃ t serial, Template.parse config source = .ok t ∧ r = some ⟨serial, t⟩) ∧
  ((¬ ∃ source, Live config calls name source) → r = none)

/-- Whether a reply to a call is what the live sources ask for. -/
def Fits (calls : List Call) : Call → Reply → Prop
  | .register _ source, reply =>
      match Template.parse config source with
      | .ok t => ∃ serial, reply = .template (some ⟨serial, t⟩)
      | .error err => ∃ failure, reply = .failed failure ∧
          failure.code = err.code ∧ failure.line = err.line
  | .get name, reply => ∃ r, reply = .template r ∧ Holds config calls name r
  | .contains name, reply =>
      ∃ b, reply = .flag b ∧ (b = true ↔ ∃ source, Live config calls name source)
  | .names, reply => ∃ names, reply = .names names ∧ Lists config calls names
  | .remove name, reply => ∃ r, reply = .template r ∧ Holds config calls name r
  | .clear, reply => reply = .done
  | .size, reply => ∃ names, reply = .count names.length ∧ Lists config calls names
  | .isEmpty, reply =>
      ∃ b, reply = .flag b ∧ (b = true ↔ ∀ name source, ¬ Live config calls name source)
  | .render name data, reply =>
      (∀ source, Live config calls name source →
        match (new config).renderText source data with
        | .ok text => reply = .text text
        | .error err => ∃ failure, reply = .failed failure ∧
            failure = .context ("rendering template \"" ++ name ++ "\"") err ∧
              failure.code = err.code ∧ failure.line = err.line) ∧
      ((¬ ∃ source, Live config calls name source) →
        reply = .failed (.templateNotFound name))
  | .renderText source data, reply =>
      reply = Reply.ofExcept .text ((new config).renderText source data)

end Live

/-! ## Remembered sources -/

section Sources

variable {config : Config}

/-- What a call does to the source under a name. -/
theorem lookup_sourcesAfter_iff {before : Entries String} {c : Call} {name source : String} :
    (sourcesAfter config before c).lookup name = some source ↔
      (c = .register name source ∧ ∃ t, Template.parse config source = .ok t) ∨
        (¬ c.Overwrites config name ∧ before.lookup name = some source) := by
  cases c with
  | register other text =>
      rw [sourcesAfter]
      cases hparse : Template.parse config text with
      | error e =>
          have hfails : ¬ Call.Overwrites config name (.register other text) := by
            rintro ⟨_, t, ht⟩
            rw [hparse] at ht
            cases ht
          refine ⟨fun h => Or.inr ⟨hfails, h⟩, ?_⟩
          rintro (⟨heq, t, ht⟩ | ⟨_, h⟩)
          · cases heq
            rw [hparse] at ht
            cases ht
          · exact h
      | ok t =>
          by_cases hname : other = name
          · subst hname
            rw [Entries.lookup_put_self]
            constructor
            · rintro h
              cases h
              exact Or.inl ⟨rfl, t, hparse⟩
            · rintro (⟨heq, _⟩ | ⟨hkeep, _⟩)
              · cases heq
                rfl
              · exact absurd ⟨rfl, t, hparse⟩ hkeep
          · rw [Entries.lookup_put_of_ne (Ne.symm hname)]
            refine ⟨fun h => Or.inr ⟨fun ho => hname ho.1, h⟩, ?_⟩
            rintro (⟨heq, _⟩ | ⟨_, h⟩)
            · cases heq
              exact absurd rfl hname
            · exact h
  | remove other =>
      rw [sourcesAfter]
      by_cases hname : other = name
      · subst hname
        rw [Entries.lookup_erase_self]
        constructor
        · rintro h
          cases h
        · rintro (⟨heq, _⟩ | ⟨hkeep, _⟩)
          · cases heq
          · exact absurd rfl hkeep
      · rw [Entries.lookup_erase_of_ne (Ne.symm hname)]
        refine ⟨fun h => Or.inr ⟨hname, h⟩, ?_⟩
        rintro (⟨heq, _⟩ | ⟨_, h⟩)
        · cases heq
        · exact h
  | clear =>
      constructor
      · intro h
        cases h
      · rintro (⟨heq, _⟩ | ⟨hkeep, _⟩)
        · cases heq
        · exact absurd trivial hkeep
  | _ =>
      refine ⟨fun h => Or.inr ⟨id, h⟩, ?_⟩
      rintro (⟨heq, _⟩ | ⟨_, h⟩)
      · cases heq
      · exact h

/-- What is live after one more call. -/
theorem live_append_singleton {calls : List Call} {c : Call} {name source : String} :
    Live config (calls ++ [c]) name source ↔
      (c = .register name source ∧ ∃ t, Template.parse config source = .ok t) ∨
        (¬ c.Overwrites config name ∧ Live config calls name source) := by
  constructor
  · rintro ⟨before, after, t, heq, hparse, hafter⟩
    rcases List.eq_nil_or_concat' after with rfl | ⟨rest, d, rfl⟩
    · obtain ⟨_, hc⟩ := List.append_inj' heq rfl
      exact Or.inl ⟨List.head_eq_of_cons_eq hc, t, hparse⟩
    · have hlast : calls ++ [c] = (before ++ .register name source :: rest) ++ [d] := by
        rw [heq, List.append_assoc, List.cons_append]
      obtain ⟨hcalls, hc⟩ := List.append_inj' hlast rfl
      cases hc
      refine Or.inr ⟨hafter c (by simp), before, rest, t, hcalls, hparse, fun c' hc' => ?_⟩
      exact hafter c' (by simp [hc'])
  · rintro (⟨rfl, t, hparse⟩ | ⟨hkeep, before, after, t, rfl, hparse, hafter⟩)
    · exact ⟨calls, [], t, rfl, hparse, by simp⟩
    · refine ⟨before, after ++ [c], t, by simp, hparse, fun c' hc' => ?_⟩
      rcases List.mem_append.1 hc' with hmem | hmem
      · exact hafter c' hmem
      · rw [List.mem_singleton.1 hmem]
        exact hkeep

/-- **The remembered sources are the live ones.** -/
theorem lookup_sources_iff {calls : List Call} {name source : String} :
    (sources config [] calls).lookup name = some source ↔ Live config calls name source := by
  induction calls using List.reverseRecOn with
  | nil =>
      constructor
      · intro h
        cases h
      · rintro ⟨before, after, t, heq, _⟩
        simp at heq
  | append_singleton calls c ih =>
      have hafter : sources config [] (calls ++ [c]) =
          sourcesAfter config (sources config [] calls) c := sources_append config [] calls [c]
      rw [hafter, lookup_sourcesAfter_iff, live_append_singleton, ih]

/-- There is at most one live source under a name. -/
theorem Live.unique {calls : List Call} {name source source' : String}
    (h : Live config calls name source) (h' : Live config calls name source') :
    source = source' := by
  have hlookup := lookup_sources_iff.2 h
  rw [lookup_sources_iff.2 h'] at hlookup
  cases hlookup
  rfl

end Sources

/-! ## Engines in step with sources -/

/-- Whether the templates of an engine are those of sources under the same names. -/
structure Represents (config : Config) (e : Engine) (sources : Entries String) : Prop where
  config_eq : e.config = config
  keys_eq : Entries.keys e.cache = Entries.keys sources
  nodup : (Entries.keys e.cache).Nodup
  parsed : ∀ name source, sources.lookup name = some source →
    ∃ t serial, Template.parse config source = .ok t ∧
      e.cache.lookup name = some ⟨serial, t⟩

section Represents

variable {config : Config} {e : Engine} {sources : Entries String}

theorem represents_new (config : Config) : Represents config (new config) [] := by
  refine ⟨rfl, rfl, List.nodup_nil, fun name source h => ?_⟩
  cases h

/-- A source that can be read is registered with its template. -/
theorem register_of_parse_eq_ok {name source : String} {t : Template}
    (h : Template.parse e.config source = .ok t) :
    e.register name source =
      ({ e with
          cache := Entries.put name ⟨e.registrations, t⟩ e.cache,
          registrations := e.registrations + 1 }, .ok ⟨e.registrations, t⟩) := by
  rw [register, h]

/-- A source that cannot be read leaves the engine as it was, with the code and the line of
what is wrong with it. -/
theorem register_of_parse_eq_error {source : String} {err : Error}
    (h : Template.parse e.config source = .error err) (name : String) :
    ∃ failure, e.register name source = (e, .error failure) ∧
      failure.code = err.code ∧ failure.line = err.line := by
  rw [register, h]
  cases err with
  | config err => exact ⟨_, rfl, rfl, rfl⟩
  | _ => exact ⟨_, rfl, rfl, rfl⟩

/-- A registration keeps an engine in step. -/
theorem Represents.put (h : Represents config e sources) {name source : String} {t : Template}
    (ht : Template.parse config source = .ok t) :
    Represents config
      { e with
          cache := Entries.put name ⟨e.registrations, t⟩ e.cache,
          registrations := e.registrations + 1 }
      (Entries.put name source sources) := by
  refine ⟨h.config_eq, ?_, Entries.nodup_keys_put h.nodup name _, fun other text hother => ?_⟩
  · rw [Entries.keys_put, Entries.keys_put, h.keys_eq]
  · by_cases hname : other = name
    · subst hname
      rw [Entries.lookup_put_self] at hother ⊢
      cases hother
      exact ⟨t, e.registrations, ht, rfl⟩
    · rw [Entries.lookup_put_of_ne hname] at hother ⊢
      exact h.parsed other text hother

theorem Represents.remove (h : Represents config e sources) (name : String) :
    Represents config (e.remove name) (Entries.erase name sources) := by
  refine ⟨h.config_eq, ?_, Entries.nodup_keys_erase h.nodup name, fun other text hother => ?_⟩
  · rw [Engine.remove, Entries.keys_erase, Entries.keys_erase, h.keys_eq]
  · by_cases hname : other = name
    · subst hname
      rw [Entries.lookup_erase_self] at hother
      cases hother
    · rw [Entries.lookup_erase_of_ne hname] at hother
      rw [Engine.remove, Entries.lookup_erase_of_ne hname]
      exact h.parsed other text hother

theorem Represents.clear (h : Represents config e sources) : Represents config e.clear [] := by
  refine ⟨h.config_eq, rfl, List.nodup_nil, fun name source hlookup => ?_⟩
  cases hlookup

/-- A call that changes nothing leaves the engine as it was. -/
theorem call_of_not_changes {c : Call} (h : ¬ c.Changes e.config) : (e.call c).1 = e := by
  cases c with
  | register name source =>
      cases hparse : Template.parse e.config source with
      | ok t => exact absurd ⟨t, hparse⟩ h
      | error err =>
          obtain ⟨failure, hregister, _⟩ := register_of_parse_eq_error hparse name
          rw [call, hregister]
  | remove name => exact absurd trivial h
  | clear => exact absurd trivial h
  | _ => rfl

/-- **A call keeps an engine in step with its sources.** -/
theorem represents_call (h : Represents config e sources) (c : Call) :
    Represents config (e.call c).1 (sourcesAfter config sources c) := by
  cases c with
  | register name source =>
      cases hparse : Template.parse config source with
      | error err =>
          have hkeep : (e.call (.register name source)).1 = e := by
            refine call_of_not_changes ?_
            rintro ⟨t, ht⟩
            rw [h.config_eq, hparse] at ht
            cases ht
          rw [hkeep, sourcesAfter_register_error hparse]
          exact h
      | ok t =>
          have ht : Template.parse e.config source = .ok t := by rw [h.config_eq, hparse]
          rw [call, register_of_parse_eq_ok ht, sourcesAfter, hparse]
          exact h.put hparse
  | remove name => exact h.remove name
  | clear => exact h.clear
  | _ => exact h

/-- **Calls keep an engine in step with its sources.** -/
theorem represents_run (h : Represents config e sources) (calls : List Call) :
    Represents config (run e calls).1 (Engine.sources config sources calls) := by
  induction calls generalizing e sources with
  | nil => exact h
  | cons c cs ih => exact ih (represents_call h c)

/-! ## Replies -/

variable {calls : List Call}

/-- The template under a name is that of its live source. -/
theorem Represents.holds (h : Represents config e (Engine.sources config [] calls))
    (name : String) : Holds config calls name (e.get name) := by
  refine ⟨fun source hlive => ?_, fun hnone => ?_⟩
  · exact h.parsed name source (lookup_sources_iff.2 hlive)
  · cases hget : e.get name with
    | none => rfl
    | some r =>
        have hmem : name ∈ Entries.keys e.cache := Entries.mem_keys_iff.2 ⟨r, hget⟩
        rw [h.keys_eq] at hmem
        obtain ⟨source, hsource⟩ := Entries.mem_keys_iff.1 hmem
        exact absurd ⟨source, lookup_sources_iff.1 hsource⟩ hnone

/-- The keys of an engine are the names with a live source. -/
theorem Represents.mem_keys_iff (h : Represents config e (Engine.sources config [] calls))
    {name : String} :
    name ∈ Entries.keys e.cache ↔ ∃ source, Live config calls name source := by
  rw [h.keys_eq, Entries.mem_keys_iff]
  exact exists_congr (fun source => lookup_sources_iff)

theorem Represents.contains_iff (h : Represents config e (Engine.sources config [] calls))
    {name : String} :
    e.contains name = true ↔ ∃ source, Live config calls name source := by
  rw [← h.mem_keys_iff, Entries.mem_keys_iff, contains, Option.isSome_iff_exists]
  rfl

/-- The names of an engine ascend as bytes if no key comes twice. -/
theorem names_ascend (h : (Entries.keys e.cache).Nodup) :
    (e.names.map Text.bytes).Pairwise (· < ·) := by
  have hle : e.names.Pairwise (fun a b => decide (a ≤ b) = true) := by
    refine List.pairwise_mergeSort (fun a b c hab hbc => ?_) (fun a b => ?_) _
    · exact decide_eq_true (String.le_trans (of_decide_eq_true hab) (of_decide_eq_true hbc))
    · simpa using String.le_total a b
  have hne : e.names.Pairwise (· ≠ ·) := (List.mergeSort_perm _ _).nodup_iff.2 h
  rw [List.pairwise_map]
  refine (hle.and hne).imp (fun {a b} hab => ?_)
  -- what does not descend and is not the same ascends
  by_cases hlt : a < b
  · exact Text.bytes_lt_iff.2 hlt
  · exact absurd (String.le_antisymm (of_decide_eq_true hab.1) (String.not_lt.1 hlt)) hab.2

theorem Represents.lists (h : Represents config e (Engine.sources config [] calls)) :
    Lists config calls e.names := by
  refine ⟨names_ascend h.nodup, fun name => ?_⟩
  rw [names, List.mem_mergeSort]
  exact h.mem_keys_iff

theorem length_names (e : Engine) : e.names.length = e.size := by
  rw [names, List.length_mergeSort, Entries.keys, List.length_map, size]

theorem size_eq_zero_iff (h : Represents config e (Engine.sources config [] calls)) :
    (e.size == 0) = true ↔ ∀ name source, ¬ Live config calls name source := by
  have hkeys : e.size = (Entries.keys e.cache).length := (List.length_map ..).symm
  rw [beq_iff_eq, hkeys, List.length_eq_zero_iff, List.eq_nil_iff_forall_not_mem]
  refine forall_congr' (fun name => ?_)
  rw [h.mem_keys_iff, not_exists]

/-- Rendering a text depends on the settings only. -/
theorem renderText_eq (h : e.config = config) (source : String) (data : Value) :
    e.renderText source data = (new config).renderText source data := by
  rw [renderText, renderText, h]
  rfl

/-- **Rendering a name is rendering its live source**, with a note on failures. -/
theorem Represents.render (h : Represents config e (Engine.sources config [] calls))
    (name : String) (data : Value) :
    Fits config calls (.render name data) (Reply.ofExcept .text (e.render name data)) := by
  obtain ⟨hlive, hnone⟩ := h.holds name
  refine ⟨fun source hsource => ?_, fun hno => ?_⟩
  · obtain ⟨t, serial, ht, hget⟩ := hlive source hsource
    have htext : (new config).renderText source data = t.generate data := by
      rw [renderText, new, ht]
      rfl
    have hrender : e.render name data =
        Error.within ("rendering template \"" ++ name ++ "\"") (t.generate data) := by
      rw [Engine.render, hget]
    rw [htext, hrender]
    cases t.generate data with
    | ok text => rfl
    | error err => exact ⟨_, rfl, rfl, rfl, rfl⟩
  · rw [Engine.render, hnone hno]
    rfl

/-- **The reply of an engine that is in step fits the live sources.** -/
theorem fits_call (h : Represents config e (Engine.sources config [] calls)) (c : Call) :
    Fits config calls c (e.call c).2 := by
  cases c with
  | register name source =>
      rw [Fits]
      cases hparse : Template.parse config source with
      | ok t =>
          have ht : Template.parse e.config source = .ok t := by rw [h.config_eq, hparse]
          refine ⟨e.registrations, ?_⟩
          rw [call, register_of_parse_eq_ok ht]
          rfl
      | error err =>
          have herr : Template.parse e.config source = .error err := by rw [h.config_eq, hparse]
          obtain ⟨failure, hregister, hcode, hline⟩ := register_of_parse_eq_error herr name
          refine ⟨failure, ?_, hcode, hline⟩
          rw [call, hregister]
          rfl
  | get name => exact ⟨_, rfl, h.holds name⟩
  | contains name => exact ⟨_, rfl, h.contains_iff⟩
  | names => exact ⟨_, rfl, h.lists⟩
  | remove name => exact ⟨_, rfl, h.holds name⟩
  | clear => rfl
  | size => exact ⟨e.names, by rw [call, length_names], h.lists⟩
  | isEmpty => exact ⟨_, rfl, size_eq_zero_iff h⟩
  | render name data => exact h.render name data
  | renderText source data =>
      rw [Fits, call, renderText_eq h.config_eq]

end Represents

/-! ## Histories -/

/-- Calls are answered one after the other. -/
theorem run_append (e : Engine) (cs ds : List Call) :
    run e (cs ++ ds) =
      ((run (run e cs).1 ds).1, (run e cs).2 ++ (run (run e cs).1 ds).2) := by
  induction cs generalizing e with
  | nil => rfl
  | cons c cs ih =>
      rw [List.cons_append, run, run, ih]
      rfl

theorem length_replies (e : Engine) (calls : List Call) :
    (run e calls).2.length = calls.length := by
  induction calls generalizing e with
  | nil => rfl
  | cons c cs ih => rw [run, List.length_cons, List.length_cons, ih]

/-- A call is answered by the engine as it is after the calls before. -/
theorem getElem?_replies (e : Engine) (calls : List Call) (c : Call) (after : List Call) :
    (run e (calls ++ c :: after)).2[calls.length]? = some ((run e calls).1.call c).2 := by
  rw [run_append, List.getElem?_append_right (Nat.le_of_eq (length_replies e calls)),
    length_replies, Nat.sub_self, run, List.getElem?_cons_zero]

/-- **A new engine replies to any calls as a map from names to live sources**, and only a
successful registration, a removal and a clearing change it. -/
theorem run_new_fits (config : Config) (calls : List Call) :
    (∀ name source source', Live config calls name source → Live config calls name source' →
      source = source') ∧
    (∀ c : Call, ¬ c.Changes config →
      ((run (new config) calls).1.call c).1 = (run (new config) calls).1) ∧
    ∀ (c : Call) (after : List Call), ∃ reply,
      (run (new config) (calls ++ c :: after)).2[calls.length]? = some reply ∧
        Fits config calls c reply := by
  have h := represents_run (represents_new config) calls
  refine ⟨fun name source source' hsource hsource' => hsource.unique hsource', ?_, ?_⟩
  · intro c hc
    refine call_of_not_changes ?_
    rw [h.config_eq]
    exact hc
  · intro c after
    exact ⟨_, getElem?_replies (new config) calls c after, fits_call h c⟩

/-- A name keeps its source if the next registration fails, and so does its rendering. -/
theorem run_new_fits_replace :
    let calls : List Call := [.register "a" "[x]", .register "a" "[endif]"]
    Live {} calls "a" "[x]" ∧
      (run (new {}) (calls ++ [.render "a" .null])).2[2]? = some (.failed
        (.context "rendering template \"a\"" (.generation ⟨1, .notFound "x"⟩))) := by
  intro calls
  have hm : Config.marks {} = .ok Marks.brackets := rfl
  have hparse : Template.parse {} "[x]" = .ok ⟨[.lookup "x" 1]⟩ := by
    have htokens : Token.ofChars Marks.brackets true
        "[x]".toList = [⟨.command ["x"] "[x]", 1⟩] := by
      decide +kernel
    exact Template.parse_eq_template hm htokens
  have hfails : Template.parse {} "[endif]" = .error (.parse ⟨1, .unmatchedBlock "[endif]"⟩) := by
    have htokens : Token.ofChars Marks.brackets true
        "[endif]".toList = [⟨.command ["endif"] "[endif]", 1⟩] := by
      decide +kernel
    exact Template.parse_eq_template hm htokens
  have hlive : Live {} calls "a" "[x]" := by
    refine ⟨[], [.register "a" "[endif]"], ⟨[.lookup "x" 1]⟩, rfl, hparse, ?_⟩
    rw [List.forall_mem_singleton]
    rintro ⟨_, t, ht⟩
    rw [hfails] at ht
    cases ht
  have htext : (new {}).renderText "[x]" .null = .error (.generation ⟨1, .notFound "x"⟩) :=
    congrArg (fun parsed => parsed.bind (fun t => t.generate .null)) hparse
  obtain ⟨reply, hreply, hfits⟩ := (run_new_fits {} calls).2.2 (.render "a" .null) []
  have hrender := hfits.1 "[x]" hlive
  rw [htext] at hrender
  obtain ⟨failure, rfl, rfl, _⟩ := hrender
  exact ⟨hlive, hreply⟩

end Engine
end Stencil
