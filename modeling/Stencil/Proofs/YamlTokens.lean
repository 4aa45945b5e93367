import Mathlib.Logic.Basic
import Stencil.Yaml.Token

/-!
# The scanner gets to the end

Every token takes up at least one character, but for the end of the stream, which comes once.
This is so because a token that may turn out to be a key lies before the place that the scanner
has got to: at the end of the text no key can follow any more, and nothing is held back.

**Results.**
* `Scanner.skipSpace_fuel`, `Scanner.scan_fuel`: the bounds of the loops are never reached.
* `Scanner.advances_or_ends_of_fetch?`: what one token does to the state.
* `tokens_eq_scan`: the tokens of a text do not depend on a bound.
-/

namespace Stencil
namespace Yaml

/-! ## Key candidates -/

/-- Whether a key candidate lies before a place. -/
def KeyCandidate.IsBefore (k : KeyCandidate) (c : Cursor) : Prop :=
  k.line < c.line ∨ k.line = c.line ∧ k.column < c.column

theorem KeyCandidate.IsBefore.of_leads {k : KeyCandidate} {c d : Cursor} (hk : k.IsBefore c)
    (h : c.Leads d) : k.IsBefore d := by
  obtain ⟨taken, _, _, hplace⟩ := h
  unfold IsBefore at hk ⊢
  omega

namespace Scanner

variable {s t u : Scanner}

/-- Whether all key candidates lie before the cursor. -/
def KeysBefore (s : Scanner) : Prop :=
  ∀ k, some k ∈ s.candidates → k.IsBefore s.cursor

/-- Whether a scanner is in the same place as another one, without new key candidates. -/
structure Stays (s u : Scanner) : Prop where
  cursor : u.cursor = s.cursor
  candidates : ∀ k, some k ∈ u.candidates → some k ∈ s.candidates

/-- Whether a scanner has got further than another one, and all its key candidates are old or
lie before its place. -/
structure Advances (s u : Scanner) : Prop where
  passes : s.cursor.Passes u.cursor
  candidates : ∀ k, some k ∈ u.candidates → some k ∈ s.candidates ∨ k.IsBefore u.cursor

theorem Stays.of_eq (hcursor : u.cursor = s.cursor) (hcandidates : u.candidates = s.candidates) :
    s.Stays u :=
  ⟨hcursor, fun _ hk => hcandidates ▸ hk⟩

theorem Stays.trans (h : s.Stays t) (h' : t.Stays u) : s.Stays u :=
  ⟨h'.cursor.trans h.cursor, fun k hk => h.candidates k (h'.candidates k hk)⟩

theorem Stays.keysBefore (h : s.Stays u) (hs : s.KeysBefore) : u.KeysBefore := by
  intro k hk
  rw [h.cursor]
  exact hs k (h.candidates k hk)

theorem Stays.trans_advances (h : s.Stays t) (h' : t.Advances u) : s.Advances u :=
  ⟨h.cursor ▸ h'.passes, fun k hk => (h'.candidates k hk).imp_left (h.candidates k)⟩

theorem Advances.of_leads (h : s.cursor.Leads t.cursor) (hcandidates : t.candidates = s.candidates)
    (h' : t.Advances u) : s.Advances u :=
  ⟨h.trans_passes h'.passes, hcandidates ▸ h'.candidates⟩

theorem Advances.keysBefore (h : s.Advances u) (hs : s.KeysBefore) : u.KeysBefore :=
  fun k hk => (h.candidates k hk).elim (fun hold => (hs k hold).of_leads h.passes.leads) id

/-- A token is read from the place where a scanner stays. -/
theorem Stays.advances (h : s.Stays t) (hpasses : t.cursor.Passes u.cursor)
    (hcandidates : ∀ k, some k ∈ u.candidates → some k ∈ t.candidates) : s.Advances u :=
  h.trans_advances ⟨hpasses, fun k hk => .inl (hcandidates k hk)⟩

/-! ## Parts of a step -/

theorem stays_unindentTo (s : Scanner) (column : Int) : s.Stays (s.unindentTo column) := by
  rw [unindentTo]
  split
  · exact .of_eq rfl rfl
  · exact .of_eq rfl rfl

theorem stays_indentTo (s : Scanner) (column : Nat) (t : Token) (number : Option Nat) :
    s.Stays (s.indentTo column t number) := by
  simp only [indentTo]
  split
  · exact .of_eq rfl rfl
  · cases number with
    | none => exact .of_eq rfl rfl
    | some n => exact .of_eq rfl rfl

theorem stays_of_beginBlock? {t : Token} (h : s.beginBlock? t = some u) : s.Stays u := by
  rw [beginBlock?] at h
  split at h
  · cases h
    exact .of_eq rfl rfl
  split at h
  · cases h
    exact stays_indentTo s _ t none
  · cases h

theorem stays_of_dropCandidate? (h : s.dropCandidate? = some u) : s.Stays u := by
  rw [dropCandidate?] at h
  split at h
  · next k rest heq =>
      split at h
      · cases h
      · cases h
        refine ⟨rfl, fun k' hk' => ?_⟩
        rw [heq]
        exact List.mem_cons_of_mem _ (by simpa using hk')
  · cases h
    exact .of_eq rfl rfl

theorem cursor_of_saveCandidate? (h : s.saveCandidate? = some u) : u.cursor = s.cursor := by
  rw [saveCandidate?] at h
  split at h
  · obtain ⟨v, hv, rfl⟩ := Option.map_eq_some_iff.1 h
    exact (stays_of_dropCandidate? hv).cursor
  · cases h
    rfl

/-- A new key candidate begins where the scanner is. -/
theorem candidates_of_saveCandidate? (h : s.saveCandidate? = some u) {k : KeyCandidate}
    (hk : some k ∈ u.candidates) :
    some k ∈ s.candidates ∨ k.line = s.cursor.line ∧ k.column = s.cursor.column := by
  rw [saveCandidate?] at h
  split at h
  · obtain ⟨v, hv, rfl⟩ := Option.map_eq_some_iff.1 h
    have hdrop := stays_of_dropCandidate? hv
    rcases List.mem_cons.1 hk with heq | hmem
    · cases heq
      rw [← hdrop.cursor]
      exact .inr ⟨rfl, rfl⟩
    · exact .inl (hdrop.candidates k (List.mem_of_mem_tail hmem))
  · cases h
    exact .inl hk

/-- A token that may turn out to be a key is read; then the place of the key is behind. -/
theorem advances_of_saveCandidate? (h : s.saveCandidate? = some t)
    (hpasses : t.cursor.Passes u.cursor)
    (hcandidates : ∀ k, some k ∈ u.candidates → some k ∈ t.candidates) : s.Advances u := by
  rw [cursor_of_saveCandidate? h] at hpasses
  refine ⟨hpasses, fun k hk => ?_⟩
  refine (candidates_of_saveCandidate? h (hcandidates k hk)).imp_right (fun hhere => ?_)
  have hplace := hpasses.place_lt
  unfold KeyCandidate.IsBefore
  omega

/-! ## Tokens -/

/-- What begins a plain scalar does not end one. -/
theorem stops_of_beginsPlain {inFlow : Bool} {x : Char} {rest : List Char}
    (h : beginsPlain inFlow x rest = true) :
    isSpace x = false ∧
      (x == ':' && startsWithSpace rest || inFlow && isFlowIndicator x) = false := by
  rw [beginsPlain] at h
  rcases ite_eq_iff.1 h with ⟨_, h⟩ | ⟨hindicator, h⟩
  · simp only [Bool.or_eq_true, Bool.and_eq_true, Bool.not_eq_true', beq_iff_eq] at h
    rcases h with ⟨rfl, _⟩ | ⟨⟨hflow, rfl | rfl⟩, hspace⟩
    · exact ⟨rfl, by cases inFlow <;> rfl⟩
    · exact ⟨rfl, by rw [hflow]; rfl⟩
    · exact ⟨rfl, by rw [hflow, hspace]; rfl⟩
  · have hnot := Bool.eq_false_iff.2 hindicator
    simp only [isIndicator, List.contains_cons, Bool.or_eq_false_iff] at hnot
    exact ⟨by simpa using h, by simp [isFlowIndicator, hnot]⟩

theorem ne_nil_of_plainWord {inFlow : Bool} {x : Char} {rest : List Char}
    {p : List Char × List Char} (hplain : beginsPlain inFlow x rest = true)
    (hp : plainWord inFlow (x :: rest) = some p) : p.1 ≠ [] := by
  obtain ⟨hspace, hstop⟩ := stops_of_beginsPlain hplain
  rw [plainWord.eq_def] at hp
  rcases ite_eq_iff.1 hp with ⟨h, _⟩ | ⟨_, hp⟩
  · exact absurd h (Bool.eq_false_iff.1 hspace)
  rcases ite_eq_iff.1 hp with ⟨_, hp⟩ | ⟨_, hp⟩
  · cases hp
  rcases ite_eq_iff.1 hp with ⟨h, _⟩ | ⟨_, hp⟩
  · exact absurd h (Bool.eq_false_iff.1 hstop)
  · obtain ⟨q, _, rfl⟩ := Option.map_eq_some_iff.1 hp
    exact List.cons_ne_nil _ _

theorem inFlow_of_dropCandidate? (h : s.dropCandidate? = some u) : u.inFlow = s.inFlow := by
  rw [dropCandidate?] at h
  split at h
  · next heq =>
      split at h
      · cases h
      · cases h
        simp [inFlow, heq]
  · cases h
    rfl

theorem inFlow_of_saveCandidate? (h : s.saveCandidate? = some u) : u.inFlow = s.inFlow := by
  rw [saveCandidate?] at h
  split at h
  · obtain ⟨v, hv, rfl⟩ := Option.map_eq_some_iff.1 h
    rw [← inFlow_of_dropCandidate? hv]
    cases hcandidates : v.candidates with
    | nil => simp [inFlow, hcandidates]
    | cons k ks => simp [inFlow, hcandidates]
  · cases h
    rfl

theorem length_of_atMarker {c : Cursor} {x : Char} (h : c.atMarker x = true) :
    3 ≤ c.rest.length := by
  simp only [Cursor.atMarker, Bool.and_eq_true, beq_iff_eq] at h
  have hlength := congrArg List.length h.1.2
  simp only [List.length_take, List.length_cons, List.length_nil] at hlength
  omega

theorem advances_of_fetchBoundary? {read : Cursor → Option (Token × Cursor)}
    (hread : ∀ {p}, read s.cursor = some p → s.cursor.Passes p.2)
    (h : s.fetchBoundary? read = some u) : s.Advances u := by
  obtain ⟨v, hv, h⟩ := Option.bind_eq_some_iff.1 h
  obtain ⟨p, hp, rfl⟩ := Option.map_eq_some_iff.1 h
  have hstays := (stays_unindentTo s (-1)).trans (stays_of_dropCandidate? hv)
  rw [hstays.cursor] at hp
  refine hstays.advances ?_ (fun _ => id)
  rw [hstays.cursor]
  exact hread hp

theorem advances_of_fetchNode? {read : Cursor → Option (Token × Cursor)}
    (hread : ∀ {p}, read s.cursor = some p → s.cursor.Passes p.2)
    (h : s.fetchNode? read = some u) : s.Advances u := by
  obtain ⟨v, hv, h⟩ := Option.bind_eq_some_iff.1 h
  obtain ⟨p, hp, rfl⟩ := Option.map_eq_some_iff.1 h
  have hcursor := cursor_of_saveCandidate? hv
  rw [hcursor] at hp
  refine advances_of_saveCandidate? hv ?_ (fun _ => id)
  rw [hcursor]
  exact hread hp

section

variable {x : Char} {rest : List Char} (hrest : s.cursor.rest = x :: rest)
include hrest

/-- A token of one character is read. -/
theorem Stays.advances_skip (h : s.Stays t) (hcursor : u.cursor = t.cursor.skip 1)
    (hcandidates : ∀ k, some k ∈ u.candidates → some k ∈ t.candidates) : s.Advances u := by
  refine h.advances ?_ hcandidates
  rw [hcursor]
  exact Cursor.passes_skip_one (h.cursor ▸ hrest)

theorem advances_of_fetchOpen? {t : Token} (h : s.fetchOpen? t = some u) : s.Advances u := by
  obtain ⟨v, hv, rfl⟩ := Option.map_eq_some_iff.1 h
  have hcursor := cursor_of_saveCandidate? hv
  refine advances_of_saveCandidate? hv (Cursor.passes_skip_one (hcursor ▸ hrest)) (fun k hk => ?_)
  simpa [add, skip, allowKey] using hk

theorem advances_of_fetchClose? {t : Token} (h : s.fetchClose? t = some u) : s.Advances u := by
  obtain ⟨v, hv, rfl⟩ := Option.map_eq_some_iff.1 h
  refine (stays_of_dropCandidate? hv).advances_skip hrest rfl (fun k hk => ?_)
  have hmem : some k ∈ if v.inFlow then v.candidates.tail else v.candidates := hk
  split at hmem
  · exact List.mem_of_mem_tail hmem
  · exact hmem

theorem advances_of_fetchComma? (h : s.fetchComma? = some u) : s.Advances u := by
  obtain ⟨v, hv, rfl⟩ := Option.map_eq_some_iff.1 h
  exact (stays_of_dropCandidate? hv).advances_skip hrest rfl (fun _ => id)

theorem advances_of_fetchEntry (h : s.fetchEntry? = some u) : s.Advances u := by
  obtain ⟨v, hv, h⟩ := Option.bind_eq_some_iff.1 h
  obtain ⟨w, hw, rfl⟩ := Option.map_eq_some_iff.1 h
  exact ((stays_of_beginBlock? hv).trans (stays_of_dropCandidate? hw)).advances_skip hrest rfl
    (fun _ => id)

theorem advances_of_fetchKey? (h : s.fetchKey? = some u) : s.Advances u := by
  obtain ⟨v, hv, h⟩ := Option.bind_eq_some_iff.1 h
  obtain ⟨w, hw, rfl⟩ := Option.map_eq_some_iff.1 h
  exact ((stays_of_beginBlock? hv).trans (stays_of_dropCandidate? hw)).advances_skip hrest rfl
    (fun _ => id)

theorem advances_of_fetchValue? (h : s.fetchValue? = some u) : s.Advances u := by
  rw [fetchValue?] at h
  split at h
  · next k outer heq =>
      cases h
      have hstays : s.Stays (s.addBefore k.number .key) := .of_eq rfl rfl
      have hindent := hstays.trans
        (stays_indentTo (s.addBefore k.number .key) k.column .blockMapping (some k.number))
      refine Advances.mk ?_ (fun k' hk' => .inl ?_)
      · have hpasses := Cursor.passes_skip_one hrest
        rw [← hindent.cursor] at hpasses ⊢
        exact hpasses
      · rw [heq]
        exact List.mem_cons_of_mem _ (by simpa [add, skip, allowKey] using hk')
  · obtain ⟨v, hv, rfl⟩ := Option.map_eq_some_iff.1 h
    exact (stays_of_beginBlock? hv).advances_skip hrest rfl (fun _ => id)

theorem advances_of_fetchBlockScalar? {isLiteral : Bool}
    (h : s.fetchBlockScalar? isLiteral = some u) : s.Advances u := by
  obtain ⟨v, hv, h⟩ := Option.bind_eq_some_iff.1 h
  obtain ⟨p, hp, rfl⟩ := Option.map_eq_some_iff.1 h
  have hstays := stays_of_dropCandidate? hv
  exact hstays.advances (passes_blockScalar hp (hstays.cursor ▸ hrest)) (fun _ => id)

theorem advances_of_fetchPlain? (hmarker : s.cursor.atDocumentMarker = false)
    (hplain : beginsPlain s.inFlow x rest = true) (h : s.fetchPlain? = some u) :
    s.Advances u := by
  obtain ⟨v, hv, h⟩ := Option.bind_eq_some_iff.1 h
  obtain ⟨p, hp, rfl⟩ := Option.map_eq_some_iff.1 h
  have hcursor := cursor_of_saveCandidate? hv
  refine advances_of_saveCandidate? hv (passes_plainScalar hp ?_ (fun w hw => ?_)) (fun _ => id)
  · have hcomment : x ≠ '#' := by
      rintro rfl
      simp [beginsPlain, isIndicator] at hplain
    rw [hcursor, hmarker, Bool.false_or]
    simpa [Cursor.startsWith, hrest] using hcomment
  · rw [hcursor, hrest, inFlow_of_saveCandidate? hv] at hw
    exact ne_nil_of_plainWord hplain hw

theorem advances_of_fetchAt? (h : s.fetchAt? x rest = some u) : s.Advances u := by
  have marker {y : Char} {t : Token} (hy : s.cursor.atMarker y = true)
      (h : s.fetchBoundary? (fun d => some (t, d.skip 3)) = some u) : s.Advances u := by
    refine advances_of_fetchBoundary? (fun hp => ?_) h
    cases hp
    exact Cursor.passes_skip (by decide) (length_of_atMarker hy)
  have named {f : List Char → Token}
      (h : s.fetchNode? (fun d => (name? d).map (fun p => (f p.1, p.2))) = some u) :
      s.Advances u := by
    refine advances_of_fetchNode? (fun hp => ?_) h
    obtain ⟨q, hq, rfl⟩ := Option.map_eq_some_iff.1 hp
    exact passes_name? hq
  rw [fetchAt?] at h
  rcases ite_eq_iff.1 h with ⟨_, h⟩ | ⟨_, h⟩
  · exact advances_of_fetchBoundary? (fun hp => passes_header? hp hrest) h
  rcases ite_eq_iff.1 h with ⟨hdash, h⟩ | ⟨hdash, h⟩
  · exact marker hdash h
  rcases ite_eq_iff.1 h with ⟨hdot, h⟩ | ⟨hdot, h⟩
  · exact marker hdot h
  rcases ite_eq_iff.1 h with ⟨_, h⟩ | ⟨_, h⟩
  · exact advances_of_fetchOpen? hrest h
  rcases ite_eq_iff.1 h with ⟨_, h⟩ | ⟨_, h⟩
  · exact advances_of_fetchOpen? hrest h
  rcases ite_eq_iff.1 h with ⟨_, h⟩ | ⟨_, h⟩
  · exact advances_of_fetchClose? hrest h
  rcases ite_eq_iff.1 h with ⟨_, h⟩ | ⟨_, h⟩
  · exact advances_of_fetchClose? hrest h
  rcases ite_eq_iff.1 h with ⟨_, h⟩ | ⟨_, h⟩
  · exact advances_of_fetchComma? hrest h
  rcases ite_eq_iff.1 h with ⟨_, h⟩ | ⟨_, h⟩
  · exact advances_of_fetchEntry hrest h
  rcases ite_eq_iff.1 h with ⟨_, h⟩ | ⟨_, h⟩
  · exact advances_of_fetchKey? hrest h
  rcases ite_eq_iff.1 h with ⟨_, h⟩ | ⟨_, h⟩
  · exact advances_of_fetchValue? hrest h
  rcases ite_eq_iff.1 h with ⟨_, h⟩ | ⟨_, h⟩
  · exact named h
  rcases ite_eq_iff.1 h with ⟨_, h⟩ | ⟨_, h⟩
  · exact named h
  rcases ite_eq_iff.1 h with ⟨_, h⟩ | ⟨_, h⟩
  · exact advances_of_fetchNode? (fun hp => passes_tag? hp hrest) h
  rcases ite_eq_iff.1 h with ⟨_, h⟩ | ⟨_, h⟩
  · exact advances_of_fetchBlockScalar? hrest h
  rcases ite_eq_iff.1 h with ⟨_, h⟩ | ⟨_, h⟩
  · exact advances_of_fetchBlockScalar? hrest h
  rcases ite_eq_iff.1 h with ⟨_, h⟩ | ⟨_, h⟩
  · refine advances_of_fetchNode? (fun hp => ?_) h
    obtain ⟨q, hq, rfl⟩ := Option.map_eq_some_iff.1 hp
    exact passes_quotedScalar hq hrest
  rcases ite_eq_iff.1 h with ⟨hplain, h⟩ | ⟨_, h⟩
  · refine advances_of_fetchPlain? hrest ?_ hplain h
    rw [Cursor.atDocumentMarker, Bool.eq_false_iff.2 hdash, Bool.eq_false_iff.2 hdot]
    rfl
  · cases h

end

/-! ## Between tokens -/

/-- In each turn blanks and a comment are skipped, and a line end if one comes then. -/
theorem exists_skipSpace_succ (s : Scanner) : ∃ c : Cursor, s.cursor.Leads c ∧ ∀ fuel,
    skipSpace (fuel + 1) s =
      match c.rest with
      | x :: _ =>
          if isBreak x then
            skipSpace fuel
              { s with cursor := c.readBreak.2, allowsKey := s.allowsKey || !s.inFlow }
          else { s with cursor := c }
      | [] => { s with cursor := c } := by
  refine ⟨_, ?_, fun _ => rfl⟩
  have hmark : s.cursor.Leads
      (if s.cursor.column == 0 && s.cursor.rest.head?.any (fun x => x.toNat == 0xFEFF)
        then s.cursor.skip 1 else s.cursor) := by
    split
    · next h =>
        cases hrest : s.cursor.rest with
        | nil => simp [hrest] at h
        | cons x rest => exact (Cursor.passes_skip_one hrest).leads
    · exact .refl _
  exact hmark.trans ((Cursor.leads_skipWhile _ _).trans (Cursor.leads_comment _))

theorem leads_skipSpace (fuel : Nat) (s : Scanner) :
    s.cursor.Leads (skipSpace fuel s).cursor ∧ (skipSpace fuel s).candidates = s.candidates := by
  induction fuel generalizing s with
  | zero => exact ⟨.refl _, rfl⟩
  | succ fuel ih =>
      obtain ⟨c, hleads, hturn⟩ := exists_skipSpace_succ s
      rw [hturn]
      split
      · split
        · obtain ⟨hnext, hcandidates⟩ :=
            ih { s with cursor := c.readBreak.2, allowsKey := s.allowsKey || !s.inFlow }
          exact ⟨hleads.trans ((Cursor.leads_readBreak c).trans hnext), hcandidates⟩
        · exact ⟨hleads, rfl⟩
      · exact ⟨hleads, rfl⟩

theorem skipSpace_fuel {fuel fuel' : Nat} {s : Scanner} (h : s.cursor.rest.length < fuel)
    (h' : s.cursor.rest.length < fuel') : skipSpace fuel s = skipSpace fuel' s := by
  induction fuel generalizing fuel' s with
  | zero => exact absurd h (Nat.not_lt_zero _)
  | succ fuel ih =>
      cases fuel' with
      | zero => exact absurd h' (Nat.not_lt_zero _)
      | succ fuel' =>
          obtain ⟨c, hleads, hturn⟩ := exists_skipSpace_succ s
          rw [hturn, hturn]
          split
          · next x rest hrest =>
              split
              · next hbreak =>
                  have hnext := Cursor.passes_readBreak hrest hbreak
                  have hshorter := (hleads.trans_passes hnext).shorter
                  exact ih (by simp only; omega) (by simp only; omega)
              · rfl
          · rfl

/-- What is left after stale candidates are forgotten. -/
theorem dropStale?_eq_some (h : s.dropStale? = some u) :
    u.cursor = s.cursor ∧ u.queue = s.queue ∧
      ∀ k, some k ∈ u.candidates → some k ∈ s.candidates ∧ isStale s.cursor k = false := by
  rw [dropStale?] at h
  split at h
  · cases h
  · cases h
    refine ⟨rfl, rfl, fun k hk => ?_⟩
    obtain ⟨o, ho, hfilter⟩ := List.mem_map.1 hk
    cases o with
    | none => cases hfilter
    | some k' =>
        obtain ⟨heq, hstale⟩ := Option.filter_eq_some_iff.1 hfilter
        cases heq
        exact ⟨ho, by simpa using hstale⟩

theorem stays_of_dropStale? (h : s.dropStale? = some u) : s.Stays u := by
  obtain ⟨hcursor, _, hcandidates⟩ := dropStale?_eq_some h
  exact ⟨hcursor, fun k hk => (hcandidates k hk).1⟩

/-! ## The end of the stream -/

/-- Whether a scanner has read the end of the stream, behind the lines of all key candidates. -/
structure Ends (s : Scanner) : Prop where
  last : s.queue.getLast? = some .streamEnd
  candidates : ∀ k, some k ∈ s.candidates → k.line < s.cursor.line

theorem ends_of_fetchEnd? (hs : s.KeysBefore) (h : s.fetchEnd? = some u) : u.Ends := by
  obtain ⟨v, hv, rfl⟩ := Option.map_eq_some_iff.1 h
  have hstays := (stays_unindentTo _ (-1)).trans (stays_of_dropCandidate? hv)
  refine ⟨List.getLast?_concat, fun k hk => ?_⟩
  have hold := hstays.candidates k hk
  have hcursor := hstays.cursor
  show k.line < v.cursor.line
  -- in the first column no candidate is on the same line; otherwise a line is counted
  by_cases hcolumn : s.cursor.column = 0
  · rw [if_pos hcolumn] at hold hcursor
    have hbefore := hs k hold
    unfold KeyCandidate.IsBefore at hbefore
    rw [hcursor]
    omega
  · rw [if_neg hcolumn] at hold hcursor
    have hbefore := hs k hold
    unfold KeyCandidate.IsBefore at hbefore
    rw [hcursor]
    simp only
    omega

/-- **A token takes up characters, or it is the end of the stream.** -/
theorem advances_or_ends_of_fetch? (hs : s.KeysBefore) (h : s.fetch? = some u) :
    s.Advances u ∨ u.Ends := by
  obtain ⟨v, hv, h⟩ := Option.bind_eq_some_iff.1 h
  obtain ⟨hleads, hcandidates⟩ := leads_skipSpace (s.cursor.rest.length + 1) s
  have hspace : (skipSpace (s.cursor.rest.length + 1) s).KeysBefore := by
    intro k hk
    rw [hcandidates] at hk
    exact (hs k hk).of_leads hleads
  have hstays := (stays_of_dropStale? hv).trans (stays_unindentTo v v.cursor.column)
  simp only at h
  split at h
  · exact .inr (ends_of_fetchEnd? (hstays.keysBefore hspace) h)
  · next c cs hrest =>
      have hadvances := hstays.trans_advances (advances_of_fetchAt? hrest h)
      exact .inl (.of_leads hleads hcandidates hadvances)

/-! ## All tokens -/

/-- Where no candidate is left, all tokens are released. -/
theorem releasable_of_forall (h : ∀ k, some k ∉ s.candidates) : s.releasable = s.queue.length := by
  rw [releasable]
  generalize s.queue.length = n
  generalize s.candidates = ks at h ⊢
  induction ks with
  | nil => rfl
  | cons k ks ih =>
      cases k with
      | none => exact ih (fun k hk => h k (List.mem_cons_of_mem _ hk))
      | some k => exact absurd List.mem_cons_self (h k)

/-- **The scanner gets to the end** of the text, whatever bound it is given beyond its length. -/
theorem scan_fuel {fuel fuel' : Nat} {s : Scanner} (hs : s.KeysBefore)
    (h : s.cursor.rest.length < fuel) (h' : s.cursor.rest.length < fuel') :
    scan fuel s = scan fuel' s := by
  induction fuel generalizing fuel' s with
  | zero => exact absurd h (Nat.not_lt_zero _)
  | succ fuel ih =>
      cases fuel' with
      | zero => exact absurd h' (Nat.not_lt_zero _)
      | succ fuel' =>
          rw [scan, scan]
          cases hfetch : s.fetch? with
          | none => rfl
          | some u =>
              cases hstale : u.dropStale? with
              | none => simp only [hstale]
              | some v =>
                  simp only [hstale]
                  obtain ⟨hcursor, hqueue, hcandidates⟩ := dropStale?_eq_some hstale
                  rcases advances_or_ends_of_fetch? hs hfetch with hadvances | hends
                  · have hbefore : v.KeysBefore :=
                      (stays_of_dropStale? hstale).keysBefore (hadvances.keysBefore hs)
                    have hshorter := hadvances.passes.shorter
                    rw [← hcursor] at hshorter
                    have hnext : scan fuel { v with
                          queue := v.queue.drop v.releasable,
                          released := v.released + v.releasable } =
                        scan fuel' { v with
                          queue := v.queue.drop v.releasable,
                          released := v.released + v.releasable } :=
                      ih hbefore (by simp only; omega) (by simp only; omega)
                    rw [hnext]
                  · -- behind their lines no candidates are left, so the end is released
                    have hnone (k : KeyCandidate) (hk : some k ∈ v.candidates) : False := by
                      obtain ⟨hold, hfresh⟩ := hcandidates k hk
                      have hline := hends.candidates k hold
                      simp [isStale, hline] at hfresh
                    rw [releasable_of_forall hnone, List.take_length, hqueue, if_pos hends.last,
                      if_pos hends.last]

end Scanner

/-- **The tokens of a text do not depend on a bound.** -/
theorem tokens_eq_scan {fuel : Nat} {cs : List Char} (h : cs.length < fuel) :
    tokens cs =
      if cs.all isAllowed then Scanner.scan fuel { cursor := Cursor.start cs } else [] := by
  have hstart : Scanner.KeysBefore { cursor := Cursor.start cs } := by
    intro k hk
    simp at hk
  have hscan : Scanner.scan (cs.length + 2) { cursor := Cursor.start cs } =
      Scanner.scan fuel { cursor := Cursor.start cs } :=
    Scanner.scan_fuel hstart (Nat.lt_add_of_pos_right Nat.two_pos) h
  rw [tokens, hscan]

end Yaml
end Stencil
