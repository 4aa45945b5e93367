import Stencil.Proofs.JsonNumbers
import Stencil.Value.Alike

/-!
# Written JSON is read back

The text of a value without floats is read as the tree of the value, whatever stands behind
it: each token is found again, and the reader comes from a place where a value may begin to
the place behind it, with the same arrays and objects still open.  The tree then gives the
value back, since its numbers are told apart by their signs and its keys are distinct.

Only a number could run on into the text behind it, so all that this text needs is that a
number may end before it (`NumberEnds`); in a written text a comma or a bracket follows.

**Results.**
* `Token.first?_quotedText`: strings are read back with all their characters.
* `runText_jsonChars`: a written value is read as its tree.
* `Value.ofJson_tree`: the tree gives the value back.
* `Value.readJson_toJson`: a value that is written is read back.
-/

namespace Stencil
namespace Json

/-! ## Strings -/

/-- The four digits of a control character are read back. -/
theorem natural?_hexDigits : ∀ n < 0x20,
    Decimal.natural? 16 ['0', '0', hexDigit (n / 16), hexDigit (n % 16)] = some n := by
  decide

theorem ofNat_toNat_of_lt {c : Char} (h : c.toNat < 0x20) : Unit16.ofNat c.toNat = .char c := by
  rw [Unit16.ofNat, if_neg (by omega), if_neg (by omega), Char.ofNat_toNat]

/-- A character is read back, whether it is written as itself or as an escape. -/
theorem units?_escaped (c : Char) (rest : List Char) :
    units? (escaped c ++ rest) = (units? rest).map (fun p => (.char c :: p.1, p.2)) := by
  unfold escaped
  split
  · next h => subst h; rfl
  split
  · next h => subst h; rfl
  split
  · next h => subst h; rfl
  split
  · next h => subst h; rfl
  split
  · next h => subst h; rfl
  split
  · next h => subst h; rfl
  split
  · next h => subst h; rfl
  split
  · next hcontrol =>
      simp only [List.cons_append, List.nil_append]
      rw [units?.eq_def]
      simp only
      rw [if_neg (by decide), if_pos trivial, natural?_hexDigits c.toNat hcontrol, Option.bind_some,
        ofNat_toNat_of_lt hcontrol]
  · next hquote hback _ _ _ _ _ hcontrol =>
      rw [List.singleton_append, units?.eq_def]
      simp [hquote, hback, hcontrol]

theorem units?_flatMap_escaped (cs rest : List Char) :
    units? (cs.flatMap escaped ++ '"' :: rest) = some (cs.map .char, rest) := by
  induction cs with
  | nil => rw [List.flatMap_nil, List.nil_append, units?.eq_def]; rfl
  | cons c cs ih =>
      rw [List.flatMap_cons, List.append_assoc, units?_escaped, ih]
      rfl

/-- **A string is read back with all its characters.** -/
theorem Token.first?_quotedText (s : String) (rest : List Char) :
    first? (quotedText s ++ rest) = some (.string (some s), rest) := by
  have hstring : string? (s.toList.flatMap escaped ++ '"' :: rest) =
      some (.string (some s), rest) := by
    rw [string?, units?_flatMap_escaped, Option.map_some, Unit16.decode_map_char,
      Option.map_some, String.ofList_toList]
  rw [quotedText, List.cons_append, List.cons_append, List.append_assoc, List.singleton_append,
    ← hstring]
  rfl

/-! ## Places -/

namespace Reading

/-- Whether a value may begin at a place, inside of some open arrays and objects. -/
def Begins (nests : List Nest) (r : Reading) : Prop :=
  ∀ t, t ≠ .closeArray → r.step t = begin? nests t

theorem begins_value (nests : List Nest) : Begins nests (value nests) :=
  fun _ _ => rfl

theorem begins_firstItem (nests : List Nest) : Begins (.array [] :: nests) (firstItem nests) := by
  intro t ht
  cases t with
  | closeArray => exact absurd rfl ht
  | _ => rfl

/-- A string is taken. -/
theorem runText_quotedText (s : String) (rest : List Char) (r : Reading) :
    r.runText (quotedText s ++ rest) =
      (r.step (.string (some s))).bind (fun q => q.runText rest) :=
  runText_of_first? rfl (Token.first?_quotedText s rest) r

end Reading

/-! ## Values -/

open Reading

theorem numberEnds_nil : NumberEnds [] :=
  fun _ hc => nomatch hc

/-- A number may end before a comma and before a closing bracket. -/
theorem numberEnds_of_mem {c : Char} (h : c ∈ [',', ']', '\x7d']) (cs : List Char) :
    NumberEnds (c :: cs) := by
  intro d hd
  cases hd
  simp only [List.mem_cons, List.not_mem_nil, or_false] at h
  rcases h with rfl | rfl | rfl
  · decide
  · decide
  · decide

theorem numberEnds_jsonItems (vs : List Value) (rest : List Char) :
    NumberEnds (Value.jsonItems vs ++ ']' :: rest) := by
  cases vs with
  | nil => exact numberEnds_of_mem (by decide) rest
  | cons v vs => exact numberEnds_of_mem (by decide) _

theorem numberEnds_jsonMembers (es : List (String × Value)) (rest : List Char) :
    NumberEnds (Value.jsonMembers es ++ '\x7d' :: rest) := by
  cases es with
  | nil => exact numberEnds_of_mem (by decide) rest
  | cons e es => exact numberEnds_of_mem (by decide) _

mutual

/-- **A written value is read as its tree**, whatever stands behind it. -/
theorem runText_jsonChars (v : Value) (hv : v.hasNoFloat = true) {nests : List Nest}
    {r : Reading} (hr : r.Begins nests) {rest : List Char} (hrest : NumberEnds rest) :
    r.runText (v.jsonChars ++ rest) = (after v.tree.draft nests).runText rest := by
  match v with
  | .null =>
      have hfirst : Token.first? ('n' :: 'u' :: 'l' :: 'l' :: rest) = some (.null, rest) := rfl
      have hstep := runText_of_first? rfl hfirst r
      rw [hr _ (by decide)] at hstep
      exact hstep
  | .bool true =>
      have hfirst : Token.first? ('t' :: 'r' :: 'u' :: 'e' :: rest) = some (.bool true, rest) := rfl
      have hstep := runText_of_first? rfl hfirst r
      rw [hr _ (by decide)] at hstep
      exact hstep
  | .bool false =>
      have hfirst : Token.first? ('f' :: 'a' :: 'l' :: 's' :: 'e' :: rest) =
          some (.bool false, rest) := rfl
      have hstep := runText_of_first? rfl hfirst r
      rw [hr _ (by decide)] at hstep
      exact hstep
  | .int n =>
      have hfirst := Token.first?_intText n hrest
      obtain ⟨c, cs, hcs, hc⟩ := exists_intText_eq n
      rw [Value.jsonChars]
      rw [hcs, List.cons_append] at hfirst ⊢
      rw [runText_of_first? (Token.first?_number hc (cs ++ rest)).1 hfirst, hr _ (by simp)]
      rfl
  | .float f => cases hv
  | .string s =>
      rw [Value.jsonChars, runText_quotedText, hr _ (by simp)]
      rfl
  | .sequence [] =>
      have hclose := runText_mark (c := ']') rfl rfl rest (firstItem nests)
      rw [Value.jsonChars, List.cons_append, runText_mark (c := '[') rfl rfl, hr _ (by decide)]
      exact hclose
  | .sequence (w :: ws) =>
      obtain ⟨hw, hws⟩ := Bool.and_eq_true_iff.1 hv
      have hitem := runText_jsonChars w hw (begins_firstItem nests)
        (numberEnds_jsonItems ws rest)
      have hitems := runText_jsonItems ws hws w.tree.draft [] nests rest
      rw [Value.jsonChars]
      simp only [List.cons_append, List.append_assoc, List.nil_append]
      rw [runText_mark (c := '[') rfl rfl, hr _ (by decide)]
      exact hitem.trans hitems
  | .mapping [] =>
      have hclose := runText_mark (c := '\x7d') rfl rfl rest (firstKey nests)
      rw [Value.jsonChars, List.cons_append, runText_mark (c := '\x7b') rfl rfl,
        hr _ (by decide)]
      exact hclose
  | .mapping ((k, w) :: es) =>
      obtain ⟨hw, hes⟩ := Bool.and_eq_true_iff.1 hv
      have hvalue := runText_jsonChars w hw (begins_value (.object [] (some k) :: nests))
        (numberEnds_jsonMembers es rest)
      have hmembers := runText_jsonMembers es hes w.tree.draft [] (some k) nests rest
      rw [Value.jsonChars]
      simp only [List.cons_append, List.append_assoc, List.nil_append]
      rw [runText_mark (c := '\x7b') rfl rfl, hr _ (by decide), begin?, Option.bind_some,
        runText_quotedText, step, Option.bind_some, runText_mark rfl rfl, step, Option.bind_some]
      exact hvalue.trans hmembers

/-- Items that follow are read up to the end of the array. -/
theorem runText_jsonItems (vs : List Value) (hvs : Value.itemsHaveNoFloat vs = true)
    (d : Draft) (items : List Draft) (nests : List Nest) (rest : List Char) :
    (after d (.array items :: nests)).runText (Value.jsonItems vs ++ ']' :: rest) =
      (after (.array ((d :: items).reverse ++ draftItems (Value.treeItems vs))) nests).runText
        rest := by
  match vs with
  | [] =>
      rw [Value.treeItems, draftItems, List.append_nil]
      exact runText_mark (c := ']') rfl rfl rest _
  | w :: ws =>
      obtain ⟨hw, hws⟩ := Bool.and_eq_true_iff.1 hvs
      have hitem := runText_jsonChars w hw (begins_value (.array (d :: items) :: nests))
        (numberEnds_jsonItems ws rest)
      have hitems := runText_jsonItems ws hws w.tree.draft (d :: items) nests rest
      rw [Value.jsonItems, List.cons_append, List.cons_append, List.append_assoc,
        runText_mark rfl rfl, step, continue?, Option.bind_some, hitem, hitems,
        Value.treeItems, draftItems]
      simp

/-- Members that follow are read up to the end of the object. -/
theorem runText_jsonMembers (es : List (String × Value))
    (hes : Value.entriesHaveNoFloat es = true) (d : Draft)
    (members : List (Option String × Draft)) (key : Option String) (nests : List Nest)
    (rest : List Char) :
    (after d (.object members key :: nests)).runText (Value.jsonMembers es ++ '\x7d' :: rest) =
      (after (.object (((key, d) :: members).reverse ++ draftMembers (Value.treeMembers es)))
        nests).runText rest := by
  match es with
  | [] =>
      rw [Value.treeMembers, draftMembers, List.append_nil]
      exact runText_mark (c := '\x7d') rfl rfl rest _
  | (k, w) :: es =>
      obtain ⟨hw, hes⟩ := Bool.and_eq_true_iff.1 hes
      have hvalue := runText_jsonChars w hw
        (begins_value (.object ((key, d) :: members) (some k) :: nests))
        (numberEnds_jsonMembers es rest)
      have hmembers := runText_jsonMembers es hes w.tree.draft ((key, d) :: members) (some k)
        nests rest
      rw [Value.jsonMembers]
      simp only [List.cons_append, List.append_assoc]
      rw [runText_mark rfl rfl, step, continue?, Option.bind_some, runText_quotedText, step,
        Option.bind_some, runText_mark rfl rfl, step, Option.bind_some, hvalue, hmembers,
        Value.treeMembers, draftMembers]
      simp

end

/-- A written value is read as a text. -/
theorem ofText?_toJson {v : Value} (hv : v.hasNoFloat = true) :
    Draft.ofText? v.toJson = some v.tree.draft := by
  have hread := runText_jsonChars v hv (begins_value []) numberEnds_nil
  rw [List.append_nil, runText_nil] at hread
  rw [Draft.ofText?_eq, Value.toJson, String.toList_ofList, hread]
  rfl

end Json

/-! ## Trees -/

namespace Value

open Json

mutual

theorem depth_draft_tree (v : Value) : v.tree.draft.depth = v.depth := by
  match v with
  | .null => rfl
  | .bool _ => rfl
  | .int _ => rfl
  | .float _ => rfl
  | .string _ => rfl
  | .sequence items =>
      rw [tree, draft, Draft.depth, depth, depthItems_draft_tree items, Nat.add_comm]
  | .mapping entries =>
      rw [tree, draft, Draft.depth, depth, depthMembers_draft_tree entries, Nat.add_comm]

theorem depthItems_draft_tree (vs : List Value) :
    Draft.depthItems (draftItems (treeItems vs)) = depthItems vs := by
  match vs with
  | [] => rfl
  | v :: vs =>
      rw [treeItems, draftItems, Draft.depthItems, depthItems, depth_draft_tree v,
        depthItems_draft_tree vs]

theorem depthMembers_draft_tree (es : List (String × Value)) :
    Draft.depthMembers (draftMembers (treeMembers es)) = depthEntries es := by
  match es with
  | [] => rfl
  | (k, v) :: es =>
      rw [treeMembers, draftMembers, Draft.depthMembers, depthEntries, depth_draft_tree v,
        depthMembers_draft_tree es]

end

mutual

/-- **The tree of a value gives the value back**, entries in their order. -/
theorem ofJson_tree (v : Value) (hv : v.KeysDistinct) : ofJson v.tree = v := by
  match v with
  | .null => rfl
  | .bool _ => rfl
  | .int n => rw [tree, ofJson, ofNumber, Number.asInt?_ofInt]
  | .float _ => rfl
  | .string _ => rfl
  | .sequence items => rw [tree, ofJson, ofJsonItems_treeItems items hv]
  | .mapping entries =>
      rw [tree, ofJson, ofJsonMembers_treeMembers entries hv.2, ofPairs,
        Entries.ofPairs_of_nodup hv.1]

theorem ofJsonItems_treeItems (vs : List Value) (hvs : itemsKeysDistinct vs) :
    ofJsonItems (treeItems vs) = vs := by
  match vs with
  | [] => rfl
  | v :: vs => rw [treeItems, ofJsonItems, ofJson_tree v hvs.1, ofJsonItems_treeItems vs hvs.2]

theorem ofJsonMembers_treeMembers (es : List (String × Value)) (hes : entriesKeysDistinct es) :
    ofJsonMembers (treeMembers es) = es := by
  match es with
  | [] => rfl
  | (k, v) :: es =>
      rw [treeMembers, ofJsonMembers, ofJson_tree v hes.1, ofJsonMembers_treeMembers es hes.2]

end

/-- **A value that is written is read back**: with the same kinds, texts and keys, and with
mappings in their order, provided no float is in it, no mapping repeats a key and at most 127
sequences and mappings are nested. -/
theorem readJson_toJson {v : Value} (hfloat : v.hasNoFloat = true) (hkeys : v.KeysDistinct)
    (hdepth : v.depth ≤ 127) : readJson v.toJson = .ok v := by
  have htree : Json.ofText? v.toJson = some v.tree := by
    have hnested : v.depth ≤ maxDepth := hdepth
    rw [Json.ofText?, ofText?_toJson hfloat, Option.bind_some, depth_draft_tree, if_pos hnested,
      settle?_draft]
  rw [readJson_eq_of_some htree, ofJson_tree v hkeys]

/-- Keys that look like other values, the least and the greatest int, quotes, a backslash,
control characters and nested mappings out of alphabetical order. -/
theorem readJson_toJson_keys :
    readJson (toJson (mapping [("null", int Int64.minValue), ("1", sequence [null, bool false]),
        ("", mapping [("b", string "\"\\\x00\n\x7f\u2028😀"), ("a", int Int64.maxValue)])])) =
      .ok (mapping [("null", int Int64.minValue), ("1", sequence [null, bool false]),
        ("", mapping [("b", string "\"\\\x00\n\x7f\u2028😀"), ("a", int Int64.maxValue)])]) :=
  readJson_toJson rfl
    (by simp [KeysDistinct, entriesKeysDistinct, itemsKeysDistinct, Entries.keys]) (by decide)

end Value
end Stencil
