import Stencil.Error
import Stencil.Template.Basic

/-!
# Scopes

While a template is rendered, each loop around the current place binds its variable to
an item, with the item's position and the number of items.  A dotted key is looked up in
the loops from the innermost outwards and then in the data itself.  A scope answers only
if the whole path resolves in it to something other than null.

**Results.**
* `Path.ofKey_toList`: the segments of a key, joined by full stops, are the key.
* `Path.not_mem_of_mem_ofKey`: no segment of a key has a full stop.
* `resolve?_nil`, `resolve?_push`: the search goes from the innermost loop outwards.
-/

namespace Stencil

/-- The segments of a dotted key; there is at least one. -/
structure Path where
  first : String
  rest : List String
  deriving DecidableEq

namespace Path

/-- Cuts characters at full stops. -/
def cut : List Char → List Char × List (List Char)
  | [] => ([], [])
  | c :: cs =>
      let p := cut cs
      if c = '.' then ([], p.1 :: p.2) else (c :: p.1, p.2)

def ofKey (key : String) : Path :=
  let p := cut key.toList
  ⟨String.ofList p.1, p.2.map String.ofList⟩

def segments (p : Path) : List String :=
  p.first :: p.rest

theorem cut_join (cs : List Char) :
    (cut cs).1 ++ (cut cs).2.flatMap (fun s => '.' :: s) = cs := by
  induction cs with
  | nil => rfl
  | cons c cs ih =>
      by_cases h : c = '.'
      · simp [cut, h, ih]
      · simp [cut, h, ih]

/-- What stands before the first full stop belongs to the first segment. -/
theorem cut_append {s : List Char} (h : '.' ∉ s) (cs : List Char) :
    cut (s ++ cs) = (s ++ (cut cs).1, (cut cs).2) := by
  induction s with
  | nil => rfl
  | cons c s ih =>
      have hc : c ≠ '.' := fun heq => h (heq ▸ List.mem_cons_self)
      have hs : '.' ∉ s := fun hmem => h (List.mem_cons_of_mem c hmem)
      rw [List.cons_append, cut, ih hs, if_neg hc]
      rfl

/-- Segments that have no full stop, each after one, are what they are cut into. -/
theorem cut_flatMap {ss : List (List Char)} (h : ∀ s ∈ ss, '.' ∉ s) :
    cut (ss.flatMap (fun s => '.' :: s)) = ([], ss) := by
  induction ss with
  | nil => rfl
  | cons s ss ih =>
      obtain ⟨hs, hss⟩ := List.forall_mem_cons.1 h
      rw [List.flatMap_cons, List.cons_append, cut, cut_append hs, ih hss, if_pos rfl,
        List.append_nil]

theorem not_mem_of_mem_cut (cs : List Char) :
    ∀ s ∈ (cut cs).1 :: (cut cs).2, '.' ∉ s := by
  induction cs with
  | nil => simp [cut]
  | cons c cs ih =>
      obtain ⟨hfirst, hrest⟩ := List.forall_mem_cons.1 ih
      by_cases hc : c = '.'
      · rw [cut, if_pos hc]
        exact List.forall_mem_cons.2 ⟨List.not_mem_nil, ih⟩
      · rw [cut, if_neg hc]
        refine List.forall_mem_cons.2 ⟨fun hmem => ?_, hrest⟩
        rcases List.mem_cons.1 hmem with heq | htail
        · exact hc heq.symm
        · exact hfirst htail

theorem ofKey_toList (key : String) :
    (ofKey key).first.toList ++ (ofKey key).rest.flatMap (fun s => '.' :: s.toList) =
      key.toList := by
  simpa [ofKey, List.flatMap_map] using cut_join key.toList

/-- The segments of a key have no full stop. -/
theorem not_mem_of_mem_ofKey (key : String) :
    ∀ s ∈ (ofKey key).segments, '.' ∉ s.toList := by
  obtain ⟨hfirst, hrest⟩ := List.forall_mem_cons.1 (not_mem_of_mem_cut key.toList)
  refine List.forall_mem_cons.2 ⟨?_, fun s hs => ?_⟩
  · rw [ofKey, String.toList_ofList]
    exact hfirst
  · obtain ⟨cs, hcs, rfl⟩ := List.mem_map.1 hs
    rw [String.toList_ofList]
    exact hrest cs hcs

end Path

/-- What a loop binds during one iteration. -/
structure Binding where
  var : String
  item : Value
  /-- The position of the iteration, from zero. -/
  index : Nat
  /-- The number of iterations. -/
  count : Nat

/-- Keeps a value only if it does not count as absent. -/
def present (v : Option Value) : Option Value :=
  v.filter (fun w => !w.isNull)

def Binding.resolve? (b : Binding) (p : Path) : Option Value :=
  if p.first = b.var then present (b.item.getPath p.rest) else none

/-- The data and the loops around a place, the innermost first. -/
structure Scopes where
  root : Value
  loops : List Binding

namespace Scopes

/-- Adds an innermost loop. -/
def push (s : Scopes) (b : Binding) : Scopes :=
  ⟨s.root, b :: s.loops⟩

/-- Removes the innermost loop. -/
def pop (s : Scopes) : Scopes :=
  ⟨s.root, s.loops.tail⟩

def resolve? (s : Scopes) (p : Path) : Option Value :=
  (s.loops.findSome? (fun b => b.resolve? p)).or (present (s.root.getPath p.segments))

theorem resolve?_nil (root : Value) (p : Path) :
    resolve? ⟨root, []⟩ p = present (root.getPath p.segments) := by
  simp [resolve?]

theorem resolve?_push (s : Scopes) (b : Binding) (p : Path) :
    (s.push b).resolve? p = (b.resolve? p).or (s.resolve? p) := by
  cases h : b.resolve? p <;> simp [resolve?, push, h]

def value (s : Scopes) (key : String) (line : Nat) : Except RenderError Value :=
  match s.resolve? (Path.ofKey key) with
  | some v => .ok v
  | none => .error ⟨line, .notFound key⟩

def text (s : Scopes) (key : String) (line : Nat) : Except RenderError String :=
  (s.value key line).bind (fun v =>
    match v.toText? with
    | some t => .ok t
    | none => .error ⟨line, .notText key v.kind⟩)

def items (s : Scopes) (key : String) (line : Nat) : Except RenderError (List Value) :=
  (s.value key line).bind (fun v =>
    match v.asSequence? with
    | some vs => .ok vs
    | none => .error ⟨line, .notSequence key v.kind⟩)

/-- The innermost iteration of the loops that bind a variable. -/
def iteration (s : Scopes) (var : String) (line : Nat) : Except RenderError Binding :=
  match s.loops.find? (fun b => b.var = var) with
  | some b => .ok b
  | none => .error ⟨line, .unbound var⟩

def test (s : Scopes) (line : Nat) : Test → Except RenderError Bool
  | .is key literal => (s.text key line).map (fun t => t == literal)
  | .any key => .ok (s.resolve? (Path.ofKey key)).isSome
  | .index var predicate =>
      (s.iteration var line).map (fun b => predicate.holds b.index b.count)

end Scopes

end Stencil
