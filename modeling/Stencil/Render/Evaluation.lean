import Stencil.Error
import Stencil.Template.Basic

/-!
# What templates mean

The meaning of a node in an environment is a failure, or its text and whether it leaves the
innermost loop.  Nothing is changed along the way: a loop evaluates its body in an
environment of its own for each iteration, and texts are joined.

An environment is the data, with the iterations of the loops around a place before it, the
innermost first.  A dotted key has the value of the innermost entry in which all of it
leads to something other than null.

**Results.**
* `evaluateBody_append`: a body means what its parts mean one after the other.
-/

namespace Stencil

/-- What can be seen from a place in a template. -/
inductive Environment where
  | data (root : Value)
  /-- In an iteration of a loop: the item, its position from zero, and the number of items,
  before what can be seen around the loop. -/
  | iteration (var : String) (item : Value) (index count : Nat) (outer : Environment)

namespace Environment

def segments (key : String) : List String :=
  (key.toList.splitOn '.').map String.ofList

def nonNull : Option Value → Option Value
  | some .null => none
  | v => v

/-- The value at the end of a path, from the innermost entry that has one. -/
def lookup? (path : List String) : Environment → Option Value
  | data root => nonNull (root.getPath path)
  | iteration var item _ _ outer =>
      if path.head? = some var then
        match nonNull (item.getPath path.tail) with
        | some v => some v
        | none => outer.lookup? path
      else outer.lookup? path

/-- The position in the innermost loop of a variable, and the number of its items. -/
def position? (var : String) : Environment → Option (Nat × Nat)
  | data _ => none
  | iteration v _ index count outer =>
      if v = var then some (index, count) else outer.position? var

/-- The text of a key: that of a string or a number. -/
def text (env : Environment) (key : String) (line : Nat) : Except RenderError String :=
  match env.lookup? (segments key) with
  | some (.string s) => .ok s
  | some (.int n) => .ok (toString n.toInt)
  | some (.float f) => .ok (Decimal.floatText f)
  | some v => .error ⟨line, .notText key v.kind⟩
  | none => .error ⟨line, .notFound key⟩

def items (env : Environment) (key : String) (line : Nat) : Except RenderError (List Value) :=
  match env.lookup? (segments key) with
  | some (.sequence vs) => .ok vs
  | some v => .error ⟨line, .notSequence key v.kind⟩
  | none => .error ⟨line, .notFound key⟩

def holds (env : Environment) (line : Nat) : Test → Except RenderError Bool
  | .is key literal => (env.text key line).map (fun t => t == literal)
  | .index var predicate =>
      match env.position? var with
      | some (index, count) => .ok (predicate.holds index count)
      | none => .error ⟨line, .unbound var⟩
  | .any key => .ok (env.lookup? (segments key)).isSome

end Environment

/-- A text, and whether the innermost loop is left after it. -/
structure Outcome where
  text : String
  leaves : Bool
  deriving DecidableEq

/-- What a node or a body means. -/
abbrev Meaning := Except RenderError Outcome

namespace Meaning

/-- A text after which things go on. -/
def text (s : String) : Meaning :=
  .ok ⟨s, false⟩

/-- One meaning after the other, unless the first leaves the loop. -/
def followedBy (a b : Meaning) : Meaning :=
  a.bind (fun o => if o.leaves then .ok o else b.map (fun p => ⟨o.text ++ p.text, p.leaves⟩))

theorem text_followedBy (b : Meaning) : (text "").followedBy b = b := by
  cases b <;> simp [followedBy, text, Except.bind, Except.map]

theorem followedBy_text (a : Meaning) : a.followedBy (text "") = a := by
  rcases a with e | ⟨s, leaves⟩
  · rfl
  · cases leaves with
    | true => rfl
    | false => simp [followedBy, text, Except.bind, Except.map]

theorem text_followedBy_text (s u : String) :
    (text s).followedBy (text u) = text (s ++ u) :=
  rfl

theorem followedBy_assoc (a b c : Meaning) :
    (a.followedBy b).followedBy c = a.followedBy (b.followedBy c) := by
  rcases a with e | ⟨s, l⟩
  · rfl
  · cases l
    · rcases b with e | ⟨t, k⟩
      · rfl
      · cases k
        · cases c <;> simp [followedBy, Except.bind, Except.map, String.append_assoc]
        · rfl
    · rfl

/-- Iterations one after the other, up to the first that leaves the loop. -/
def loop (iteration : Nat → Value → Meaning) : Nat → List Value → Meaning
  | _, [] => text ""
  | index, item :: rest => (iteration index item).followedBy (loop iteration (index + 1) rest)

/-- The meaning of a loop as a node: it leaves no loop around it. -/
def closed (m : Meaning) : Meaning :=
  m.map (fun o => ⟨o.text, false⟩)

end Meaning

mutual

/-- The meaning of a node. -/
def Node.evaluate (env : Environment) : Node → Meaning
  | .text t => Meaning.text t
  | .lookup key line => (env.text key line).bind Meaning.text
  | .loop var key reverse body line =>
      (env.items key line).bind (fun items =>
        (Meaning.loop
          (fun index item => evaluateBody (.iteration var item index items.length env) body) 0
          (if reverse then items.reverse else items)).closed)
  | .conditional branches otherwise =>
      evaluateBranches env (evaluateOtherwise env otherwise) branches
  | .last _ => .ok ⟨"", true⟩

def evaluateBody (env : Environment) : List Node → Meaning
  | [] => Meaning.text ""
  | n :: ns => (n.evaluate env).followedBy (evaluateBody env ns)

/-- The meaning of the first branch whose test holds, else the fallback. -/
def evaluateBranches (env : Environment) (fallback : Meaning) : List Branch → Meaning
  | [] => fallback
  | .mk test body line :: bs =>
      (env.holds line test).bind (fun holds =>
        if holds then evaluateBody env body else evaluateBranches env fallback bs)

def evaluateOtherwise (env : Environment) : Option (List Node) → Meaning
  | none => Meaning.text ""
  | some body => evaluateBody env body

end

theorem evaluateBody_append (env : Environment) (as bs : List Node) :
    evaluateBody env (as ++ bs) = (evaluateBody env as).followedBy (evaluateBody env bs) := by
  induction as with
  | nil => simp [evaluateBody, Meaning.text_followedBy]
  | cons n ns ih => simp [evaluateBody, ih, Meaning.followedBy_assoc]

/-- The meaning of a template on data. -/
def Template.evaluate (t : Template) (data : Value) : Except RenderError String :=
  (evaluateBody (.data data) t.nodes).map Outcome.text

end Stencil
