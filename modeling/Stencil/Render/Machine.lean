import Stencil.Render.Scope

/-!
# Rendering

A `Machine` replays a template on data.  Its state is a stack of scopes and the output
so far.  A loop pushes a scope for each iteration and pops it afterwards, whatever the
outcome; a `Flow` says whether the innermost loop is left.
-/

namespace Stencil

/-- How to go on after a node. -/
inductive Flow where
  | next
  /-- Leave the innermost loop. -/
  | leave
  deriving DecidableEq

/-- The state of rendering. -/
structure Machine where
  scopes : Scopes
  output : String

namespace Machine

/-- A step of rendering: it fails, or gives a result; either way there is a state after it. -/
abbrev Step (α : Type) := EStateM RenderError Machine α

/-- Adds to the output. -/
def emit (s : String) : Step Unit := fun m =>
  .ok () { m with output := m.output ++ s }

/-- Looks something up in the scopes. -/
def ask {α : Type} (f : Scopes → Except RenderError α) : Step α := fun m =>
  match f m.scopes with
  | .ok a => .ok a m
  | .error e => .error e m

/-- The state with one more scope. -/
def push (m : Machine) (b : Binding) : Machine :=
  { m with scopes := m.scopes.push b }

/-- The state with one scope less. -/
def pop (m : Machine) : Machine :=
  { m with scopes := m.scopes.pop }

/-- Runs a step in one more scope. -/
def within {α : Type} (b : Binding) (step : Step α) : Step α := fun m =>
  match step (m.push b) with
  | .ok a m' => .ok a m'.pop
  | .error e m' => .error e m'.pop

/-- Runs a body for each position of some items, until it leaves the loop; from the back,
the first position takes the last item. -/
def iterate (var : String) (reverse : Bool) (items : Array Value) (body : Step Flow)
    (index : Nat) : Step Unit :=
  if h : index < items.size then do
    let item := if reverse then items[items.size - 1 - index] else items[index]
    match ← within ⟨var, item, index, items.size⟩ body with
    | .leave => pure ()
    | .next => iterate var reverse items body (index + 1)
  else pure ()
termination_by items.size - index

mutual

/-- Renders a node. -/
def node : Node → Step Flow
  | .text s => do
      emit s
      pure .next
  | .lookup key line => do
      emit (← ask (fun s => s.text key line))
      pure .next
  | .loop var key reverse nodes line => do
      let items ← ask (fun s => s.items key line)
      iterate var reverse items.toArray (body nodes) 0
      pure .next
  | .conditional bs other => branches bs (otherwise other)
  | .last _ => pure .leave

/-- Renders the nodes of a body up to the first that leaves the loop. -/
def body : List Node → Step Flow
  | [] => pure .next
  | n :: ns => do
      match ← node n with
      | .leave => pure .leave
      | .next => body ns

/-- Renders the body of the first branch whose test holds, else the fallback. -/
def branches : List Branch → Step Flow → Step Flow
  | [], fallback => fallback
  | .mk test nodes line :: bs, fallback => do
      if ← ask (fun s => s.test line test) then body nodes else branches bs fallback

/-- Renders an else body if there is one. -/
def otherwise : Option (List Node) → Step Flow
  | none => pure .next
  | some nodes => body nodes

end

def scopesAfter {α : Type} : EStateM.Result RenderError Machine α → Scopes
  | .ok _ m => m.scopes
  | .error _ m => m.scopes

end Machine

/-- A renderer of templates on some data. -/
structure Renderer where
  scopes : Scopes

namespace Renderer

def new (root : Value) : Renderer :=
  ⟨⟨root, []⟩⟩

/-- Renders a template: the whole output or the first failure, and the renderer afterwards. -/
def render (r : Renderer) (t : Template) : Except RenderError String × Renderer :=
  match Machine.body t.nodes ⟨r.scopes, ""⟩ with
  | .ok _ m => (.ok m.output, ⟨m.scopes⟩)
  | .error e m => (.error e, ⟨m.scopes⟩)

def getValue (r : Renderer) (key : String) (line : Nat) : Except RenderError Value :=
  r.scopes.value key line

end Renderer

namespace Template

def generate (t : Template) (data : Value) : Except Error String :=
  match ((Renderer.new data).render t).1 with
  | .ok s => .ok s
  | .error e => .error (.generation e)

end Template

end Stencil
