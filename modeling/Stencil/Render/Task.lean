import Stencil.Directive
import Stencil.Render.Machine

/-!
# What happens while a template is rendered

Rendering is followed from task to task: a body begins its first node and, once that is
done, the nodes after it; a loop begins its iterations one after the other, each in a scope
of its own; a conditional begins its branches, and a branch whose test holds its body.  A
task together with the state in which it is begun is a moment of rendering, and the moments
that a template comes to on some data are those at which its directives are evaluated.

**Results.**
* `Machine.Reaches.keeps`: what every step keeps holds of all that rendering comes to.
-/

namespace Stencil

namespace Scopes

/-- The variables of the loops, the innermost first. -/
def vars (s : Scopes) : List String :=
  s.loops.map Binding.var

/-- Whether what a directive on a line asks for can be answered, or how it fails. -/
def answer (s : Scopes) (line : Nat) : Directive → Except RenderError Unit
  | .lookup key => (s.text key line).map (fun _ => ())
  | .loop _ key _ => (s.items key line).map (fun _ => ())
  | .condition test => (s.test line test).map (fun _ => ())
  | .alternative test => (s.test line test).map (fun _ => ())
  | _ => .ok ()

end Scopes

namespace Machine

/-- What is to be rendered. -/
inductive Task where
  | node (n : Node)
  | body (nodes : List Node)
  /-- The branches of a conditional that are left, and its else; `isFirst` says whether no
  branch has been tried yet. -/
  | branches (isFirst : Bool) (left : List Branch) (other : Option (List Node))
  /-- The iterations of a loop from a position on. -/
  | iterations (var : String) (reverse : Bool) (items : Array Value) (nodes : List Node)
      (index : Nat)

namespace Task

/-- How a task is carried out. -/
def run : Task → Step Flow
  | node n => Machine.node n
  | body nodes => Machine.body nodes
  | branches _ left other => Machine.branches left (otherwise other)
  | iterations var reverse items nodes index => do
      iterate var reverse items (Machine.body nodes) index
      pure .next

/-- The directive that is evaluated when a task is begun, with its line. -/
def directive? : Task → Option (Directive × Nat)
  | node (.lookup key line) => some (.lookup key, line)
  | node (.loop var key reverse _ line) => some (.loop var key reverse, line)
  | branches isFirst (.mk test _ line :: _) _ => some (test.directive isFirst, line)
  | _ => none

end Task

/-- Counted from the back, a position is one of the same items. -/
theorem back_lt (items : Array Value) (index : Nat) (h : index < items.size) :
    items.size - 1 - index < items.size :=
  Nat.sub_one_sub_lt h

/-- What the iteration at a position of some items binds. -/
def binding (var : String) (reverse : Bool) (items : Array Value) (index : Nat)
    (h : index < items.size) : Binding :=
  have back := back_lt items index h
  ⟨var, if reverse then items[items.size - 1 - index] else items[index], index, items.size⟩

/-- Whether a task in a state begins another task in another state. -/
inductive Begins : Task → Machine → Task → Machine → Prop
  | first (n : Node) (nodes : List Node) (m : Machine) :
      Begins (.body (n :: nodes)) m (.node n) m
  | rest {n : Node} {m m' : Machine} (nodes : List Node) (done : Machine.node n m = .ok .next m') :
      Begins (.body (n :: nodes)) m (.body nodes) m'
  | loop {key : String} {line : Nat} {m : Machine} {items : List Value} (var : String)
      (reverse : Bool) (nodes : List Node) (found : m.scopes.items key line = .ok items) :
      Begins (.node (.loop var key reverse nodes line)) m
        (.iterations var reverse items.toArray nodes 0) m
  | iteration {items : Array Value} {index : Nat} (var : String) (reverse : Bool)
      (nodes : List Node) (m : Machine) (h : index < items.size) :
      Begins (.iterations var reverse items nodes index) m (.body nodes)
        (m.push (binding var reverse items index h))
  | nextIteration {items : Array Value} {index : Nat} {var : String} {reverse : Bool}
      {nodes : List Node} {m m' : Machine} (h : index < items.size)
      (done : within (binding var reverse items index h) (Machine.body nodes) m = .ok .next m') :
      Begins (.iterations var reverse items nodes index) m
        (.iterations var reverse items nodes (index + 1)) m'
  | conditional (left : List Branch) (other : Option (List Node)) (m : Machine) :
      Begins (.node (.conditional left other)) m (.branches true left other) m
  | taken {line : Nat} {test : Test} {m : Machine} (isFirst : Bool) (nodes : List Node)
      (left : List Branch) (other : Option (List Node))
      (holds : m.scopes.test line test = .ok true) :
      Begins (.branches isFirst (.mk test nodes line :: left) other) m (.body nodes) m
  | passed {line : Nat} {test : Test} {m : Machine} (isFirst : Bool) (nodes : List Node)
      (left : List Branch) (other : Option (List Node))
      (fails : m.scopes.test line test = .ok false) :
      Begins (.branches isFirst (.mk test nodes line :: left) other) m
        (.branches false left other) m
  | otherwise (isFirst : Bool) (nodes : List Node) (m : Machine) :
      Begins (.branches isFirst [] (some nodes)) m (.body nodes) m

/-- Whether a task in a state comes to another task in another state. -/
inductive Reaches : Task → Machine → Task → Machine → Prop
  | here (task : Task) (m : Machine) : Reaches task m task m
  | onward {task task' task'' : Task} {m m' m'' : Machine} (step : Begins task m task' m')
      (rest : Reaches task' m' task'' m'') : Reaches task m task'' m''

/-- **What every step keeps holds of all that rendering comes to.** -/
theorem Reaches.keeps {P : Task → Machine → Prop}
    (hstep : ∀ {task task' : Task} {m m' : Machine},
      Begins task m task' m' → P task m → P task' m')
    {task task' : Task} {m m' : Machine} (h : Reaches task m task' m') (hstart : P task m) :
    P task' m' := by
  induction h with
  | here => exact hstart
  | onward step _ ih => exact ih (hstep step hstart)

end Machine

/-- Whether a directive on a line is evaluated in some scopes while a template is rendered on
data. -/
def Template.Evaluates (t : Template) (data : Value) (d : Directive) (line : Nat) (s : Scopes) :
    Prop :=
  ∃ task m, Machine.Reaches (.body t.nodes) ⟨⟨data, []⟩, ""⟩ task m ∧
    task.directive? = some (d, line) ∧ m.scopes = s

end Stencil
