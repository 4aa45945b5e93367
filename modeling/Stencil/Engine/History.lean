import Stencil.Engine

/-!
# What an engine remembers

After any calls an engine stands for the sources under its names: the text of the last
successful registration of a name that was not removed since.

**Results.**
* `sources_append`: what is remembered depends only on what was, and on the calls since.
* `sourcesAfter_register_error`: a failing registration is not remembered.
-/

namespace Stencil
namespace Engine

def sourcesAfter (config : Config) (sources : Entries String) : Call → Entries String
  | .register name source =>
      match Template.parse config source with
      | .ok _ => Entries.put name source sources
      | .error _ => sources
  | .remove name => Entries.erase name sources
  | .clear => []
  | _ => sources

/-- The sources under their names after calls. -/
def sources (config : Config) (before : Entries String) (calls : List Call) : Entries String :=
  calls.foldl (sourcesAfter config) before

theorem sources_append (config : Config) (before : Entries String) (cs ds : List Call) :
    sources config before (cs ++ ds) = sources config (sources config before cs) ds := by
  simp [sources]

theorem sourcesAfter_register_error {config : Config} {source : String} {e : Error}
    (h : Template.parse config source = .error e) (before : Entries String) (name : String) :
    sourcesAfter config before (.register name source) = before := by
  simp [sourcesAfter, h]

end Engine
end Stencil
