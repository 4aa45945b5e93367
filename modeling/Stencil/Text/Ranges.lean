/-!
# Sets of characters as ranges of code points

A table of closed ranges stands for the characters whose code point lies in one
of them.
-/

namespace Stencil
namespace Text

/-- A set of characters, given by closed ranges of code points. -/
abbrev Ranges := List (Nat × Nat)

/-- Whether a character lies in one of the ranges. -/
def Ranges.mem (ranges : Ranges) (c : Char) : Bool :=
  ranges.any (fun r => r.1 ≤ c.toNat && c.toNat ≤ r.2)

end Text
end Stencil
