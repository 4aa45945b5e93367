import Stencil.Directive
import Stencil.Error
import Stencil.Token

/-!
# Reading a template by recursive descent

A body is read token by token.  A directive that opens a block hands the tokens after it
to the reader of that block; a directive that belongs to the block around the body stops
the reader, and that block decides whether it fits.  What is returned carries that fewer
tokens are left, so no bound on the depth is needed.

**Results.**
* `Template.parse_of_marks`: with usable marks only the tokens decide.
-/

namespace Stencil

namespace Descent

/-- What a directive asks of the block around it. -/
inductive Request where
  | endLoop
  | alternative (test : Test)
  | otherwise
  | endCondition

/-- A directive that stopped the reading of a body. -/
structure Stop where
  request : Request
  raw : String
  line : Nat

/-- A body that was read from at most some number of tokens. -/
inductive Body (bound : Nat) where
  /-- The tokens ran out. -/
  | ended (nodes : List Node)
  /-- A directive stopped the reader in front of the rest. -/
  | stopped (nodes : List Node) (stop : Stop) (rest : List Token) (shorter : rest.length < bound)

/-- A whole block that was read from at most some number of tokens. -/
structure Closed (bound : Nat) where
  node : Node
  rest : List Token
  shorter : rest.length < bound

mutual

/-- Reads a body up to a directive of the block around it; the nodes before are given
latest first, and `vars` are the variables of the loops around it. -/
def nodes (bound : Nat) (vars : List String) (before : List Node) (ts : List Token)
    (le : ts.length ≤ bound) : Except ParseError (Body bound) :=
  match ts with
  | [] => .ok (.ended before.reverse)
  | ⟨.text s, _⟩ :: ts => nodes bound vars (appendText before s) ts (Nat.le_of_lt le)
  | ⟨.escape mark, _⟩ :: ts =>
      nodes bound vars (appendText before mark) ts (Nat.le_of_lt le)
  | ⟨.comment, _⟩ :: ts => nodes bound vars before ts (Nat.le_of_lt le)
  | ⟨.command args raw, line⟩ :: ts =>
      match Directive.ofArgs? vars args with
      | none => .error ⟨line, .invalidDirective raw⟩
      | some (.lookup key) =>
          nodes bound vars (.lookup key line :: before) ts (Nat.le_of_lt le)
      | some (.loop var key reverse) =>
          match loop vars var key reverse raw line ts with
          | .error e => .error e
          | .ok ⟨node, rest, h⟩ =>
              nodes bound vars (node :: before) rest (Nat.le_of_lt (Nat.lt_trans h le))
      | some (.condition test) =>
          match arms vars test.kind raw line [] (some (test, line)) ts with
          | .error e => .error e
          | .ok ⟨node, rest, h⟩ =>
              nodes bound vars (node :: before) rest (Nat.le_of_lt (Nat.lt_trans h le))
      | some .last =>
          if vars = [] then .error ⟨line, .unmatchedBlock raw⟩
          else nodes bound vars (.last line :: before) ts (Nat.le_of_lt le)
      | some .endLoop =>
          .ok (.stopped before.reverse ⟨.endLoop, raw, line⟩ ts le)
      | some (.alternative test) =>
          .ok (.stopped before.reverse ⟨.alternative test, raw, line⟩ ts le)
      | some .otherwise =>
          .ok (.stopped before.reverse ⟨.otherwise, raw, line⟩ ts le)
      | some .endCondition =>
          .ok (.stopped before.reverse ⟨.endCondition, raw, line⟩ ts le)
termination_by (ts.length, 0)

/-- Reads a loop, from behind the directive that opened it. -/
def loop (vars : List String) (var key : String) (reverse : Bool) (opener : String)
    (line : Nat) (ts : List Token) : Except ParseError (Closed ts.length) :=
  match nodes ts.length (var :: vars) [] ts (Nat.le_refl _) with
  | .error e => .error e
  | .ok (.ended _) => .error ⟨line, .unclosedBlock opener⟩
  | .ok (.stopped body stop rest h) =>
      match stop.request with
      | .endLoop => .ok ⟨.loop var key reverse body line, rest, h⟩
      | _ => .error ⟨stop.line, .unmatchedBlock stop.raw⟩
termination_by (ts.length, 1)

/-- Reads the rest of a conditional: `done` are the branches before, the latest first, and
`current` is the test of the branch whose body comes next, or none for the else body. -/
def arms (vars : List String) (kind : ConditionKind) (opener : String) (first : Nat)
    (done : List Branch) (current : Option (Test × Nat)) (ts : List Token) :
    Except ParseError (Closed ts.length) :=
  match nodes ts.length vars [] ts (Nat.le_refl _) with
  | .error e => .error e
  | .ok (.ended _) => .error ⟨first, .unclosedBlock opener⟩
  | .ok (.stopped body stop rest h) =>
      match current with
      | none =>
          match stop.request with
          | .endCondition => .ok ⟨.conditional done.reverse (some body), rest, h⟩
          | _ => .error ⟨stop.line, .unmatchedBlock stop.raw⟩
      | some (test, line) =>
          match stop.request with
          | .endCondition =>
              .ok ⟨.conditional (Branch.mk test body line :: done).reverse none, rest, h⟩
          | .otherwise =>
              match arms vars kind opener first (.mk test body line :: done) none rest with
              | .error e => .error e
              | .ok ⟨node, left, hl⟩ => .ok ⟨node, left, Nat.lt_trans hl h⟩
          | .alternative next =>
              if next.kind = kind then
                match arms vars kind opener first (.mk test body line :: done)
                    (some (next, stop.line)) rest with
                | .error e => .error e
                | .ok ⟨node, left, hl⟩ => .ok ⟨node, left, Nat.lt_trans hl h⟩
              else .error ⟨stop.line, .unmatchedBlock stop.raw⟩
          | _ => .error ⟨stop.line, .unmatchedBlock stop.raw⟩
termination_by (ts.length, 1)

end

end Descent

namespace Template

/-- The template of tokens; no directive may be left that belongs to a block around it. -/
def ofTokens (tokens : List Token) : Except ParseError Template :=
  match Descent.nodes tokens.length [] [] tokens (Nat.le_refl _) with
  | .error e => .error e
  | .ok (.ended nodes) => .ok ⟨nodes⟩
  | .ok (.stopped _ stop _ _) => .error ⟨stop.line, .unmatchedBlock stop.raw⟩

/-- The template of a text. -/
def parse (config : Config) (text : String) : Except Error Template :=
  match Token.tokenize config text with
  | .error e => .error (.config e)
  | .ok tokens =>
      match ofTokens tokens with
      | .error e => .error (.parse e)
      | .ok t => .ok t

theorem parse_of_marks {config : Config} {m : Marks} (h : config.marks = .ok m) (text : String) :
    parse config text =
      (ofTokens (Token.ofChars m config.trimNewline text.toList)).mapError .parse := by
  unfold parse Token.tokenize
  rw [h]
  simp only [Except.map]
  cases ofTokens (Token.ofChars m config.trimNewline text.toList) with
  | error e => rfl
  | ok t => rfl

end Template

end Stencil
