/-!
# The shortest decimal of a binary fraction

A positive binary floating-point number is `m * 2 ^ q`.  The reals that round to it form
an interval, closed when `m` is even: it reaches half a step up and half a step down,
a quarter step down where the steps below are half as long.  `shortest` is the decimal
with the fewest digits in that interval, and of two such decimals the nearer one.

All comparisons are exact, between natural numbers.

**Results.**
* `Interval.contains_ten_mul`: whether a decimal lies in the interval does not depend on the
  zeros at its end.
* `Interval.contains_trim`: dropping these zeros keeps it there.
-/

namespace Stencil

/-- The number `coefficient * 10 ^ exponent`. -/
structure Decimal where
  coefficient : Nat
  exponent : Int
  deriving DecidableEq

namespace Decimal

/-- The reals that round to a binary number, in units of `2 ^ unit`. -/
structure Interval where
  low : Nat
  middle : Nat
  high : Nat
  unit : Int
  isClosed : Bool

/-- The interval of `m * 2 ^ q`; `narrow` says that the steps below are half as long. -/
def Interval.of (m : Nat) (q : Int) (narrow : Bool) : Interval where
  low := if narrow then 4 * m - 1 else 4 * m - 2
  middle := 4 * m
  high := 4 * m + 2
  unit := q - 2
  isClosed := m % 2 == 0

/-- The factors that make `n * 2 ^ q` and `c * 10 ^ u` comparable: `n` times the first
stands to `c` times the second as the one number to the other. -/
def scales (q u : Int) : Nat × Nat :=
  (Nat.pow 2 q.toNat * Nat.pow 10 (-u).toNat, Nat.pow 10 u.toNat * Nat.pow 2 (-q).toNat)

theorem scales_fst_pos (q u : Int) : 0 < (scales q u).1 :=
  Nat.mul_pos (Nat.pow_pos (by decide)) (Nat.pow_pos (by decide))

theorem scales_snd_pos (q u : Int) : 0 < (scales q u).2 :=
  Nat.mul_pos (Nat.pow_pos (by decide)) (Nat.pow_pos (by decide))

/-- The next coarser grid has ten times the step. -/
theorem scales_succ (q u : Int) :
    ((scales q (u + 1)).1 = (scales q u).1 ∧ (scales q (u + 1)).2 = 10 * (scales q u).2) ∨
      ((scales q u).1 = 10 * (scales q (u + 1)).1 ∧ (scales q (u + 1)).2 = (scales q u).2) := by
  by_cases h : 0 ≤ u
  · left
    have hup : (u + 1).toNat = u.toNat + 1 := by omega
    have hdown : (-(u + 1)).toNat = (-u).toNat := by omega
    simp only [scales, hup, hdown, Nat.pow_eq, Nat.pow_succ]
    exact ⟨trivial, by simp only [Nat.mul_comm, Nat.mul_left_comm]⟩
  · right
    have hup : (u + 1).toNat = u.toNat := by omega
    have hdown : (-u).toNat = (-(u + 1)).toNat + 1 := by omega
    simp only [scales, hup, hdown, Nat.pow_eq, Nat.pow_succ]
    exact ⟨by simp only [Nat.mul_comm, Nat.mul_left_comm], trivial⟩

def Interval.contains (i : Interval) (d : Decimal) : Bool :=
  let s := scales i.unit d.exponent
  let x := d.coefficient * s.2
  if i.isClosed then decide (i.low * s.1 ≤ x) && decide (x ≤ i.high * s.1)
  else decide (i.low * s.1 < x) && decide (x < i.high * s.1)

theorem Interval.contains_iff (i : Interval) (d : Decimal) :
    i.contains d = true ↔
      if i.isClosed then
        i.low * (scales i.unit d.exponent).1 ≤ d.coefficient * (scales i.unit d.exponent).2 ∧
          d.coefficient * (scales i.unit d.exponent).2 ≤ i.high * (scales i.unit d.exponent).1
      else
        i.low * (scales i.unit d.exponent).1 < d.coefficient * (scales i.unit d.exponent).2 ∧
          d.coefficient * (scales i.unit d.exponent).2 < i.high * (scales i.unit d.exponent).1 := by
  unfold Interval.contains
  split <;> simp

/-- A decimal with a zero at its end lies on the next coarser grid. -/
theorem Interval.contains_ten_mul (i : Interval) (c : Nat) (u : Int) :
    i.contains ⟨10 * c, u⟩ = i.contains ⟨c, u + 1⟩ := by
  rw [Bool.eq_iff_iff, contains_iff, contains_iff]
  simp only
  rcases scales_succ i.unit u with ⟨h₁, h₂⟩ | ⟨h₁, h₂⟩
  · rw [h₁, h₂, Nat.mul_left_comm c, Nat.mul_assoc 10]
  · have hten : 0 < 10 := by decide
    have hscale (n : Nat) : n * (scales i.unit u).1 = 10 * (n * (scales i.unit (u + 1)).1) := by
      rw [h₁, Nat.mul_left_comm]
    rw [hscale, hscale, h₂, Nat.mul_assoc 10]
    simp only [Nat.mul_le_mul_left_iff hten, Nat.mul_lt_mul_left hten]

/-- The decimal exponent of the first digit of `n * 2 ^ q`. -/
def magnitude (n : Nat) (q : Int) : Int :=
  let num := n * Nat.pow 2 q.toNat
  let den := Nat.pow 2 (-q).toNat
  if den ≤ num then ((Nat.toDigits 10 (num / den)).length : Int) - 1
  else -((Nat.toDigits 10 ((den - 1) / num)).length : Int)

/-- Which of two equally near decimals is taken. -/
inductive Tie where
  | upper
  | even
  deriving DecidableEq

/-- Whether the lower one of two neighbours is taken, by twice its distance from a number
and the step between the two. -/
def Tie.takesLower (tie : Tie) (lower twice step : Nat) : Bool :=
  twice < step || (twice == step && tie == .even && lower % 2 == 0)

/-- The decimal of a grid `10 ^ u` that lies in the interval and nearest to its middle. -/
def Interval.nearest? (i : Interval) (tie : Tie) (u : Int) : Option Decimal :=
  let s := scales i.unit u
  let below : Decimal := ⟨i.middle * s.1 / s.2, u⟩
  let above : Decimal := ⟨below.coefficient + 1, u⟩
  let rest := i.middle * s.1 % s.2
  match i.contains below, i.contains above with
  | true, true =>
      if tie.takesLower below.coefficient (2 * rest) s.2 then some below else some above
  | true, false => some below
  | false, true => some above
  | false, false => none

/-- Drops the zeros at the end of the coefficient, at most `fuel` of them. -/
def trim : Nat → Decimal → Decimal
  | 0, d => d
  | fuel + 1, d =>
      if d.coefficient % 10 = 0 ∧ d.coefficient ≠ 0 then
        trim fuel ⟨d.coefficient / 10, d.exponent + 1⟩
      else d

theorem Interval.contains_trim (i : Interval) (fuel : Nat) (d : Decimal) :
    i.contains (trim fuel d) = i.contains d := by
  fun_induction trim fuel d with
  | case1 => rfl
  | case2 fuel d h ih =>
      have hten : 10 * (d.coefficient / 10) = d.coefficient := by omega
      rw [ih, ← contains_ten_mul, hten]
  | case3 => rfl

/-- The shortest decimal of `m * 2 ^ q`, of at most seventeen digits. -/
def shortest (tie : Tie) (m : Nat) (q : Int) (narrow : Bool) : Decimal :=
  if m = 0 then ⟨0, 0⟩
  else
    let i := Interval.of m q narrow
    let k := magnitude i.middle i.unit
    match (List.range 17).findSome? (fun (n : Nat) => i.nearest? tie (k - n)) with
    | some d => trim 20 d
    | none => ⟨m * (scales q (k - 16)).1 / (scales q (k - 16)).2, k - 16⟩

end Decimal

end Stencil
