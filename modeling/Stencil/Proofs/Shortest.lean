import Stencil.Decimal.Layout
import Stencil.Proofs.Digits

/-!
# The decimal that is written for a double

Of the decimals `c * 10 ^ u` with a fixed `u`, a grid, only the two next to a number matter: if
any decimal of the grid rounds to the number, one of these two does, and it is the nearest.  The
grids are tried from the coarsest on, and the seventeenth is always fine enough for a
significand of 53 bits.

Written positionally, a decimal has as many places as its exponent says, and without the point
its digits make its coefficient, with further zeros if the exponent is positive.

**Results.**
* `Interval.nearest?_eq_none_iff`, `Interval.nearest?_eq_some`: what a grid has for an interval.
* `le_magnitude`: no number lies below the power of ten at its first digit.
* `exists_shortest`: the decimal comes from the coarsest grid that has one.
* `contains_shortest`, `contains_shortest_of_decode`: the decimal rounds to the number, and to
  the double, that it is written for.
* `exists_positional`: the number that is written positionally is the decimal.
-/

namespace Stencil
namespace Decimal

/-! ## Neighbours on a grid -/

namespace Interval

/-- Whether the middle lies strictly between the ends. -/
def IsProper (i : Interval) : Prop :=
  i.low < i.middle ∧ i.middle < i.high

theorem isProper_of {m : Nat} (h : m ≠ 0) (q : Int) (narrow : Bool) :
    (Interval.of m q narrow).IsProper := by
  unfold IsProper Interval.of
  simp only
  split <;> omega

/-- The coefficient of the last decimal of a grid that does not exceed the middle. -/
def below (i : Interval) (u : Int) : Nat :=
  i.middle * (scales i.unit u).1 / (scales i.unit u).2

/-- How far the middle lies above that decimal. -/
def excess (i : Interval) (u : Int) : Nat :=
  i.middle * (scales i.unit u).1 % (scales i.unit u).2

theorem below_mul_add (i : Interval) (u : Int) :
    i.below u * (scales i.unit u).2 + i.excess u = i.middle * (scales i.unit u).1 :=
  Nat.div_add_mod' _ _

theorem excess_lt (i : Interval) (u : Int) : i.excess u < (scales i.unit u).2 :=
  Nat.mod_lt _ (scales_snd_pos i.unit u)

/-- If a decimal up to the middle lies in the interval, so does the last one. -/
theorem contains_below {i : Interval} (hi : i.IsProper) {c : Nat} {u : Int}
    (hc : i.contains ⟨c, u⟩ = true) (hle : c ≤ i.below u) :
    i.contains ⟨i.below u, u⟩ = true := by
  have hhigh := Nat.mul_lt_mul_of_pos_right hi.2 (scales_fst_pos i.unit u)
  have hsplit := i.below_mul_add u
  have hmul := Nat.mul_le_mul_right (scales i.unit u).2 hle
  rw [contains_iff] at hc ⊢
  simp only at hc ⊢
  split
  · next hclosed =>
      rw [if_pos hclosed] at hc
      omega
  · next hopen =>
      rw [if_neg hopen] at hc
      omega

/-- If a decimal beyond the middle lies in the interval, so does the first one. -/
theorem contains_above {i : Interval} (hi : i.IsProper) {c : Nat} {u : Int}
    (hc : i.contains ⟨c, u⟩ = true) (hlt : i.below u < c) :
    i.contains ⟨i.below u + 1, u⟩ = true := by
  have hlow := Nat.mul_lt_mul_of_pos_right hi.1 (scales_fst_pos i.unit u)
  have hsplit := i.below_mul_add u
  have hexcess := i.excess_lt u
  have hmul := Nat.mul_le_mul_right (scales i.unit u).2 (Nat.succ_le_of_lt hlt)
  rw [Nat.succ_mul] at hmul
  rw [contains_iff] at hc ⊢
  simp only [Nat.succ_mul] at hc ⊢
  split
  · next hclosed =>
      rw [if_pos hclosed] at hc
      omega
  · next hopen =>
      rw [if_neg hopen] at hc
      omega

/-- The distance of a decimal from the middle. -/
def distance (i : Interval) (d : Decimal) : Nat :=
  let s := scales i.unit d.exponent
  (d.coefficient * s.2 - i.middle * s.1) + (i.middle * s.1 - d.coefficient * s.2)

theorem distance_below (i : Interval) (u : Int) :
    i.distance ⟨i.below u, u⟩ = i.excess u := by
  have hsplit := i.below_mul_add u
  simp only [distance]
  omega

theorem distance_above (i : Interval) (u : Int) :
    i.distance ⟨i.below u + 1, u⟩ = (scales i.unit u).2 - i.excess u := by
  have hsplit := i.below_mul_add u
  have hexcess := i.excess_lt u
  simp only [distance, Nat.succ_mul]
  omega

theorem excess_le_distance (i : Interval) {c : Nat} {u : Int} (hle : c ≤ i.below u) :
    i.excess u ≤ i.distance ⟨c, u⟩ := by
  have hsplit := i.below_mul_add u
  have hmul := Nat.mul_le_mul_right (scales i.unit u).2 hle
  simp only [distance]
  omega

theorem sub_excess_le_distance (i : Interval) {c : Nat} {u : Int} (hlt : i.below u < c) :
    (scales i.unit u).2 - i.excess u ≤ i.distance ⟨c, u⟩ := by
  have hsplit := i.below_mul_add u
  have hmul := Nat.mul_le_mul_right (scales i.unit u).2 (Nat.succ_le_of_lt hlt)
  rw [Nat.succ_mul] at hmul
  simp only [distance]
  omega

/-- The two neighbours of the middle decide. -/
theorem nearest?_eq (i : Interval) (tie : Tie) (u : Int) :
    i.nearest? tie u =
      match i.contains ⟨i.below u, u⟩, i.contains ⟨i.below u + 1, u⟩ with
      | true, true =>
          if tie.takesLower (i.below u) (2 * i.excess u) (scales i.unit u).2 then
            some ⟨i.below u, u⟩
          else some ⟨i.below u + 1, u⟩
      | true, false => some ⟨i.below u, u⟩
      | false, true => some ⟨i.below u + 1, u⟩
      | false, false => none :=
  rfl

/-- A grid has no decimal for an interval just if none of its decimals lies there. -/
theorem nearest?_eq_none_iff {i : Interval} (hi : i.IsProper) (tie : Tie) (u : Int) :
    i.nearest? tie u = none ↔ ∀ c, i.contains ⟨c, u⟩ = false := by
  constructor
  · intro h c
    cases hc : i.contains ⟨c, u⟩ with
    | false => rfl
    | true =>
        rw [nearest?_eq] at h
        rcases Nat.lt_or_ge (i.below u) c with hlt | hle
        · rw [contains_above hi hc hlt] at h
          split at h
          · split at h <;> cases h
          · next hfalse => cases hfalse
          · cases h
          · next hfalse => cases hfalse
        · rw [contains_below hi hc hle] at h
          split at h
          · split at h <;> cases h
          · cases h
          · next hfalse _ => cases hfalse
          · next hfalse _ => cases hfalse
  · intro h
    rw [nearest?_eq, h, h]

/-- The nearer neighbour is taken. -/
theorem takesLower_spec {tie : Tie} {lower twice step : Nat} :
    (tie.takesLower lower twice step = true → twice ≤ step) ∧
      (¬ tie.takesLower lower twice step = true → step ≤ twice) := by
  simp only [Tie.takesLower, Bool.or_eq_true, Bool.and_eq_true, decide_eq_true_eq, beq_iff_eq]
  omega

/-- The neighbour below is the nearest, unless the one above is nearer and lies in the
interval. -/
theorem distance_below_le {i : Interval} (hi : i.IsProper) {c : Nat} {u : Int}
    (h : 2 * i.excess u ≤ (scales i.unit u).2 ∨ i.contains ⟨i.below u + 1, u⟩ = false)
    (hc : i.contains ⟨c, u⟩ = true) : i.distance ⟨i.below u, u⟩ ≤ i.distance ⟨c, u⟩ := by
  rw [distance_below]
  rcases Nat.lt_or_ge (i.below u) c with hlt | hle
  · rcases h with htwice | habove
    · have hdistance := i.sub_excess_le_distance hlt
      omega
    · rw [contains_above hi hc hlt] at habove
      cases habove
  · exact i.excess_le_distance hle

/-- The neighbour above is the nearest, unless the one below is nearer and lies in the
interval. -/
theorem distance_above_le {i : Interval} (hi : i.IsProper) {c : Nat} {u : Int}
    (h : (scales i.unit u).2 ≤ 2 * i.excess u ∨ i.contains ⟨i.below u, u⟩ = false)
    (hc : i.contains ⟨c, u⟩ = true) : i.distance ⟨i.below u + 1, u⟩ ≤ i.distance ⟨c, u⟩ := by
  rw [distance_above]
  rcases Nat.lt_or_ge (i.below u) c with hlt | hle
  · exact i.sub_excess_le_distance hlt
  · rcases h with htwice | hbelow
    · have hdistance := i.excess_le_distance hle
      omega
    · rw [contains_below hi hc hle] at hbelow
      cases hbelow

/-- The decimal of a grid lies in the interval, and no other one of the grid that lies there is
nearer to the middle. -/
theorem nearest?_eq_some {i : Interval} (hi : i.IsProper) {tie : Tie} {u : Int} {d : Decimal}
    (h : i.nearest? tie u = some d) :
    i.contains d = true ∧ d.exponent = u ∧
      ∀ c, i.contains ⟨c, u⟩ = true → i.distance d ≤ i.distance ⟨c, u⟩ := by
  rw [nearest?_eq] at h
  split at h
  · next hbelow habove =>
      split at h
      · next hlower =>
          cases h
          have htwice := takesLower_spec.1 hlower
          exact ⟨hbelow, rfl, fun c => distance_below_le hi (.inl htwice)⟩
      · next hupper =>
          cases h
          have htwice := takesLower_spec.2 hupper
          exact ⟨habove, rfl, fun c => distance_above_le hi (.inl htwice)⟩
  · next hbelow habove =>
      cases h
      exact ⟨hbelow, rfl, fun c => distance_below_le hi (.inr habove)⟩
  · next hbelow habove =>
      cases h
      exact ⟨habove, rfl, fun c => distance_above_le hi (.inr hbelow)⟩
  · cases h

end Interval

/-! ## How fine a grid has to be -/

/-- Digits are as many as the powers of ten say. -/
theorem pow_length_toDigits_le {n : Nat} (h : n ≠ 0) :
    Nat.pow 10 ((Nat.toDigits 10 n).length - 1) ≤ n := by
  cases hlen : (Nat.toDigits 10 n).length - 1 with
  | zero => exact Nat.pos_of_ne_zero h
  | succ k =>
      refine Nat.not_lt.1 (fun hlt => ?_)
      have hle := (Nat.length_toDigits_le_iff (by decide) (Nat.succ_pos k)).2 hlt
      omega

theorem lt_pow_length_toDigits (n : Nat) : n < Nat.pow 10 (Nat.toDigits 10 n).length :=
  (Nat.length_toDigits_le_iff (by decide) Nat.length_toDigits_pos).1 (Nat.le_refl _)

theorem scales_natCast (q : Int) (k : Nat) :
    scales q k = (Nat.pow 2 q.toNat, Nat.pow 10 k * Nat.pow 2 (-q).toNat) := by
  have hdown : (-(k : Int)).toNat = 0 := by omega
  rw [scales, hdown, Int.toNat_natCast]
  exact congrArg (·, _) (Nat.mul_one _)

theorem scales_neg_natCast (q : Int) (k : Nat) :
    scales q (-k) = (Nat.pow 2 q.toNat * Nat.pow 10 k, Nat.pow 2 (-q).toNat) := by
  have hup : (-(k : Int)).toNat = 0 := by omega
  rw [scales, hup, Int.neg_neg, Int.toNat_natCast]
  exact congrArg (_, ·) (Nat.one_mul _)

/-- No number lies below the power of ten at its first digit. -/
theorem le_magnitude {n : Nat} (h : n ≠ 0) (q : Int) :
    (scales q (magnitude n q)).2 ≤ n * (scales q (magnitude n q)).1 := by
  have hden : 0 < Nat.pow 2 (-q).toNat := Nat.pow_pos (by decide)
  have hnum : 0 < n * Nat.pow 2 q.toNat :=
    Nat.mul_pos (Nat.pos_of_ne_zero h) (Nat.pow_pos (by decide))
  simp only [magnitude]
  split
  · next hle =>
      have hpow := pow_length_toDigits_le (Nat.ne_of_gt (Nat.div_pos hle hden))
      have hcast : ((Nat.toDigits 10 (n * Nat.pow 2 q.toNat / Nat.pow 2 (-q).toNat)).length : Int)
          - 1 = ((Nat.toDigits 10
            (n * Nat.pow 2 q.toNat / Nat.pow 2 (-q).toNat)).length - 1 : Nat) := by
        have hpos := Nat.length_toDigits_pos (b := 10)
          (n := n * Nat.pow 2 q.toNat / Nat.pow 2 (-q).toNat)
        omega
      rw [hcast, scales_natCast]
      exact (Nat.le_div_iff_mul_le hden).1 hpow
  · next hlt =>
      have hpow := lt_pow_length_toDigits ((Nat.pow 2 (-q).toNat - 1) / (n * Nat.pow 2 q.toNat))
      rw [Nat.div_lt_iff_lt_mul hnum] at hpow
      have hcomm (a b c : Nat) : a * (b * c) = c * (a * b) := by
        rw [← Nat.mul_assoc, Nat.mul_comm]
      rw [scales_neg_natCast, hcomm]
      exact Nat.le_of_pred_lt hpow

/-- On each finer grid the power of ten has one more zero. -/
theorem pow_mul_scales_le {n : Nat} {q u : Int} (h : (scales q u).2 ≤ n * (scales q u).1)
    (j : Nat) : Nat.pow 10 j * (scales q (u - j)).2 ≤ n * (scales q (u - j)).1 := by
  induction j with
  | zero => simpa using h
  | succ j ih =>
      have hsucc : u - (j : Int) = u - (j + 1 : Nat) + 1 := by omega
      rw [hsucc] at ih
      rcases scales_succ q (u - (j + 1 : Nat)) with ⟨h₁, h₂⟩ | ⟨h₁, h₂⟩
      · rw [h₁, h₂, ← Nat.mul_assoc] at ih
        exact ih
      · rw [h₂] at ih
        have hpow : Nat.pow 10 (j + 1) = 10 * Nat.pow 10 j := Nat.mul_comm _ _
        rw [h₁, Nat.mul_left_comm, hpow, Nat.mul_assoc]
        exact Nat.mul_le_mul_left 10 ih

/-- What lies strictly between the ends is in the interval, be it closed or not. -/
theorem Interval.contains_of_lt {i : Interval} {d : Decimal}
    (hlow : i.low * (scales i.unit d.exponent).1 < d.coefficient * (scales i.unit d.exponent).2)
    (hhigh : d.coefficient * (scales i.unit d.exponent).2 <
      i.high * (scales i.unit d.exponent).1) : i.contains d = true := by
  rw [contains_iff]
  split
  · exact ⟨Nat.le_of_lt hlow, Nat.le_of_lt hhigh⟩
  · exact ⟨hlow, hhigh⟩

/-- A grid whose step is shorter than an interval has a decimal there. -/
theorem Interval.exists_contains {i : Interval} {u : Int}
    (h : i.low * (scales i.unit u).1 + (scales i.unit u).2 < i.high * (scales i.unit u).1) :
    ∃ c, i.contains ⟨c, u⟩ = true := by
  have hsplit := Nat.div_add_mod' (i.low * (scales i.unit u).1) (scales i.unit u).2
  have hmod := Nat.mod_lt (i.low * (scales i.unit u).1) (scales_snd_pos i.unit u)
  refine ⟨i.low * (scales i.unit u).1 / (scales i.unit u).2 + 1, contains_of_lt ?_ ?_⟩
  · simp only [Nat.succ_mul]
    omega
  · simp only [Nat.succ_mul]
    omega

/-- The interval of a significand of 53 bits is longer than a step with sixteen digits less than
the number. -/
theorem add_lt_high_mul {m a b : Nat} {narrow : Bool} (hbits : m < Nat.pow 2 53)
    (hnarrow : narrow = true → m = Nat.pow 2 52) (ha : 0 < a)
    (hstep : Nat.pow 10 16 * b ≤ 4 * m * a) (q : Int) :
    (Interval.of m q narrow).low * a + b < (Interval.of m q narrow).high * a := by
  have hten : Nat.pow 10 16 = 10000000000000000 := rfl
  have hmul := Nat.mul_le_mul_right a (Nat.le_of_lt_succ hbits)
  rw [hten, Nat.mul_assoc] at hstep
  show (if narrow then 4 * m - 1 else 4 * m - 2) * a + b < (4 * m + 2) * a
  rw [Nat.add_mul, Nat.mul_assoc]
  cases narrow with
  | true =>
      have heq : m = 4503599627370496 := hnarrow rfl
      rw [if_pos rfl, Nat.sub_mul, Nat.mul_assoc, Nat.one_mul]
      rw [heq] at hstep ⊢
      omega
  | false =>
      rw [if_neg Bool.false_ne_true, Nat.sub_mul, Nat.mul_assoc]
      omega

/-- The seventeenth grid has a decimal for every significand of 53 bits. -/
theorem nearest?_ne_none {m : Nat} {narrow : Bool} (hm : m ≠ 0) (hbits : m < Nat.pow 2 53)
    (hnarrow : narrow = true → m = Nat.pow 2 52) (q : Int) (tie : Tie) :
    (Interval.of m q narrow).nearest? tie (magnitude (4 * m) (q - 2) - (16 : Nat)) ≠ none := by
  intro hnone
  rw [Interval.nearest?_eq_none_iff (Interval.isProper_of hm q narrow)] at hnone
  have hstep := pow_mul_scales_le (le_magnitude (n := 4 * m) (by omega) (q - 2)) 16
  have hwidth := add_lt_high_mul hbits hnarrow (scales_fst_pos (q - 2) _) hstep q
  obtain ⟨c, hc⟩ := Interval.exists_contains (i := Interval.of m q narrow) hwidth
  rw [hnone c] at hc
  cases hc

/-! ## The shortest decimal -/

/-- What stands before a number in a range is smaller. -/
theorem of_range_eq_append {count n : Nat} {before after : List Nat}
    (h : List.range count = before ++ n :: after) : n < count ∧ before = List.range n := by
  rw [List.range_eq_range'] at h ⊢
  obtain ⟨k, hk, hbefore, hafter⟩ := List.range'_eq_append_iff.1 h
  cases hrest : count - k with
  | zero =>
      rw [hrest] at hafter
      cases hafter
  | succ rest =>
      rw [hrest, List.range'_succ, Nat.zero_add] at hafter
      obtain ⟨rfl, -⟩ := List.cons.inj hafter
      exact ⟨by omega, by rw [hbefore, Nat.mul_one]⟩

/-- **The decimal comes from the coarsest grid that has one**: it is the one nearest to the
number on its grid, without the zeros at its end, and nothing on a coarser grid that was tried
rounds to the number. -/
theorem exists_shortest {m : Nat} {narrow : Bool} (hm : m ≠ 0) (hbits : m < Nat.pow 2 53)
    (hnarrow : narrow = true → m = Nat.pow 2 52) (q : Int) (tie : Tie) :
    ∃ (n : Nat) (d : Decimal), n ≤ 16 ∧
      (Interval.of m q narrow).nearest? tie (magnitude (4 * m) (q - 2) - n) = some d ∧
      shortest tie m q narrow = trim 20 d ∧
      ∀ j < n, ∀ c, (Interval.of m q narrow).contains
        ⟨c, magnitude (4 * m) (q - 2) - (j : Nat)⟩ = false := by
  have hproper := Interval.isProper_of hm q narrow
  cases hfind : (List.range 17).findSome? (fun (n : Nat) =>
      (Interval.of m q narrow).nearest? tie (magnitude (4 * m) (q - 2) - n)) with
  | none =>
      rw [List.findSome?_eq_none_iff] at hfind
      exact absurd (hfind 16 (by decide)) (nearest?_ne_none hm hbits hnarrow q tie)
  | some d =>
      obtain ⟨before, n, after, hrange, hd, hbefore⟩ := List.findSome?_eq_some_iff.1 hfind
      obtain ⟨hn, rfl⟩ := of_range_eq_append hrange
      refine ⟨n, d, Nat.le_of_lt_succ hn, hd, ?_, fun j hj => ?_⟩
      · have hmiddle : (Interval.of m q narrow).middle = 4 * m := rfl
        have hunit : (Interval.of m q narrow).unit = q - 2 := rfl
        simp only [shortest, if_neg hm]
        rw [hmiddle, hunit, hfind]
      · exact (Interval.nearest?_eq_none_iff hproper tie _).1
          (hbefore j (List.mem_range.2 hj))

/-- The decimal rounds to the number that it is written for. -/
theorem contains_shortest {m : Nat} {narrow : Bool} (hm : m ≠ 0) (hbits : m < Nat.pow 2 53)
    (hnarrow : narrow = true → m = Nat.pow 2 52) (q : Int) (tie : Tie) :
    (Interval.of m q narrow).contains (shortest tie m q narrow) = true := by
  obtain ⟨n, d, -, hd, hshortest, -⟩ := exists_shortest hm hbits hnarrow q tie
  rw [hshortest, Interval.contains_trim]
  exact (Interval.nearest?_eq_some (Interval.isProper_of hm q narrow) hd).1

/-- The decimal of a double that is not zero rounds to it. -/
theorem contains_shortest_of_decode {f : Float} {negative narrow : Bool} {m : Nat} {q : Int}
    (h : decode f = .finite negative m q narrow) (hm : m ≠ 0) (tie : Tie) :
    (Interval.of m q narrow).contains (shortest tie m q narrow) = true := by
  obtain ⟨hbits, -, -, hnarrow⟩ := Binary.finite_of_ofBits h
  exact contains_shortest hm hbits hnarrow q tie

/-! ## Positional notation -/

theorem ofDigits_replicate_zero (n k : Nat) :
    ofDigits n (List.replicate k '0') = n * Nat.pow 10 k := by
  induction k generalizing n with
  | zero => exact (Nat.mul_one n).symm
  | succ k ih =>
      have hcons : ofDigits n (List.replicate (k + 1) '0') =
          ofDigits (10 * n + 0) (List.replicate k '0') := rfl
      have hpow : Nat.pow 10 (k + 1) = 10 * Nat.pow 10 k := Nat.mul_comm _ _
      rw [hcons, ih, hpow, Nat.add_zero, ← Nat.mul_assoc, Nat.mul_comm 10]

theorem ofDigits_digits (d : Decimal) : ofDigits 0 d.digits = d.coefficient := by
  rw [digits, ofDigits_eq, Nat.ofDigitChars_ten_toDigits]

theorem isDigit_of_mem_digits {d : Decimal} {c : Char} (h : c ∈ d.digits) : c.isDigit = true :=
  Nat.isDigit_of_mem_toDigits (by decide) (by decide) h

theorem isDigit_of_mem_zeros {c : Char} {k : Nat} (h : c ∈ List.replicate k '0') :
    c.isDigit = true := by
  rw [(List.mem_replicate.1 h).2]
  rfl

/-- Whether digits before and after a point make the number of a decimal. -/
structure Spells (d : Decimal) (whole places : List Char) : Prop where
  whole_ne_nil : whole ≠ []
  all_digits : ∀ c ∈ whole ++ places, c.isDigit = true
  length_places : places.length = (-d.exponent).toNat
  value : ofDigits 0 (whole ++ places) = d.coefficient * Nat.pow 10 d.exponent.toNat

theorem spells_zeros_behind {d : Decimal} (h : 0 ≤ d.exponent) :
    Spells d (d.digits ++ List.replicate d.exponent.toNat '0') [] where
  whole_ne_nil := List.append_ne_nil_of_left_ne_nil Nat.toDigits_ne_nil _
  all_digits c hc := by
    rw [List.append_nil] at hc
    exact (List.mem_append.1 hc).elim isDigit_of_mem_digits isDigit_of_mem_zeros
  length_places := by
    rw [List.length_nil]
    omega
  value := by
    rw [List.append_nil, ofDigits_append, ofDigits_digits, ofDigits_replicate_zero]

/-- No zeros are added behind the digits of a decimal with places. -/
theorem pow_exponent_of_neg {d : Decimal} (h : d.exponent < 0) :
    Nat.pow 10 d.exponent.toNat = 1 := by
  rw [Int.toNat_of_nonpos (Int.le_of_lt h)]

theorem spells_cut {d : Decimal} (h : d.exponent < 0)
    (hplaces : (-d.exponent).toNat < d.digits.length) :
    Spells d (d.digits.take (d.digits.length - (-d.exponent).toNat))
      (d.digits.drop (d.digits.length - (-d.exponent).toNat)) where
  whole_ne_nil := by
    rw [← List.length_pos_iff, List.length_take]
    omega
  all_digits := by
    rw [List.take_append_drop]
    exact fun c => isDigit_of_mem_digits
  length_places := by
    rw [List.length_drop]
    omega
  value := by
    rw [List.take_append_drop, ofDigits_digits, pow_exponent_of_neg h, Nat.mul_one]

theorem spells_zeros_before {d : Decimal} (h : d.exponent < 0)
    (hplaces : d.digits.length ≤ (-d.exponent).toNat) :
    Spells d ['0'] (List.replicate ((-d.exponent).toNat - d.digits.length) '0' ++ d.digits) where
  whole_ne_nil := List.cons_ne_nil _ _
  all_digits c hc := by
    rcases List.mem_append.1 hc with hzero | hrest
    · rw [List.mem_singleton.1 hzero]
      rfl
    · exact (List.mem_append.1 hrest).elim isDigit_of_mem_zeros isDigit_of_mem_digits
  length_places := by
    rw [List.length_append, List.length_replicate]
    omega
  value := by
    have hzero : ofDigits 0 ['0'] = 0 := rfl
    rw [ofDigits_append, hzero, ofDigits_append, ofDigits_replicate_zero, Nat.zero_mul,
      ofDigits_digits, pow_exponent_of_neg h, Nat.mul_one]

/-- The number that is written positionally is the decimal. -/
theorem exists_positional (d : Decimal) :
    ∃ whole places, Spells d whole places ∧
      d.positional = whole ++ (if places = [] then [] else '.' :: places) := by
  by_cases h : 0 ≤ d.exponent
  · refine ⟨_, _, spells_zeros_behind h, ?_⟩
    rw [if_pos rfl, List.append_nil]
    exact if_pos h
  have hneg : d.exponent < 0 := Int.not_le.1 h
  have hpoint {places : List Char} (hlength : places.length = (-d.exponent).toNat) :
      (if places = [] then [] else '.' :: places) = '.' :: places := by
    refine if_neg (fun hnil => ?_)
    rw [hnil, List.length_nil] at hlength
    omega
  by_cases hplaces : (-d.exponent).toNat < d.digits.length
  · have hspells := spells_cut hneg hplaces
    refine ⟨_, _, hspells, ?_⟩
    rw [hpoint hspells.length_places]
    simp only [positional, if_neg h, if_pos hplaces]
  · have hspells := spells_zeros_before hneg (Nat.not_lt.1 hplaces)
    refine ⟨_, _, hspells, ?_⟩
    rw [hpoint hspells.length_places]
    simp only [positional, if_neg h, if_neg hplaces, List.cons_append, List.nil_append]

end Decimal
end Stencil
