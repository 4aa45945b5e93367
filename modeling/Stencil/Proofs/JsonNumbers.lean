import Stencil.Json.Token
import Stencil.Proofs.Digits
import Stencil.Value.Json

/-!
# Numbers in JSON

A number is an int if it is written without fraction and exponent, lies within 64 signed bits
and is no zero with a sign; every other number is a double.  The leading digits of a whole
part are all of them as long as they fit into 64 bits, and from there on they stay full.

An int that is written in digits is read back: its digits do not begin with a needless zero,
and they end where no digit, point or exponent follows.

**Results.**
* `Leading.ofWhole_eq`, `Leading.isFull_ofWhole_iff`: what the leading digits are.
* `Numeral.asInt?_of_value?`: which numbers are ints, and which ints they are.
* `Token.first?_intText`: an int is read back from its digits.
-/

namespace Stencil
namespace Json

/-- The bounds of 64 bits without and with a sign. -/
theorem powers_eq :
    Nat.pow 2 64 = 18446744073709551616 ∧ Nat.pow 2 63 = 9223372036854775808 :=
  ⟨rfl, rfl⟩

/-! ## Leading digits -/

namespace Leading

/-- A digit that still fits is kept. -/
theorem pushWhole_of_lt {n : Nat} {c : Char}
    (h : 10 * n + (c.toNat - '0'.toNat) < Nat.pow 2 64) :
    pushWhole ⟨n, 0, false⟩ c = ⟨10 * n + (c.toNat - '0'.toNat), 0, false⟩ := by
  have hfits : ¬ (false || decide (10 * n + (c.toNat - '0'.toNat) ≥ Nat.pow 2 64)) = true := by
    simpa using h
  exact if_neg hfits

/-- A digit that does not fit fills the leading digits. -/
theorem isFull_pushWhole_of_le {n : Nat} {c : Char}
    (h : Nat.pow 2 64 ≤ 10 * n + (c.toNat - '0'.toNat)) :
    (pushWhole ⟨n, 0, false⟩ c).isFull = true := by
  have hfull : (false || decide (10 * n + (c.toNat - '0'.toNat) ≥ Nat.pow 2 64)) = true := by
    simpa using h
  exact congrArg isFull (if_pos hfull)

/-- Digits that fit into 64 bits are all kept. -/
theorem foldl_pushWhole {cs : List Char} {n : Nat}
    (h : Decimal.ofDigits n cs < Nat.pow 2 64) :
    cs.foldl pushWhole ⟨n, 0, false⟩ = ⟨Decimal.ofDigits n cs, 0, false⟩ := by
  induction cs generalizing n with
  | nil => rfl
  | cons c cs ih =>
      have hle := Decimal.le_ofDigits (10 * n + (c.toNat - '0'.toNat)) cs
      have hcons : Decimal.ofDigits n (c :: cs) =
          Decimal.ofDigits (10 * n + (c.toNat - '0'.toNat)) cs := rfl
      rw [hcons] at h ⊢
      rw [List.foldl_cons, pushWhole_of_lt (by omega)]
      exact ih h

/-- Leading digits that are full stay so. -/
theorem isFull_foldl_pushWhole (cs : List Char) {l : Leading} (h : l.isFull = true) :
    (cs.foldl pushWhole l).isFull = true := by
  induction cs generalizing l with
  | nil => exact h
  | cons c cs ih =>
      refine ih ?_
      simp [pushWhole, h]

/-- Digits that do not fit into 64 bits fill the leading digits. -/
theorem isFull_foldl_of_le {cs : List Char} {n : Nat} (hn : n < Nat.pow 2 64)
    (h : Nat.pow 2 64 ≤ Decimal.ofDigits n cs) :
    (cs.foldl pushWhole ⟨n, 0, false⟩).isFull = true := by
  induction cs generalizing n with
  | nil => exact absurd hn (Nat.not_lt.2 h)
  | cons c cs ih =>
      rw [List.foldl_cons]
      by_cases hfits : 10 * n + (c.toNat - '0'.toNat) < Nat.pow 2 64
      · rw [pushWhole_of_lt hfits]
        exact ih hfits h
      · exact isFull_foldl_pushWhole cs (isFull_pushWhole_of_le (by omega))

theorem ofWhole_eq {cs : List Char} (h : Decimal.ofDigits 0 cs < Nat.pow 2 64) :
    ofWhole cs = ⟨Decimal.ofDigits 0 cs, 0, false⟩ :=
  foldl_pushWhole h

/-- The digits of a whole part are full just if they do not fit into 64 bits. -/
theorem isFull_ofWhole_iff (cs : List Char) :
    (ofWhole cs).isFull = true ↔ Nat.pow 2 64 ≤ Decimal.ofDigits 0 cs := by
  by_cases h : Decimal.ofDigits 0 cs < Nat.pow 2 64
  · rw [ofWhole_eq h]
    constructor
    · intro hfull
      cases hfull
    · intro hle
      omega
  · have hle : Nat.pow 2 64 ≤ Decimal.ofDigits 0 cs := by omega
    exact ⟨fun _ => hle, fun _ => isFull_foldl_of_le (by decide) hle⟩

end Leading

/-! ## Which numbers are ints -/

namespace Numeral

/-- The whole part with its sign. -/
def toInt (n : Numeral) : Int :=
  if n.isNegative then -(Decimal.ofDigits 0 n.whole : Int) else Decimal.ofDigits 0 n.whole

/-- The int that is written, if it is one: a whole number within 64 signed bits that is no
zero with a sign. -/
def int? (n : Numeral) : Option Int64 :=
  if n.fraction = none ∧ n.exponent = none ∧ ¬ (n.isNegative = true ∧ n.toInt = 0) ∧
      -(Nat.pow 2 63 : Nat) ≤ n.toInt ∧ n.toInt < (Nat.pow 2 63 : Nat) then
    some (Int64.ofInt n.toInt)
  else none

/-- A whole number that fits into 64 bits. -/
theorem asInt?_integer (isNegative : Bool) {digits : List Char}
    (h : Decimal.ofDigits 0 digits < Nat.pow 2 64) :
    (integer isNegative (Decimal.ofDigits 0 digits)).asInt? =
      int? ⟨isNegative, digits, none, none⟩ := by
  have hpow := powers_eq
  rw [int?, toInt, integer]
  generalize Decimal.ofDigits 0 digits = m at h
  cases isNegative with
  | true =>
      simp only [if_true, true_and]
      by_cases hm : m = 0 ∨ m > Nat.pow 2 63
      · rw [if_pos hm, if_neg (by omega)]
        rfl
      · rw [if_neg hm, if_pos (by omega)]
        rfl
  | false =>
      have hval : m.toUInt64.toNat = m := Nat.mod_eq_of_lt h
      simp only [Bool.false_eq_true, if_false, false_and, not_false_eq_true, true_and,
        Number.asInt?, hval]
      by_cases hm : m < Nat.pow 2 63
      · rw [if_pos hm, if_pos (by omega), Int64.ofInt_eq_ofNat]
      · rw [if_neg hm, if_neg (by omega)]

/-- **Which numbers are ints.** -/
theorem asInt?_of_value? {n : Numeral} {x : Number} (h : n.value? = some x) :
    x.asInt? = n.int? := by
  obtain ⟨isNegative, whole, fraction, exponent⟩ := n
  have hfloat (f : Option Float) (hx : f.map .float = some x) : x.asInt? = none := by
    obtain ⟨g, -, rfl⟩ := Option.map_eq_some_iff.1 hx
    rfl
  cases fraction with
  | some cs =>
      rw [int?, if_neg (by simp)]
      exact hfloat _ h
  | none =>
      cases exponent with
      | some e =>
          rw [int?, if_neg (by simp)]
          exact hfloat _ h
      | none =>
          simp only [value?] at h
          split at h
          · next hfull =>
              -- the digits do not fit into 64 bits, so they are beyond every int
              have hle := (Leading.isFull_ofWhole_iff whole).1 hfull
              have hpow := powers_eq
              rw [hfloat _ h, int?, toInt, if_neg]
              cases isNegative with
              | true => simp only [if_true]; omega
              | false => simp only [Bool.false_eq_true, if_false]; omega
          · next hfull =>
              cases h
              have hlt : Decimal.ofDigits 0 whole < Nat.pow 2 64 := by
                rw [Leading.isFull_ofWhole_iff] at hfull
                omega
              rw [Leading.ofWhole_eq hlt]
              exact asInt?_integer isNegative hlt

end Numeral

/-! ## Ints in digits -/

/-- Whether a number may end before a text: it does not go on with a digit, a point or an
exponent. -/
def NumberEnds (rest : List Char) : Prop :=
  ∀ c ∈ rest.head?, c.isDigit = false ∧ c ≠ '.' ∧ c ≠ 'e' ∧ c ≠ 'E'

/-- Digits without a needless zero are read as a whole number. -/
theorem magnitude?_append {digits rest : List Char} (hne : digits ≠ [])
    (hdigits : ∀ c ∈ digits, c.isDigit = true)
    (hzero : digits.head? = some '0' → digits.length = 1) (hrest : NumberEnds rest)
    (isNegative : Bool) :
    magnitude? isNegative (digits ++ rest) = some (⟨isNegative, digits, none, none⟩, rest) := by
  have hstop : rest.takeWhile Char.isDigit = [] ∧ rest.dropWhile Char.isDigit = rest := by
    cases rest with
    | nil => exact ⟨rfl, rfl⟩
    | cons c cs =>
        have hc := (hrest c rfl).1
        simp [hc]
  have hfraction : fraction? rest = some (none, rest) := by
    unfold fraction?
    split
    · exact absurd rfl (hrest '.' rfl).2.1
    · rfl
  have hexponent : exponent? rest = some (none, rest) := by
    cases rest with
    | nil => rfl
    | cons c cs =>
        obtain ⟨-, -, he, hE⟩ := hrest c rfl
        simp [exponent?, he, hE]
  have hshape : ¬ (digits = [] ∨ (digits.head? = some '0' ∧ digits.length > 1)) := by
    rintro (h | ⟨hhead, hlong⟩)
    · exact hne h
    · have := hzero hhead
      omega
  simp only [magnitude?]
  rw [List.takeWhile_append_of_pos hdigits, List.dropWhile_append_of_pos hdigits, hstop.1,
    hstop.2, List.append_nil, if_neg hshape, hfraction, Option.bind_some, hexponent]
  rfl

/-- The digits of a number are read back. -/
theorem magnitude?_toDigits (n : Nat) {rest : List Char} (hrest : NumberEnds rest)
    (isNegative : Bool) :
    magnitude? isNegative (Nat.toDigits 10 n ++ rest) =
      some (⟨isNegative, Nat.toDigits 10 n, none, none⟩, rest) := by
  refine magnitude?_append Nat.toDigits_ne_nil
    (fun c hc => Nat.isDigit_of_mem_toDigits (by decide) (by decide) hc) ?_ hrest isNegative
  intro hhead
  by_cases hn : n = 0
  · rw [hn]
    rfl
  · exact absurd hhead (head_toDigits_ne hn)

theorem Number.asInt?_ofInt (n : Int64) : (Number.ofInt n).asInt? = some n := by
  have hlt := n.toInt_lt
  rw [Number.ofInt]
  split
  · rfl
  · next hnonneg =>
      have hpow := powers_eq
      have hval : n.toInt.toNat.toUInt64.toNat = n.toInt.toNat :=
        Nat.mod_eq_of_lt (by omega)
      rw [Number.asInt?, hval, if_pos (by omega), ← Int64.ofInt_eq_ofNat,
        Int.toNat_of_nonneg (by omega), Int64.ofInt_toInt]

/-- The digits of an int within its sign. -/
theorem integer_natAbs (n : Int64) :
    integer (decide (n.toInt < 0)) n.toInt.natAbs = Number.ofInt n := by
  have hle := n.le_toInt
  rw [integer, Number.ofInt]
  by_cases hneg : n.toInt < 0
  · have hpow := powers_eq
    have hint : -(n.toInt.natAbs : Int) = n.toInt := by omega
    simp only [hneg, decide_true, if_true]
    rw [if_neg (by omega), hint, Int64.ofInt_toInt]
  · have hnat : n.toInt.natAbs = n.toInt.toNat := by omega
    simp [hneg, hnat]

/-- The text of an int is its digits, behind a sign if it is negative. -/
theorem toList_intText (n : Int64) : (Value.intText n).toList =
    if n.toInt < 0 then '-' :: Nat.toDigits 10 n.toInt.natAbs
    else Nat.toDigits 10 n.toInt.natAbs := by
  rw [Value.intText, Int.toString_eq_repr, Int.repr_eq_if]
  by_cases hneg : n.toInt < 0
  · have hnat : (-n.toInt).toNat = n.toInt.natAbs := by omega
    have hminus : "-".toList = ['-'] := rfl
    rw [if_neg (by omega), if_pos hneg, hnat, String.toList_append, Nat.toList_repr, hminus]
    rfl
  · have hnat : n.toInt.toNat = n.toInt.natAbs := by omega
    rw [if_pos (by omega), if_neg hneg, hnat, Nat.toList_repr]

/-- The numeral of an int is read back. -/
theorem numeral?_intText (n : Int64) {rest : List Char} (hrest : NumberEnds rest) :
    numeral? ((Value.intText n).toList ++ rest) =
      some (⟨decide (n.toInt < 0), Nat.toDigits 10 n.toInt.natAbs, none, none⟩, rest) := by
  rw [toList_intText]
  by_cases hneg : n.toInt < 0
  · simp only [hneg, if_true, List.cons_append, decide_true]
    exact magnitude?_toDigits _ hrest true
  · simp only [hneg, if_false, decide_false]
    rw [← magnitude?_toDigits n.toInt.natAbs hrest false]
    unfold numeral?
    split
    · next cs heq =>
        -- digits do not begin with a sign
        obtain ⟨c, ds, hdigits, hc⟩ := exists_toDigits_eq n.toInt.natAbs
        rw [hdigits] at heq
        rw [(List.cons.inj heq).1] at hc
        cases hc
    · rfl

/-- The value of the numeral of an int. -/
theorem value?_intText (n : Int64) :
    Numeral.value? ⟨decide (n.toInt < 0), Nat.toDigits 10 n.toInt.natAbs, none, none⟩ =
      some (Number.ofInt n) := by
  have hle := n.le_toInt
  have hlt := n.toInt_lt
  have hdigits : Decimal.ofDigits 0 (Nat.toDigits 10 n.toInt.natAbs) = n.toInt.natAbs := by
    rw [ofDigits_eq, Nat.ofDigitChars_ten_toDigits]
  have hfits : Decimal.ofDigits 0 (Nat.toDigits 10 n.toInt.natAbs) < Nat.pow 2 64 := by
    have hpow := powers_eq
    omega
  simp only [Numeral.value?, Leading.ofWhole_eq hfits, hdigits, integer_natAbs,
    Bool.false_eq_true, if_false]

/-- An int begins with its sign or with a digit. -/
theorem exists_intText_eq (n : Int64) :
    ∃ c cs, (Value.intText n).toList = c :: cs ∧ (c = '-' ∨ c.isDigit = true) := by
  rw [toList_intText]
  by_cases hneg : n.toInt < 0
  · exact ⟨'-', _, by rw [if_pos hneg], Or.inl rfl⟩
  · obtain ⟨c, cs, hdigits, hc⟩ := exists_toDigits_eq n.toInt.natAbs
    exact ⟨c, cs, by rw [if_neg hneg, hdigits], Or.inr hc⟩

/-- A sign or a digit begins a number. -/
theorem Token.first?_number {c : Char} (h : c = '-' ∨ c.isDigit = true) (cs : List Char) :
    isSpace c = false ∧ Token.first? (c :: cs) = Token.number? (c :: cs) := by
  have hne (d : Char) (hd : d ≠ '-' ∧ d.isDigit = false) : c ≠ d := by
    rintro rfl
    rcases h with rfl | h
    · exact hd.1 rfl
    · rw [hd.2] at h
      cases h
  have hmark : ofChar? c = none := by
    rw [ofChar?, if_neg (hne '[' (by decide)), if_neg (hne ']' (by decide)),
      if_neg (hne '\x7b' (by decide)), if_neg (hne '\x7d' (by decide)),
      if_neg (hne ',' (by decide)), if_neg (hne ':' (by decide))]
  have hnumber : (c = '-' || c.isDigit) = true := by simpa using h
  constructor
  · simp [isSpace, hne ' ' (by decide), hne '\n' (by decide), hne '\t' (by decide),
      hne '\r' (by decide)]
  · rw [first?, hmark]
    simp only
    rw [if_neg (hne '"' (by decide)), if_pos hnumber]

/-- **An int is read back from its digits.** -/
theorem Token.first?_intText (n : Int64) {rest : List Char} (hrest : NumberEnds rest) :
    Token.first? ((Value.intText n).toList ++ rest) =
      some (.number (some (Number.ofInt n)), rest) := by
  have hnumber : Token.number? ((Value.intText n).toList ++ rest) =
      some (.number (some (Number.ofInt n)), rest) := by
    rw [Token.number?, numeral?_intText n hrest, Option.map_some, value?_intText]
  obtain ⟨c, cs, hcs, hc⟩ := exists_intText_eq n
  rw [hcs, List.cons_append] at hnumber ⊢
  rw [(first?_number hc _).2, hnumber]

end Json
end Stencil
