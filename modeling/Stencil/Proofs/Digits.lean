import Stencil.Decimal.Reader

/-!
# Natural numbers in digits

A natural number is written in its decimal digits, of which the first is zero only for zero
itself, and it is read back from them.

**Results.**
* `Decimal.natural?_ten`: which texts are numbers in digits, and their values.
* `natural?_toString`: a number is read back from its digits.
* `head_toDigits_ne`: no number but zero begins with the digit zero.
* `Decimal.le_ofDigits`: digits do not make a number smaller.
-/

namespace Stencil

namespace Decimal

/-- Digits are ten characters in a row. -/
theorem toNat_of_isDigit {c : Char} (h : c.isDigit = true) :
    48 ≤ c.toNat ∧ c.toNat ≤ 57 := by
  simp only [Char.isDigit, Bool.and_eq_true, decide_eq_true_eq, ge_iff_le,
    UInt32.le_iff_toNat_le] at h
  exact h

theorem digitIn?_ten (c : Char) :
    digitIn? 10 c = if c.isDigit then some (c.toNat - '0'.toNat) else none := by
  unfold digitIn? digitValue?
  by_cases h : c.isDigit = true
  · obtain ⟨_, hle⟩ := toNat_of_isDigit h
    have hlt : c.toNat - '0'.toNat < 10 := by
      have hzero : '0'.toNat = 48 := rfl
      omega
    rw [if_pos h, if_pos h]
    exact Option.filter_some_pos (decide_eq_true hlt)
  · -- the letters of higher bases are ten or more
    rw [if_neg h, if_neg h]
    split
    · simp
    · split
      · simp
      · rfl

theorem foldlM_digitIn?_ten (cs : List Char) (acc : Nat) :
    cs.foldlM (fun n c => (digitIn? 10 c).map (10 * n + ·)) acc =
      if cs.all Char.isDigit then some (ofDigits acc cs) else none := by
  induction cs generalizing acc with
  | nil => rfl
  | cons c cs ih =>
      rw [List.foldlM_cons, digitIn?_ten]
      by_cases h : c.isDigit = true
      · rw [if_pos h]
        refine (ih _).trans ?_
        rw [List.all_cons, h]
        rfl
      · simp [h]

/-- A number in digits is a run of digits that is not empty. -/
theorem natural?_ten (cs : List Char) :
    natural? 10 cs =
      if cs ≠ [] ∧ cs.all Char.isDigit = true then some (ofDigits 0 cs) else none := by
  unfold natural?
  by_cases h : cs = []
  · simp [h]
  · rw [if_neg h, foldlM_digitIn?_ten]
    simp [h]

end Decimal

theorem ofDigits_eq (acc : Nat) (cs : List Char) :
    Decimal.ofDigits acc cs = Nat.ofDigitChars 10 cs acc := by
  rw [Nat.ofDigitChars_eq_foldl]
  rfl

theorem all_isDigit_toString (n : Nat) : (toString n).toList.all Char.isDigit = true := by
  rw [Nat.toString_eq_ofList_toDigits, String.toList_ofList, List.all_eq_true]
  exact fun c hc => Nat.isDigit_of_mem_toDigits (by decide) (by decide) hc

theorem toString_toList_ne_nil (n : Nat) : (toString n).toList ≠ [] := by
  rw [Nat.toString_eq_ofList_toDigits, String.toList_ofList]
  exact Nat.toDigits_ne_nil

/-- A number is read back from its digits. -/
theorem natural?_toString (n : Nat) : Decimal.natural? 10 (toString n).toList = some n := by
  rw [Decimal.natural?_ten, if_pos ⟨toString_toList_ne_nil n, all_isDigit_toString n⟩,
    ofDigits_eq, Nat.toString_eq_ofList_toDigits, String.toList_ofList,
    Nat.ofDigitChars_ten_toDigits]

/-- The text of a number begins with a digit. -/
theorem exists_toDigits_eq (n : Nat) :
    ∃ c cs, Nat.toDigits 10 n = c :: cs ∧ c.isDigit = true := by
  cases hdigits : Nat.toDigits 10 n with
  | nil => exact absurd hdigits Nat.toDigits_ne_nil
  | cons c cs =>
      have hmem : c ∈ Nat.toDigits 10 n := by simp [hdigits]
      exact ⟨c, cs, rfl, Nat.isDigit_of_mem_toDigits (by decide) (by decide) hmem⟩

/-- No number but zero begins with the digit zero. -/
theorem head_toDigits_ne {n : Nat} (h : n ≠ 0) : (Nat.toDigits 10 n).head? ≠ some '0' := by
  induction n using Nat.strongRecOn with
  | _ n ih =>
      by_cases hlt : n < 10
      · rw [Nat.toDigits_of_lt_base hlt, List.head?_cons]
        intro hzero
        exact h (Nat.digitChar_eq_zero.1 (Option.some.inj hzero))
      · have hten : 10 ≤ n := by omega
        have hhead := ih (n / 10) (by omega) (by omega)
        rw [Nat.toDigits_of_base_le (by decide) hten, List.head?_append]
        cases hdigits : Nat.toDigits 10 (n / 10) with
        | nil => exact absurd hdigits Nat.toDigits_ne_nil
        | cons c cs =>
            rw [hdigits] at hhead
            exact hhead

/-- Digits do not make a number smaller. -/
theorem Decimal.le_ofDigits (n : Nat) (cs : List Char) : n ≤ ofDigits n cs := by
  induction cs generalizing n with
  | nil => exact Nat.le_refl n
  | cons c cs ih =>
      have hrest := ih (10 * n + (c.toNat - '0'.toNat))
      have hcons : ofDigits n (c :: cs) = ofDigits (10 * n + (c.toNat - '0'.toNat)) cs := rfl
      omega

end Stencil
