import Stencil.Decimal.Shortest

/-!
# Doubles as sign, significand and exponent

A double is not a number, infinite, or a sign with `m * 2 ^ q`.

**Results.**
* `Binary.finite_of_ofBits`: the bounds of significands and exponents.
* `toBits_eq_of_decode_eq`: a double is determined by its parts, unless it is not a number.
-/

namespace Stencil
namespace Decimal

/-- What the bits of a double stand for. -/
inductive Binary where
  | nan
  | infinite (negative : Bool)
  | finite (negative : Bool) (m : Nat) (q : Int) (narrow : Bool)
  deriving DecidableEq

/-- The parts of 64 bits: one for the sign, eleven for the exponent and 52 for the fraction. -/
def Binary.ofBits (bits : Nat) : Binary :=
  let negative := bits / Nat.pow 2 63 == 1
  let power : Nat := bits / Nat.pow 2 52 % Nat.pow 2 11
  let fraction : Nat := bits % Nat.pow 2 52
  if power = 2047 then if fraction = 0 then .infinite negative else .nan
  else if power = 0 then .finite negative fraction (-1074) false
  else
    .finite negative (Nat.pow 2 52 + fraction) ((power : Int) - 1075)
      (fraction == 0 && power != 1)

/-- A significand has 53 bits, and only the least one of them has shorter steps below. -/
theorem Binary.finite_of_ofBits {bits m : Nat} {negative narrow : Bool} {q : Int}
    (h : ofBits bits = .finite negative m q narrow) :
    m < Nat.pow 2 53 ∧ -1074 ≤ q ∧ q ≤ 971 ∧ (narrow = true → m = Nat.pow 2 52) := by
  have hfraction : bits % Nat.pow 2 52 < Nat.pow 2 52 := Nat.mod_lt _ (by decide)
  have hpower : bits / Nat.pow 2 52 % Nat.pow 2 11 < Nat.pow 2 11 := Nat.mod_lt _ (by decide)
  have h53 : Nat.pow 2 53 = 2 * Nat.pow 2 52 := rfl
  have h11 : Nat.pow 2 11 = 2048 := rfl
  simp only [ofBits] at h
  split at h
  · split at h <;> cases h
  split at h
  · cases h
    exact ⟨by omega, by omega, by omega, fun hnarrow => by cases hnarrow⟩
  · cases h
    refine ⟨by omega, by omega, by omega, fun hnarrow => ?_⟩
    simp only [Bool.and_eq_true, beq_iff_eq] at hnarrow
    omega

/-- The sign, the power and the fraction make up the bits. -/
theorem Binary.eq_of_parts_eq {a b : Nat} (ha : a < Nat.pow 2 64) (hb : b < Nat.pow 2 64)
    (hsign : (a / Nat.pow 2 63 == 1) = (b / Nat.pow 2 63 == 1))
    (hpower : a / Nat.pow 2 52 % Nat.pow 2 11 = b / Nat.pow 2 52 % Nat.pow 2 11)
    (hfraction : a % Nat.pow 2 52 = b % Nat.pow 2 52) : a = b := by
  have h64 : Nat.pow 2 64 = 18446744073709551616 := rfl
  have h63 : Nat.pow 2 63 = 9223372036854775808 := rfl
  have h52 : Nat.pow 2 52 = 4503599627370496 := rfl
  have h11 : Nat.pow 2 11 = 2048 := rfl
  rw [Bool.eq_iff_iff, beq_iff_eq, beq_iff_eq] at hsign
  rw [h64] at ha hb
  rw [h63] at hsign
  rw [h52] at hpower hfraction
  rw [h11] at hpower
  omega

/-- Bits are determined by the double that they stand for, if it is a number. -/
theorem Binary.eq_of_ofBits_eq {a b : Nat} (ha : a < Nat.pow 2 64) (hb : b < Nat.pow 2 64)
    (h : ofBits a = ofBits b) (hnan : ofBits a ≠ .nan) : a = b := by
  have hfa : a % Nat.pow 2 52 < Nat.pow 2 52 := Nat.mod_lt _ (by decide)
  have hfb : b % Nat.pow 2 52 < Nat.pow 2 52 := Nat.mod_lt _ (by decide)
  simp only [ofBits] at h hnan
  split at h
  · next hpa =>
      split at h
      · next hza =>
          split at h
          · next hpb =>
              split at h
              · next hzb =>
                  injection h with hsign
                  exact eq_of_parts_eq ha hb hsign (hpa.trans hpb.symm) (hza.trans hzb.symm)
              · cases h
          · split at h <;> cases h
      · next hza =>
          rw [if_pos hpa, if_neg hza] at hnan
          exact absurd rfl hnan
  split at h
  · next hpa =>
      split at h
      · split at h <;> cases h
      split at h
      · next hpb =>
          injection h with hsign hm
          exact eq_of_parts_eq ha hb hsign (hpa.trans hpb.symm) hm
      · injection h with _ hm
        omega
  · split at h
    · split at h <;> cases h
    split at h
    · injection h with _ hm
      omega
    · injection h with hsign hm hq
      exact eq_of_parts_eq ha hb hsign (by omega) (by omega)

/-- The parts of a double. -/
def decode (f : Float) : Binary :=
  Binary.ofBits f.toBits.toNat

theorem toBits_eq_of_decode_eq {f g : Float} (h : decode f = decode g) (hnan : decode f ≠ .nan) :
    f.toBits = g.toBits :=
  UInt64.toNat_inj.1 (Binary.eq_of_ofBits_eq f.toBits.toNat_lt g.toBits.toNat_lt h hnan)

example : decode 1 = .finite false (Nat.pow 2 52) (-52) true := by
  decide +kernel

end Decimal
end Stencil
