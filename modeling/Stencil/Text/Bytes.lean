import Mathlib.Data.List.Lex
import Mathlib.Data.String.Basic

/-!
# Texts as bytes

A text is stored as its bytes in UTF-8.  The first byte of a character says how many there are,
and more bytes stand for larger code points; among as many bytes the first one that differs
decides.  So texts are in the order of their code points just if they are in that of their
bytes.

**Results.**
* `continuation_append_lt`: the bytes behind the first are ordered as their bits.
* `encode_append_lt`: the bytes of a character decide before those behind it.
* `bytes_lt_iff`: texts are ordered as their bytes.
-/

namespace Stencil
namespace Text

/-- The bytes of a text. -/
def bytes (s : String) : List UInt8 :=
  s.toUTF8.data.toList

theorem bytes_eq (s : String) : bytes s = s.toList.flatMap String.utf8EncodeChar := by
  rw [bytes, String.toUTF8, ← String.utf8Encode_toList, List.utf8Encode,
    List.toList_data_toByteArray]

/-! ## Characters -/

/-- The first byte that differs decides. -/
theorem byte_lt {x y : Nat} (hy : y < 256) (h : x < y) (as bs : List UInt8) :
    UInt8.ofNat x :: as < UInt8.ofNat y :: bs := by
  have hlt : UInt8.ofNat x < UInt8.ofNat y :=
    (UInt8.ofNat_lt_iff_lt (Nat.lt_trans h hy) hy).2 h
  exact List.cons_lt_cons_iff.2 (Or.inl hlt)

/-- Behind a byte that is the same the rest decides. -/
theorem byte_eq {x y : Nat} (h : x = y) {as bs : List UInt8} (hrest : as < bs) :
    UInt8.ofNat x :: as < UInt8.ofNat y :: bs :=
  List.cons_lt_cons_iff.2 (Or.inr ⟨congrArg UInt8.ofNat h, hrest⟩)

/-- The bytes of a character behind its first: six bits each, the highest first. -/
def continuation : Nat → Nat → List UInt8
  | 0, _ => []
  | k + 1, v => UInt8.ofNat (v / Nat.pow 64 k % 64 + 128) :: continuation k v

/-- As many bytes are ordered as the bits in them. -/
theorem continuation_append_lt {k v w : Nat} (h : v % Nat.pow 64 k < w % Nat.pow 64 k)
    (as bs : List UInt8) : continuation k v ++ as < continuation k w ++ bs := by
  induction k with
  | zero =>
      rw [show Nat.pow 64 0 = 1 from rfl, Nat.mod_one, Nat.mod_one] at h
      exact absurd h (Nat.lt_irrefl 0)
  | succ k ih =>
      have hsplit (n : Nat) : n % Nat.pow 64 (k + 1) =
          n % Nat.pow 64 k + Nat.pow 64 k * (n / Nat.pow 64 k % 64) := Nat.mod_pow_succ
      have hlow : w % Nat.pow 64 k < Nat.pow 64 k := Nat.mod_lt _ (Nat.pow_pos (by decide))
      rw [hsplit, hsplit] at h
      rw [continuation, continuation, List.cons_append, List.cons_append]
      by_cases hdigit : v / Nat.pow 64 k % 64 = w / Nat.pow 64 k % 64
      · rw [hdigit] at h
        exact byte_eq (by rw [hdigit]) (ih (Nat.lt_of_add_lt_add_right h))
      · -- the higher bits cannot be more, since the lower ones make up for less than one
        have hle : v / Nat.pow 64 k % 64 < w / Nat.pow 64 k % 64 + 1 := by
          refine Nat.lt_of_mul_lt_mul_left (a := Nat.pow 64 k) ?_
          rw [Nat.mul_add, Nat.mul_one]
          omega
        exact byte_lt (by omega) (by omega) _ _

/-- A first byte with all the higher bits decides before the bytes behind it. -/
theorem lead_append_lt {k p v w x y : Nat} (hp : Nat.pow 64 k = p) (hy : y < 256) (h : v < w)
    (hlead : x < y ∨ x = y ∧ v / p = w / p) (as bs : List UInt8) :
    UInt8.ofNat x :: continuation k v ++ as < UInt8.ofNat y :: continuation k w ++ bs := by
  rcases hlead with hlt | ⟨heq, hhigh⟩
  · exact byte_lt hy hlt _ _
  · refine byte_eq heq (continuation_append_lt ?_ as bs)
    have hv := Nat.div_add_mod v p
    have hw := Nat.div_add_mod w p
    rw [hhigh] at hv
    rw [hp]
    omega

/-- How a code point is written. -/
theorem encode_eq (c : Char) : String.utf8EncodeChar c =
    if c.val.toNat ≤ 127 then UInt8.ofNat c.val.toNat :: continuation 0 c.val.toNat
    else if c.val.toNat ≤ 2047 then
      UInt8.ofNat (c.val.toNat / 64 % 32 + 192) :: continuation 1 c.val.toNat
    else if c.val.toNat ≤ 65535 then
      UInt8.ofNat (c.val.toNat / 4096 % 16 + 224) :: continuation 2 c.val.toNat
    else UInt8.ofNat (c.val.toNat / 262144 % 8 + 240) :: continuation 3 c.val.toNat := by
  simp [String.utf8EncodeChar, continuation]

/-- **The bytes of a character decide before those behind it.** -/
theorem encode_append_lt {c d : Char} (h : c < d) (as bs : List UInt8) :
    String.utf8EncodeChar c ++ as < String.utf8EncodeChar d ++ bs := by
  have hlt : c.val.toNat < d.val.toNat := UInt32.lt_iff_toNat_lt.1 h
  have hmax : d.val.toNat < 1114112 := by
    rcases d.valid with hlow | ⟨_, hhigh⟩
    · exact Nat.lt_trans hlow (by decide)
    · exact hhigh
  rw [encode_eq, encode_eq]
  generalize c.val.toNat = v at hlt
  generalize d.val.toNat = w at hlt hmax
  -- where the character behind has more bytes, its first byte tells
  by_cases hv₁ : v ≤ 127
  · rw [if_pos hv₁]
    split
    · exact lead_append_lt (p := 1) rfl (by omega) hlt (by omega) as bs
    split
    · exact byte_lt (by omega) (by omega) _ _
    split
    · exact byte_lt (by omega) (by omega) _ _
    · exact byte_lt (by omega) (by omega) _ _
  have hw₁ : ¬ w ≤ 127 := by omega
  rw [if_neg hv₁, if_neg hw₁]
  by_cases hv₂ : v ≤ 2047
  · rw [if_pos hv₂]
    split
    · exact lead_append_lt (p := 64) rfl (by omega) hlt (by omega) as bs
    split
    · exact byte_lt (by omega) (by omega) _ _
    · exact byte_lt (by omega) (by omega) _ _
  have hw₂ : ¬ w ≤ 2047 := by omega
  rw [if_neg hv₂, if_neg hw₂]
  by_cases hv₃ : v ≤ 65535
  · rw [if_pos hv₃]
    split
    · exact lead_append_lt (p := 4096) rfl (by omega) hlt (by omega) as bs
    · exact byte_lt (by omega) (by omega) _ _
  have hw₃ : ¬ w ≤ 65535 := by omega
  rw [if_neg hv₃, if_neg hw₃]
  exact lead_append_lt (p := 262144) rfl (by omega) hlt (by omega) as bs

theorem encode_ne_nil (c : Char) : String.utf8EncodeChar c ≠ [] := by
  intro h
  have hlen := congrArg List.length h
  rw [String.length_utf8EncodeChar] at hlen
  exact absurd hlen (Nat.ne_of_gt c.utf8Size_pos)

/-! ## Texts -/

theorem flatMap_encode_lt {as bs : List Char} (h : as < bs) :
    as.flatMap String.utf8EncodeChar < bs.flatMap String.utf8EncodeChar := by
  induction as generalizing bs with
  | nil =>
      cases bs with
      | nil => cases h
      | cons d bs =>
          rw [List.flatMap_cons]
          cases hd : String.utf8EncodeChar d with
          | nil => exact absurd hd (encode_ne_nil d)
          | cons x xs => exact List.nil_lt_cons _ _
  | cons c as ih =>
      cases bs with
      | nil => cases h
      | cons d bs =>
          rw [List.flatMap_cons, List.flatMap_cons]
          rcases List.cons_lt_cons_iff.1 h with hcd | ⟨rfl, hrest⟩
          · exact encode_append_lt hcd _ _
          · exact List.Lex.append_left _ (ih hrest) _

theorem bytes_lt_of_lt {a b : String} (h : a < b) : bytes a < bytes b := by
  rw [bytes_eq, bytes_eq]
  exact flatMap_encode_lt (String.lt_iff.1 h)

/-- **Texts are ordered as their bytes.** -/
theorem bytes_lt_iff {a b : String} : bytes a < bytes b ↔ a < b := by
  refine ⟨fun h => ?_, bytes_lt_of_lt⟩
  by_cases hab : a < b
  · exact hab
  -- otherwise the texts are the same or in the other order, and so are their bytes
  by_cases hba : b < a
  · exact absurd (bytes_lt_of_lt hba) (List.lt_asymm h)
  · rw [String.le_antisymm (String.not_lt.1 hba) (String.not_lt.1 hab)] at h
    exact absurd h (List.lt_irrefl _)

end Text
end Stencil
