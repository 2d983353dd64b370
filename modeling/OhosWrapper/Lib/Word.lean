import Mathlib.Data.Nat.Bitwise

/-!
# Words made of two halves

A 64-bit word is made of two 32-bit words by a shift and an or, and taken apart again by shifts
and casts that drop the upper bits. A field of a word is selected by a mask and a shift.

**Halves.** `upper_pack` and `lower_pack` take the halves back out of a word, so words are the same
exactly when both halves are (`pack_inj`).
-/

namespace Word

/-- The word with the given upper and lower half. -/
def pack (hi lo : UInt32) : UInt64 := (hi.toUInt64 <<< 32) ||| lo.toUInt64

theorem toNat_pack (hi lo : UInt32) : (pack hi lo).toNat = hi.toNat * 2 ^ 32 + lo.toNat := by
  have hhi := hi.toNat_lt
  have hshift : (hi.toUInt64 <<< 32).toNat = hi.toNat <<< 32 := by
    rw [UInt64.toNat_shiftLeft, UInt32.toNat_toUInt64, Nat.mod_eq_of_lt]
    · rfl
    · show hi.toNat <<< 32 < 2 ^ 64
      rw [Nat.shiftLeft_eq]
      omega
  rw [pack, UInt64.toNat_or, hshift, UInt32.toNat_toUInt64,
    ← Nat.shiftLeft_add_eq_or_of_lt lo.toNat_lt, Nat.shiftLeft_eq]

theorem toNat_shiftRight (w : UInt64) {shift : UInt64} {k : ℕ} (hshift : shift.toNat = k)
    (hk : k < 64) : (w >>> shift).toNat = w.toNat / 2 ^ k := by
  rw [UInt64.toNat_shiftRight, hshift, Nat.mod_eq_of_lt hk, Nat.shiftRight_eq_div_pow]

theorem toNat_upper (w : UInt64) : (w >>> 32).toNat = w.toNat / 2 ^ 32 :=
  toNat_shiftRight w rfl (by decide)

theorem toNat_lower (w : UInt64) : w.toUInt32.toNat = w.toNat % 2 ^ 32 := UInt64.toNat_toUInt32 w

/-- The field of `width` bits above the lowest `k`. -/
theorem toNat_field (w : UInt64) {mask shift : UInt64} {k width : ℕ} (hshift : shift.toNat = k)
    (hk : k < 64) (hmask : mask.toNat >>> k = 2 ^ width - 1) :
    ((w &&& mask) >>> shift).toNat = w.toNat / 2 ^ k % 2 ^ width := by
  rw [toNat_shiftRight _ hshift hk, UInt64.toNat_and, ← Nat.shiftRight_eq_div_pow,
    Nat.shiftRight_and_distrib, hmask, Nat.and_two_pow_sub_one_eq_mod, Nat.shiftRight_eq_div_pow]

theorem upper_pack (hi lo : UInt32) : pack hi lo >>> 32 = hi.toUInt64 := by
  have hlo := lo.toNat_lt
  rw [← UInt64.toNat_inj, toNat_upper, toNat_pack, UInt32.toNat_toUInt64]
  omega

theorem lower_pack (hi lo : UInt32) : (pack hi lo).toUInt32 = lo := by
  have hlo := lo.toNat_lt
  rw [← UInt32.toNat_inj, toNat_lower, toNat_pack]
  omega

theorem pack_inj {hi lo hi' lo' : UInt32} : pack hi lo = pack hi' lo' ↔ hi = hi' ∧ lo = lo' := by
  have hlo := lo.toNat_lt
  have hlo' := lo'.toNat_lt
  rw [← UInt64.toNat_inj, ← UInt32.toNat_inj, ← UInt32.toNat_inj, toNat_pack, toNat_pack]
  omega

end Word
