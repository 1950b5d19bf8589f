import Resolved.Lib.Bytes

/-!
# Groups of six bits

Three octets as four groups of six bits, and back.
-/

namespace Resolved.Lib

def sextet1 (p : UInt8) : UInt8 := p >>> 2

def sextet2 (p q : UInt8) : UInt8 := ((p &&& 0x03) <<< 4) ||| (q >>> 4)

def sextet3 (q r : UInt8) : UInt8 := ((q &&& 0x0f) <<< 2) ||| (r >>> 6)

def sextet4 (r : UInt8) : UInt8 := r &&& 0x3f

def octet1 (x y : UInt8) : UInt8 := (x <<< 2) ||| (y >>> 4)

def octet2 (y z : UInt8) : UInt8 := (y <<< 4) ||| (z >>> 2)

def octet3 (z w : UInt8) : UInt8 := (z <<< 6) ||| w

section
variable {p q r x y z w : UInt8}

theorem shiftLeft_or_toNat {high low shift : UInt8} (n : Nat) (same : shift.toNat = n) (few : n < 8)
    (small : low.toNat < 2 ^ n) :
    (high <<< shift ||| low).toNat = high.toNat % 2 ^ (8 - n) * 2 ^ n + low.toNat := by
  have cut : high.toNat * 2 ^ n % 2 ^ 8 = 2 ^ n * (high.toNat % 2 ^ (8 - n)) := by
    rw [Nat.mul_comm, ← Nat.mul_mod_mul_left, ← pow_add, Nat.add_sub_cancel' few.le]
  rw [UInt8.toNat_or, UInt8.toNat_shiftLeft, same, Nat.mod_eq_of_lt few, Nat.shiftLeft_eq, cut,
    ← Nat.two_pow_add_eq_or_of_lt small, Nat.mul_comm]

theorem sextet1_toNat : (sextet1 p).toNat = p.toNat / 4 := by
  simp [sextet1, Nat.shiftRight_eq_div_pow]

theorem sextet2_toNat : (sextet2 p q).toNat = p.toNat % 4 * 16 + q.toNat / 16 := by
  have cut := Nat.and_two_pow_sub_one_eq_mod p.toNat 2
  have low : (q >>> 4).toNat = q.toNat / 16 := by simp [Nat.shiftRight_eq_div_pow]
  have := q.toNat_lt
  rw [sextet2, shiftLeft_or_toNat 4 rfl (by decide) (by rw [low]; omega), low, UInt8.toNat_and]
  simp only [UInt8.reduceToNat, Nat.reducePow, Nat.reduceSub] at cut ⊢
  omega

theorem sextet3_toNat : (sextet3 q r).toNat = q.toNat % 16 * 4 + r.toNat / 64 := by
  have cut := Nat.and_two_pow_sub_one_eq_mod q.toNat 4
  have low : (r >>> 6).toNat = r.toNat / 64 := by simp [Nat.shiftRight_eq_div_pow]
  have := r.toNat_lt
  rw [sextet3, shiftLeft_or_toNat 2 rfl (by decide) (by rw [low]; omega), low, UInt8.toNat_and]
  simp only [UInt8.reduceToNat, Nat.reducePow, Nat.reduceSub] at cut ⊢
  omega

theorem sextet4_toNat : (sextet4 r).toNat = r.toNat % 64 := by
  simpa [sextet4] using Nat.and_two_pow_sub_one_eq_mod r.toNat 6

theorem octet1_toNat (small : y.toNat < 64) : (octet1 x y).toNat = x.toNat % 64 * 4 + y.toNat / 16 := by
  have low : (y >>> 4).toNat = y.toNat / 16 := by simp [Nat.shiftRight_eq_div_pow]
  rw [octet1, shiftLeft_or_toNat 2 rfl (by decide) (by rw [low]; omega), low]
  rfl

theorem octet2_toNat (small : z.toNat < 64) : (octet2 y z).toNat = y.toNat % 16 * 16 + z.toNat / 4 := by
  have low : (z >>> 2).toNat = z.toNat / 4 := by simp [Nat.shiftRight_eq_div_pow]
  rw [octet2, shiftLeft_or_toNat 4 rfl (by decide) (by rw [low]; omega), low]
  rfl

theorem octet3_toNat (small : w.toNat < 64) : (octet3 z w).toNat = z.toNat % 4 * 64 + w.toNat := by
  rw [octet3, shiftLeft_or_toNat 6 rfl (by decide) small]
  rfl

theorem sextets_lt (p q r : UInt8) : (sextet1 p).toNat < 64 ∧ (sextet2 p q).toNat < 64 ∧
    (sextet3 q r).toNat < 64 ∧ (sextet4 r).toNat < 64 := by
  have := p.toNat_lt
  have := q.toNat_lt
  have := r.toNat_lt
  rw [sextet1_toNat, sextet2_toNat, sextet3_toNat, sextet4_toNat]
  omega

theorem sextet1_octet1 (hx : x.toNat < 64) (hy : y.toNat < 64) : sextet1 (octet1 x y) = x := by
  rw [← UInt8.toNat_inj, sextet1_toNat, octet1_toNat hy]
  omega

theorem sextet2_octets (hy : y.toNat < 64) (hz : z.toNat < 64) : sextet2 (octet1 x y) (octet2 y z) = y := by
  rw [← UInt8.toNat_inj, sextet2_toNat, octet1_toNat hy, octet2_toNat hz]
  omega

theorem sextet3_octets (hz : z.toNat < 64) (hw : w.toNat < 64) : sextet3 (octet2 y z) (octet3 z w) = z := by
  rw [← UInt8.toNat_inj, sextet3_toNat, octet2_toNat hz, octet3_toNat hw]
  omega

theorem sextet4_octet3 (hw : w.toNat < 64) : sextet4 (octet3 z w) = w := by
  rw [← UInt8.toNat_inj, sextet4_toNat, octet3_toNat hw]
  omega

theorem octet1_eq_iff (hy : y.toNat < 64) : octet1 (sextet1 p) y = p ↔ y.toNat / 16 = p.toNat % 4 := by
  have := p.toNat_lt
  rw [← UInt8.toNat_inj, octet1_toNat hy, sextet1_toNat]
  omega

theorem octet2_eq_iff (hz : z.toNat < 64) : octet2 (sextet2 p q) z = q ↔ z.toNat / 4 = q.toNat % 16 := by
  have := q.toNat_lt
  rw [← UInt8.toNat_inj, octet2_toNat hz, sextet2_toNat]
  omega

theorem octet1_sextets : octet1 (sextet1 p) (sextet2 p q) = p := by
  have := q.toNat_lt
  rw [octet1_eq_iff (sextets_lt p q 0).2.1, sextet2_toNat]
  omega

theorem octet2_sextets : octet2 (sextet2 p q) (sextet3 q r) = q := by
  have := r.toNat_lt
  rw [octet2_eq_iff (sextets_lt p q r).2.2.1, sextet3_toNat]
  omega

theorem octet3_sextets : octet3 (sextet3 q r) (sextet4 r) = r := by
  have := r.toNat_lt
  rw [← UInt8.toNat_inj, octet3_toNat (sextets_lt 0 q r).2.2.2, sextet3_toNat, sextet4_toNat]
  omega

end

end Resolved.Lib
