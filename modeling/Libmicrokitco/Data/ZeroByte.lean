import Libmicrokitco.Isa.Doubleword

/-!
# Searching a doubleword for a byte

Subtracting one from every byte of a word borrows at its lowest zero byte and at
none before. The test for bytes whose highest bit appears that way therefore
misses no zero byte.
-/

namespace Libmicrokitco.Isa

/-- The byte 1 in each of `n` bytes. -/
def onesOf : Nat → Nat
  | 0 => 0
  | n + 1 => 256 * onesOf n + 1

theorem onesOf_lt (n : Nat) : onesOf n < 256 ^ n := by
  induction n with
  | zero => simp [onesOf]
  | succ n ih =>
    rw [onesOf, pow_succ]
    omega

section Peeling

variable {n q r : Nat} (byte : r < 256)

include byte

/-- Peeling the lowest byte off a number modulo a power of 256. -/
theorem byte_add_mod : (256 * q + r) % 256 ^ (n + 1) = 256 * (q % 256 ^ n) + r := by
  rw [pow_succ', Nat.mod_mul, Nat.mul_add_mod, Nat.mod_eq_of_lt byte, Nat.mul_add_div (by decide),
    Nat.div_eq_of_lt byte, Nat.add_zero, Nat.add_comm]

theorem byte_add_div (i : Nat) : (256 * q + r) / 256 ^ (i + 1) = q / 256 ^ i := by
  rw [pow_succ', ← Nat.div_div_eq_div_mul, Nat.mul_add_div (by decide), Nat.div_eq_of_lt byte,
    Nat.add_zero]

theorem testBit_byte_add (i : Nat) :
    (256 * q + r).testBit (8 * (i + 1) + 7) = q.testBit (8 * i + 7) := by
  rw [show 256 = 2 ^ 8 from rfl, Nat.testBit_two_pow_mul_add q byte, if_neg (by omega)]
  congr 1

theorem testBit_byte_add_low : (256 * q + r).testBit 7 = r.testBit 7 := by
  rw [show 256 = 2 ^ 8 from rfl, Nat.testBit_two_pow_mul_add q byte, if_pos (by decide)]

/-- A lowest byte that is not zero does not borrow. -/
theorem sub_ones_of_ne (nonzero : r ≠ 0) :
    (256 * q + r + (256 ^ (n + 1) - onesOf (n + 1))) % 256 ^ (n + 1) =
      256 * ((q + (256 ^ n - onesOf n)) % 256 ^ n) + (r - 1) := by
  have ones := onesOf_lt n
  rw [← byte_add_mod (show r - 1 < 256 by omega), onesOf, pow_succ']
  congr 1
  omega

end Peeling

/-- A lowest byte that is zero becomes 255. -/
theorem sub_ones_of_zero (n q : Nat) :
    (256 * q + 0 + (256 ^ (n + 1) - onesOf (n + 1))) % 256 ^ (n + 1) =
      256 * ((q + (256 ^ n - onesOf n) - 1) % 256 ^ n) + 255 := by
  have ones := onesOf_lt n
  rw [← byte_add_mod (by decide), onesOf, pow_succ']
  congr 1
  omega

/-- If the highest bit of no byte appears on subtracting one from every byte,
there is no zero byte. -/
theorem byte_ne_zero_of_no_borrow {n x : Nat}
    (stays : ∀ i < n, ((x + (256 ^ n - onesOf n)) % 256 ^ n).testBit (8 * i + 7) = true →
      x.testBit (8 * i + 7) = true) {i : Nat} (within : i < n) : x / 256 ^ i % 256 ≠ 0 := by
  induction n generalizing x i with
  | zero => exact absurd within (Nat.not_lt_zero i)
  | succ n ih =>
    obtain ⟨q, r, byte, rfl⟩ : ∃ q r, r < 256 ∧ x = 256 * q + r :=
      ⟨x / 256, x % 256, Nat.mod_lt _ (by decide), (Nat.div_add_mod x 256).symm⟩
    have nonzero : r ≠ 0 := by
      rintro rfl
      have appears := stays 0 (Nat.succ_pos n)
      rw [sub_ones_of_zero, testBit_byte_add_low (by decide), testBit_byte_add_low (by decide)] at appears
      exact absurd (appears (by decide)) (by decide)
    cases i with
    | zero => simpa [Nat.mod_eq_of_lt byte] using nonzero
    | succ i =>
      rw [byte_add_div byte]
      apply ih _ (Nat.lt_of_succ_lt_succ within)
      intro j below appears
      have kept := stays (j + 1) (Nat.succ_lt_succ below)
      rw [sub_ones_of_ne byte nonzero, testBit_byte_add (by omega), testBit_byte_add byte] at kept
      exact kept appears

/-- A byte times one in every byte is that byte in every byte. -/
theorem onesOf_mul_div {n r i : Nat} (byte : r < 256) (within : i < n) :
    onesOf n * r / 256 ^ i % 256 = r := by
  induction n generalizing i with
  | zero => exact absurd within (Nat.not_lt_zero i)
  | succ n ih =>
    rw [onesOf, Nat.add_mul, Nat.one_mul, Nat.mul_assoc]
    cases i with
    | zero => rw [pow_zero, Nat.div_one, Nat.mul_add_mod, Nat.mod_eq_of_lt byte]
    | succ i =>
      rw [byte_add_div byte]
      exact ih (Nat.lt_of_succ_lt_succ within)

variable {x : BitVec 64} {index : Nat}

theorem toNat_byteOf : (byteOf x index).toNat = x.toNat / 256 ^ index % 256 := by
  rw [byteOf, BitVec.extractLsb'_toNat, Nat.shiftRight_eq_div_pow, pow_mul]
  rfl

/-- The test for a zero byte misses none. -/
theorem byteOf_ne_zero
    (clear : (x - 0x0101010101010101#64) &&& ~~~x &&& 0x8080808080808080#64 = 0#64)
    (within : index < 8) : byteOf x index ≠ 0#8 := by
  intro isZero
  have high : ∀ i < 8, (0x8080808080808080#64).getLsbD (8 * i + 7) = true := by decide
  refine byte_ne_zero_of_no_borrow (n := 8) (x := x.toNat) ?_ within ?_
  · intro i below appears
    have bit := congrArg (fun y => y.getLsbD (8 * i + 7)) clear
    have difference : (x - 0x0101010101010101#64).getLsbD (8 * i + 7) = true := by
      rw [BitVec.getLsbD, BitVec.toNat_sub, ← appears, Nat.add_comm]
      rfl
    simp only [BitVec.getLsbD_and, BitVec.getLsbD_not, high i below, difference] at bit
    simp at bit
    exact bit (by omega)
  · rw [← toNat_byteOf, isZero]
    rfl

theorem toNat_append_byte {w : Nat} (high : BitVec w) (low : BitVec 8) :
    (high ++ low).toNat = 256 * high.toNat + low.toNat := by
  rw [BitVec.toNat_append, ← Nat.shiftLeft_add_eq_or_of_lt low.isLt, Nat.shiftLeft_eq, Nat.mul_comm]

/-- The bytes of a load. -/
theorem byteOf_loadDouble (addr : BitVec 64) (memory : BitVec 64 → BitVec 8) (within : index < 8) :
    byteOf (loadDouble addr memory) index = memory (addr + BitVec.ofNat 64 index) := by
  have bytes : ∀ place, (memory place).toNat < 256 := fun place => (memory place).isLt
  have at0 := bytes (addr + 0#64)
  have at1 := bytes (addr + 1#64)
  have at2 := bytes (addr + 2#64)
  have at3 := bytes (addr + 3#64)
  have at4 := bytes (addr + 4#64)
  have at5 := bytes (addr + 5#64)
  have at6 := bytes (addr + 6#64)
  have at7 := bytes (addr + 7#64)
  apply BitVec.eq_of_toNat_eq
  simp only [toNat_byteOf, loadDouble, toNat_append_byte]
  obtain rfl | rfl | rfl | rfl | rfl | rfl | rfl | rfl : index = 0 ∨ index = 1 ∨ index = 2 ∨ index = 3 ∨
      index = 4 ∨ index = 5 ∨ index = 6 ∨ index = 7 := by omega
  all_goals omega

theorem byteOf_repeat (c : BitVec 8) (within : index < 8) :
    byteOf (0x0101010101010101#64 * c.setWidth 64) index = c := by
  have byte : c.toNat < 256 := c.isLt
  have product : (0x0101010101010101#64 * c.setWidth 64).toNat = onesOf 8 * c.toNat := by
    rw [BitVec.toNat_mul, BitVec.toNat_setWidth, Nat.mod_eq_of_lt (show c.toNat < 2 ^ 64 by omega)]
    change 0x0101010101010101 * c.toNat % 2 ^ 64 = 0x0101010101010101 * c.toNat
    omega
  apply BitVec.eq_of_toNat_eq
  rw [toNat_byteOf, product, onesOf_mul_div byte within]

/-- Words that differ from the repeated byte everywhere do not hold it. -/
theorem byteOf_ne_of_xor {c : BitVec 8}
    (differs : byteOf (x ^^^ 0x0101010101010101#64 * c.setWidth 64) index ≠ 0#8) (within : index < 8) :
    byteOf x index ≠ c := by
  intro same
  apply differs
  have split : byteOf (x ^^^ 0x0101010101010101#64 * c.setWidth 64) index =
      byteOf x index ^^^ byteOf (0x0101010101010101#64 * c.setWidth 64) index :=
    BitVec.extractLsb'_xor
  rw [split, same, byteOf_repeat c within, BitVec.xor_self]

end Libmicrokitco.Isa
