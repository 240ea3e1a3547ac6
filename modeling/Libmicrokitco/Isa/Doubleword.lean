import Mathlib.Data.BitVec

/-!
# Doublewords in byte-addressed memory

Little-endian loads and stores of 64 bits, and the two facts that reasoning
about them rests on: a load sees the last store to its own doubleword and no
store to a disjoint one. Addresses wrap around.
-/

namespace Libmicrokitco.Isa

/-- Byte `index` of a doubleword. -/
def byteOf (value : BitVec 64) (index : Nat) : BitVec 8 := value.extractLsb' (8 * index) 8

def storeDouble (addr value : BitVec 64) (memory : BitVec 64 → BitVec 8) :
    BitVec 64 → BitVec 8 :=
  fun place => if (place - addr).toNat < 8 then byteOf value (place - addr).toNat else memory place

def loadDouble (addr : BitVec 64) (memory : BitVec 64 → BitVec 8) : BitVec 64 :=
  memory (addr + 7#64) ++ memory (addr + 6#64) ++ memory (addr + 5#64) ++ memory (addr + 4#64) ++
    memory (addr + 3#64) ++ memory (addr + 2#64) ++ memory (addr + 1#64) ++ memory (addr + 0#64)

/-- Two doublewords that share no byte. -/
def Disjoint (left right : BitVec 64) : Prop :=
  8 ≤ (left - right).toNat ∧ 8 ≤ (right - left).toNat

variable {addr other value : BitVec 64} {memory changed : BitVec 64 → BitVec 8}

theorem storeDouble_of_outside {place : BitVec 64} (outside : 8 ≤ (place - addr).toNat) :
    storeDouble addr value memory place = memory place := by
  rw [storeDouble, if_neg (by omega)]

/-- A load reads its eight bytes only. -/
theorem loadDouble_congr (same : ∀ index : Nat, index < 8 →
    changed (addr + BitVec.ofNat 64 index) = memory (addr + BitVec.ofNat 64 index)) :
    loadDouble addr changed = loadDouble addr memory := by
  rw [loadDouble, same 7 (by omega), same 6 (by omega), same 5 (by omega), same 4 (by omega),
    same 3 (by omega), same 2 (by omega), same 1 (by omega), same 0 (by omega), loadDouble]

/-- Eight bytes in order are the doubleword they come from. -/
private theorem bytes_append :
    byteOf value 7 ++ byteOf value 6 ++ byteOf value 5 ++ byteOf value 4 ++ byteOf value 3 ++
      byteOf value 2 ++ byteOf value 1 ++ byteOf value 0 = value := by
  simp only [byteOf]
  rw [BitVec.extractLsb'_append_extractLsb'_eq_extractLsb' (by omega),
    BitVec.extractLsb'_append_extractLsb'_eq_extractLsb' (by omega),
    BitVec.extractLsb'_append_extractLsb'_eq_extractLsb' (by omega),
    BitVec.extractLsb'_append_extractLsb'_eq_extractLsb' (by omega),
    BitVec.extractLsb'_append_extractLsb'_eq_extractLsb' (by omega),
    BitVec.extractLsb'_append_extractLsb'_eq_extractLsb' (by omega),
    BitVec.extractLsb'_append_extractLsb'_eq_extractLsb' (by omega)]
  exact BitVec.extractLsb'_eq_self

private theorem offset_toNat {index : Nat} (bounded : index < 8) :
    (addr + BitVec.ofNat 64 index - addr).toNat = index := by
  rw [BitVec.add_comm, BitVec.add_sub_cancel, BitVec.toNat_ofNat]
  omega

/-- A load sees the store to its own doubleword. -/
@[simp] theorem loadDouble_storeDouble_self :
    loadDouble addr (storeDouble addr value memory) = value := by
  have stored : ∀ index : Nat, index < 8 →
      storeDouble addr value memory (addr + BitVec.ofNat 64 index) = byteOf value index := by
    intro index bounded
    rw [storeDouble, offset_toNat bounded, if_pos bounded]
  rw [loadDouble, stored 7 (by omega), stored 6 (by omega), stored 5 (by omega),
    stored 4 (by omega), stored 3 (by omega), stored 2 (by omega), stored 1 (by omega),
    stored 0 (by omega), bytes_append]

/-- A load sees no store to a disjoint doubleword. -/
theorem loadDouble_storeDouble_of_disjoint (disjoint : Disjoint addr other) :
    loadDouble addr (storeDouble other value memory) = loadDouble addr memory := by
  refine loadDouble_congr fun index bounded => storeDouble_of_outside ?_
  obtain ⟨above, below⟩ := disjoint
  have offset : (BitVec.ofNat 64 index).toNat = index := by
    rw [BitVec.toNat_ofNat]
    omega
  bv_omega

end Libmicrokitco.Isa
