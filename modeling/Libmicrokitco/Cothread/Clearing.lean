import Libmicrokitco.Cothread.Lifecycle

/-!
# What `memzero` clears

Its counter is an `int`. For lengths up to the largest `int` the loop clears
exactly its argument; for longer ones it increments the counter past its
maximum, which C leaves undefined and two's complement wraps around.
-/

namespace Libmicrokitco

/-- `memzero` from counter `i` on increments its counter past the largest `int`. -/
def memzeroOverflowsFrom (n : BitVec 64) : Nat → BitVec 32 → Bool
  | 0, _ => false
  | fuel + 1, i =>
    if i.signExtend 64 < n then i = 0x7fffffff#32 || memzeroOverflowsFrom n fuel (i + 1#32)
    else false

/-- The call of `memzero` runs into an overflow of its counter. -/
def memzeroOverflows (n : BitVec 64) : Bool := memzeroOverflowsFrom n (2 ^ 32) 0#32

/-- Memory with `size` bytes from `base` on cleared. -/
def cleared (base : Address) (size : BitVec 64) (memory : Memory) : Memory :=
  fun place => if (place - base).toNat < size.toNat then 0#8 else memory place

variable {dst : Address} {n : BitVec 64} {fuel : Nat} {i : BitVec 32} {memory : Memory}

/-- A nonnegative `int` keeps its value as a `size_t`. -/
theorem toNat_signExtend_int (nonneg : i.toNat < 2 ^ 31) : (i.signExtend 64).toNat = i.toNat := by
  have sign : i.msb = false := BitVec.msb_eq_false_iff_two_mul_lt.mpr (by omega)
  rw [BitVec.signExtend_eq_setWidth_of_msb_false sign, BitVec.toNat_setWidth]
  omega

/-- The rest of the loop clears the rest of the bytes. -/
private theorem memzeroLoop_eq (short : n.toNat < 2 ^ 31) (reached : i.toNat ≤ n.toNat)
    (enough : n.toNat - i.toNat < fuel) (place : Address) :
    memzeroLoop dst n fuel i memory place =
      if i.toNat ≤ (place - dst).toNat ∧ (place - dst).toNat < n.toNat then 0#8
      else memory place := by
  induction fuel generalizing i memory with
  | zero => omega
  | succ fuel ih =>
    have counter := toNat_signExtend_int (show i.toNat < 2 ^ 31 by omega)
    rw [memzeroLoop]
    by_cases more : i.signExtend 64 < n
    · have below : i.toNat < n.toNat := by
        rw [BitVec.lt_def, counter] at more
        exact more
      have next : (i + 1#32).toNat = i.toNat + 1 := by
        rw [BitVec.toNat_add]
        simp only [BitVec.toNat_ofNat]
        omega
      rw [if_pos more, ih (by omega) (by omega), next]
      by_cases here : place = dst + i.signExtend 64
      · have offset : (place - dst).toNat = i.toNat := by
          rw [here, BitVec.add_comm, BitVec.add_sub_cancel, counter]
        rw [here, Function.update_self, ← here, offset, ite_self, if_pos ⟨le_rfl, below⟩]
      · have offset : (place - dst).toNat ≠ i.toNat := by
          intro same
          apply here
          rw [← BitVec.toNat_inj.mp (same.trans counter.symm)]
          bv_omega
        rw [Function.update_of_ne here]
        congr 1
        exact propext ⟨fun inside => ⟨by omega, inside.2⟩, fun inside => ⟨by omega, inside.2⟩⟩
    · rw [if_neg more]
      rw [BitVec.lt_def, counter] at more
      rw [if_neg (by omega)]

/-- A length that fits an `int` is cleared exactly. -/
theorem memzero_eq_cleared (short : n.toNat < 2 ^ 31) : memzero dst n memory = cleared dst n memory := by
  funext place
  have zero : (0#32 : BitVec 32).toNat = 0 := rfl
  rw [memzero, memzeroLoop_eq short (by omega) (by omega), cleared]
  simp

theorem memzeroOverflowsFrom_of_short (short : n.toNat < 2 ^ 31) (reached : i.toNat ≤ n.toNat) :
    memzeroOverflowsFrom n fuel i = false := by
  induction fuel generalizing i with
  | zero => rfl
  | succ fuel ih =>
    have counter := toNat_signExtend_int (show i.toNat < 2 ^ 31 by omega)
    rw [memzeroOverflowsFrom]
    by_cases more : i.signExtend 64 < n
    · have below : i.toNat < n.toNat := by
        rw [BitVec.lt_def, counter] at more
        exact more
      have next : (i + 1#32).toNat = i.toNat + 1 := by
        rw [BitVec.toNat_add]
        simp only [BitVec.toNat_ofNat]
        omega
      have notLast : i ≠ 0x7fffffff#32 := by
        rintro rfl
        have last : (0x7fffffff#32).toNat = 2 ^ 31 - 1 := rfl
        omega
      rw [if_pos more, ih (by omega), Bool.or_false]
      exact decide_eq_false notLast
    · rw [if_neg more]

theorem memzeroOverflowsFrom_of_long (long : 2 ^ 31 ≤ n.toNat) (nonneg : i.toNat < 2 ^ 31)
    (enough : 2 ^ 31 - 1 - i.toNat < fuel) : memzeroOverflowsFrom n fuel i = true := by
  induction fuel generalizing i with
  | zero => omega
  | succ fuel ih =>
    have more : i.signExtend 64 < n := by
      rw [BitVec.lt_def, toNat_signExtend_int nonneg]
      omega
    rw [memzeroOverflowsFrom, if_pos more]
    by_cases last : i = 0x7fffffff#32
    · simp [last]
    · have notMax : i.toNat ≠ 2 ^ 31 - 1 := fun same => last (BitVec.toNat_inj.mp same)
      have next : (i + 1#32).toNat = i.toNat + 1 := by
        rw [BitVec.toNat_add]
        simp only [BitVec.toNat_ofNat]
        omega
      rw [ih (by omega) (by omega), Bool.or_true]

/-- The counter overflows exactly for lengths beyond the largest `int`. -/
theorem memzeroOverflows_iff : memzeroOverflows n = true ↔ 2 ^ 31 ≤ n.toNat := by
  have zero : (0#32 : BitVec 32).toNat = 0 := rfl
  constructor
  · intro overflows
    by_contra short
    rw [memzeroOverflows, memzeroOverflowsFrom_of_short (by omega) (by omega)] at overflows
    cases overflows
  · intro long
    exact memzeroOverflowsFrom_of_long long (by omega) (by omega)

end Libmicrokitco
