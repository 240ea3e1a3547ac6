import Libmicrokitco.Libco.Riscv64Swap

/-!
# Where the RISC-V context switch is transparent

`addiw` sign-extends the low word of the address it makes, so `co_swap` uses the
save area of a handle only if the area starts within 2 GiB of either end of the
address space. There the switch is transparent, and nowhere else.
-/

namespace Libmicrokitco.Riscv64

open Isa Isa.Rv64

/-- The lowest address of the save area of a handle. -/
def lowest (abi : FloatAbi) (handle : Address) : Address :=
  handle - BitVec.ofNat 64 (areaDepth abi)

/-- The save area starts in the lowest or the highest 2 GiB. -/
def FitsWord (abi : FloatAbi) (handle : Address) : Prop :=
  (lowest abi handle).toNat < 2 ^ 31 ∨ 2 ^ 64 - 2 ^ 31 ≤ (lowest abi handle).toNat

instance (abi : FloatAbi) (handle : Address) : Decidable (FitsWord abi handle) :=
  inferInstanceAs (Decidable (_ ∨ _))

variable {abi : FloatAbi} {handle previous other : Address}

theorem addWord_toNat (abi : FloatAbi) (handle : Address) : (addWord handle (depthImm abi)).toNat =
    (lowest abi handle).toNat % 2 ^ 32 +
      if 2 ^ 31 ≤ (lowest abi handle).toNat % 2 ^ 32 then 2 ^ 64 - 2 ^ 32 else 0 := by
  have sum : handle + (depthImm abi).signExtend 64 = lowest abi handle := by
    have negative : (depthImm abi).signExtend 64 = -BitVec.ofNat 64 (areaDepth abi) := by
      cases abi <;> decide
    rw [negative, lowest, BitVec.sub_eq_add_neg]
  rw [addWord, sum, BitVec.toNat_signExtend, BitVec.toNat_setWidth, BitVec.toNat_setWidth]
  have sign : ((lowest abi handle).setWidth 32).msb =
      decide (2 ^ 31 ≤ (lowest abi handle).toNat % 2 ^ 32) := by
    rw [BitVec.msb_eq_decide, BitVec.toNat_setWidth]
  rw [sign]
  simp only [decide_eq_true_eq]
  omega

theorem addWord_eq_lowest (fits : FitsWord abi handle) :
    addWord handle (depthImm abi) = lowest abi handle := by
  apply BitVec.eq_of_toNat_eq
  have value := addWord_toNat abi handle
  have small := (lowest abi handle).isLt
  unfold FitsWord at fits
  split at value <;> omega

/-- An area that does not fit is missed by at least 4 GiB. -/
theorem addWord_drift (unfit : ¬ FitsWord abi handle) :
    2 ^ 32 ≤ (addWord handle (depthImm abi) - lowest abi handle).toNat ∧
      2 ^ 32 ≤ (lowest abi handle - addWord handle (depthImm abi)).toNat := by
  have value := addWord_toNat abi handle
  have small := (lowest abi handle).isLt
  unfold FitsWord at unfit
  rw [BitVec.toNat_sub, BitVec.toNat_sub]
  split at value <;> omega

theorem lowest_add (abi : FloatAbi) (handle offset : Address) :
    lowest abi handle + (offset + BitVec.ofNat 64 (areaDepth abi)) = handle + offset := by
  unfold lowest
  generalize BitVec.ofNat 64 (areaDepth abi) = depth
  bv_omega

/-- With both areas where `addiw` finds them, `co_swap` switches. -/
theorem swaps_of_fitsWord (handleFits : FitsWord abi handle) (previousFits : FitsWord abi previous) :
    (swap abi).Swaps handle previous := by
  intro before isHandle isPrevious
  change before.get regA0 = handle at isHandle
  change before.get regA1 = previous at isPrevious
  obtain ⟨after, ran, memory, loaded, jumped⟩ := coSwap_runs abi before
  rw [isHandle, addWord_eq_lowest handleFits] at loaded jumped
  rw [isPrevious, addWord_eq_lowest previousFits, raised, spilled_shift, lowest,
    BitVec.sub_add_cancel] at memory
  refine ⟨after, ran, Switched.of_spilled (saveLayout_enclosed abi) memory swapPlan_spread ?_ ?_ ?_ ?_⟩
  · intro entry member
    rcases List.mem_append.mp member with isSaved | isPc
    · exact List.mem_cons_of_mem _ (List.mem_map_of_mem (List.mem_reverse.mp isSaved))
    · obtain rfl := List.mem_singleton.mp isPc
      exact List.mem_cons_self
  · intro entry member
    refine ⟨entry.1, ?_, rfl⟩
    rcases List.mem_cons.mp member with rfl | isSaved
    · exact List.mem_append_right _ (List.mem_singleton_self _)
    · exact List.mem_append_left _ (List.mem_reverse.mpr isSaved)
  · intro entry member
    have fromSlot := loaded _ (List.mem_map_of_mem member)
    rw [lowest_add] at fromSlot
    exact fromSlot
  · rw [lowest_add] at jumped
    exact jumped

/-- A hart about to switch whose other registers are zero, but for `ra`. -/
private def caller (handle previous ra : Address) (memory : Memory) : Hart where
  pc := 0#64
  regs reg := if reg = regA0 then handle else if reg = regA1 then previous
    else if reg = regRa then ra else 0#64
  memory := memory

private theorem caller_get_zero {memory : Memory} {reg : Reg} (noArgument : reg ≠ regA0 ∧ reg ≠ regA1) :
    (caller handle previous 0#64 memory).get reg = 0#64 := by
  unfold Cpu.get
  split
  · rfl
  · change (if reg = regA0 then handle else if reg = regA1 then previous
      else if reg = regRa then 0#64 else 0#64) = 0#64
    rw [if_neg noArgument.1, if_neg noArgument.2, ite_self]

private theorem plan_avoids_arguments :
    ∀ entry ∈ raised abi (swapPlan abi regRa), entry.1 ≠ regA0 ∧ entry.1 ≠ regA1 := by
  cases abi <;> decide +kernel

private theorem raSlot_mem (abi : FloatAbi) : (regRa, slotOffset abi .ra) ∈ (saveLayout abi).saved := by
  cases abi <;> decide +kernel

private theorem raSlot_lowest : slotOffset abi .ra + BitVec.ofNat 64 (areaDepth abi) = 0#64 := by
  cases abi <;> decide +kernel

private theorem lowest_eq : lowest abi handle = handle + slotOffset abi .ra := by
  have moved := lowest_add abi handle (slotOffset abi .ra)
  rw [raSlot_lowest, BitVec.add_zero] at moved
  exact moved

private theorem loadDouble_zero {addr : Address} {memory : Memory}
    (zero : ∀ index < 8, memory (addr + BitVec.ofNat 64 index) = 0#8) :
    loadDouble addr memory = 0#64 := by
  have empty : loadDouble addr (fun _ => 0#8) = 0#64 := by
    rw [loadDouble]
    decide
  rw [← empty]
  exact loadDouble_congr zero

/-- Eight bytes at least 4 GiB off an area are outside it. -/
private theorem outside_of_drift {base : Address} (away : 2 ^ 32 ≤ (base - lowest abi handle).toNat)
    (back : 2 ^ 32 ≤ (lowest abi handle - base).toNat) {index : Nat} (bounded : index < 8) :
    ¬ (saveLayout abi).InArea handle (base + BitVec.ofNat 64 index) := by
  have words : 8 * (saveLayout abi).words = areaDepth abi + 8 ∧ areaDepth abi < 2 ^ 31 := by
    cases abi <;> decide
  have depth : (BitVec.ofNat 64 (areaDepth abi)).toNat = areaDepth abi := by
    rw [BitVec.toNat_ofNat]
    omega
  have small : (BitVec.ofNat 64 index).toNat = index := by
    rw [BitVec.toNat_ofNat]
    omega
  unfold SaveLayout.InArea lowest at *
  rw [words.1]
  generalize BitVec.ofNat 64 (areaDepth abi) = length at *
  generalize BitVec.ofNat 64 index = offset at *
  bv_omega

/-- The lowest word that `co_swap` writes holds `ra`. -/
private theorem lowest_written {value : Reg → Address} {base : Address} {memory : Memory} :
    loadDouble base (spilled value base (raised abi (swapPlan abi regRa)) memory) = value regRa := by
  have planned : (regRa, slotOffset abi .ra) ∈ swapPlan abi regRa :=
    List.mem_append_left _ (List.mem_reverse.mpr (raSlot_mem abi))
  have address : base + BitVec.ofNat 64 (areaDepth abi) + slotOffset abi .ra = base := by
    rw [BitVec.add_assoc, BitVec.add_comm _ (slotOffset abi .ra), raSlot_lowest, BitVec.add_zero]
  have readBack := loadDouble_spilled (base + BitVec.ofNat 64 (areaDepth abi)) value memory
    swapPlan_spread planned
  rw [address] at readBack
  rw [raised, spilled_shift]
  exact readBack

/-- The registers of a thread whose area does not fit go elsewhere. -/
theorem previous_fits (swaps : (swap abi).Swaps handle previous) : FitsWord abi previous := by
  by_contra unfit
  obtain ⟨away, back⟩ := addWord_drift unfit
  let before := caller handle previous 1#64 fun _ => 0#8
  obtain ⟨after, ran, switched⟩ := swaps before rfl rfl
  obtain ⟨ended, ranAlso, memory, -⟩ := coSwap_runs abi before
  obtain rfl := Option.some.inj (ranAlso.symm.trans ran)
  have untouched : loadDouble (addWord previous (depthImm abi)) ended.memory = 0#64 :=
    loadDouble_zero fun index bounded => switched.outside _ (outside_of_drift away back bounded)
  have written : loadDouble (addWord previous (depthImm abi)) ended.memory = 1#64 := by
    rw [memory]
    exact lowest_written
  rw [untouched] at written
  cases written

/-- The registers of a thread whose area does not fit come from elsewhere. -/
theorem handle_fits (apart : (saveLayout abi).Apart previous handle)
    (swaps : (swap abi).Swaps handle previous) : FitsWord abi handle := by
  by_contra unfit
  obtain ⟨away, back⟩ := addWord_drift unfit
  let memory := storeDouble (lowest abi handle) 1#64 fun _ => 0#8
  let before := caller handle previous 0#64 memory
  obtain ⟨after, ran, switched⟩ := swaps before rfl rfl
  obtain ⟨ended, ranAlso, written, loaded, -⟩ := coSwap_runs abi before
  obtain rfl := Option.some.inj (ranAlso.symm.trans ran)
  have inSlot : ended.get regRa = 1#64 := by
    have enclosed := saveLayout_enclosed abi
    have slot := List.mem_cons_of_mem (saveLayout abi).linkOffset
      (List.mem_map_of_mem (f := Prod.snd) (raSlot_mem abi))
    have kept : loadDouble (handle + slotOffset abi .ra) ended.memory =
        loadDouble (handle + slotOffset abi .ra) memory := by
      refine loadDouble_congr fun index bounded => switched.outside _ ?_
      exact apart.symm _ (enclosed.inArea slot handle bounded)
    rw [switched.loaded _ (raSlot_mem abi), kept, ← lowest_eq]
    exact loadDouble_storeDouble_self
  have elsewhere : ended.get regRa = 0#64 := by
    have fromSlot := loaded _ (List.mem_map_of_mem (raSlot_mem abi))
    rw [raSlot_lowest, BitVec.add_zero] at fromSlot
    refine fromSlot.trans (loadDouble_zero fun index bounded => ?_)
    have zeroBefore : memory (addWord handle (depthImm abi) + BitVec.ofNat 64 index) = 0#8 := by
      apply storeDouble_of_outside
      have small : (BitVec.ofNat 64 index).toNat = index := by
        rw [BitVec.toNat_ofNat]
        omega
      generalize BitVec.ofNat 64 index = offset at *
      bv_omega
    rw [written]
    exact spilled_eq_zero (fun entry member => caller_get_zero (plan_avoids_arguments entry member))
      zeroBefore
  rw [inSlot] at elsewhere
  cases elsewhere

/-- `co_swap` switches exactly between handles whose areas fit. -/
theorem swaps_iff (apart : handle = previous ∨ (saveLayout abi).Apart handle previous) :
    (swap abi).Swaps handle previous ↔ FitsWord abi handle ∧ FitsWord abi previous := by
  constructor
  · intro swaps
    have previousFits := previous_fits swaps
    rcases apart with rfl | apart
    · exact ⟨previousFits, previousFits⟩
    · exact ⟨handle_fits apart.symm swaps, previousFits⟩
  · rintro ⟨handleFits, previousFits⟩
    exact swaps_of_fitsWord handleFits previousFits

/-- The switch from `previous` to `handle`, and back from `other`, is
transparent exactly when every save area involved starts within 2 GiB of an end
of the address space. -/
theorem swap_transparent_iff (abi : FloatAbi) (handle previous other : Address)
    (apart : handle = previous ∨ (saveLayout abi).Apart handle previous)
    (otherApart : (saveLayout abi).Apart previous other) :
    (swap abi).Transparent handle previous other ↔
      FitsWord abi handle ∧ FitsWord abi previous ∧ FitsWord abi other := by
  constructor
  · intro transparent
    obtain ⟨handleFits, previousFits⟩ := (swaps_iff apart).mp transparent.leaves
    obtain ⟨-, otherFits⟩ := (swaps_iff (.inr otherApart)).mp transparent.returns
    exact ⟨handleFits, previousFits, otherFits⟩
  · rintro ⟨handleFits, previousFits, otherFits⟩
    exact (swaps_of_fitsWord handleFits previousFits).transparent (saveLayout_enclosed abi)
      (swaps_of_fitsWord previousFits otherFits) otherApart

/-- Two low stacks, soft float. -/
theorem swap_transparent_low :
    (swap .soft).Transparent 0x2004ff8#64 0x2007ff8#64 0x2004ff8#64 :=
  (swap_transparent_iff .soft 0x2004ff8#64 0x2007ff8#64 0x2004ff8#64
    (.inr (SaveLayout.apart_of_distance (by decide) (by decide)))
    (SaveLayout.apart_of_distance (by decide) (by decide))).mpr ⟨by decide, by decide, by decide⟩

/-- Two stacks above 2 GiB, aligned, apart and far from the ends of the address
space: the registers of the thread that is left are not saved in its area. -/
theorem swap_not_transparent_high :
    (saveLayout .soft).Apart 0x80004ff8#64 0x80007ff8#64 ∧
      ¬ (swap .soft).Transparent 0x80004ff8#64 0x80007ff8#64 0x80004ff8#64 := by
  refine ⟨SaveLayout.apart_of_distance (by decide) (by decide), fun transparent => ?_⟩
  have fits : FitsWord .soft 0x80007ff8#64 := previous_fits transparent.leaves
  revert fits
  decide

end Libmicrokitco.Riscv64
