import Libmicrokitco.Cothread.Libco
import Libmicrokitco.Isa.Spill

/-!
# A context in the top words of a stack

What the back ends share. The save slots are the top words of the stack,
counted down from the handle, and the stack pointer starts below the last of
them, rounded down to a multiple of 16. Neither the stack nor its size need be
aligned.
-/

namespace Libmicrokitco.StackTop

open Isa

variable {σ : Type} [DecidableEq σ]

/-- The bytes of the stack. -/
def InStack (base : Address) (size : BitVec 32) (place : Address) : Prop :=
  base.toNat ≤ place.toNat ∧ place.toNat < base.toNat + size.toNat

/-- All bytes of a doubleword are bytes of the stack. -/
def WordInStack (base : Address) (size : BitVec 32) (addr : Address) : Prop :=
  base.toNat ≤ addr.toNat ∧ addr.toNat + 8 ≤ base.toNat + size.toNat

/-- The address of a slot, for slots in the order of their numbers. -/
def slotAt (slots : List σ) (handle : Address) (slot : σ) : Address :=
  handle - BitVec.ofNat 64 (8 * slots.idxOf slot)

/-- The last whole word of the stack. -/
def top (base : Address) (size : BitVec 32) : Address :=
  base + (size.setWidth 64 / 8#64 - 1#64) * 8#64

/-- The stack pointer below `saved` slots. -/
def stackPointer (saved : Nat) (base : Address) (size : BitVec 32) : Address :=
  (base + (size.setWidth 64 / 8#64 - BitVec.ofNat 64 saved - 1#64) * 8#64) &&& ~~~0xF#64

/-- Values stored in slots, one after the other. -/
def place (slots : List σ) (values : List (σ × Address)) (handle : Address) (memory : Memory) :
    Memory :=
  values.foldl (fun memory entry => storeDouble (slotAt slots handle entry.1) entry.2 memory) memory

/-- A context that fits its stack. -/
structure LaidOut (slots : List σ) (spSlot : σ) (base : Address) (size : BitVec 32)
    (memory : Memory) (derived : Memory × Address) : Prop where
  outside : ∀ place, ¬ InStack base size place → derived.1 place = memory place
  slotsInside : ∀ slot ∈ slots, WordInStack base size (slotAt slots derived.2 slot)
  aligned : (loadDouble (slotAt slots derived.2 spSlot) derived.1).toNat % 16 = 0
  aboveBase : base.toNat ≤ (loadDouble (slotAt slots derived.2 spSlot) derived.1).toNat
  /-- There is room for a word between the stack pointer and any slot. -/
  belowSlots : ∀ slot ∈ slots, (loadDouble (slotAt slots derived.2 spSlot) derived.1).toNat + 8 ≤
    (slotAt slots derived.2 slot).toNat

variable {slots : List σ} {values : List (σ × Address)} {spSlot slot : σ}
  {base handle value : Address} {size : BitVec 32} {memory : Memory}

/-- Words of a stack depend on its bytes only. -/
theorem loadDouble_inStack {addr : Address} {changed : Memory} (fits : base.toNat + size.toNat ≤ 2 ^ 64)
    (word : WordInStack base size addr)
    (same : ∀ place, InStack base size place → changed place = memory place) :
    loadDouble addr changed = loadDouble addr memory := by
  apply loadDouble_congr
  intro index bounded
  apply same
  have small : (BitVec.ofNat 64 index).toNat = index := by
    rw [BitVec.toNat_ofNat]
    omega
  obtain ⟨above, below⟩ := word
  unfold InStack
  bv_omega

/-- Clearing the low four bits rounds down to a multiple of 16. -/
theorem toNat_alignDown {width : Nat} (x : BitVec width) :
    (x &&& ~~~BitVec.ofNat width 15).toNat = x.toNat - x.toNat % 16 := by
  have low : ∀ index, Nat.testBit 15 index = decide (index < 4) := fun index =>
    Nat.testBit_two_pow_sub_one 4 index
  have cleared : x &&& ~~~BitVec.ofNat width 15 = (x >>> 4) <<< 4 := by
    apply BitVec.eq_of_getLsbD_eq
    intro index bounded
    simp only [BitVec.getLsbD_and, BitVec.getLsbD_not, BitVec.getLsbD_ofNat,
      BitVec.getLsbD_shiftLeft, BitVec.getLsbD_ushiftRight, low, bounded]
    by_cases small : index < 4
    · simp [small]
    · simp [small, Nat.add_sub_cancel' (Nat.le_of_not_lt small)]
  have fits := x.isLt
  rw [cleared, BitVec.toNat_shiftLeft, BitVec.toNat_ushiftRight, Nat.shiftRight_eq_div_pow,
    Nat.shiftLeft_eq, Nat.mod_eq_of_lt (by omega)]
  omega

private theorem toNat_numWords : (size.setWidth 64 / 8#64).toNat = size.toNat / 8 := by
  have whole : size.toNat % 2 ^ 64 = size.toNat := Nat.mod_eq_of_lt (by omega)
  rw [BitVec.toNat_udiv, BitVec.toNat_setWidth, whole]
  rfl

/-- Slot `number` is that many words below the last whole word. -/
theorem toNat_slot {number : Nat} (few : number ≤ 32) (large : 0x1000 ≤ size.toNat)
    (fits : base.toNat + size.toNat ≤ 2 ^ 64) :
    (top base size - BitVec.ofNat 64 (8 * number)).toNat =
      base.toNat + 8 * (size.toNat / 8 - 1 - number) := by
  unfold top
  simp only [BitVec.toNat_sub, BitVec.toNat_add, BitVec.toNat_mul, BitVec.toNat_ofNat,
    toNat_numWords]
  omega

theorem toNat_stackPointer {saved : Nat} (few : saved ≤ 32) (large : 0x1000 ≤ size.toNat)
    (fits : base.toNat + size.toNat ≤ 2 ^ 64) :
    (stackPointer saved base size).toNat =
      (base.toNat + 8 * (size.toNat / 8 - 1 - saved)) / 16 * 16 := by
  have unaligned : (base + (size.setWidth 64 / 8#64 - BitVec.ofNat 64 saved - 1#64) * 8#64).toNat =
      base.toNat + 8 * (size.toNat / 8 - 1 - saved) := by
    simp only [BitVec.toNat_sub, BitVec.toNat_add, BitVec.toNat_mul, BitVec.toNat_ofNat,
      toNat_numWords]
    omega
  rw [stackPointer, toNat_alignDown, unaligned]
  omega

/-- Storing slot by slot is spilling. -/
theorem place_eq_spilled (slots : List σ) (values : List (σ × Address)) (handle : Address)
    (memory : Memory) :
    place slots values handle memory = spilled Prod.snd handle
      (values.map fun entry => (entry, -BitVec.ofNat 64 (8 * slots.idxOf entry.1))) memory := by
  induction values generalizing memory with
  | nil => rfl
  | cons entry rest ih =>
    change place slots rest handle (storeDouble (handle - _) entry.2 memory) = _
    rw [ih, BitVec.sub_eq_add_neg]
    rfl

theorem place_outside (few : slots.length ≤ 32) (isSlot : ∀ entry ∈ values, entry.1 ∈ slots)
    (large : 0x1000 ≤ size.toNat) (fits : base.toNat + size.toNat ≤ 2 ^ 64) {addr : Address}
    (outside : ¬ InStack base size addr) :
    place slots values (top base size) memory addr = memory addr := by
  rw [place_eq_spilled]
  apply spilled_of_outside
  intro filled member
  obtain ⟨entry, isValue, rfl⟩ := List.mem_map.mp member
  have number := List.idxOf_lt_length_of_mem (isSlot entry isValue)
  have inside : (top base size - BitVec.ofNat 64 (8 * slots.idxOf entry.1)).toNat =
      base.toNat + 8 * (size.toNat / 8 - 1 - slots.idxOf entry.1) := toNat_slot (by omega) large fits
  unfold InStack at outside
  rw [← BitVec.sub_eq_add_neg]
  bv_omega

/-- Distinct slots are disjoint words, so that each keeps its value. -/
theorem loadDouble_place (few : slots.length ≤ 32) (isSlot : ∀ entry ∈ values, entry.1 ∈ slots)
    (distinct : (values.map Prod.fst).Nodup) (member : (slot, value) ∈ values) :
    loadDouble (slotAt slots handle slot) (place slots values handle memory) = value := by
  have spread : Plan.Spread
      (values.map fun entry => (entry, -BitVec.ofNat 64 (8 * slots.idxOf entry.1))) := by
    rw [Plan.Spread, List.pairwise_map]
    rw [List.Nodup, List.pairwise_map] at distinct
    refine distinct.imp_of_mem fun {left right} isLeft isRight different => ?_
    have numbers : slots.idxOf left.1 ≠ slots.idxOf right.1 :=
      fun same => different ((List.idxOf_inj (isSlot left isLeft)).mp same)
    have first := List.idxOf_lt_length_of_mem (isSlot left isLeft)
    have second := List.idxOf_lt_length_of_mem (isSlot right isRight)
    unfold Isa.Disjoint
    simp only [BitVec.toNat_sub, BitVec.toNat_neg, BitVec.toNat_ofNat]
    omega
  have planned : ((slot, value), -BitVec.ofNat 64 (8 * slots.idxOf slot)) ∈
      values.map fun entry => (entry, -BitVec.ofNat 64 (8 * slots.idxOf entry.1)) :=
    List.mem_map.mpr ⟨(slot, value), member, rfl⟩
  have stored := loadDouble_spilled handle Prod.snd memory spread planned
  rw [place_eq_spilled, slotAt, BitVec.sub_eq_add_neg]
  exact stored

theorem toNat_slotAt (few : slots.length ≤ 32) (isSlot : slot ∈ slots) (large : 0x1000 ≤ size.toNat)
    (fits : base.toNat + size.toNat ≤ 2 ^ 64) : slots.idxOf slot < slots.length ∧
      (slotAt slots (top base size) slot).toNat =
        base.toNat + 8 * (size.toNat / 8 - 1 - slots.idxOf slot) := by
  have number := List.idxOf_lt_length_of_mem isSlot
  rw [slotAt]
  exact ⟨number, toNat_slot (by omega) large fits⟩

theorem slotAt_inStack (few : slots.length ≤ 32) (isSlot : slot ∈ slots)
    (large : 0x1000 ≤ size.toNat) (fits : base.toNat + size.toNat ≤ 2 ^ 64) :
    WordInStack base size (slotAt slots (top base size) slot) := by
  obtain ⟨number, address⟩ := toNat_slotAt few isSlot large fits
  rw [WordInStack, address]
  omega

/-- A context of at most 32 slots fits a stack of `0x1000` bytes or more. -/
theorem laidOut (few : slots.length ≤ 32) (isSlot : ∀ entry ∈ values, entry.1 ∈ slots)
    (distinct : (values.map Prod.fst).Nodup)
    (sp : (spSlot, stackPointer slots.length base size) ∈ values) (large : 0x1000 ≤ size.toNat)
    (fits : base.toNat + size.toNat ≤ 2 ^ 64) :
    LaidOut slots spSlot base size memory
      (place slots values (top base size) memory, top base size) := by
  have loaded : loadDouble (slotAt slots (top base size) spSlot)
      (place slots values (top base size) memory) = stackPointer slots.length base size :=
    loadDouble_place few isSlot distinct sp
  have pointer : (stackPointer slots.length base size).toNat =
      (base.toNat + 8 * (size.toNat / 8 - 1 - slots.length)) / 16 * 16 :=
    toNat_stackPointer few large fits
  constructor
  case outside => exact fun _ outside => place_outside few isSlot large fits outside
  case slotsInside =>
    exact fun slot member => slotAt_inStack few member large fits
  case aligned =>
    change (loadDouble _ (place slots values _ memory)).toNat % 16 = 0
    rw [loaded, pointer]
    omega
  case aboveBase =>
    change _ ≤ (loadDouble _ (place slots values _ memory)).toNat
    rw [loaded, pointer]
    omega
  case belowSlots =>
    intro slot member
    obtain ⟨number, address⟩ := toNat_slotAt few member large fits
    change (loadDouble _ (place slots values _ memory)).toNat + 8 ≤
      (slotAt slots (top base size) slot).toNat
    rw [loaded, pointer, address]
    omega

end Libmicrokitco.StackTop
