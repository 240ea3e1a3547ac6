import Libmicrokitco.Libco.Aarch64
import Libmicrokitco.Libco.Amd64
import Libmicrokitco.Libco.Riscv64
import Libmicrokitco.Libco.StackTop

/-!
# The back ends of 64-bit targets

`Shipped` lists them. In each `co_derive` stores a few words in the memory it is
given, at addresses and with values that do not depend on what was there.
-/

namespace Libmicrokitco

open Isa StackTop

/-- The 64-bit back ends, wherever their `co_entrypoint` is. -/
inductive Backend.Shipped : Backend → Prop where
  | riscv64 (abi : Riscv64.FloatAbi) (coEntrypoint : Address) : Shipped (Riscv64.backend abi coEntrypoint)
  | aarch64 (coEntrypoint : Address) : Shipped (Aarch64.backend coEntrypoint)
  | amd64 (coEntrypoint : Address) : Shipped (Amd64.backend coEntrypoint)

/-- Memory after some words have been stored. -/
def storeWords (words : List (Address × Address)) (memory : Memory) : Memory :=
  words.foldl (fun memory word => storeDouble word.1 word.2 memory) memory

/-- What `co_derive` does to a stack of sufficient size. -/
def Backend.Confined (backend : Backend) : Prop :=
  ∀ (base : Address) (size : BitVec 32) (entrypoint : Address), 0x1000 ≤ size.toNat →
    base.toNat + size.toNat ≤ 2 ^ 64 → ∃ words : List (Address × Address),
      (∀ memory, (backend.coDerive memory base size entrypoint).1 = storeWords words memory) ∧
        ∀ word ∈ words, WordInStack base size word.1

variable {words : List (Address × Address)} {memory changed : Memory} {base addr : Address}
  {size : BitVec 32}

/-- A byte after the stores depends on the same byte before them only. -/
theorem storeWords_congr (same : memory addr = changed addr) :
    storeWords words memory addr = storeWords words changed addr := by
  induction words generalizing memory changed with
  | nil => exact same
  | cons word rest ih =>
    apply ih
    change (if _ then _ else memory addr) = if _ then _ else changed addr
    rw [same]

theorem storeWords_outside (inside : ∀ word ∈ words, WordInStack base size word.1)
    (fits : base.toNat + size.toNat ≤ 2 ^ 64) (outside : ¬ InStack base size addr) :
    storeWords words memory addr = memory addr := by
  induction words generalizing memory with
  | nil => rfl
  | cons word rest ih =>
    rw [List.forall_mem_cons] at inside
    refine (ih inside.2).trans (storeDouble_of_outside ?_)
    obtain ⟨above, below⟩ := inside.1
    unfold InStack at outside
    bv_omega

namespace StackTop

variable {σ : Type} [DecidableEq σ] {slots : List σ} {values : List (σ × Address)}

/-- Slots that are filled are words of the stack. -/
theorem place_confined (few : slots.length ≤ 32) (isSlot : ∀ slot ∈ values.map Prod.fst, slot ∈ slots)
    (large : 0x1000 ≤ size.toNat) (fits : base.toNat + size.toNat ≤ 2 ^ 64) :
    ∃ words : List (Address × Address),
      (∀ memory, place slots values (top base size) memory = storeWords words memory) ∧
        ∀ word ∈ words, WordInStack base size word.1 := by
  refine ⟨values.map fun entry => (slotAt slots (top base size) entry.1, entry.2), fun memory => ?_, ?_⟩
  · rw [place, storeWords, List.foldl_map]
  · intro word member
    obtain ⟨entry, isValue, rfl⟩ := List.mem_map.mp member
    exact slotAt_inStack few (isSlot entry.1 (List.mem_map_of_mem isValue)) large fits

end StackTop

namespace Riscv64

variable {coEntrypoint entrypoint : Address}

/-- The values of a fresh context, in the order in which `co_derive` stores them. -/
def freshContext (abi : FloatAbi) (coEntrypoint base : Address) (size : BitVec 32)
    (entrypoint : Address) : List (SaveSlot × Address) :=
  [(.ra, 0#64), (.sp, stackPointer (numSaved abi) base size),
    (.fp, stackPointer (numSaved abi) base size), (.pc, coEntrypoint), (.clientEntry, entrypoint)]

theorem coDerive_eq (abi : FloatAbi) : coDerive abi coEntrypoint memory base size entrypoint =
    (place (saveSlots abi) (freshContext abi coEntrypoint base size entrypoint) (top base size)
      memory, top base size) := rfl

theorem few_slots (abi : FloatAbi) : (saveSlots abi).length ≤ 32 := by
  cases abi <;> decide

theorem freshContext_isSlot (abi : FloatAbi) :
    ∀ slot ∈ (freshContext abi coEntrypoint base size entrypoint).map Prod.fst,
      slot ∈ saveSlots abi := by
  have isSlot : ∀ slot ∈ [SaveSlot.ra, .sp, .fp, .pc, .clientEntry], slot ∈ saveSlots abi := by
    cases abi <;> decide
  exact isSlot

theorem backend_confined (abi : FloatAbi) : (backend abi coEntrypoint).Confined := by
  intro base size entrypoint large fits
  obtain ⟨words, stores, inside⟩ :=
    place_confined (few_slots abi) (freshContext_isSlot abi) large fits
  exact ⟨words, stores, inside⟩

end Riscv64

namespace Aarch64

variable {coEntrypoint entrypoint : Address}

/-- The values of a fresh context, in the order in which `co_derive` stores them. -/
def freshContext (coEntrypoint base : Address) (size : BitVec 32) (entrypoint : Address) :
    List (SaveSlot × Address) :=
  [(.sp, stackPointer regsCount base size), (.lr, coEntrypoint), (.x 19, entrypoint),
    (.fp, stackPointer regsCount base size)]

theorem coDerive_eq : coDerive coEntrypoint memory base size entrypoint =
    (place saveSlots (freshContext coEntrypoint base size entrypoint) (top base size) memory,
      top base size) := rfl

theorem few_slots : saveSlots.length ≤ 32 := by decide

theorem freshContext_isSlot :
    ∀ slot ∈ (freshContext coEntrypoint base size entrypoint).map Prod.fst, slot ∈ saveSlots := by
  have isSlot : ∀ slot ∈ [SaveSlot.sp, .lr, .x 19, .fp], slot ∈ saveSlots := by decide
  exact isSlot

theorem backend_confined : (backend coEntrypoint).Confined := by
  intro base size entrypoint large fits
  obtain ⟨words, stores, inside⟩ := place_confined few_slots freshContext_isSlot large fits
  exact ⟨words, stores, inside⟩

end Aarch64

namespace Amd64

variable {coEntrypoint : Address}

theorem backend_confined : (backend coEntrypoint).Confined := by
  intro base size entrypoint large fits
  by_cases isNull : base = 0#64
  · refine ⟨[], fun memory => ?_, by simp⟩
    change (coDerive coEntrypoint memory base size entrypoint).1 = memory
    rw [coDerive, if_pos isNull]
  · have offset : ((size &&& ~~~15#32) - 32#32).toNat = size.toNat - size.toNat % 16 - 32 := by
      have aligned := toNat_alignDown size
      bv_omega
    have p : (base + ((size &&& ~~~15#32) - 32#32).setWidth 64).toNat =
        base.toNat + (size.toNat - size.toNat % 16 - 32) := by
      rw [BitVec.toNat_add, BitVec.toNat_setWidth, offset]
      omega
    refine ⟨[(base + ((size &&& ~~~15#32) - 32#32).setWidth 64 - 8#64, 0#64),
      (base + ((size &&& ~~~15#32) - 32#32).setWidth 64 - 16#64, coEntrypoint),
      (base, base + ((size &&& ~~~15#32) - 32#32).setWidth 64 - 16#64),
      (base + 8#64, entrypoint)], fun memory => ?_, ?_⟩
    · change (coDerive coEntrypoint memory base size entrypoint).1 = _
      rw [coDerive, if_neg isNull]
      rfl
    · generalize base + ((size &&& ~~~15#32) - 32#32).setWidth 64 = top at p
      simp only [List.forall_mem_cons, List.not_mem_nil, false_implies, implies_true, and_true,
        WordInStack]
      bv_omega

end Amd64

theorem Backend.Shipped.confined {backend : Backend} (shipped : backend.Shipped) : backend.Confined := by
  cases shipped with
  | riscv64 abi => exact Riscv64.backend_confined abi
  | aarch64 => exact Aarch64.backend_confined
  | amd64 => exact Amd64.backend_confined

end Libmicrokitco
