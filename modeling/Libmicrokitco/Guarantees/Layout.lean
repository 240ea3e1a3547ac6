import Libmicrokitco.Guarantees.Aarch64Switch
import Libmicrokitco.Libco.Backends
import Libmicrokitco.Libco.Riscv64Swap

/-!
# Derived contexts and the switch that enters them

For both back ends, and whatever the alignment of the stack: `co_derive` puts
its context inside the stack, above the stack pointer it gives it, in the slots
from which `co_swap` loads it.
-/

namespace Libmicrokitco

open Isa StackTop

/-- What `co_derive` answers: a context inside the stack that starts at
`coEntrypoint`, which is to call `entrypoint`. -/
structure DerivedContext {σ : Type} [DecidableEq σ] (slots : List σ)
    (spSlot fpSlot startSlot : σ) (base : Address) (size : BitVec 32) (memory : Memory)
    (coEntrypoint : Address) (derived : Memory × Address) : Prop
    extends LaidOut slots spSlot base size memory derived where
  fp : loadDouble (slotAt slots derived.2 fpSlot) derived.1 =
    loadDouble (slotAt slots derived.2 spSlot) derived.1
  start : loadDouble (slotAt slots derived.2 startSlot) derived.1 = coEntrypoint

variable {base coEntrypoint entrypoint : Address} {size : BitVec 32} {memory : Memory}

/-- Slots filled with a stack pointer below them, a frame pointer equal to it, a
start address and the client's entry. -/
theorem derivedContext {σ : Type} [DecidableEq σ] {slots : List σ}
    {values : List (σ × Address)} {spSlot fpSlot startSlot entrySlot : σ}
    (few : slots.length ≤ 32) (isSlot : ∀ slot ∈ values.map Prod.fst, slot ∈ slots)
    (distinct : (values.map Prod.fst).Nodup)
    (sp : (spSlot, stackPointer slots.length base size) ∈ values)
    (fp : (fpSlot, stackPointer slots.length base size) ∈ values)
    (start : (startSlot, coEntrypoint) ∈ values) (entry : (entrySlot, entrypoint) ∈ values)
    (large : 0x1000 ≤ size.toNat) (fits : base.toNat + size.toNat ≤ 2 ^ 64) :
    DerivedContext slots spSlot fpSlot startSlot base size memory coEntrypoint
        (place slots values (top base size) memory, top base size) ∧
      loadDouble (slotAt slots (top base size) entrySlot)
        (place slots values (top base size) memory) = entrypoint := by
  have inSlots : ∀ entry ∈ values, entry.1 ∈ slots :=
    fun entry member => isSlot entry.1 (List.mem_map_of_mem member)
  have holds : ∀ slot value, (slot, value) ∈ values → loadDouble (slotAt slots (top base size) slot)
      (place slots values (top base size) memory) = value :=
    fun _ _ => loadDouble_place few inSlots distinct
  refine ⟨⟨laidOut few inSlots distinct sp large fits, ?_, holds _ _ start⟩, holds _ _ entry⟩
  exact (holds _ _ fp).trans (holds _ _ sp).symm

namespace Riscv64

open Isa.Rv64

/-- The loads and stores through a register, at their offsets from what it held
first: the immediates that were added to it count. -/
def through (base : BitVec 5) : BitVec 64 → List Instr → List (Transfer Reg)
  | _, [] => []
  | shift, .addiw rd rs1 imm :: rest =>
    through base (if rd = base ∧ rs1 = base then shift + imm.signExtend 64 else shift) rest
  | shift, .transfer (.load reg origin offset) :: rest =>
    if origin = .x base then .load reg origin (shift + offset) :: through base shift rest
    else through base shift rest
  | shift, .transfer (.store reg origin offset) :: rest =>
    if origin = .x base then .store reg origin (shift + offset) :: through base shift rest
    else through base shift rest
  | shift, .jalr _ _ _ :: rest => through base shift rest

/-- The words load `sp`, `fp` and the target of their jump from the slots of the
`enum`, and save nothing in the slot of the client's entry. -/
structure SwapAgrees (abi : FloatAbi) (code : List Instr) : Prop where
  sp : ∀ offset, .load (.x 2#5) regA0 offset ∈ through 10#5 0#64 code ↔ offset = slotOffset abi .sp
  fp : ∀ offset, .load (.x 8#5) regA0 offset ∈ through 10#5 0#64 code ↔ offset = slotOffset abi .fp
  pc : ∀ offset, .load regA2 regA0 offset ∈ through 10#5 0#64 code ↔ offset = slotOffset abi .pc
  jump : code.getLast? = some (.jalr 0#5 12#5 0#12)
  clientEntry : ∀ reg offset, .store reg regA1 offset ∈ through 11#5 0#64 code →
    Isa.Disjoint offset (slotOffset abi .clientEntry)

theorem coDerive_context (abi : FloatAbi) (large : 0x1000 ≤ size.toNat)
    (fits : base.toNat + size.toNat ≤ 2 ^ 64) :
    DerivedContext (saveSlots abi) .sp .fp .pc base size memory coEntrypoint
        (coDerive abi coEntrypoint memory base size entrypoint) ∧
      coEntrypointCallee abi (coDerive abi coEntrypoint memory base size entrypoint).2
        (coDerive abi coEntrypoint memory base size entrypoint).1 = entrypoint := by
  have distinct : [SaveSlot.ra, .sp, .fp, .pc, .clientEntry].Nodup := by decide
  rw [coDerive_eq]
  refine derivedContext (few_slots abi) (freshContext_isSlot abi) distinct ?_ ?_ ?_ ?_ large fits
  · exact List.mem_cons_of_mem _ List.mem_cons_self
  · exact List.mem_of_mem_drop (i := 2) List.mem_cons_self
  · exact List.mem_of_mem_drop (i := 3) List.mem_cons_self
  · exact List.mem_of_mem_drop (i := 4) List.mem_cons_self

/-- What the words of `co_swap_function` load and save. -/
theorem coSwapFunction_agrees (abi : FloatAbi) : ∃ code,
    (coSwapFunction abi).mapM decode = some code ∧ SwapAgrees abi code := by
  have loads : through 10#5 0#64 (swapBody abi ++ [.jalr 0#5 12#5 0#12]) =
      fill regA0 (swapPlan abi regA2) := by
    cases abi <;> decide +kernel
  have stores : through 11#5 0#64 (swapBody abi ++ [.jalr 0#5 12#5 0#12]) =
      spill regA1 (swapPlan abi regRa) := by
    cases abi <;> decide +kernel
  have loadedFrom : ∀ reg slot, (swapPlan abi regA2).filter (fun entry => entry.1 = reg) =
      [(reg, slotOffset abi slot)] → ∀ offset,
        .load reg regA0 offset ∈ fill regA0 (swapPlan abi regA2) ↔ offset = slotOffset abi slot := by
    intro reg slot only offset
    have member : (reg, offset) ∈ (swapPlan abi regA2).filter (fun entry => entry.1 = reg) ↔
        (reg, offset) ∈ swapPlan abi regA2 := by
      simp
    rw [only, List.mem_singleton, Prod.mk.injEq] at member
    simpa [fill] using member.symm
  refine ⟨_, coSwapFunction_decodes abi, ?_⟩
  constructor
  case sp =>
    rw [loads]
    exact loadedFrom (.x 2#5) .sp (by cases abi <;> decide +kernel)
  case fp =>
    rw [loads]
    exact loadedFrom (.x 8#5) .fp (by cases abi <;> decide +kernel)
  case pc =>
    rw [loads]
    exact loadedFrom regA2 .pc (by cases abi <;> decide +kernel)
  case jump => exact List.getLast?_concat
  case clientEntry =>
    have apart : ∀ entry ∈ swapPlan abi regRa,
        Isa.Disjoint entry.2 (slotOffset abi .clientEntry) := by
      cases abi <;> decide +kernel
    rw [stores]
    intro reg offset member
    obtain ⟨entry, planned, same⟩ := List.mem_map.mp member
    cases same
    exact apart entry planned

end Riscv64

namespace Aarch64

open Isa.A64

/-- The words load `sp`, `fp` and the target of their jump from the slots of the
`enum`, and a switch to a context does not save into the slot of `x19` from
which `co_entrypoint` reads there. -/
structure SwapAgrees : Prop where
  loads : ∀ core, ∃ after, coSwap core = some after ∧
    after.get .sp = loadDouble (core.get regX0 + slotOffset .sp) after.memory ∧
    after.get (.x 29#5) = loadDouble (core.get regX0 + slotOffset .fp) after.memory ∧
    after.pc = loadDouble (core.get regX0 + slotOffset .lr) after.memory
  clientEntry : ∀ core after, coSwap core = some after →
    saveLayout.Apart (core.get regX0) (core.get regX1) →
      coEntrypointCallee (core.get regX0) after.memory =
        coEntrypointCallee (core.get regX0) core.memory

theorem coDerive_context (large : 0x1000 ≤ size.toNat) (fits : base.toNat + size.toNat ≤ 2 ^ 64) :
    DerivedContext saveSlots .sp .fp .lr base size memory coEntrypoint
        (coDerive coEntrypoint memory base size entrypoint) ∧
      coEntrypointCallee (coDerive coEntrypoint memory base size entrypoint).2
        (coDerive coEntrypoint memory base size entrypoint).1 = entrypoint := by
  have distinct : [SaveSlot.sp, .lr, .x 19, .fp].Nodup := by decide
  rw [coDerive_eq]
  refine derivedContext few_slots freshContext_isSlot distinct ?_ ?_ ?_ ?_ large fits
  · exact List.mem_cons_self
  · exact List.mem_of_mem_drop (i := 3) List.mem_cons_self
  · exact List.mem_cons_of_mem _ List.mem_cons_self
  · exact List.mem_of_mem_drop (i := 2) List.mem_cons_self

theorem coSwapFunction_agrees : SwapAgrees := by
  constructor
  case loads =>
    intro core
    obtain ⟨after, ran, -, loaded, -, jumped⟩ := coSwap_runs core
    have sp : (Reg.sp, slotOffset .sp) ∈ saveLayout.saved := by decide +kernel
    have fp : (Reg.x 29#5, slotOffset .fp) ∈ saveLayout.saved := by decide +kernel
    exact ⟨after, ran, loaded _ sp, loaded _ fp, jumped⟩
  case clientEntry =>
    intro core after ranAlso apart
    obtain ⟨reached, ran, switched⟩ := swaps (core.get regX0) (core.get regX1) core rfl rfl
    obtain rfl := Option.some.inj (ran.symm.trans ranAlso)
    have isSlot : slotOffset (.x 19) ∈ saveLayout.linkOffset :: saveLayout.saved.map Prod.snd := by
      decide +kernel
    have address : slotAddress (core.get regX0) (.x 19) = core.get regX0 + slotOffset (.x 19) := by
      rw [slotAddress, slotOffset, BitVec.sub_eq_add_neg]
    rw [coEntrypointCallee, coEntrypointCallee, address]
    apply loadDouble_congr
    intro index bounded
    exact switched.outside _ (apart _ (saveLayout_enclosed.inArea isSlot (core.get regX0) bounded))

end Aarch64

/-- The contexts that `co_derive` lays out, on RISC-V with and without hard
floats and on AArch64, and the slots of them that `co_swap` loads. -/
theorem derived_contexts_match_switch :
    (∀ (base : Address) (size : BitVec 32), 0x1000 ≤ size.toNat →
      base.toNat + size.toNat ≤ 2 ^ 64 → ∀ (memory : Memory) (coEntrypoint entrypoint : Address),
        (∀ abi, DerivedContext (Riscv64.saveSlots abi) .sp .fp .pc base size memory coEntrypoint
            (Riscv64.coDerive abi coEntrypoint memory base size entrypoint) ∧
          Riscv64.coEntrypointCallee abi
            (Riscv64.coDerive abi coEntrypoint memory base size entrypoint).2
            (Riscv64.coDerive abi coEntrypoint memory base size entrypoint).1 = entrypoint) ∧
        DerivedContext Aarch64.saveSlots .sp .fp .lr base size memory coEntrypoint
            (Aarch64.coDerive coEntrypoint memory base size entrypoint) ∧
          Aarch64.coEntrypointCallee (Aarch64.coDerive coEntrypoint memory base size entrypoint).2
            (Aarch64.coDerive coEntrypoint memory base size entrypoint).1 = entrypoint) ∧
      (∀ abi, ∃ code, (Riscv64.coSwapFunction abi).mapM Rv64.decode = some code ∧
        Riscv64.SwapAgrees abi code) ∧
      Aarch64.SwapAgrees := by
  refine ⟨?_, Riscv64.coSwapFunction_agrees, Aarch64.coSwapFunction_agrees⟩
  intro base size large fits memory coEntrypoint entrypoint
  exact ⟨fun abi => Riscv64.coDerive_context abi large fits, Aarch64.coDerive_context large fits⟩

/-- A stack at an odd address whose size is no multiple of 8. -/
theorem derived_contexts_match_switch_unaligned :
    LaidOut (Riscv64.saveSlots .hard) .sp 0x10001#64 0x1003#32 (fun _ => 0#8)
        (Riscv64.coDerive .hard 0x1000#64 (fun _ => 0#8) 0x10001#64 0x1003#32 0x2000#64) ∧
      LaidOut Aarch64.saveSlots .sp 0x10001#64 0x1003#32 (fun _ => 0#8)
        (Aarch64.coDerive 0x1000#64 (fun _ => 0#8) 0x10001#64 0x1003#32 0x2000#64) := by
  obtain ⟨riscv, aarch, -⟩ := derived_contexts_match_switch.1 0x10001#64 0x1003#32 (by decide)
    (by decide) (fun _ => 0#8) 0x1000#64 0x2000#64
  exact ⟨(riscv .hard).1.toLaidOut, aarch.toLaidOut⟩

end Libmicrokitco
