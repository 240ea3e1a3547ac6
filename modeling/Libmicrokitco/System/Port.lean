import Libmicrokitco.Guarantees.Amd64Switch
import Libmicrokitco.Guarantees.Layout
import Libmicrokitco.Guarantees.RiscvSwitch

/-!
# Back ends with their switches

A `Port` is a back end of libco together with its `co_swap`. It is lawful if the
switch keeps contexts and can enter those that `co_derive` makes. The three
ports to 64-bit targets are lawful.
-/

namespace Libmicrokitco

open Isa StackTop

/-- A back end of libco with its switch. -/
structure Port (ρ : Type) where
  backend : Backend
  mechanism : Mechanism ρ
  stackPointer : ρ
  /-- The stack pointer modulo 16 on entry to a function. -/
  entryAlignment : Nat
  /-- Where `co_entrypoint` starts. -/
  start : Address
  /-- What `co_entrypoint` calls. -/
  callee : Address → Memory → Address
  /-- The handles that the switch can use. -/
  Serves : Address → Prop

variable {ρ : Type}

/-- The handle of the context in a stack. -/
def Port.handle (port : Port ρ) (base : Address) (size : BitVec 32) : Address :=
  base + port.backend.handleOffset size

/-- Memory whose stack is as `co_derive` leaves one that was cleared before. -/
def Port.Derived (port : Port ρ) (base : Address) (size : BitVec 32) (entrypoint : Address)
    (memory : Memory) : Prop :=
  ∀ place, InStack base size place →
    memory place = (port.backend.coDerive (fun _ => 0#8) base size entrypoint).1 place

/-- A context as `co_derive` makes it, in a stack and in memory. -/
structure Port.Fresh (port : Port ρ) (base : Address) (size : BitVec 32) (entrypoint : Address)
    (memory : Memory) (saved : Saved ρ) : Prop where
  start : saved.resume = port.start
  inStack : InStack base size (saved.regs port.stackPointer)
  aligned : base.toNat % 16 = 0 →
    (saved.regs port.stackPointer).toNat % 16 = port.entryAlignment
  callee : port.callee (port.handle base size) memory = entrypoint
  sited : port.mechanism.Sited (port.handle base size) saved
  inside : ∀ place, port.mechanism.Footprint (port.handle base size) saved place →
    InStack base size place
  holds : port.mechanism.Holds (port.handle base size) saved memory

/-- What the library relies on. -/
structure Port.Lawful [DecidableEq ρ] [Registers ρ] (port : Port ρ) : Prop where
  confined : port.backend.Confined
  switch : port.mechanism.Lawful
  restores : port.stackPointer ∈ port.mechanism.kept
  derives : ∀ {base size entrypoint memory}, 0x1000 ≤ size.toNat →
    base.toNat + size.toNat ≤ 2 ^ 64 → port.Serves (port.handle base size) →
      port.Derived base size entrypoint memory →
        ∃ saved, port.Fresh base size entrypoint memory saved

variable {base entrypoint coEntrypoint place addr : Address} {size : BitVec 32} {memory : Memory}

/-- Save areas below the top of a stack lie inside it. -/
theorem inStack_of_inArea {layout : SaveLayout ρ} (few : layout.words ≤ 32)
    (large : 0x1000 ≤ size.toNat) (fits : base.toNat + size.toNat ≤ 2 ^ 64)
    (inside : layout.InArea (top base size) place) : InStack base size place := by
  have address : (top base size - BitVec.ofNat 64 (8 * 0)).toNat =
      base.toNat + 8 * (size.toNat / 8 - 1 - 0) := toNat_slot (by omega) large fits
  rw [Nat.mul_zero, BitVec.sub_zero] at address
  unfold SaveLayout.InArea at inside
  unfold InStack
  bv_omega

/-- A context in the top words of a stack is one that a switch with the same
slots resumes. -/
theorem exists_fresh_of_derived {σ : Type} [DecidableEq σ] {slots : List σ}
    {spSlot fpSlot startSlot : σ} [DecidableEq ρ] [Registers ρ] (switch : Switch ρ)
    (Fits : Address → Prop) {derived : Memory × Address} {sp : ρ}
    (context : DerivedContext slots spSlot fpSlot startSlot base size (fun _ => 0#8) coEntrypoint
      derived)
    (nodup : (switch.layout.saved.map Prod.fst).Nodup) (fits : base.toNat + size.toNat ≤ 2 ^ 64)
    (spMember : spSlot ∈ slots) (startMember : startSlot ∈ slots)
    (spSaved : (sp, -BitVec.ofNat 64 (8 * slots.idxOf spSlot)) ∈ switch.layout.saved)
    (link : switch.layout.linkOffset = -BitVec.ofNat 64 (8 * slots.idxOf startSlot))
    (agrees : ∀ place, InStack base size place → memory place = derived.1 place) :
    ∃ saved, (switch.mechanism Fits).Holds derived.2 saved memory ∧
      saved.resume = switch.layout.target coEntrypoint ∧ InStack base size (saved.regs sp) ∧
        (saved.regs sp).toNat % 16 = 0 := by
  obtain ⟨saved, holds, resume, regs⟩ := switch.exists_holds Fits derived.2 memory nodup
  have slot : ∀ slot ∈ slots, loadDouble (derived.2 + -BitVec.ofNat 64 (8 * slots.idxOf slot)) memory =
      loadDouble (slotAt slots derived.2 slot) derived.1 := by
    intro slot member
    rw [← BitVec.sub_eq_add_neg]
    exact loadDouble_inStack fits (context.slotsInside slot member) agrees
  have pointer : saved.regs sp = loadDouble (slotAt slots derived.2 spSlot) derived.1 :=
    (regs _ spSaved).trans (slot spSlot spMember)
  refine ⟨saved, holds, ?_, ?_, ?_⟩
  · rw [resume, link, slot startSlot startMember, context.start]
  · have above := context.aboveBase
    have below := context.belowSlots spSlot spMember
    have room := (context.slotsInside spSlot spMember).2
    rw [pointer]
    unfold InStack
    omega
  · rw [pointer]
    exact context.aligned

namespace Riscv64

open Isa.Rv64

/-- The RISC-V port. A jump clears the lowest bit of its target. -/
def port (abi : FloatAbi) (coEntrypoint : Address) : Port Reg where
  backend := backend abi coEntrypoint
  mechanism := (swap abi).mechanism (FitsWord abi)
  stackPointer := .x 2#5
  entryAlignment := 0
  start := jumpTarget coEntrypoint
  callee := coEntrypointCallee abi
  Serves := FitsWord abi

theorem port_lawful (abi : FloatAbi) (coEntrypoint : Address) : (port abi coEntrypoint).Lawful := by
  constructor
  case confined => exact backend_confined abi
  case switch => exact Switch.mechanism_lawful (saveLayout_enclosed abi) swaps_of_fitsWord
  case restores =>
    have isKept : Reg.x 2#5 ∈ (saveLayout abi).saved.map Prod.fst := by
      cases abi <;> decide +kernel
    exact isKept
  case derives =>
    intro base size entrypoint memory large fits serves agrees
    obtain ⟨derived, isDerived⟩ : ∃ derived,
        derived = coDerive abi coEntrypoint (fun _ => 0#8) base size entrypoint := ⟨_, rfl⟩
    obtain ⟨context, callee⟩ : DerivedContext (saveSlots abi) .sp .fp .pc base size (fun _ => 0#8)
        coEntrypoint derived ∧ coEntrypointCallee abi derived.2 derived.1 = entrypoint := by
      rw [isDerived]
      exact coDerive_context abi large fits
    subst isDerived
    have nodup : ((saveLayout abi).saved.map Prod.fst).Nodup := by cases abi <;> decide +kernel
    have slots : SaveSlot.sp ∈ saveSlots abi ∧ .pc ∈ saveSlots abi ∧ .clientEntry ∈ saveSlots abi := by
      cases abi <;> decide
    have words : (saveLayout abi).words ≤ 32 := few_slots abi
    have spSaved : (Reg.x 2#5, slotOffset abi .sp) ∈ (saveLayout abi).saved := by
      cases abi <;> decide +kernel
    obtain ⟨saved, holds, resume, pointer, aligned⟩ := exists_fresh_of_derived (swap abi)
      (FitsWord abi) context nodup fits slots.1 slots.2.1 spSaved rfl agrees
    refine ⟨saved, resume, pointer, fun _ => aligned, ?_, serves, fun place => ?_, holds⟩
    · apply Eq.trans _ callee
      exact loadDouble_inStack fits (context.slotsInside _ slots.2.2) agrees
    · exact inStack_of_inArea words large fits

end Riscv64

namespace Aarch64

open Isa.A64

/-- The AArch64 port. -/
def port (coEntrypoint : Address) : Port Reg where
  backend := backend coEntrypoint
  mechanism := swap.mechanism fun _ => True
  stackPointer := .sp
  entryAlignment := 0
  start := coEntrypoint
  callee := coEntrypointCallee
  Serves _ := True

theorem port_lawful (coEntrypoint : Address) : (port coEntrypoint).Lawful := by
  constructor
  case confined => exact backend_confined
  case switch => exact Switch.mechanism_lawful saveLayout_enclosed fun _ _ => swaps _ _
  case restores =>
    have isKept : Reg.sp ∈ saveLayout.saved.map Prod.fst := by decide +kernel
    exact isKept
  case derives =>
    intro base size entrypoint memory large fits _ agrees
    obtain ⟨derived, isDerived⟩ : ∃ derived,
        derived = coDerive coEntrypoint (fun _ => 0#8) base size entrypoint := ⟨_, rfl⟩
    obtain ⟨context, callee⟩ : DerivedContext saveSlots .sp .fp .lr base size (fun _ => 0#8)
        coEntrypoint derived ∧ coEntrypointCallee derived.2 derived.1 = entrypoint := by
      rw [isDerived]
      exact coDerive_context large fits
    subst isDerived
    have nodup : (saveLayout.saved.map Prod.fst).Nodup := by decide +kernel
    have slots : SaveSlot.sp ∈ saveSlots ∧ .lr ∈ saveSlots ∧ .x 19 ∈ saveSlots := by decide
    have words : saveLayout.words ≤ 32 := few_slots
    have spSaved : (Reg.sp, slotOffset .sp) ∈ saveLayout.saved := by decide +kernel
    obtain ⟨saved, holds, resume, pointer, aligned⟩ := exists_fresh_of_derived
      swap (fun _ => True) context nodup fits slots.1 slots.2.1 spSaved rfl agrees
    refine ⟨saved, resume, pointer, fun _ => aligned, ?_, trivial, fun place => ?_, holds⟩
    · apply Eq.trans _ callee
      exact loadDouble_inStack fits (context.slotsInside _ slots.2.2) agrees
    · exact inStack_of_inArea words large fits

end Aarch64

namespace Amd64

open Isa.X64

/-- The AMD64 port. A function is entered with its return address on the stack. -/
def port (coEntrypoint : Address) : Port Reg where
  backend := backend coEntrypoint
  mechanism := mechanism
  stackPointer := rsp
  entryAlignment := 8
  start := coEntrypoint
  callee := coEntrypointCallee
  Serves handle := handle ≠ 0#64

theorem port_lawful (coEntrypoint : Address) : (port coEntrypoint).Lawful := by
  constructor
  case confined => exact backend_confined
  case switch => exact mechanism_lawful
  case restores => exact List.mem_cons_self
  case derives =>
    intro base size entrypoint memory large fits serves agrees
    have isBase : (port coEntrypoint).handle base size = base := BitVec.add_zero base
    rw [isBase] at serves
    have top := toNat_seekTop large fits
    have words : DerivedWords base size coEntrypoint entrypoint memory :=
      (coDerive_words serves large fits).congr large fits agrees
    obtain ⟨saved, holds, resume, pointer⟩ := exists_holds base memory
    rw [words.stackPointer] at resume pointer
    have slot : returnSlot saved = seekTop base size - 16#64 := by
      rw [returnSlot, pointer]
      exact BitVec.add_sub_cancel ..
    refine ⟨saved, ?_⟩
    constructor
    case start => exact resume.trans words.start
    case inStack =>
      change InStack base size (saved.regs rsp)
      rw [pointer]
      unfold InStack
      bv_omega
    case aligned =>
      intro aligned
      change (saved.regs rsp).toNat % 16 = 8
      rw [pointer]
      bv_omega
    case callee =>
      rw [isBase]
      exact words.callee
    case sited =>
      rw [isBase]
      intro place inWord inArea
      rw [slot] at inWord
      unfold InWord at inWord
      unfold InArea savedWords at inArea
      bv_omega
    case inside =>
      rw [isBase]
      rintro place (inArea | inWord)
      · unfold InArea savedWords at inArea
        unfold InStack
        bv_omega
      · rw [slot] at inWord
        unfold InWord at inWord
        unfold InStack
        bv_omega
    case holds =>
      rw [isBase]
      exact holds

end Amd64

end Libmicrokitco
