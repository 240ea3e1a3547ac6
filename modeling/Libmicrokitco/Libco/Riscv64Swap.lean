import Libmicrokitco.Libco.Riscv64
import Libmicrokitco.Isa.ContextSwitch
import Libmicrokitco.Isa.Rv64

/-!
# The RISC-V context switch

The words of `co_swap_function`, and what running them does at any handles. The
function finds the save areas with `addiw`, which keeps only the low 32 bits of
an address.
-/

namespace Libmicrokitco.Riscv64

open Isa Isa.Rv64

/-- `co_swap_function`, as machine words. -/
def coSwapFunction : FloatAbi → List (BitVec 32)
  | .soft =>
    [0xf885859b, -- addiw a1, a1, -120
      -- sd ra, 0(a1) to sd s11, 104(a1)
      0x0015b023, 0x0025b423, 0x0085b823, 0x0095bc23, 0x0325b023, 0x0335b423, 0x0345b823,
      0x0355bc23, 0x0565b023, 0x0575b423, 0x0585b823, 0x0595bc23, 0x07a5b023, 0x07b5b423,
      0x0615b823, -- sd ra, 112(a1)
      0xf885051b, -- addiw a0, a0, -120
      -- ld ra, 0(a0) to ld s11, 104(a0)
      0x00053083, 0x00853103, 0x01053403, 0x01853483, 0x02053903, 0x02853983, 0x03053a03,
      0x03853a83, 0x04053b03, 0x04853b83, 0x05053c03, 0x05853c83, 0x06053d03, 0x06853d83,
      0x07053603, -- ld a2, 112(a0)
      0x00060067] -- jalr x0, 0(a2)
  | .hard =>
    [0xf285859b, -- addiw a1, a1, -216
      -- sd ra, 0(a1) to sd s11, 104(a1)
      0x0015b023, 0x0025b423, 0x0085b823, 0x0095bc23, 0x0325b023, 0x0335b423, 0x0345b823,
      0x0355bc23, 0x0565b023, 0x0575b423, 0x0585b823, 0x0595bc23, 0x07a5b023, 0x07b5b423,
      -- fsd f8, 112(a1) to fsd f27, 200(a1)
      0x0685b827, 0x0695bc27, 0x0925b027, 0x0935b427, 0x0945b827, 0x0955bc27, 0x0b65b027,
      0x0b75b427, 0x0b85b827, 0x0b95bc27, 0x0da5b027, 0x0db5b427,
      0x0c15b823, -- sd ra, 208(a1)
      0xf285051b, -- addiw a0, a0, -216
      -- ld ra, 0(a0) to ld s11, 104(a0)
      0x00053083, 0x00853103, 0x01053403, 0x01853483, 0x02053903, 0x02853983, 0x03053a03,
      0x03853a83, 0x04053b03, 0x04853b83, 0x05053c03, 0x05853c83, 0x06053d03, 0x06853d83,
      -- fld f8, 112(a0) to fld f27, 200(a0)
      0x07053407, 0x07853487, 0x08053907, 0x08853987, 0x09053a07, 0x09853a87, 0x0a053b07,
      0x0a853b87, 0x0b053c07, 0x0b853c87, 0x0c053d07, 0x0c853d87,
      0x0d053603, -- ld a2, 208(a0)
      0x00060067] -- jalr x0, 0(a2)

/-- `co_swap`, called with `to` in `a0` and `from` in `a1`. -/
def coSwap (abi : FloatAbi) (hart : Hart) : Option Hart := isa.run (coSwapFunction abi) hart

/-- The registers of the calling convention that the switch uses. -/
def regRa : Reg := .x 1#5
def regA0 : Reg := .x 10#5
def regA1 : Reg := .x 11#5
def regA2 : Reg := .x 12#5

/-- The register behind a slot. `s0` is the frame pointer, `s1` is `x9` and the
others follow from `x18` on. -/
def SaveSlot.register : SaveSlot → Option Reg
  | .ra => some regRa
  | .sp => some (.x 2#5)
  | .fp => some (.x 8#5)
  | .s n => some (.x (if n = 1 then 9#5 else BitVec.ofNat 5 (n + 16)))
  | .f n => some (.f (BitVec.ofNat 5 n))
  | .pc | .clientEntry => none

/-- The offset of a slot from the handle. -/
def slotOffset (abi : FloatAbi) (slot : SaveSlot) : BitVec 64 :=
  -BitVec.ofNat 64 (8 * (saveSlots abi).idxOf slot)

/-- The slots of the `enum` as a switch should use them. -/
def saveLayout (abi : FloatAbi) : SaveLayout Reg where
  words := numSaved abi
  saved := (saveSlots abi).filterMap fun slot =>
    slot.register.map fun reg => (reg, slotOffset abi slot)
  link := regRa
  linkOffset := slotOffset abi .pc
  target := jumpTarget

/-- `co_swap` with its arguments and its save areas. -/
def swap (abi : FloatAbi) : Switch Reg where
  run := coSwap abi
  handleReg := regA0
  previousReg := regA1
  layout := saveLayout abi

/-- The length of a save area up to its top word. -/
def areaDepth (abi : FloatAbi) : Nat := 8 * (numSaved abi - 1)

/-- The immediate that is to take a handle to the lowest word of its area. -/
def depthImm (abi : FloatAbi) : BitVec 12 := -BitVec.ofNat 12 (areaDepth abi)

/-- The slots from the lowest address up; `pcRegister` goes with the `pc` slot. -/
def swapPlan (abi : FloatAbi) (pcRegister : Reg) : Plan Reg :=
  (saveLayout abi).saved.reverse ++ [(pcRegister, slotOffset abi .pc)]

/-- The plan with offsets from the lowest word of the area. -/
def raised (abi : FloatAbi) (plan : Plan Reg) : Plan Reg :=
  plan.map fun entry => (entry.1, entry.2 + BitVec.ofNat 64 (areaDepth abi))

/-- The instructions of `co_swap_function` before its jump. -/
def swapBody (abi : FloatAbi) : List Instr :=
  .addiw 11#5 11#5 (depthImm abi) ::
    (spill regA1 (raised abi (swapPlan abi regRa))).map .transfer ++
  .addiw 10#5 10#5 (depthImm abi) ::
    (fill regA0 (raised abi (swapPlan abi regA2))).map .transfer

/-- What the words say. -/
theorem coSwapFunction_decodes (abi : FloatAbi) :
    (coSwapFunction abi).mapM decode = some (swapBody abi ++ [.jalr 0#5 12#5 0#12]) := by
  cases abi <;> decide +kernel

variable {abi : FloatAbi} {hart : Hart} {handle previous place : Address}

theorem saveLayout_enclosed (abi : FloatAbi) : (saveLayout abi).Enclosed := by
  cases abi <;> decide +kernel

theorem swapPlan_spread : (swapPlan abi regRa).Spread := by
  cases abi <;> decide +kernel

/-- The values `co_swap` spills are those it is called with. -/
private theorem spilled_after_addiw {imm : BitVec 12} {base : Address} {memory : Memory} :
    spilled (Rv64.execute (.addiw 11#5 11#5 imm) hart).get base (raised abi (swapPlan abi regRa))
        memory =
      spilled hart.get base (raised abi (swapPlan abi regRa)) memory := by
  have absent : ∀ entry ∈ raised abi (swapPlan abi regRa), entry.1 ≠ regA1 := by
    cases abi <;> decide +kernel
  exact spilled_congr fun entry member => get_addiw_of_ne (absent entry member)

/-- A run of `co_swap`, whatever its arguments: it spills at the one address
`addiw` makes and fills from the other. -/
theorem coSwap_runs (abi : FloatAbi) (hart : Hart) : ∃ after, coSwap abi hart = some after ∧
    after.memory = spilled hart.get (addWord (hart.get regA1) (depthImm abi))
      (raised abi (swapPlan abi regRa)) hart.memory ∧
    (∀ entry ∈ raised abi (saveLayout abi).saved, after.get entry.1 =
      loadDouble (addWord (hart.get regA0) (depthImm abi) + entry.2) after.memory) ∧
    after.pc = jumpTarget (loadDouble (addWord (hart.get regA0) (depthImm abi) +
      (slotOffset abi .pc + BitVec.ofNat 64 (areaDepth abi))) after.memory) := by
  have straight : ∀ instr ∈ swapBody abi, instr.isJump = false := by
    cases abi <;> decide +kernel
  have fillable : ((raised abi (swapPlan abi regA2)).map Prod.fst).Nodup ∧
      ∀ entry ∈ raised abi (swapPlan abi regA2), entry.1 ≠ regA0 ∧ entry.1 ≠ Registers.zero := by
    cases abi <;> decide +kernel
  -- one state after each of the four stretches of the body
  obtain ⟨saving, isSaving⟩ : ∃ next, next = Rv64.execute (.addiw 11#5 11#5 (depthImm abi)) hart :=
    ⟨_, rfl⟩
  obtain ⟨saved, isSaved, savedMemory, savedRegs⟩ :=
    executeAll_spill saving regA1 (raised abi (swapPlan abi regRa))
  obtain ⟨loading, isLoading⟩ : ∃ next, next = Rv64.execute (.addiw 10#5 10#5 (depthImm abi)) saved :=
    ⟨_, rfl⟩
  obtain ⟨loaded, isLoaded, loadedMemory, loadedRegs⟩ :=
    executeAll_fill loading fillable.1 fillable.2
  have ran : coSwap abi hart = some (Rv64.execute (.jalr 0#5 12#5 0#12) loaded) := by
    have body : isa.executeAll (swapBody abi) hart = loaded := by
      change isa.executeAll (_ ++ _) (Rv64.execute (.addiw 11#5 11#5 (depthImm abi)) hart) = loaded
      rw [← isSaving, InstructionSet.executeAll_append, isSaved, ← isLoaded, isLoading]
      rfl
    rw [← body]
    exact isa.run_of_decode (coSwapFunction_decodes abi) straight rfl
  have baseA1 : saving.get regA1 = addWord (hart.get regA1) (depthImm abi) := by
    rw [isSaving]
    exact get_addiw_self (by decide)
  have baseA0 : loading.get regA0 = addWord (hart.get regA0) (depthImm abi) := by
    have unchanged : saved.get regA0 = hart.get regA0 := by
      rw [savedRegs, isSaving]
      exact get_addiw_of_ne (by decide)
    rw [isLoading, ← unchanged]
    exact get_addiw_self (by decide)
  have sameMemory : loaded.memory = saved.memory := by
    rw [loadedMemory, isLoading]
    rfl
  have fromSlot : ∀ entry ∈ raised abi (swapPlan abi regA2), loaded.get entry.1 =
      loadDouble (addWord (hart.get regA0) (depthImm abi) + entry.2) loaded.memory := by
    intro entry member
    rw [← baseA0, loadedRegs entry member, loadedMemory]
  refine ⟨_, ran, ?_, ?_, ?_⟩
  · change loaded.memory = _
    rw [sameMemory, savedMemory, baseA1, isSaving]
    exact spilled_after_addiw
  · intro entry member
    obtain ⟨slot, inLayout, rfl⟩ := List.mem_map.mp member
    have planned : slot ∈ swapPlan abi regA2 :=
      List.mem_append_left _ (List.mem_reverse.mpr inLayout)
    have inPlan : (slot.1, slot.2 + BitVec.ofNat 64 (areaDepth abi)) ∈ raised abi (swapPlan abi regA2) :=
      List.mem_map.mpr ⟨slot, planned, rfl⟩
    have notZero : slot.1 ≠ .x 0#5 := (fillable.2 _ inPlan).2
    change (Cpu.set (.x 0#5) _ loaded).get slot.1 = _
    rw [Cpu.get_set_of_ne notZero]
    exact fromSlot _ inPlan
  · have inPlan : (regA2, slotOffset abi .pc + BitVec.ofNat 64 (areaDepth abi)) ∈
        raised abi (swapPlan abi regA2) :=
      List.mem_map.mpr ⟨(regA2, slotOffset abi .pc), List.mem_append_right _ List.mem_cons_self, rfl⟩
    have noOffset : BitVec.signExtend 64 0#12 = 0#64 := by decide
    change jumpTarget (loaded.get regA2 + BitVec.signExtend 64 0#12) = _
    rw [noOffset, BitVec.add_zero, fromSlot _ inPlan]
    rfl

end Libmicrokitco.Riscv64
