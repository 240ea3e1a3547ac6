import Libmicrokitco.Libco.Aarch64
import Libmicrokitco.Isa.ContextSwitch
import Libmicrokitco.Isa.A64

/-!
# The AArch64 context switch

The words of `co_swap_function`, and what running them does at any handles.
`sp` cannot be stored directly and goes through `x16` both ways.
-/

namespace Libmicrokitco.Aarch64

open Isa Isa.A64

/-- `co_swap_function`, as machine words. -/
def coSwapFunction : List (BitVec 32) :=
  [0x6D36382F, -- stp d15, d14, [x1, -160]
    0x6D37302D, -- stp d13, d12, [x1, -144]
    0x6D38282B, -- stp d11, d10, [x1, -128]
    0x6D392029, -- stp d9, d8, [x1, -112]
    0xA93A6C3C, -- stp x28, x27, [x1, -96]
    0xA93B643A, -- stp x26, x25, [x1, -80]
    0xA93C5C38, -- stp x24, x23, [x1, -64]
    0xA93D5436, -- stp x22, x21, [x1, -48]
    0xA93E4C34, -- stp x20, x19, [x1, -32]
    0x910003F0, -- mov x16, sp
    0xA93F403D, -- stp fp, x16, [x1, -16]
    0xF900003E, -- str lr, [x1]
    0x6D76380F, -- ldp d15, d14, [x0, -160]
    0x6D77300D, -- ldp d13, d12, [x0, -144]
    0x6D78280B, -- ldp d11, d10, [x0, -128]
    0x6D792009, -- ldp d9, d8, [x0, -112]
    0xA97A6C1C, -- ldp x28, x27, [x0, -96]
    0xA97B641A, -- ldp x26, x25, [x0, -80]
    0xA97C5C18, -- ldp x24, x23, [x0, -64]
    0xA97D5416, -- ldp x22, x21, [x0, -48]
    0xA97E4C14, -- ldp x20, x19, [x0, -32]
    0xA97F401D, -- ldp fp, x16, [x0, -16]
    0x9100021F, -- mov sp, x16
    0xF940001E, -- ldr lr, [x0]
    0xD61F03C0] -- br lr

/-- `co_swap`, called with `to` in `x0` and `from` in `x1`. -/
def coSwap (core : Core) : Option Core := isa.run coSwapFunction core

/-- The registers of the calling convention that the switch uses; `x16` is scratch. -/
def regLr : Reg := .x 30#5
def regX0 : Reg := .x 0#5
def regX1 : Reg := .x 1#5
def regX16 : Reg := .x 16#5

/-- The register behind a slot. -/
def SaveSlot.register : SaveSlot → Reg
  | .lr => regLr
  | .sp => .sp
  | .fp => .x 29#5
  | .x n => .x (BitVec.ofNat 5 n)
  | .d n => .d (BitVec.ofNat 5 n)

/-- The slots of the `enum` as a switch should use them. -/
def saveLayout : SaveLayout Reg where
  words := regsCount
  saved := saveSlots.map fun slot => (slot.register, slotOffset slot)
  link := regLr
  linkOffset := slotOffset .lr
  target := id

/-- `co_swap` with its arguments and its save areas. -/
def swap : Switch Reg where
  run := coSwap
  handleReg := regX0
  previousReg := regX1
  layout := saveLayout

/-- The pairs that are saved and loaded directly. -/
def calleePairs : List Pair :=
  [⟨.d 15#5, .d 14#5, -160#64⟩, ⟨.d 13#5, .d 12#5, -144#64⟩, ⟨.d 11#5, .d 10#5, -128#64⟩,
    ⟨.d 9#5, .d 8#5, -112#64⟩, ⟨.x 28#5, .x 27#5, -96#64⟩, ⟨.x 26#5, .x 25#5, -80#64⟩,
    ⟨.x 24#5, .x 23#5, -64#64⟩, ⟨.x 22#5, .x 21#5, -48#64⟩, ⟨.x 20#5, .x 19#5, -32#64⟩]

/-- `fp`, and `x16` in place of `sp`. -/
def framePair : Pair := ⟨.x 29#5, regX16, -16#64⟩

/-- The instructions of `co_swap_function` before its jump. -/
def swapBody : List Instr :=
  storePairs regX1 calleePairs ++ .add regX16 .sp 0#64 ::
    storePairs regX1 [framePair] ++ .str regLr regX1 0#64 ::
    loadPairs regX0 (calleePairs ++ [framePair]) ++ .add .sp regX16 0#64 ::
    [.ldr regLr regX0 0#64]

/-- What the words say. -/
theorem coSwapFunction_decodes : coSwapFunction.mapM decode = some (swapBody ++ [.br regLr]) := by
  decide +kernel

/-- What is saved, from the lowest address up. -/
def swapPlan : Plan Reg :=
  (calleePairs ++ [framePair]).flatMap Pair.entries ++ [(regLr, 0#64)]

/-- The registers as they are saved, with `sp` in `x16`. -/
def outgoing (core : Core) (reg : Reg) : Address :=
  if reg = regX16 then core.get .sp else core.get reg

theorem saveLayout_enclosed : saveLayout.Enclosed := by decide +kernel

theorem swapPlan_spread : swapPlan.Spread := by decide +kernel

/-- A run of `co_swap`, whatever its arguments. -/
theorem coSwap_runs (core : Core) : ∃ after, coSwap core = some after ∧
    after.memory = spilled (outgoing core) (core.get regX1) swapPlan core.memory ∧
    (∀ entry ∈ saveLayout.saved, after.get entry.1 =
      loadDouble (core.get regX0 + entry.2) after.memory) ∧
    (∀ reg ∉ saveLayout.saved.map Prod.fst, reg ≠ regX16 → after.get reg = core.get reg) ∧
    after.pc = loadDouble (core.get regX0 + slotOffset .lr) after.memory := by
  have straight : ∀ instr ∈ swapBody, instr.isJump = false := by decide +kernel
  have fillable : (((calleePairs ++ [framePair]).flatMap Pair.entries).map Prod.fst).Nodup ∧
      ∀ entry ∈ (calleePairs ++ [framePair]).flatMap Pair.entries,
        entry.1 ≠ regX0 ∧ entry.1 ≠ Registers.zero := by decide +kernel
  -- one state after each stretch of the body
  obtain ⟨saving, isSaving, savingMemory, savingRegs⟩ := executeAll_storePairs core regX1 calleePairs
  obtain ⟨moved, isMoved⟩ : ∃ next, next = execute (.add regX16 .sp 0#64) saving := ⟨_, rfl⟩
  obtain ⟨framed, isFramed, framedMemory, framedRegs⟩ := executeAll_storePairs moved regX1 [framePair]
  obtain ⟨saved, isSaved⟩ : ∃ next, next = execute (.str regLr regX1 0#64) framed := ⟨_, rfl⟩
  obtain ⟨loaded, isLoaded, loadedMemory, loadedRegs, otherRegs⟩ :=
    executeAll_loadPairs saved fillable.1 fillable.2
  obtain ⟨restored, isRestored⟩ : ∃ next, next = execute (.add .sp regX16 0#64) loaded := ⟨_, rfl⟩
  obtain ⟨linked, isLinked⟩ : ∃ next, next = execute (.ldr regLr regX0 0#64) restored := ⟨_, rfl⟩
  have ran : coSwap core = some (execute (.br regLr) linked) := by
    have body : isa.executeAll swapBody core = linked := by
      rw [isLinked, isRestored, ← isLoaded, isSaved, ← isFramed, isMoved, ← isSaving, swapBody]
      simp only [InstructionSet.executeAll_append, InstructionSet.executeAll_cons]
      rfl
    rw [← body]
    exact isa.run_of_decode coSwapFunction_decodes straight rfl
  have movedRegs : ∀ reg, moved.get reg = outgoing core reg := by
    intro reg
    rw [outgoing, isMoved]
    split
    case isTrue same =>
      rw [same, get_add_self (by decide), savingRegs, BitVec.add_zero]
    case isFalse different =>
      rw [get_add_of_ne different, savingRegs]
  have savedRegs : ∀ reg, saved.get reg = outgoing core reg := by
    intro reg
    rw [← movedRegs, ← framedRegs, isSaved]
    rfl
  have baseX1 : outgoing core regX1 = core.get regX1 := if_neg (by decide)
  have savedMemory : saved.memory = spilled (outgoing core) (core.get regX1) swapPlan core.memory := by
    have callee : saving.memory = spilled (outgoing core) (core.get regX1)
        (calleePairs.flatMap Pair.entries) core.memory := by
      have direct : ∀ entry ∈ calleePairs.flatMap Pair.entries, entry.1 ≠ regX16 := by
        decide +kernel
      rw [savingMemory]
      exact spilled_congr fun entry member => (if_neg (direct entry member)).symm
    have frame : framed.memory = spilled (outgoing core) (core.get regX1)
        ([framePair].flatMap Pair.entries) saving.memory := by
      rw [framedMemory, movedRegs, baseX1, isMoved]
      exact spilled_congr fun entry _ => isMoved ▸ movedRegs entry.1
    have base : framed.get regX1 = core.get regX1 := by
      rw [framedRegs, movedRegs, baseX1]
    have link : framed.get regLr = outgoing core regLr := by
      rw [framedRegs, movedRegs]
    rw [isSaved, swapPlan, List.flatMap_append, spilled_append, spilled_append, ← callee, ← frame]
    change storeDouble (framed.get regX1 + 0#64) (framed.get regLr) framed.memory = _
    rw [base, link]
    rfl
  have baseX0 : saved.get regX0 = core.get regX0 := by
    rw [savedRegs]
    exact if_neg (by decide)
  have fromSlot : ∀ entry ∈ (calleePairs ++ [framePair]).flatMap Pair.entries,
      loaded.get entry.1 = loadDouble (core.get regX0 + entry.2) saved.memory := by
    intro entry member
    rw [loadedRegs entry member, baseX0]
  have lastMemory : linked.memory = saved.memory := by
    rw [isLinked, isRestored]
    exact loadedMemory
  have lastSp : linked.get .sp = loaded.get regX16 := by
    rw [isLinked, execute, Cpu.get_advance, Cpu.transfer, Cpu.get_set_of_ne (by decide), isRestored,
      get_add_self (by decide), BitVec.add_zero]
  have lastLr : linked.get regLr = loadDouble (core.get regX0 + 0#64) saved.memory := by
    have base : restored.get regX0 = core.get regX0 := by
      rw [isRestored, get_add_of_ne (by decide), otherRegs regX0 (by decide +kernel), baseX0]
    have memory : restored.memory = saved.memory := by
      rw [isRestored]
      exact loadedMemory
    rw [isLinked, execute, Cpu.get_advance, Cpu.transfer, Cpu.get_set_self (by decide), base, memory]
  have lastOther : ∀ reg, reg ≠ .sp → reg ≠ regLr → linked.get reg = loaded.get reg := by
    intro reg notSp notLr
    rw [isLinked, execute, Cpu.get_advance, Cpu.transfer, Cpu.get_set_of_ne notLr, isRestored,
      get_add_of_ne notSp]
  refine ⟨_, ran, ?_, ?_, ?_, ?_⟩
  · exact lastMemory.trans savedMemory
  · intro entry member
    change linked.get entry.1 = loadDouble _ linked.memory
    have cases : ∀ entry ∈ saveLayout.saved, entry = (regLr, 0#64) ∨ entry = (.sp, -8#64) ∨
        entry ∈ (calleePairs ++ [framePair]).flatMap Pair.entries ∧ entry.1 ≠ .sp ∧
          entry.1 ≠ regLr := by decide +kernel
    rw [lastMemory]
    rcases cases entry member with rfl | rfl | ⟨paired, notSp, notLr⟩
    · exact lastLr
    · exact lastSp.trans (fromSlot (regX16, -8#64) (by decide +kernel))
    · exact (lastOther _ notSp notLr).trans (fromSlot entry paired)
  · intro reg notSaved notX16
    have targets : ∀ reg ∈ ((calleePairs ++ [framePair]).flatMap Pair.entries).map Prod.fst,
        reg ∈ saveLayout.saved.map Prod.fst ∨ reg = regX16 := by decide +kernel
    have notLoaded : reg ∉ ((calleePairs ++ [framePair]).flatMap Pair.entries).map Prod.fst :=
      fun isLoaded => (targets reg isLoaded).elim notSaved notX16
    have notSp : reg ≠ .sp := fun same => notSaved (same ▸ (by decide +kernel))
    have notLr : reg ≠ regLr := fun same => notSaved (same ▸ (by decide +kernel))
    change linked.get reg = core.get reg
    rw [lastOther reg notSp notLr, otherRegs reg notLoaded, savedRegs]
    exact if_neg notX16
  · change linked.get regLr = loadDouble _ linked.memory
    rw [lastMemory]
    exact lastLr

end Libmicrokitco.Aarch64
