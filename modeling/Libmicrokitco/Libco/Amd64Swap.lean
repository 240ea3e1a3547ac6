import Libmicrokitco.Libco.Amd64
import Libmicrokitco.Isa.X64

/-!
# The AMD64 context switch

The bytes of `co_swap_function`, and what running them does at any handles. The
switch is called, so the return address is on the stack it leaves; it takes that
of the other thread off the stack it goes to.
-/

namespace Libmicrokitco.Amd64

open Isa Isa.X64

/-- The bytes of `co_swap_function` that are written out. -/
def coSwapCode : List (BitVec 8) :=
  [0x48, 0x89, 0x26, -- mov [rsi],rsp
    0x48, 0x8b, 0x27, -- mov rsp,[rdi]
    0x58, -- pop rax
    0x48, 0x89, 0x6e, 0x08, -- mov [rsi+ 8],rbp
    0x48, 0x89, 0x5e, 0x10, -- mov [rsi+16],rbx
    0x4c, 0x89, 0x66, 0x18, -- mov [rsi+24],r12
    0x4c, 0x89, 0x6e, 0x20, -- mov [rsi+32],r13
    0x4c, 0x89, 0x76, 0x28, -- mov [rsi+40],r14
    0x4c, 0x89, 0x7e, 0x30, -- mov [rsi+48],r15
    0x48, 0x8b, 0x6f, 0x08, -- mov rbp,[rdi+ 8]
    0x48, 0x8b, 0x5f, 0x10, -- mov rbx,[rdi+16]
    0x4c, 0x8b, 0x67, 0x18, -- mov r12,[rdi+24]
    0x4c, 0x8b, 0x6f, 0x20, -- mov r13,[rdi+32]
    0x4c, 0x8b, 0x77, 0x28, -- mov r14,[rdi+40]
    0x4c, 0x8b, 0x7f, 0x30, -- mov r15,[rdi+48]
    0xff, 0xe0] -- jmp rax

/-- `co_swap_function`, an array of 4096 bytes. -/
def coSwapFunction : List (BitVec 8) :=
  coSwapCode ++ List.replicate (4096 - coSwapCode.length) 0x00

/-- `co_swap`, called with `to` in `rdi` and `from` in `rsi`. An instruction has
at least one byte. -/
def coSwap (core : Core) : Option Core := isa.run coSwapFunction.length coSwapFunction core

/-- The registers behind the stack pointer, and where they are saved. -/
def calleePlan : Plan Reg :=
  [(rbp, 8#64), (rbx, 16#64), (.gpr 12#4, 24#64), (.gpr 13#4, 32#64), (.gpr 14#4, 40#64),
    (.gpr 15#4, 48#64)]

/-- The words of a save area. -/
def savedWords : Nat := 7

/-- All that is saved. -/
def swapPlan : Plan Reg := (rsp, 0#64) :: calleePlan

/-- The instructions of `co_swap_function` before its jump. -/
def swapBody : List Instr :=
  .mov (.store rsp rsi 0#64) :: .mov (.load rsp rdi 0#64) :: .pop rax ::
    (spill rsi calleePlan).map .mov ++ (fill rdi calleePlan).map .mov

/-- What the bytes say. -/
theorem coSwapFunction_decodes :
    isa.decodeAll coSwapFunction.length coSwapFunction = some (swapBody ++ [.jmp rax]) := by
  decide +kernel

theorem swapPlan_spread : swapPlan.Spread := by decide +kernel

/-- A run of `co_swap`, whatever its arguments. The stack pointer is loaded
before, and the registers after, those of the caller have been saved. -/
theorem coSwap_runs (core : Core) : ∃ after, coSwap core = some after ∧
    after.memory = spilled core.get (core.get rsi) swapPlan core.memory ∧
    (∀ entry ∈ calleePlan, after.get entry.1 =
      loadDouble (core.get rdi + entry.2) after.memory) ∧
    (∀ reg ∉ swapPlan.map Prod.fst, reg ≠ rax → after.get reg = core.get reg) ∧
    ∃ stored pointer, stored = storeDouble (core.get rsi + 0#64) (core.get rsp) core.memory ∧
      pointer = loadDouble (core.get rdi + 0#64) stored ∧
      after.get rsp = pointer + 8#64 ∧ after.pc = loadDouble pointer stored := by
  have fillable : (calleePlan.map Prod.fst).Nodup ∧
      ∀ entry ∈ calleePlan, entry.1 ≠ rdi ∧ entry.1 ≠ Registers.zero := by decide +kernel
  -- one state after each stretch of the body
  obtain ⟨left, isLeft⟩ : ∃ next, next = execute (.mov (.store rsp rsi 0#64)) core := ⟨_, rfl⟩
  obtain ⟨entered, isEntered⟩ : ∃ next, next = execute (.mov (.load rsp rdi 0#64)) left := ⟨_, rfl⟩
  obtain ⟨popped, isPopped⟩ : ∃ next, next = execute (.pop rax) entered := ⟨_, rfl⟩
  obtain ⟨savedMemory, savedRegs⟩ := transferAll_spill popped rsi calleePlan
  obtain ⟨saved, isSaved⟩ : ∃ next, next = popped.transferAll (spill rsi calleePlan) := ⟨_, rfl⟩
  obtain ⟨loadedMemory, loadedRegs, otherRegs⟩ := transferAll_fill saved fillable.1 fillable.2
  obtain ⟨loaded, isLoaded⟩ : ∃ next, next = saved.transferAll (fill rdi calleePlan) := ⟨_, rfl⟩
  rw [← isSaved] at savedMemory savedRegs
  rw [← isLoaded] at loadedMemory loadedRegs otherRegs
  have ran : coSwap core = some (execute (.jmp rax) loaded) := by
    have body : isa.executeAll swapBody core = loaded := by
      have head : ∀ moves, isa.executeAll (.mov (.store rsp rsi 0#64) ::
          .mov (.load rsp rdi 0#64) :: .pop rax :: moves) core = isa.executeAll moves popped := by
        intro moves
        rw [isPopped, isEntered, isLeft]
        rfl
      rw [swapBody, List.cons_append, List.cons_append, List.cons_append, head,
        ByteCode.executeAll_append, executeAll_mov, executeAll_mov, ← isSaved, ← isLoaded]
    rw [← body]
    exact isa.run_of_decodeAll isa_oblivious coSwapFunction_decodes
  have leftRegs : ∀ reg, left.get reg = core.get reg := by
    intro reg
    rw [isLeft]
    rfl
  have enteredMemory : entered.memory = left.memory := by
    rw [isEntered]
    rfl
  have pointer : entered.get rsp = loadDouble (core.get rdi + 0#64) left.memory := by
    rw [isEntered, execute, Cpu.transfer, Cpu.get_set_self (by decide), leftRegs]
  have poppedRegs : ∀ reg, reg ≠ rsp → reg ≠ rax → popped.get reg = core.get reg := by
    intro reg notRsp notRax
    rw [isPopped, get_pop_of_ne notRax notRsp, isEntered, execute, Cpu.transfer,
      Cpu.get_set_of_ne notRsp, leftRegs]
  have poppedMemory : popped.memory = left.memory := by
    rw [isPopped]
    exact enteredMemory
  have lastMemory : loaded.memory = spilled core.get (core.get rsi) swapPlan core.memory := by
    have values : ∀ entry ∈ calleePlan, popped.get entry.1 = core.get entry.1 := by
      have callee : ∀ entry ∈ calleePlan, entry.1 ≠ rsp ∧ entry.1 ≠ rax := by decide +kernel
      exact fun entry member => poppedRegs _ (callee entry member).1 (callee entry member).2
    rw [loadedMemory, savedMemory, poppedMemory, poppedRegs rsi (by decide) (by decide),
      spilled_congr values, isLeft]
    rfl
  refine ⟨_, ran, lastMemory, ?_, ?_, left.memory, _, ?_, pointer, ?_, ?_⟩
  · intro entry member
    change loaded.get entry.1 = loadDouble _ loaded.memory
    rw [loadedRegs entry member, savedRegs, poppedRegs rdi (by decide) (by decide), loadedMemory]
  · intro reg notSaved notRax
    rw [swapPlan, List.map_cons, List.mem_cons, not_or] at notSaved
    change loaded.get reg = core.get reg
    rw [otherRegs reg notSaved.2, savedRegs, poppedRegs reg notSaved.1 notRax]
  · rw [isLeft]
    rfl
  · change loaded.get rsp = _
    rw [otherRegs rsp (by decide +kernel), savedRegs, isPopped, get_pop_rsp (by decide)]
  · change loaded.get rax = _
    rw [otherRegs rax (by decide +kernel), savedRegs, isPopped, get_pop_self (by decide),
      enteredMemory]

end Libmicrokitco.Amd64
