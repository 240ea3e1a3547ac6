import Libmicrokitco.Isa.Spill

/-!
# A part of RV64

Decoding and execution of `addiw`, `ld`, `sd`, `fld`, `fsd` and `jalr`.
-/

namespace Libmicrokitco.Isa.Rv64

/-- An integer or a floating-point register. -/
inductive Reg where
  | x (n : BitVec 5)
  | f (n : BitVec 5)
deriving DecidableEq, Repr

/-- `x0` is always zero. -/
instance : Registers Reg := ⟨.x 0#5⟩

abbrev Hart := Cpu Reg

inductive Instr where
  | addiw (rd rs1 : BitVec 5) (imm : BitVec 12)
  /-- `ld`, `sd`, `fld` and `fsd`. -/
  | transfer (transfer : Transfer Reg)
  | jalr (rd rs1 : BitVec 5) (imm : BitVec 12)
deriving DecidableEq, Repr

/-- The instruction of a word, after its opcode and `funct3`. -/
def decode (word : BitVec 32) : Option Instr :=
  let rd := word.extractLsb' 7 5
  let rs1 := word.extractLsb' 15 5
  let rs2 := word.extractLsb' 20 5
  let immI := word.extractLsb' 20 12
  let immS := word.extractLsb' 25 7 ++ word.extractLsb' 7 5
  match (word.extractLsb' 0 7).toNat, (word.extractLsb' 12 3).toNat with
  | 0b0011011, 0b000 => some (.addiw rd rs1 immI)
  | 0b0000011, 0b011 => some (.transfer (.load (.x rd) (.x rs1) (immI.signExtend 64)))
  | 0b0000111, 0b011 => some (.transfer (.load (.f rd) (.x rs1) (immI.signExtend 64)))
  | 0b0100011, 0b011 => some (.transfer (.store (.x rs2) (.x rs1) (immS.signExtend 64)))
  | 0b0100111, 0b011 => some (.transfer (.store (.f rs2) (.x rs1) (immS.signExtend 64)))
  | 0b1100111, 0b000 => some (.jalr rd rs1 immI)
  | _, _ => none

/-- The low word of a sum, sign-extended. -/
def addWord (value : BitVec 64) (imm : BitVec 12) : BitVec 64 :=
  ((value + imm.signExtend 64).setWidth 32).signExtend 64

/-- Where `jalr` goes: bit 0 of its target is cleared. -/
def jumpTarget (target : BitVec 64) : BitVec 64 := target &&& ~~~1#64

def execute : Instr → Hart → Hart
  | .addiw rd rs1 imm, hart => (hart.set (.x rd) (addWord (hart.get (.x rs1)) imm)).advance
  | .transfer transfer, hart => (hart.transfer transfer).advance
  | .jalr rd rs1 imm, hart =>
    { hart.set (.x rd) (hart.pc + 4#64) with
      pc := jumpTarget (hart.get (.x rs1) + imm.signExtend 64) }

def Instr.isJump : Instr → Bool
  | .jalr _ _ _ => true
  | .addiw _ _ _ | .transfer _ => false

def isa : InstructionSet Reg Instr where
  decode := decode
  isJump := Instr.isJump
  execute := execute

variable {hart : Hart} {reg : Reg} {rd rs1 : BitVec 5} {imm : BitVec 12}

theorem get_addiw_self (nonzero : rd ≠ 0#5) :
    (execute (.addiw rd rs1 imm) hart).get (.x rd) = addWord (hart.get (.x rs1)) imm := by
  have notZero : Reg.x rd ≠ Registers.zero := fun same => nonzero (Reg.x.inj same)
  rw [execute, Cpu.get_advance, Cpu.get_set_self notZero]

theorem get_addiw_of_ne (different : reg ≠ .x rd) :
    (execute (.addiw rd rs1 imm) hart).get reg = hart.get reg := by
  rw [execute, Cpu.get_advance, Cpu.get_set_of_ne different]

/-- Instructions that transfer do to registers and memory what their transfers do. -/
theorem executeAll_transfers (hart : Hart) (transfers : List (Transfer Reg)) :
    ∃ pc, isa.executeAll (transfers.map .transfer) hart =
      { hart.transferAll transfers with pc := pc } := by
  induction transfers generalizing hart with
  | nil => exact ⟨hart.pc, rfl⟩
  | cons first rest ih =>
    obtain ⟨pc, rest⟩ := ih (hart.transfer first).advance
    refine ⟨pc, rest.trans ?_⟩
    rw [Cpu.advance, Cpu.transferAll_pc]
    rfl

theorem executeAll_spill (hart : Hart) (base : Reg) (plan : Plan Reg) :
    ∃ after, isa.executeAll ((spill base plan).map .transfer) hart = after ∧
      after.memory = spilled hart.get (hart.get base) plan hart.memory ∧
      ∀ reg, after.get reg = hart.get reg := by
  obtain ⟨pc, executed⟩ := executeAll_transfers hart (spill base plan)
  obtain ⟨memory, regs⟩ := transferAll_spill hart base plan
  exact ⟨_, executed, memory, regs⟩

theorem executeAll_fill (hart : Hart) {base : Reg} {plan : Plan Reg} (nodup : (plan.map Prod.fst).Nodup)
    (target : ∀ entry ∈ plan, entry.1 ≠ base ∧ entry.1 ≠ Registers.zero) :
    ∃ after, isa.executeAll ((fill base plan).map .transfer) hart = after ∧
      after.memory = hart.memory ∧
      ∀ entry ∈ plan, after.get entry.1 = loadDouble (hart.get base + entry.2) hart.memory := by
  obtain ⟨pc, executed⟩ := executeAll_transfers hart (fill base plan)
  obtain ⟨memory, regs, -⟩ := transferAll_fill hart nodup target
  exact ⟨_, executed, memory, regs⟩

end Libmicrokitco.Isa.Rv64
