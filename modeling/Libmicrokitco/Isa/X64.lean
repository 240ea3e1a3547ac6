import Libmicrokitco.Isa.ByteCode
import Libmicrokitco.Isa.Spill

/-!
# A part of x86-64

Decoding and execution of `mov` between a 64-bit register and memory at a base
register with no offset or one of a byte, of `pop` and of `jmp` to a register.
-/

namespace Libmicrokitco.Isa.X64

/-- A general register, in the order of their numbers. -/
inductive Reg where
  | gpr (n : BitVec 4)
  /-- A base that is left out. -/
  | absent
deriving DecidableEq, Repr

/-- A base that is left out counts as zero. -/
instance : Registers Reg := ⟨.absent⟩

abbrev Core := Cpu Reg

def rax : Reg := .gpr 0#4
def rbx : Reg := .gpr 3#4
def rsp : Reg := .gpr 4#4
def rbp : Reg := .gpr 5#4
def rsi : Reg := .gpr 6#4
def rdi : Reg := .gpr 7#4

inductive Instr where
  /-- `mov`, to and from memory. -/
  | mov (transfer : Transfer Reg)
  | pop (reg : Reg)
  | jmp (reg : Reg)
deriving DecidableEq, Repr

/-- A register number of three bits, with the bit of the prefix that extends it. -/
def extended (bit : BitVec 1) (low : BitVec 3) : Reg := .gpr (bit ++ low)

/-- The register and the memory operand behind an opcode. Base 4 would be
followed by a `SIB` byte, and base 5 without an offset is not a base. -/
def decodeOperands (rex : BitVec 4) :
    List (BitVec 8) → Option ((Reg × Reg × BitVec 64) × List (BitVec 8))
  | [] => none
  | modRm :: rest =>
    let reg := extended (rex.extractLsb' 2 1) (modRm.extractLsb' 3 3)
    let rm := modRm.extractLsb' 0 3
    let base := extended (rex.extractLsb' 0 1) rm
    match (modRm.extractLsb' 6 2).toNat, rest with
    | 0b00, rest => if rm = 4#3 ∨ rm = 5#3 then none else some ((reg, base, 0#64), rest)
    | 0b01, disp :: rest => if rm = 4#3 then none else some ((reg, base, disp.signExtend 64), rest)
    | _, _ => none

/-- The instruction after its prefix. Its bits are `W`, `R`, `X` and `B`; `mov`
without `W` would be of 32 bits. -/
def decodeOpcode (rex : BitVec 4) : List (BitVec 8) → Option (Instr × List (BitVec 8))
  | [] => none
  | opcode :: rest =>
    if opcode = 0x89#8 ∧ rex.extractLsb' 3 1 = 1#1 then
      (decodeOperands rex rest).map fun ((reg, base, offset), rest) =>
        (.mov (.store reg base offset), rest)
    else if opcode = 0x8b#8 ∧ rex.extractLsb' 3 1 = 1#1 then
      (decodeOperands rex rest).map fun ((reg, base, offset), rest) =>
        (.mov (.load reg base offset), rest)
    else if opcode.extractLsb' 3 5 = 0b01011#5 then
      some (.pop (extended (rex.extractLsb' 0 1) (opcode.extractLsb' 0 3)), rest)
    else
      match opcode.toNat, rest with
      | 0xff, modRm :: rest =>
        if modRm.extractLsb' 3 5 = 0b11100#5 then
          some (.jmp (extended (rex.extractLsb' 0 1) (modRm.extractLsb' 0 3)), rest)
        else none
      | _, _ => none

def decode : List (BitVec 8) → Option (Instr × List (BitVec 8))
  | [] => none
  | first :: rest =>
    if first.extractLsb' 4 4 = 0b0100#4 then decodeOpcode (first.extractLsb' 0 4) rest
    else decodeOpcode 0#4 (first :: rest)

def execute : Instr → Core → Core
  | .mov transfer, core => core.transfer transfer
  | .pop reg, core =>
    (core.set rsp (core.get rsp + 8#64)).set reg (loadDouble (core.get rsp) core.memory)
  | .jmp reg, core => { core with pc := core.get reg }

def Instr.isJump : Instr → Bool
  | .jmp _ => true
  | .mov _ | .pop _ => false

def isa : ByteCode Reg Instr where
  decode := decode
  isJump := Instr.isJump
  execute := execute

theorem isa_oblivious : isa.Oblivious where
  straight := by
    intro instr core pc notJump
    cases instr with
    | mov transfer => cases transfer <;> rfl
    | pop => rfl
    | jmp => cases notJump
  jump := by
    intro instr core pc jumps
    cases instr with
    | jmp => rfl
    | mov | pop => cases jumps

/-- Moves do what their transfers do. -/
theorem executeAll_mov (core : Core) (transfers : List (Transfer Reg)) :
    isa.executeAll (transfers.map .mov) core = core.transferAll transfers := by
  induction transfers generalizing core with
  | nil => rfl
  | cons first rest ih => exact ih (core.transfer first)

variable {core : Core} {reg other : Reg}

theorem get_pop_self (nonzero : reg ≠ Registers.zero) :
    (execute (.pop reg) core).get reg = loadDouble (core.get rsp) core.memory := by
  rw [execute, Cpu.get_set_self nonzero]

theorem get_pop_rsp (notRsp : reg ≠ rsp) :
    (execute (.pop reg) core).get rsp = core.get rsp + 8#64 := by
  rw [execute, Cpu.get_set_of_ne notRsp.symm, Cpu.get_set_self (by decide)]

theorem get_pop_of_ne (different : other ≠ reg) (notRsp : other ≠ rsp) :
    (execute (.pop reg) core).get other = core.get other := by
  rw [execute, Cpu.get_set_of_ne different, Cpu.get_set_of_ne notRsp]

end Libmicrokitco.Isa.X64
