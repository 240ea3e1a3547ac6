import Libmicrokitco.Isa.Doubleword
import Mathlib.Data.List.Basic

/-!
# A 64-bit processor

A program counter, registers and byte-addressed memory, for any register names
of which one always reads as zero, and the running of straight-line code that
ends in a jump. Memory is total: no access faults, and code is not read from it.
-/

namespace Libmicrokitco.Isa

/-- Register names with a zero register. -/
class Registers (ρ : Type) where
  zero : ρ

structure Cpu (ρ : Type) where
  pc : BitVec 64
  regs : ρ → BitVec 64
  memory : BitVec 64 → BitVec 8

/-- A move of one doubleword between a register and memory at an offset from a
base register. -/
inductive Transfer (ρ : Type) where
  | load (reg base : ρ) (offset : BitVec 64)
  | store (reg base : ρ) (offset : BitVec 64)
deriving DecidableEq, Repr

/-- What words mean and what instructions do. -/
structure InstructionSet (ρ ι : Type) where
  decode : BitVec 32 → Option ι
  isJump : ι → Bool
  execute : ι → Cpu ρ → Cpu ρ

variable {ρ : Type}

section

variable [DecidableEq ρ] [Registers ρ]

/-- What a register reads as. -/
def Cpu.get (cpu : Cpu ρ) (reg : ρ) : BitVec 64 :=
  if reg = Registers.zero then 0#64 else cpu.regs reg

def Cpu.set (reg : ρ) (value : BitVec 64) (cpu : Cpu ρ) : Cpu ρ :=
  { cpu with regs := Function.update cpu.regs reg value }

/-- To the next instruction. -/
def Cpu.advance (cpu : Cpu ρ) : Cpu ρ := { cpu with pc := cpu.pc + 4#64 }

def Cpu.transfer (cpu : Cpu ρ) : Transfer ρ → Cpu ρ
  | .load reg base offset => cpu.set reg (loadDouble (cpu.get base + offset) cpu.memory)
  | .store reg base offset =>
    { cpu with memory := storeDouble (cpu.get base + offset) (cpu.get reg) cpu.memory }

def Cpu.transferAll (cpu : Cpu ρ) (transfers : List (Transfer ρ)) : Cpu ρ :=
  transfers.foldl Cpu.transfer cpu

variable {cpu : Cpu ρ} {reg other : ρ} {value pc : BitVec 64}
  {transfers : List (Transfer ρ)}

@[simp] theorem Cpu.get_set_self (nonzero : reg ≠ Registers.zero) :
    (cpu.set reg value).get reg = value := by
  rw [get, if_neg nonzero]
  exact Function.update_self ..

@[simp] theorem Cpu.get_set_of_ne (different : other ≠ reg) :
    (cpu.set reg value).get other = cpu.get other := by
  change (if other = Registers.zero then _ else Function.update cpu.regs reg value other) = _
  rw [Function.update_of_ne different]
  rfl

@[simp] theorem Cpu.get_advance : cpu.advance.get reg = cpu.get reg := rfl

/-- Transfers neither read nor write the program counter. -/
theorem Cpu.transferAll_pc :
    ({ cpu with pc := pc } : Cpu ρ).transferAll transfers =
      { cpu.transferAll transfers with pc := pc } := by
  induction transfers generalizing cpu with
  | nil => rfl
  | cons first rest ih =>
    cases first with
    | load reg base offset => exact @ih (cpu.transfer (.load reg base offset))
    | store reg base offset => exact @ih (cpu.transfer (.store reg base offset))

end

namespace InstructionSet

variable {ι : Type} (isa : InstructionSet ρ ι)

/-- Runs code up to and including its first jump. Running off its end, or into
a word that is no instruction, has no outcome. -/
def run : List (BitVec 32) → Cpu ρ → Option (Cpu ρ)
  | [], _ => none
  | word :: rest, cpu =>
    match isa.decode word with
    | none => none
    | some instr =>
      if isa.isJump instr then some (isa.execute instr cpu) else run rest (isa.execute instr cpu)

/-- Instructions one after the other. -/
def executeAll (instrs : List ι) (cpu : Cpu ρ) : Cpu ρ :=
  instrs.foldl (fun cpu instr => isa.execute instr cpu) cpu

variable {cpu : Cpu ρ} {code : List (BitVec 32)} {instrs body : List ι}
  {jump : ι}

@[simp] theorem executeAll_cons {instr : ι} :
    isa.executeAll (instr :: instrs) cpu = isa.executeAll instrs (isa.execute instr cpu) := rfl

theorem executeAll_append :
    isa.executeAll (instrs ++ body) cpu = isa.executeAll body (isa.executeAll instrs cpu) :=
  List.foldl_append

/-- Code that decodes to straight-line instructions and a jump runs them and jumps. -/
theorem run_of_decode (decoded : code.mapM isa.decode = some (body ++ [jump]))
    (straight : ∀ instr ∈ body, isa.isJump instr = false) (jumps : isa.isJump jump = true) :
    isa.run code cpu = some (isa.execute jump (isa.executeAll body cpu)) := by
  induction code generalizing body cpu with
  | nil => simp at decoded
  | cons word rest ih =>
    rw [List.mapM_cons] at decoded
    obtain ⟨first, isFirst, decoded⟩ := Option.bind_eq_some_iff.mp decoded
    obtain ⟨others, restDecoded, shape⟩ := Option.bind_eq_some_iff.mp decoded
    have shape : first :: others = body ++ [jump] := Option.some.inj shape
    rw [run, isFirst]
    cases body with
    | nil =>
      obtain ⟨rfl, -⟩ := List.cons_eq_cons.mp shape
      exact if_pos jumps
    | cons instr body =>
      obtain ⟨rfl, rfl⟩ := List.cons_eq_cons.mp shape
      have notJump : ¬ isa.isJump first = true := by
        rw [straight first List.mem_cons_self]
        exact Bool.false_ne_true
      change (if _ then _ else _) = _
      rw [if_neg notJump]
      exact ih restDecoded fun instr member => straight instr (List.mem_cons_of_mem _ member)

end InstructionSet

end Libmicrokitco.Isa
