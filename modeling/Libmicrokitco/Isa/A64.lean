import Libmicrokitco.Isa.Spill

/-!
# A part of A64

Decoding and execution of `stp`, `ldp`, `str` and `ldr` with an immediate
offset, `add` with an immediate (of which `mov` to and from `sp` is a case) and
`br`. Of a SIMD register only the low doubleword is modelled.
-/

namespace Libmicrokitco.Isa.A64

/-- A general register, the stack pointer or the low half of a SIMD register. -/
inductive Reg where
  | x (n : BitVec 5)
  | sp
  | d (n : BitVec 5)
deriving DecidableEq, Repr

/-- Register 31 is `xzr` where it is not the stack pointer. -/
instance : Registers Reg := ⟨.x 31#5⟩

abbrev Core := Cpu Reg

/-- A register number where 31 stands for the stack pointer. -/
def orSp (n : BitVec 5) : Reg := if n = 31#5 then .sp else .x n

inductive Instr where
  | stp (rt rt2 rn : Reg) (offset : BitVec 64)
  | ldp (rt rt2 rn : Reg) (offset : BitVec 64)
  | str (rt rn : Reg) (offset : BitVec 64)
  | ldr (rt rn : Reg) (offset : BitVec 64)
  | add (rd rn : Reg) (imm : BitVec 64)
  | br (rn : Reg)
deriving DecidableEq, Repr

/-- The instruction of a word, after its upper ten bits. Offsets of pairs are
signed, and all offsets count doublewords. -/
def decode (word : BitVec 32) : Option Instr :=
  let rt := word.extractLsb' 0 5
  let rn := word.extractLsb' 5 5
  let rt2 := word.extractLsb' 10 5
  let pairOffset := (word.extractLsb' 15 7).signExtend 64 * 8#64
  let imm12 := (word.extractLsb' 10 12).setWidth 64
  match (word.extractLsb' 22 10).toNat with
  | 0b1010100100 => some (.stp (.x rt) (.x rt2) (orSp rn) pairOffset)
  | 0b1010100101 => some (.ldp (.x rt) (.x rt2) (orSp rn) pairOffset)
  | 0b0110110100 => some (.stp (.d rt) (.d rt2) (orSp rn) pairOffset)
  | 0b0110110101 => some (.ldp (.d rt) (.d rt2) (orSp rn) pairOffset)
  | 0b1111100100 => some (.str (.x rt) (orSp rn) (imm12 * 8#64))
  | 0b1111100101 => some (.ldr (.x rt) (orSp rn) (imm12 * 8#64))
  | 0b1001000100 => some (.add (orSp rt) (orSp rn) imm12)
  | 0b1101011000 =>
    if word.extractLsb' 10 12 = 0b011111000000#12 ∧ rt = 0#5 then some (.br (.x rn)) else none
  | _ => none

def execute : Instr → Core → Core
  | .stp rt rt2 rn offset, core =>
    ((core.transfer (.store rt rn offset)).transfer (.store rt2 rn (offset + 8#64))).advance
  | .ldp rt rt2 rn offset, core =>
    -- both loads use the base as it was
    ((core.set rt (loadDouble (core.get rn + offset) core.memory)).set rt2
      (loadDouble (core.get rn + (offset + 8#64)) core.memory)).advance
  | .str rt rn offset, core => (core.transfer (.store rt rn offset)).advance
  | .ldr rt rn offset, core => (core.transfer (.load rt rn offset)).advance
  | .add rd rn imm, core => (core.set rd (core.get rn + imm)).advance
  | .br rn, core => { core with pc := core.get rn }

def Instr.isJump : Instr → Bool
  | .br _ => true
  | .stp _ _ _ _ | .ldp _ _ _ _ | .str _ _ _ | .ldr _ _ _ | .add _ _ _ => false

def isa : InstructionSet Reg Instr where
  decode := decode
  isJump := Instr.isJump
  execute := execute

/-- A pair of plan entries side by side. -/
structure Pair where
  first : Reg
  second : Reg
  offset : BitVec 64
deriving DecidableEq, Repr

def Pair.entries (pair : Pair) : Plan Reg :=
  [(pair.first, pair.offset), (pair.second, pair.offset + 8#64)]

def storePairs (base : Reg) (pairs : List Pair) : List Instr :=
  pairs.map fun pair => .stp pair.first pair.second base pair.offset

def loadPairs (base : Reg) (pairs : List Pair) : List Instr :=
  pairs.map fun pair => .ldp pair.first pair.second base pair.offset

variable {core : Core} {reg rd rn base : Reg} {imm : BitVec 64} {pairs : List Pair}

theorem get_add_self (nonzero : rd ≠ Registers.zero) :
    (execute (.add rd rn imm) core).get rd = core.get rn + imm := by
  rw [execute, Cpu.get_advance, Cpu.get_set_self nonzero]

theorem get_add_of_ne (different : reg ≠ rd) :
    (execute (.add rd rn imm) core).get reg = core.get reg := by
  rw [execute, Cpu.get_advance, Cpu.get_set_of_ne different]

/-- Storing pairs spills their entries. -/
theorem executeAll_storePairs (core : Core) (base : Reg) (pairs : List Pair) :
    ∃ after, isa.executeAll (storePairs base pairs) core = after ∧
      after.memory = spilled core.get (core.get base) (pairs.flatMap Pair.entries) core.memory ∧
      ∀ reg, after.get reg = core.get reg := by
  have moves : ∃ pc, isa.executeAll (storePairs base pairs) core =
      { core.transferAll (spill base (pairs.flatMap Pair.entries)) with pc := pc } := by
    induction pairs generalizing core with
    | nil => exact ⟨core.pc, rfl⟩
    | cons pair rest ih =>
      obtain ⟨pc, executed⟩ := ih (execute (.stp pair.first pair.second base pair.offset) core)
      refine ⟨pc, executed.trans ?_⟩
      rw [execute, Cpu.advance, Cpu.transferAll_pc]
      rfl
  obtain ⟨pc, executed⟩ := moves
  obtain ⟨memory, regs⟩ := transferAll_spill core base (pairs.flatMap Pair.entries)
  exact ⟨_, executed, memory, regs⟩

/-- A pair load is two loads, unless the first takes the base away. -/
theorem execute_ldp {rt rt2 : Reg} {offset : BitVec 64} (notFirst : base ≠ rt) :
    execute (.ldp rt rt2 base offset) core =
      ((core.transfer (.load rt base offset)).transfer
        (.load rt2 base (offset + 8#64))).advance := by
  rw [execute, Cpu.transfer, Cpu.transfer, Cpu.get_set_of_ne notFirst]
  rfl

/-- Loading pairs fills their entries. -/
theorem executeAll_loadPairs (core : Core)
    (nodup : ((pairs.flatMap Pair.entries).map Prod.fst).Nodup)
    (target : ∀ entry ∈ pairs.flatMap Pair.entries, entry.1 ≠ base ∧ entry.1 ≠ Registers.zero) :
    ∃ after, isa.executeAll (loadPairs base pairs) core = after ∧ after.memory = core.memory ∧
      (∀ entry ∈ pairs.flatMap Pair.entries,
        after.get entry.1 = loadDouble (core.get base + entry.2) core.memory) ∧
      ∀ reg ∉ (pairs.flatMap Pair.entries).map Prod.fst, after.get reg = core.get reg := by
  have notFirst : ∀ pair ∈ pairs, base ≠ pair.first := fun pair member same =>
    (target _ (List.mem_flatMap.mpr ⟨pair, member, List.mem_cons_self⟩)).1 same.symm
  have moves : ∃ pc, isa.executeAll (loadPairs base pairs) core =
      { core.transferAll (fill base (pairs.flatMap Pair.entries)) with pc := pc } := by
    clear nodup target
    induction pairs generalizing core with
    | nil => exact ⟨core.pc, rfl⟩
    | cons pair rest ih =>
      obtain ⟨headKept, restKept⟩ := List.forall_mem_cons.mp notFirst
      obtain ⟨pc, executed⟩ :=
        ih (execute (.ldp pair.first pair.second base pair.offset) core) restKept
      refine ⟨pc, executed.trans ?_⟩
      rw [execute_ldp headKept, Cpu.advance, Cpu.transferAll_pc]
      rfl
  obtain ⟨pc, executed⟩ := moves
  obtain ⟨memory, loaded, others⟩ := transferAll_fill core nodup target
  exact ⟨_, executed, memory, loaded, others⟩

end Libmicrokitco.Isa.A64
