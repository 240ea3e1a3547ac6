import Libmicrokitco.Isa.Cpu

/-!
# Code with instructions of several lengths

A decoder takes the first instruction off a sequence of bytes. While an
instruction executes the program counter is that of the next one; instructions
that do not read it can be run as if it stood still.
-/

namespace Libmicrokitco.Isa

/-- What bytes mean and what instructions do. -/
structure ByteCode (ρ ι : Type) where
  /-- The first instruction and the bytes behind it. -/
  decode : List (BitVec 8) → Option (ι × List (BitVec 8))
  isJump : ι → Bool
  execute : ι → Cpu ρ → Cpu ρ

variable {ρ ι : Type} (isa : ByteCode ρ ι)

namespace ByteCode

/-- Runs code up to and including its first jump, for at most `fuel`
instructions. -/
def run : Nat → List (BitVec 8) → Cpu ρ → Option (Cpu ρ)
  | 0, _, _ => none
  | fuel + 1, code, cpu =>
    match isa.decode code with
    | none => none
    | some (instr, rest) =>
      let next := { cpu with pc := cpu.pc + BitVec.ofNat 64 (code.length - rest.length) }
      if isa.isJump instr then some (isa.execute instr next)
      else run fuel rest (isa.execute instr next)

/-- The instructions up to and including the first jump. -/
def decodeAll : Nat → List (BitVec 8) → Option (List ι)
  | 0, _ => none
  | fuel + 1, code =>
    match isa.decode code with
    | none => none
    | some (instr, rest) =>
      if isa.isJump instr then some [instr] else (decodeAll fuel rest).map (instr :: ·)

/-- Instructions one after the other. -/
def executeAll (instrs : List ι) (cpu : Cpu ρ) : Cpu ρ :=
  instrs.foldl (fun cpu instr => isa.execute instr cpu) cpu

/-- No instruction reads the program counter, and only jumps write it. -/
structure Oblivious : Prop where
  straight : ∀ {instr cpu pc}, isa.isJump instr = false →
    isa.execute instr { cpu with pc := pc } = { isa.execute instr cpu with pc := pc }
  jump : ∀ {instr cpu pc}, isa.isJump instr = true →
    isa.execute instr { cpu with pc := pc } = isa.execute instr cpu

variable {isa} {fuel : Nat} {code : List (BitVec 8)} {cpu : Cpu ρ} {body : List ι} {jump : ι}

@[simp] theorem executeAll_cons {instr : ι} {instrs : List ι} :
    isa.executeAll (instr :: instrs) cpu = isa.executeAll instrs (isa.execute instr cpu) := rfl

theorem executeAll_append {instrs : List ι} :
    isa.executeAll (body ++ instrs) cpu = isa.executeAll instrs (isa.executeAll body cpu) :=
  List.foldl_append

theorem decodeAll_ne_nil : isa.decodeAll fuel code ≠ some [] := by
  intro decoded
  cases fuel with
  | zero => cases decoded
  | succ fuel =>
    unfold decodeAll at decoded
    split at decoded
    · cases decoded
    split at decoded
    · cases decoded
    · simp at decoded

/-- The first instruction of decoded code is a jump and all of it, or it is not
and the rest is decoded too. -/
theorem decodeAll_cases {instrs : List ι} (decoded : isa.decodeAll (fuel + 1) code = some instrs) :
    ∃ instr rest, isa.decode code = some (instr, rest) ∧
      (isa.isJump instr = true ∧ instrs = [instr] ∨
        isa.isJump instr = false ∧ ∃ others, isa.decodeAll fuel rest = some others ∧
          instrs = instr :: others) := by
  unfold decodeAll at decoded
  split at decoded
  · cases decoded
  rename_i instr rest first
  refine ⟨instr, rest, first, ?_⟩
  split at decoded
  · rename_i jumps
    exact .inl ⟨jumps, (Option.some.inj decoded).symm⟩
  · rename_i straight
    obtain ⟨others, decodedRest, shape⟩ := Option.map_eq_some_iff.mp decoded
    exact .inr ⟨by simpa using straight, others, decodedRest, shape.symm⟩

/-- Only the last instruction of decoded code is a jump. -/
theorem straight_of_decodeAll (decoded : isa.decodeAll fuel code = some (body ++ [jump])) :
    (∀ instr ∈ body, isa.isJump instr = false) ∧ isa.isJump jump = true := by
  induction fuel generalizing code body with
  | zero => cases decoded
  | succ fuel ih =>
    obtain ⟨instr, rest, -, ⟨jumps, shape⟩ | ⟨straight, others, decodedRest, shape⟩⟩ :=
      decodeAll_cases decoded
    · cases body with
      | nil => exact ⟨by simp, (List.cons_eq_cons.mp shape).1 ▸ jumps⟩
      | cons => simp at shape
    · cases body with
      | nil =>
        obtain ⟨-, rfl⟩ := List.cons_eq_cons.mp shape
        exact absurd decodedRest decodeAll_ne_nil
      | cons head body =>
        obtain ⟨rfl, rfl⟩ := List.cons_eq_cons.mp shape
        obtain ⟨straightRest, isJump⟩ := ih decodedRest
        exact ⟨List.forall_mem_cons.mpr ⟨straight, straightRest⟩, isJump⟩

/-- Straight-line code carries the program counter along. -/
theorem Oblivious.executeAll (oblivious : isa.Oblivious) {pc : BitVec 64}
    (straight : ∀ instr ∈ body, isa.isJump instr = false) :
    isa.executeAll body { cpu with pc := pc } = { isa.executeAll body cpu with pc := pc } := by
  induction body generalizing cpu with
  | nil => rfl
  | cons instr rest ih =>
    rw [List.forall_mem_cons] at straight
    rw [executeAll_cons, executeAll_cons, oblivious.straight straight.1]
    exact ih straight.2

/-- Code that decodes to straight-line instructions and a jump runs them and jumps. -/
theorem run_of_decodeAll (oblivious : isa.Oblivious)
    (decoded : isa.decodeAll fuel code = some (body ++ [jump])) :
    isa.run fuel code cpu = some (isa.execute jump (isa.executeAll body cpu)) := by
  obtain ⟨straight, isJump⟩ := straight_of_decodeAll decoded
  induction fuel generalizing code cpu body with
  | zero => cases decoded
  | succ fuel ih =>
    obtain ⟨instr, rest, first, ⟨jumps, shape⟩ | ⟨notJump, others, decodedRest, shape⟩⟩ :=
      decodeAll_cases decoded
    · cases body with
      | nil =>
        obtain ⟨rfl, -⟩ := List.cons_eq_cons.mp shape
        simp only [run, first, jumps, if_true]
        exact congrArg some (oblivious.jump jumps)
      | cons => simp at shape
    · cases body with
      | nil =>
        obtain ⟨-, rfl⟩ := List.cons_eq_cons.mp shape
        exact absurd decodedRest decodeAll_ne_nil
      | cons head body =>
        obtain ⟨rfl, rfl⟩ := List.cons_eq_cons.mp shape
        rw [List.forall_mem_cons] at straight
        simp only [run, first, notJump, Bool.false_eq_true, if_false]
        rw [ih decodedRest straight.2, oblivious.straight notJump,
          oblivious.executeAll straight.2, oblivious.jump isJump]
        rfl

end ByteCode

end Libmicrokitco.Isa
