import Libmicrokitco.Isa.Cpu

/-!
# Spilling and filling registers

A plan says which register belongs at which offset from a base address.
`spill` stores the registers of a plan and `fill` loads them. What is spilled
can be read back at its offset, and nothing else in memory changes.
-/

namespace Libmicrokitco.Isa

/-- The registers to save and their offsets from a base. -/
abbrev Plan (ρ : Type) := List (ρ × BitVec 64)

variable {ρ : Type}

def spill (base : ρ) (plan : Plan ρ) : List (Transfer ρ) :=
  plan.map fun entry => .store entry.1 base entry.2

def fill (base : ρ) (plan : Plan ρ) : List (Transfer ρ) :=
  plan.map fun entry => .load entry.1 base entry.2

/-- Memory after the values of a plan have been stored. -/
def spilled (value : ρ → BitVec 64) (base : BitVec 64) (plan : Plan ρ)
    (memory : BitVec 64 → BitVec 8) : BitVec 64 → BitVec 8 :=
  plan.foldl (fun memory entry => storeDouble (base + entry.2) (value entry.1) memory) memory

/-- No two entries of the plan share a byte. -/
def Plan.Spread (plan : Plan ρ) : Prop :=
  plan.Pairwise fun first second => Disjoint first.2 second.2

instance (left right : BitVec 64) : Decidable (Disjoint left right) :=
  inferInstanceAs (Decidable (_ ∧ _))

instance (plan : Plan ρ) : Decidable plan.Spread := inferInstanceAs (Decidable (List.Pairwise _ _))

variable {base : ρ} {plan more : Plan ρ} {value : ρ → BitVec 64}
  {origin addr place : BitVec 64} {memory : BitVec 64 → BitVec 8} {entry : ρ × BitVec 64}

theorem spilled_append :
    spilled value origin (plan ++ more) memory =
      spilled value origin more (spilled value origin plan memory) :=
  List.foldl_append

/-- Moving all offsets one way and the base the other changes nothing. -/
theorem spilled_shift {shift : BitVec 64} :
    spilled value origin (plan.map fun entry => (entry.1, entry.2 + shift)) memory =
      spilled value (origin + shift) plan memory := by
  induction plan generalizing memory with
  | nil => rfl
  | cons entry rest ih =>
    have sameAddress : origin + (entry.2 + shift) = origin + shift + entry.2 := by
      bv_omega
    change spilled value origin (rest.map _) (storeDouble (origin + (entry.2 + shift)) _ memory) = _
    rw [ih, sameAddress]
    rfl

theorem spilled_of_outside (outside : ∀ entry ∈ plan, 8 ≤ (place - (origin + entry.2)).toNat) :
    spilled value origin plan memory place = memory place := by
  induction plan generalizing memory with
  | nil => rfl
  | cons entry rest ih =>
    rw [List.forall_mem_cons] at outside
    exact (ih outside.2).trans (storeDouble_of_outside outside.1)

/-- Only the values of the registers in the plan matter. -/
theorem spilled_congr {others : ρ → BitVec 64}
    (same : ∀ entry ∈ plan, value entry.1 = others entry.1) :
    spilled value origin plan memory = spilled others origin plan memory := by
  induction plan generalizing memory with
  | nil => rfl
  | cons entry rest ih =>
    rw [List.forall_mem_cons] at same
    change spilled value origin rest (storeDouble _ (value entry.1) memory) = _
    rw [ih same.2, same.1]
    rfl

/-- Storing zeros leaves a zero byte zero. -/
theorem spilled_eq_zero (zero : ∀ entry ∈ plan, value entry.1 = 0#64) (before : memory place = 0#8) :
    spilled value origin plan memory place = 0#8 := by
  induction plan generalizing memory with
  | nil => exact before
  | cons entry rest ih =>
    rw [List.forall_mem_cons] at zero
    refine ih zero.2 ?_
    change (if _ then byteOf (value entry.1) _ else memory place) = _
    rw [zero.1, before]
    simp [byteOf]

/-- Entries at the same base are as far apart as their offsets. -/
theorem disjoint_add_left {left right : BitVec 64} :
    Disjoint (origin + left) (origin + right) ↔ Disjoint left right := by
  have cancel : ∀ left right : BitVec 64, origin + left - (origin + right) = left - right := by
    intro left right
    bv_omega
  unfold Disjoint
  rw [cancel, cancel]

theorem loadDouble_spilled_of_disjoint
    (disjoint : ∀ entry ∈ plan, Disjoint addr (origin + entry.2)) :
    loadDouble addr (spilled value origin plan memory) = loadDouble addr memory := by
  induction plan generalizing memory with
  | nil => rfl
  | cons entry rest ih =>
    rw [List.forall_mem_cons] at disjoint
    exact (ih disjoint.2).trans (loadDouble_storeDouble_of_disjoint disjoint.1)

/-- A spilled register can be read back. -/
theorem loadDouble_spilled (origin : BitVec 64) (value : ρ → BitVec 64)
    (memory : BitVec 64 → BitVec 8) (spread : plan.Spread) (member : entry ∈ plan) :
    loadDouble (origin + entry.2) (spilled value origin plan memory) = value entry.1 := by
  induction plan generalizing memory with
  | nil => cases member
  | cons first rest ih =>
    obtain ⟨apart, spread⟩ := List.pairwise_cons.mp spread
    rcases List.mem_cons.mp member with rfl | later
    · have kept : ∀ other ∈ rest, Disjoint (origin + entry.2) (origin + other.2) :=
        fun other isLater => disjoint_add_left.mpr (apart other isLater)
      exact (loadDouble_spilled_of_disjoint kept).trans loadDouble_storeDouble_self
    · exact ih _ spread later

section

variable [DecidableEq ρ] [Registers ρ]

/-- Spilling stores the registers and changes none. -/
theorem transferAll_spill (cpu : Cpu ρ) (base : ρ) (plan : Plan ρ) :
    (cpu.transferAll (spill base plan)).memory =
        spilled cpu.get (cpu.get base) plan cpu.memory ∧
      ∀ reg, (cpu.transferAll (spill base plan)).get reg = cpu.get reg := by
  induction plan generalizing cpu with
  | nil => exact ⟨rfl, fun _ => rfl⟩
  | cons entry rest ih =>
    obtain ⟨memory, regs⟩ := ih (cpu.transfer (.store entry.1 base entry.2))
    exact ⟨memory, regs⟩

/-- Filling loads each register of the plan from its entry and changes no other. -/
theorem transferAll_fill (cpu : Cpu ρ) (nodup : (plan.map Prod.fst).Nodup)
    (target : ∀ entry ∈ plan, entry.1 ≠ base ∧ entry.1 ≠ Registers.zero) :
    (cpu.transferAll (fill base plan)).memory = cpu.memory ∧
      (∀ entry ∈ plan, (cpu.transferAll (fill base plan)).get entry.1 =
        loadDouble (cpu.get base + entry.2) cpu.memory) ∧
      ∀ reg ∉ plan.map Prod.fst, (cpu.transferAll (fill base plan)).get reg = cpu.get reg := by
  induction plan generalizing cpu with
  | nil => exact ⟨rfl, by simp, fun _ _ => rfl⟩
  | cons first rest ih =>
    rw [List.map_cons, List.nodup_cons] at nodup
    rw [List.forall_mem_cons] at target
    obtain ⟨⟨notBase, nonzero⟩, targets⟩ := target
    obtain ⟨memory, loaded, others⟩ :=
      ih (cpu.transfer (.load first.1 base first.2)) nodup.2 targets
    have sameBase : (cpu.transfer (.load first.1 base first.2)).get base = cpu.get base := by
      rw [Cpu.transfer, Cpu.get_set_of_ne notBase.symm]
    refine ⟨memory, List.forall_mem_cons.mpr ⟨?_, fun entry member => ?_⟩, fun reg absent => ?_⟩
    · refine (others first.1 nodup.1).trans ?_
      rw [Cpu.transfer, Cpu.get_set_self nonzero]
    · refine (loaded entry member).trans ?_
      rw [sameBase]
      rfl
    · rw [List.map_cons, List.mem_cons, not_or] at absent
      refine (others reg absent.2).trans ?_
      rw [Cpu.transfer, Cpu.get_set_of_ne absent.1]

end

end Libmicrokitco.Isa
