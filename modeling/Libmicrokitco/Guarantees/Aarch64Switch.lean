import Libmicrokitco.Libco.Aarch64Swap

/-!
# The AArch64 context switch is transparent

At all handles: the addresses of `co_swap` are 64 bits wide throughout.
-/

namespace Libmicrokitco.Aarch64

open Isa Isa.A64

variable {handle previous other : Address} {before after : Core}

theorem swaps (handle previous : Address) : swap.Swaps handle previous := by
  intro before isHandle isPrevious
  change before.get regX0 = handle at isHandle
  change before.get regX1 = previous at isPrevious
  obtain ⟨after, ran, memory, loaded, -, jumped⟩ := coSwap_runs before
  rw [isHandle] at loaded jumped
  rw [isPrevious] at memory
  have slots : ∀ entry ∈ swapPlan,
      entry.2 ∈ saveLayout.linkOffset :: saveLayout.saved.map Prod.snd := by decide +kernel
  -- the slot of `sp` is stored from `x16`
  have sources : ∀ entry ∈ (saveLayout.link, saveLayout.linkOffset) :: saveLayout.saved,
      (if entry.1 = .sp then regX16 else entry.1, entry.2) ∈ swapPlan ∧ entry.1 ≠ regX16 := by
    decide +kernel
  refine ⟨after, ran, .of_spilled saveLayout_enclosed memory swapPlan_spread slots ?_ loaded jumped⟩
  intro entry member
  obtain ⟨planned, notX16⟩ := sources entry member
  refine ⟨_, planned, ?_⟩
  split
  case isTrue isSp => rw [outgoing, if_pos rfl, isSp]
  case isFalse => rw [outgoing, if_neg notX16]

/-- A thread that switches to itself keeps every register but the scratch register. -/
theorem registers_kept_by_self_switch (call : swap.Calls handle handle before after) {reg : Reg}
    (notScratch : reg ≠ regX16) : after.get reg = before.get reg := by
  obtain ⟨isHandle, isPrevious, ranAlso⟩ := call
  obtain ⟨reached, ran, switched⟩ := swaps handle handle before isHandle isPrevious
  obtain rfl := Option.some.inj (ran.symm.trans ranAlso)
  obtain ⟨ended, ended_ran, -, -, others, -⟩ := coSwap_runs before
  obtain rfl := Option.some.inj (ended_ran.symm.trans ranAlso)
  by_cases isSaved : reg ∈ saveLayout.saved.map Prod.fst
  · obtain ⟨entry, member, rfl⟩ := List.mem_map.mp isSaved
    exact (switched.loaded entry member).trans (switched.saved entry member)
  · exact others reg isSaved notScratch

/-- Switches are transparent at all handles, as long as the thread left and the
one it is resumed from do not share a save area, and a switch of a thread to
itself changes only `x16` and its save area. -/
theorem swap_transparent (handle previous other : Address) (apart : saveLayout.Apart previous other) :
    swap.Transparent handle previous other ∧
      ∀ before after, swap.Calls handle handle before after →
        (∀ reg, reg ≠ regX16 → after.get reg = before.get reg) ∧
          ∀ place, ¬ saveLayout.InArea handle place → after.memory place = before.memory place := by
  constructor
  · exact (swaps handle previous).transparent saveLayout_enclosed (swaps previous other) apart
  · intro before after call
    refine ⟨fun reg => registers_kept_by_self_switch call, fun place outside => ?_⟩
    obtain ⟨reached, ran, switched⟩ := swaps handle handle before call.handleArg call.previousArg
    obtain rfl := Option.some.inj (ran.symm.trans call.ran)
    exact switched.outside place outside

/-- Two stacks in the upper half of the address space. -/
theorem swap_transparent_high :
    swap.Transparent 0xffff800000004ff8#64 0xffff800000007ff8#64 0xffff800000004ff8#64 ∧
      ∀ before after, swap.Calls 0xffff800000004ff8#64 0xffff800000004ff8#64 before after →
        (∀ reg, reg ≠ regX16 → after.get reg = before.get reg) ∧
          ∀ place, ¬ saveLayout.InArea 0xffff800000004ff8#64 place →
            after.memory place = before.memory place :=
  swap_transparent 0xffff800000004ff8#64 0xffff800000007ff8#64 0xffff800000004ff8#64
    (SaveLayout.apart_of_distance (by decide) (by decide))

end Libmicrokitco.Aarch64
