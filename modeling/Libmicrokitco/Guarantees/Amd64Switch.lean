import Libmicrokitco.Isa.Coroutines
import Libmicrokitco.Libco.Amd64Swap
import Libmicrokitco.Libco.StackTop

/-!
# The AMD64 context switch is transparent

The save area of a handle starts at the handle, and a return address stays on
the stack of the thread that is left. A switch keeps both, as long as the return
address is not inside the save area.
-/

namespace Libmicrokitco.Amd64

open Isa Isa.X64

/-- The bytes of the save area of a handle. -/
def InArea (handle place : Address) : Prop := (place - handle).toNat < 8 * savedWords

/-- The bytes of a doubleword. -/
def InWord (addr place : Address) : Prop := (place - addr).toNat < 8

/-- What the caller of `co_swap` is to resume with: its return address, and the
stack pointer above it. -/
def captured (core : Core) : Saved Reg where
  regs reg := if reg = rsp then core.get rsp + 8#64 else core.get reg
  resume := loadDouble (core.get rsp) core.memory

/-- Where a context keeps its return address. -/
def returnSlot (saved : Saved Reg) : Address := saved.regs rsp - 8#64

/-- `co_swap` with its contexts. -/
def mechanism : Mechanism Reg where
  run := coSwap
  handleReg := rdi
  previousReg := rsi
  kept := swapPlan.map Prod.fst
  captured := captured
  Sited handle saved := ∀ place, InWord (returnSlot saved) place → ¬ InArea handle place
  Holds handle saved memory :=
    loadDouble (handle + 0#64) memory = returnSlot saved ∧
      loadDouble (returnSlot saved) memory = saved.resume ∧
      ∀ entry ∈ calleePlan, loadDouble (handle + entry.2) memory = saved.regs entry.1
  Footprint handle saved place := InArea handle place ∨ InWord (returnSlot saved) place

variable {handle previous other place : Address} {saved : Saved Reg} {core after : Core}
  {memory changed stored : Memory}

@[simp] theorem returnSlot_captured : returnSlot (captured core) = core.get rsp := by
  change core.get rsp + 8#64 - 8#64 = core.get rsp
  exact BitVec.add_sub_cancel ..

theorem mechanism_run : mechanism.run core = coSwap core := by rw [mechanism]

theorem offset_le : ∀ entry ∈ swapPlan, entry.2.toNat ≤ 48 := by decide +kernel

theorem inArea_slot {entry : Reg × BitVec 64} (member : entry ∈ swapPlan) {index : Nat}
    (bounded : index < 8) : InArea handle (handle + entry.2 + BitVec.ofNat 64 index) := by
  have offset := offset_le entry member
  have small : (BitVec.ofNat 64 index).toNat = index := by
    rw [BitVec.toNat_ofNat]
    omega
  unfold InArea savedWords
  bv_omega

theorem inWord_index {addr : Address} {index : Nat} (bounded : index < 8) :
    InWord addr (addr + BitVec.ofNat 64 index) := by
  have small : (BitVec.ofNat 64 index).toNat = index := by
    rw [BitVec.toNat_ofNat]
    omega
  unfold InWord
  bv_omega

/-- The words of a save area depend on its bytes only. -/
theorem loadDouble_slot {entry : Reg × BitVec 64} (member : entry ∈ swapPlan)
    (same : ∀ place, InArea handle place → changed place = memory place) :
    loadDouble (handle + entry.2) changed = loadDouble (handle + entry.2) memory :=
  loadDouble_congr fun _ bounded => same _ (inArea_slot member bounded)

theorem holds_congr (holds : mechanism.Holds handle saved memory)
    (same : ∀ place, mechanism.Footprint handle saved place → changed place = memory place) :
    mechanism.Holds handle saved changed := by
  have area : ∀ entry ∈ swapPlan,
      loadDouble (handle + entry.2) changed = loadDouble (handle + entry.2) memory :=
    fun entry member => loadDouble_slot member fun place inside => same place (.inl inside)
  obtain ⟨pointer, resume, regs⟩ := holds
  refine ⟨(area _ List.mem_cons_self).trans pointer, ?_, ?_⟩
  · apply Eq.trans _ resume
    exact loadDouble_congr fun _ bounded => same _ (.inr (inWord_index bounded))
  · intro entry member
    exact (area entry (List.mem_cons_of_mem _ member)).trans (regs entry member)

theorem spilled_outside {plan : Plan Reg} {value : Reg → Address} (isPart : plan ⊆ swapPlan)
    (outside : ¬ InArea previous place) :
    spilled value previous plan memory place = memory place := by
  apply spilled_of_outside
  intro entry member
  have offset := offset_le entry (isPart member)
  unfold InArea savedWords at outside
  bv_omega

/-- The return address of a caller stays where it is. -/
theorem loadDouble_return (sited : mechanism.Sited handle (captured core))
    (same : ∀ place, ¬ InArea handle place → changed place = core.memory place) :
    loadDouble (returnSlot (captured core)) changed = (captured core).resume := by
  have apart : ∀ place, InWord (returnSlot (captured core)) place → ¬ InArea handle place := sited
  rw [returnSlot_captured] at apart ⊢
  exact loadDouble_congr fun _ bounded => same _ (apart _ (inWord_index bounded))

/-- `co_swap` returns and writes in the save area of its caller only, where it
leaves the context of its caller. -/
theorem coSwap_leaves (ran : coSwap core = some after) :
    (∀ place, ¬ InArea (core.get rsi) place → after.memory place = core.memory place) ∧
      (mechanism.Sited (core.get rsi) (captured core) →
        mechanism.Holds (core.get rsi) (captured core) after.memory) := by
  obtain ⟨reached, ranAlso, written, -⟩ := coSwap_runs core
  obtain rfl := Option.some.inj (ranAlso.symm.trans ran)
  have outside : ∀ place, ¬ InArea (core.get rsi) place →
      reached.memory place = core.memory place := by
    intro place outside
    rw [written]
    exact spilled_outside (fun _ => id) outside
  have slot : ∀ entry ∈ swapPlan,
      loadDouble (core.get rsi + entry.2) reached.memory = core.get entry.1 := by
    intro entry member
    rw [written]
    exact loadDouble_spilled _ _ _ swapPlan_spread member
  refine ⟨outside, fun sited => ⟨?_, loadDouble_return sited outside, ?_⟩⟩
  · rw [returnSlot_captured]
    exact slot (rsp, 0#64) List.mem_cons_self
  · intro entry member
    have notRsp : ∀ entry ∈ calleePlan, entry.1 ≠ rsp := by decide +kernel
    apply (slot entry (List.mem_cons_of_mem _ member)).trans
    exact (if_neg (notRsp entry member)).symm

/-- `co_swap` resumes what the save area of its target holds once the stack
pointer of its caller has been stored. -/
theorem coSwap_resumes (ran : coSwap core = some after)
    (holds : ∀ stored, (∀ place, ¬ InArea (core.get rsi) place → stored place = core.memory place) →
      loadDouble (core.get rsi + 0#64) stored = core.get rsp →
        loadDouble (core.get rdi + 0#64) stored = returnSlot saved ∧
          loadDouble (returnSlot saved) stored = saved.resume)
    (regs : ∀ entry ∈ calleePlan,
      loadDouble (core.get rdi + entry.2) after.memory = saved.regs entry.1) :
    mechanism.Resumes saved after := by
  obtain ⟨reached, ranAlso, -, loaded, -, stored, pointer, isStored, isPointer, top, jumped⟩ :=
    coSwap_runs core
  obtain rfl := Option.some.inj (ranAlso.symm.trans ran)
  have outside : ∀ place, ¬ InArea (core.get rsi) place → stored place = core.memory place := by
    intro place outside
    rw [isStored]
    change spilled core.get (core.get rsi) [(rsp, 0#64)] core.memory place = _
    exact spilled_outside (by decide +kernel) outside
  have saving : loadDouble (core.get rsi + 0#64) stored = core.get rsp := by
    rw [isStored]
    exact loadDouble_storeDouble_self
  obtain ⟨slot, resume⟩ := holds stored outside saving
  constructor
  case regs =>
    intro reg isKept
    obtain ⟨entry, member, rfl⟩ := List.mem_map.mp isKept
    rcases List.mem_cons.mp member with rfl | isCallee
    · calc reached.get rsp
          = pointer + 8#64 := top
        _ = returnSlot saved + 8#64 := by rw [isPointer, slot]
        _ = saved.regs rsp := BitVec.sub_add_cancel ..
    · exact (loaded entry isCallee).trans (regs entry isCallee)
  case pc => rw [jumped, isPointer, slot, resume]

/-- `co_swap` to another thread resumes the context of that thread. -/
theorem coSwap_enters (ran : coSwap core = some after)
    (holds : mechanism.Holds (core.get rdi) saved core.memory)
    (apart : ∀ place, InArea (core.get rsi) place →
      ¬ mechanism.Footprint (core.get rdi) saved place) : mechanism.Resumes saved after := by
  have spared : ∀ changed : Memory,
      (∀ place, ¬ InArea (core.get rsi) place → changed place = core.memory place) →
        mechanism.Holds (core.get rdi) saved changed := by
    intro changed outside
    refine holds_congr holds fun place inside => ?_
    exact outside place fun inPrevious => apart place inPrevious inside
  apply coSwap_resumes ran
  · intro stored same _
    obtain ⟨pointer, resume, -⟩ := spared stored same
    exact ⟨pointer, resume⟩
  · exact (spared after.memory (coSwap_leaves ran).1).2.2

/-- `co_swap` of a thread to itself returns. -/
theorem coSwap_itself (ran : coSwap core = some after) (itself : core.get rdi = core.get rsi)
    (sited : mechanism.Sited (core.get rsi) (captured core)) :
    mechanism.Resumes (captured core) after := by
  apply coSwap_resumes ran
  · intro stored same saving
    refine ⟨?_, loadDouble_return sited same⟩
    rw [itself, returnSlot_captured]
    exact saving
  · rw [itself]
    exact ((coSwap_leaves ran).2 sited).2.2

/-- The switch of the AMD64 back end is one that threads can rely on. -/
theorem mechanism_lawful : mechanism.Lawful := by
  constructor
  case congr => exact holds_congr
  case switch =>
    rintro handle previous saved core ⟨isHandle, isPrevious, sited⟩ - holds apart
    obtain ⟨after, ran, -⟩ := coSwap_runs core
    obtain ⟨outside, leaves⟩ := coSwap_leaves ran
    obtain rfl : core.get rdi = handle := isHandle
    obtain rfl : core.get rsi = previous := isPrevious
    have enters := coSwap_enters ran holds fun place inside => apart place (.inl inside)
    exact ⟨after, mechanism_run.trans ran, enters, leaves sited,
      fun place off => outside place fun inside => off (.inl inside)⟩
  case itself =>
    rintro handle core ⟨isHandle, isPrevious, sited⟩
    obtain ⟨after, ran, -⟩ := coSwap_runs core
    obtain ⟨outside, -⟩ := coSwap_leaves ran
    obtain rfl : core.get rsi = handle := isPrevious
    exact ⟨after, mechanism_run.trans ran, coSwap_itself ran isHandle sited,
      fun place off => outside place fun inside => off (.inl inside)⟩

/-- `before` is about to make the call of `co_swap` that ends in `after`. -/
structure Calls (handle previous : Address) (before after : Core) : Prop where
  handleArg : before.get rdi = handle
  previousArg : before.get rsi = previous
  ran : coSwap before = some after

/-- A call of `co_swap` has returned to its caller. -/
structure Returned (before after : Core) : Prop where
  callee : ∀ entry ∈ calleePlan, after.get entry.1 = before.get entry.1
  stackPointer : after.get rsp = before.get rsp + 8#64
  pc : after.pc = loadDouble (before.get rsp) before.memory

/-- `previous` is left for `handle` and later resumed from `other`. The return
address must not be in a save area that is written meanwhile. -/
structure Transparent (handle previous other : Address) : Prop where
  runs : ∀ before, before.get rsi = previous → ∃ after, coSwap before = some after ∧
    ∀ place, ¬ InArea previous place → after.memory place = before.memory place
  resumes : ∀ first second third fourth, Calls handle previous first second →
    Calls previous other third fourth →
    (∀ place, InWord (first.get rsp) place → ¬ InArea previous place ∧ ¬ InArea other place) →
    (∀ place, InArea previous place ∨ InWord (first.get rsp) place →
      third.memory place = second.memory place) → Returned first fourth
  itself : ∀ before after, Calls handle handle before after →
    (∀ place, InWord (before.get rsp) place → ¬ InArea handle place) → Returned before after ∧
      ∀ reg ∉ swapPlan.map Prod.fst, reg ≠ rax → after.get reg = before.get reg

theorem sited_captured (apart : ∀ place, InWord (core.get rsp) place → ¬ InArea handle place) :
    mechanism.Sited handle (captured core) := by
  change ∀ place, InWord (returnSlot (captured core)) place → ¬ InArea handle place
  rw [returnSlot_captured]
  exact apart

/-- What a thread resumes with is what its call returned with. -/
theorem returned_of_resumes (resumes : mechanism.Resumes (captured core) after) :
    Returned core after := by
  constructor
  case callee =>
    intro entry member
    have notRsp : ∀ entry ∈ calleePlan, entry.1 ≠ rsp := by decide +kernel
    apply (resumes.regs _ (List.mem_map_of_mem (List.mem_cons_of_mem _ member))).trans
    exact if_neg (notRsp entry member)
  case stackPointer => exact resumes.regs rsp List.mem_cons_self
  case pc => exact resumes.pc

/-- On AMD64 a thread that is switched back to, with its save area and its
return address untouched, goes on behind its call. -/
theorem switch_transparent (handle : Address)
    (apart : ∀ place, InArea previous place → ¬ InArea other place) :
    Transparent handle previous other := by
  constructor
  case runs =>
    rintro before rfl
    obtain ⟨after, ran, -⟩ := coSwap_runs before
    exact ⟨after, ran, (coSwap_leaves ran).1⟩
  case resumes =>
    rintro first second third fourth ⟨-, rfl, leaving⟩ ⟨isPrevious, rfl, coming⟩ untouched kept
    have sited := sited_captured fun place inWord => (untouched place inWord).1
    have holds : mechanism.Holds (first.get rsi) (captured first) third.memory := by
      refine holds_congr ((coSwap_leaves leaving).2 sited) fun place inside => ?_
      change InArea _ place ∨ InWord (returnSlot (captured first)) place at inside
      rw [returnSlot_captured] at inside
      exact kept place inside
    rw [← isPrevious] at holds
    refine returned_of_resumes (coSwap_enters coming holds fun place inOther inside => ?_)
    change InArea _ place ∨ InWord (returnSlot (captured first)) place at inside
    rw [returnSlot_captured, isPrevious] at inside
    rcases inside with inPrevious | inWord
    · exact apart place inPrevious inOther
    · exact (untouched place inWord).2 inOther
  case itself =>
    rintro before after ⟨isHandle, rfl, ran⟩ untouched
    obtain ⟨reached, ranAlso, -, -, others, -⟩ := coSwap_runs before
    obtain rfl := Option.some.inj (ranAlso.symm.trans ran)
    exact ⟨returned_of_resumes (coSwap_itself ran isHandle (sited_captured untouched)), others⟩

/-- Two stacks of 4 KiB, one after the other. -/
theorem switch_transparent_adjacent : Transparent 0x7fff00001000#64 0x7fff00000000#64 0x7fff00001000#64 :=
  switch_transparent 0x7fff00001000#64 fun place inPrevious inOther => by
    unfold InArea savedWords at inPrevious inOther
    bv_omega

/-- Whatever the save area of a handle holds is a context. -/
theorem exists_holds (handle : Address) (memory : Memory) : ∃ saved,
    mechanism.Holds handle saved memory ∧
      saved.resume = loadDouble (loadDouble (handle + 0#64) memory) memory ∧
      saved.regs rsp = loadDouble (handle + 0#64) memory + 8#64 := by
  let offset reg := ((calleePlan.find? fun entry => entry.1 = reg).map Prod.snd).getD 0#64
  have slot : ∀ entry ∈ calleePlan, entry.1 ≠ rsp ∧ offset entry.1 = entry.2 := by decide +kernel
  refine ⟨⟨fun reg => if reg = rsp then loadDouble (handle + 0#64) memory + 8#64
    else loadDouble (handle + offset reg) memory, _⟩, ⟨?_, ?_, ?_⟩, rfl, rfl⟩
  · exact (BitVec.add_sub_cancel ..).symm
  · exact congrArg (fun addr => loadDouble addr memory) (BitVec.add_sub_cancel ..)
  · intro entry member
    obtain ⟨notRsp, isOffset⟩ := slot entry member
    change _ = if entry.1 = rsp then _ else loadDouble (handle + offset entry.1) memory
    rw [if_neg notRsp, isOffset]

/-- `p` before the words below it are stored. -/
def seekTop (base : Address) (size : BitVec 32) : Address :=
  base + ((size &&& ~~~15#32) - 32#32).setWidth 64

variable {base coEntrypoint entrypoint : Address} {size : BitVec 32}

theorem toNat_seekTop (large : 0x1000 ≤ size.toNat) (fits : base.toNat + size.toNat ≤ 2 ^ 64) :
    (seekTop base size).toNat = base.toNat + (size.toNat - size.toNat % 16 - 32) := by
  have offset : ((size &&& ~~~15#32) - 32#32).toNat = size.toNat - size.toNat % 16 - 32 := by
    have aligned := StackTop.toNat_alignDown size
    bv_omega
  rw [seekTop, BitVec.toNat_add, BitVec.toNat_setWidth, offset]
  omega

/-- What `co_derive` makes of memory. -/
structure DerivedWords (base : Address) (size : BitVec 32) (coEntrypoint entrypoint : Address)
    (memory : Memory) : Prop where
  stackPointer : loadDouble (base + 0#64) memory = seekTop base size - 16#64
  callee : loadDouble (base + 8#64) memory = entrypoint
  start : loadDouble (seekTop base size - 16#64) memory = coEntrypoint
  /-- The return address of `co_entrypoint`. -/
  crash : loadDouble (seekTop base size - 8#64) memory = 0#64

/-- These words lie in the stack. -/
theorem DerivedWords.congr (words : DerivedWords base size coEntrypoint entrypoint memory)
    (large : 0x1000 ≤ size.toNat) (fits : base.toNat + size.toNat ≤ 2 ^ 64)
    (agrees : ∀ place, StackTop.InStack base size place → changed place = memory place) :
    DerivedWords base size coEntrypoint entrypoint changed := by
  have top := toNat_seekTop large fits
  have same : ∀ addr, StackTop.WordInStack base size addr →
      loadDouble addr changed = loadDouble addr memory :=
    fun _ word => StackTop.loadDouble_inStack fits word agrees
  constructor
  case stackPointer =>
    exact (same _ (by unfold StackTop.WordInStack; bv_omega)).trans words.stackPointer
  case callee => exact (same _ (by unfold StackTop.WordInStack; bv_omega)).trans words.callee
  case start => exact (same _ (by unfold StackTop.WordInStack; bv_omega)).trans words.start
  case crash => exact (same _ (by unfold StackTop.WordInStack; bv_omega)).trans words.crash

theorem coDerive_words (nonNull : base ≠ 0#64) (large : 0x1000 ≤ size.toNat)
    (fits : base.toNat + size.toNat ≤ 2 ^ 64) : DerivedWords base size coEntrypoint entrypoint
      (coDerive coEntrypoint memory base size entrypoint).1 := by
  have top := toNat_seekTop large fits
  have derived : (coDerive coEntrypoint memory base size entrypoint).1 =
      storeDouble (base + 8#64) entrypoint (storeDouble base (seekTop base size - 16#64)
        (storeDouble (seekTop base size - 16#64) coEntrypoint
          (storeDouble (seekTop base size - 8#64) 0#64 memory))) := by
    rw [coDerive, if_neg nonNull]
    rfl
  have bottom : Isa.Disjoint base (base + 8#64) := by
    unfold Isa.Disjoint
    bv_omega
  have far : ∀ addr, seekTop base size - 16#64 ≤ addr → addr ≤ seekTop base size - 8#64 →
      Isa.Disjoint addr base ∧ Isa.Disjoint addr (base + 8#64) := by
    intro addr above below
    unfold Isa.Disjoint
    bv_omega
  have adjacent : Isa.Disjoint (seekTop base size - 8#64) (seekTop base size - 16#64) := by
    unfold Isa.Disjoint
    bv_omega
  obtain ⟨startBase, startCallee⟩ := far (seekTop base size - 16#64) (by bv_omega) (by bv_omega)
  obtain ⟨crashBase, crashCallee⟩ := far (seekTop base size - 8#64) (by bv_omega) (by bv_omega)
  rw [derived]
  constructor
  case stackPointer =>
    rw [BitVec.add_zero, loadDouble_storeDouble_of_disjoint bottom]
    exact loadDouble_storeDouble_self
  case callee => exact loadDouble_storeDouble_self
  case start =>
    rw [loadDouble_storeDouble_of_disjoint startCallee, loadDouble_storeDouble_of_disjoint startBase]
    exact loadDouble_storeDouble_self
  case crash =>
    rw [loadDouble_storeDouble_of_disjoint crashCallee, loadDouble_storeDouble_of_disjoint crashBase,
      loadDouble_storeDouble_of_disjoint adjacent]
    exact loadDouble_storeDouble_self

/-- A core in `co_entrypoint`, which was called with the handle of a fresh context. -/
structure AtEntrypoint (base : Address) (size : BitVec 32) (coEntrypoint entrypoint : Address)
    (core : Core) : Prop where
  pc : core.pc = coEntrypoint
  handle : core.get rdi = base
  callee : coEntrypointCallee (core.get rdi) core.memory = entrypoint
  /-- `co_entrypoint` would return to address zero. -/
  crash : loadDouble (core.get rsp) core.memory = 0#64
  stackPointer : (core.get rsp).toNat = base.toNat + (size.toNat - size.toNat % 16) - 40
  aligned : base.toNat % 16 = 0 → (core.get rsp).toNat % 16 = 8

/-- The first switch to a context that `co_derive` made on AMD64 ends in
`co_entrypoint`, which then calls the client's entry. -/
theorem derived_context_entered (nonNull : base ≠ 0#64) (large : 0x1000 ≤ size.toNat)
    (fits : base.toNat + size.toNat ≤ 2 ^ 64) (memory : Memory)
    (derived : ∀ place, StackTop.InStack base size place →
      core.memory place = (coDerive coEntrypoint memory base size entrypoint).1 place)
    (isHandle : core.get rdi = (coDerive coEntrypoint memory base size entrypoint).2)
    (apart : ∀ place, InArea (core.get rsi) place → ¬ StackTop.InStack base size place) :
    ∃ after, coSwap core = some after ∧ AtEntrypoint base size coEntrypoint entrypoint after := by
  have isBase : (coDerive coEntrypoint memory base size entrypoint).2 = base := by
    rw [coDerive, if_neg nonNull]
  rw [isBase] at isHandle
  have top := toNat_seekTop large fits
  have words : DerivedWords base size coEntrypoint entrypoint core.memory :=
    (coDerive_words nonNull large fits).congr large fits derived
  obtain ⟨saved, holds, resume, pointer⟩ := exists_holds base core.memory
  rw [words.stackPointer] at resume pointer
  have slot : returnSlot saved = seekTop base size - 16#64 := by
    rw [returnSlot, pointer]
    exact BitVec.add_sub_cancel ..
  obtain ⟨after, ran, -, -, others, -⟩ := coSwap_runs core
  have wordsAfter : DerivedWords base size coEntrypoint entrypoint after.memory := by
    refine words.congr large fits fun place inside => ?_
    exact (coSwap_leaves ran).1 place fun inArea => apart place inArea inside
  have resumes : mechanism.Resumes saved after := by
    rw [← isHandle] at holds
    refine coSwap_enters ran holds fun place inArea inside => apart place inArea ?_
    rcases inside with inOwn | inWord
    · rw [isHandle] at inOwn
      unfold InArea savedWords at inOwn
      unfold StackTop.InStack
      bv_omega
    · rw [slot] at inWord
      unfold InWord at inWord
      unfold StackTop.InStack
      bv_omega
  have stackPointer : after.get rsp = seekTop base size - 8#64 := by
    rw [resumes.regs rsp List.mem_cons_self, pointer]
    bv_omega
  have argument : after.get rdi = base := (others rdi (by decide +kernel) (by decide)).trans isHandle
  refine ⟨after, ran, ?_⟩
  constructor
  case pc => rw [resumes.pc, resume, words.start]
  case handle => exact argument
  case callee =>
    rw [argument]
    exact wordsAfter.callee
  case crash =>
    rw [stackPointer]
    exact wordsAfter.crash
  case stackPointer =>
    rw [stackPointer]
    bv_omega
  case aligned =>
    intro aligned
    rw [stackPointer]
    bv_omega

/-- The root, whose buffer is elsewhere, switches to a stack of 64 KiB. -/
theorem derived_context_entered_sample : ∃ core after, core.get rsi = 0x8000#64 ∧
    coSwap core = some after ∧
      AtEntrypoint 0x10000#64 0x10000#32 0x1000#64 0x2000#64 after := by
  let core : Core :=
    { pc := 0#64
      regs := fun reg => if reg = rdi then 0x10000#64 else 0x8000#64
      memory := (coDerive 0x1000#64 (fun _ => 0#8) 0x10000#64 0x10000#32 0x2000#64).1 }
  have previous : core.get rsi = 0x8000#64 := by decide
  have apart : ∀ place, InArea (core.get rsi) place →
      ¬ StackTop.InStack 0x10000#64 0x10000#32 place := by
    rw [previous]
    intro place inArea inside
    unfold InArea savedWords at inArea
    unfold StackTop.InStack at inside
    bv_omega
  have handle : core.get rdi =
      (coDerive 0x1000#64 (fun _ => 0#8) 0x10000#64 0x10000#32 0x2000#64).2 := by decide
  obtain ⟨after, ran, entered⟩ := derived_context_entered (by decide) (by decide) (by decide)
    (fun _ => 0#8) (fun _ _ => rfl) handle apart
  exact ⟨core, after, previous, ran, entered⟩

end Libmicrokitco.Amd64
