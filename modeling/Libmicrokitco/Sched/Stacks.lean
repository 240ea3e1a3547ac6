import Libmicrokitco.Cothread.Clearing
import Libmicrokitco.Libco.Backends
import Libmicrokitco.Sched.Runs

/-!
# Stacks and what a spawn does to them

No call moves a stack or changes the recorded stack size, whatever the client
does. A spawn clears the stack of the handle it answers and derives a context
in it; for sizes that fit an `int` it touches nothing else.
-/

namespace Libmicrokitco

open Sched

/-- The bytes of a stack of the size given to `microkit_cothread_init`. -/
def StackBytes (coStackSize : BitVec 64) (base place : Address) : Prop :=
  base.toNat ≤ place.toNat ∧ place.toNat < base.toNat + coStackSize.toNat

instance (coStackSize : BitVec 64) (base place : Address) :
    Decidable (StackBytes coStackSize base place) :=
  inferInstanceAs (Decidable (_ ∧ _))

namespace Sched

/-- What no call changes of the stacks. A handle that is released was in range. -/
structure StacksKept (config : Config) (sched next : Sched) : Prop where
  storage : next.localStorage = sched.localStorage
  size : next.coStackSize = sched.coStackSize
  free : ∀ h ∈ next.free, h ∈ sched.free ∨ InRange config h

variable {config : Config} {sched next : Sched} {call : Call} {answer : Answer} {sem : SemRef}
  {point : SwitchPoint} {h : Int}

private theorem StacksKept.of_fields (storage : next.localStorage = sched.localStorage)
    (size : next.coStackSize = sched.coStackSize) (free : next.free = sched.free) :
    StacksKept config sched next :=
  ⟨storage, size, fun _ member => .inl (free ▸ member)⟩

private theorem wait_stacksKept (success : sched.wait sem = .ok next) :
    StacksKept config sched next := by
  unfold wait at success
  split at success
  · cases success
    exact .of_fields rfl rfl rfl
  · rw [goNext_eq, resume_eq_ok] at success
    obtain ⟨rfl, -⟩ := success
    exact .of_fields rfl rfl rfl

private theorem signal_stacksKept (success : sched.signal config sem = .ok next) :
    StacksKept config sched next := by
  unfold signal at success
  split at success
  · cases success
    exact .of_fields rfl rfl rfl
  split at success
  · cases success
    exact .of_fields rfl rfl rfl
  · obtain ⟨_, pushed, went⟩ := bind_eq_ok.mp success
    obtain ⟨-, rfl⟩ := requeue_eq_ok.mp pushed
    obtain ⟨rfl, -⟩ := resume_eq_ok.mp went
    exact .of_fields rfl rfl rfl

private theorem destroy_stacksKept {cothread : Int}
    (success : sched.destroy config point cothread = .ok next) : StacksKept config sched next := by
  unfold destroy at success
  split at success
  · cases success
  rename_i valid
  have inRange : InRange config cothread := ⟨by omega, by omega⟩
  have free : ∀ h ∈ sched.free ++ [cothread], h ∈ sched.free ∨ InRange config h := by
    intro h member
    rcases List.mem_append.mp member with before | isNew
    · exact .inl before
    · exact .inr (List.mem_singleton.mp isNew ▸ inRange)
  split at success
  · cases success
  split at success
  · cases success
  split at success
  · cases success
  split at success
  · rw [goNext_eq, resume_eq_ok] at success
    obtain ⟨rfl, -⟩ := success
    exact ⟨rfl, rfl, free⟩
  · cases success
    exact ⟨rfl, rfl, free⟩

/-- What a spawn that answers a handle did. -/
theorem spawn_eq_ok {clientEntry privateArg : Address}
    (success : sched.spawn config clientEntry privateArg = .ok (h, next)) (isHandle : h ≠ nullHandle) :
    ∃ rest, sched.free = h :: rest ∧
      next = sched.spawned config clientEntry privateArg h rest := by
  unfold spawn at success
  split at success
  · cases success
  split at success
  · cases success
    exact absurd rfl isHandle
  · rename_i new rest free
    split at success
    · cases success
    · cases success
      exact ⟨rest, free, rfl⟩

private theorem spawn_stacksKept {clientEntry privateArg : Address}
    (success : sched.spawn config clientEntry privateArg = .ok (h, next)) :
    StacksKept config sched next := by
  unfold spawn at success
  split at success
  · cases success
  split at success
  · cases success
    exact .of_fields rfl rfl rfl
  · rename_i new rest free
    split at success
    · cases success
    · cases success
      refine ⟨rfl, rfl, fun h member => .inl ?_⟩
      rw [free]
      exact List.mem_cons_of_mem _ member

/-- Every call that returns keeps the stacks. -/
theorem step_stacksKept (success : sched.step config call = .ok (answer, next)) :
    StacksKept config sched next := by
  cases call with
  | freeHandleAvailable | myHandle | semaphoreIsQueueEmpty | semaphoreIsSet | semaphoreInit =>
    cases success
    exact .of_fields rfl rfl rfl
  | spawn clientEntry privateArg =>
    obtain ⟨⟨h, after⟩, spawned, pair⟩ := map_eq_ok.mp success
    cases pair
    exact spawn_stacksKept spawned
  | setArg cothread privateArg =>
    obtain ⟨-, returned⟩ := returning_eq_ok.mp success
    unfold setArg at returned
    split at returned
    · cases returned
    · cases returned
      exact .of_fields rfl rfl rfl
  | queryState | myArg =>
    simp only [step] at success
    split at success
    · cases success
    · cases success
      exact .of_fields rfl rfl rfl
  | yield =>
    obtain ⟨-, returned⟩ := returning_eq_ok.mp success
    obtain ⟨_, pushed, went⟩ := bind_eq_ok.mp returned
    obtain ⟨-, rfl⟩ := requeue_eq_ok.mp pushed
    rw [goNext_eq, resume_eq_ok] at went
    obtain ⟨rfl, -⟩ := went
    exact .of_fields rfl rfl rfl
  | destroy cothread => exact destroy_stacksKept (returning_eq_ok.mp success).2
  | entryReturn => exact destroy_stacksKept (returning_eq_ok.mp success).2
  | semaphoreWait sem => exact wait_stacksKept (returning_eq_ok.mp success).2
  | semaphoreSignal sem => exact signal_stacksKept (returning_eq_ok.mp success).2
  | waitOnChannel wakeOn =>
    simp only [step] at success
    split at success
    · cases success
    · exact wait_stacksKept (returning_eq_ok.mp success).2
  | recvNtfn ch =>
    simp only [step] at success
    split at success
    · cases success
    split at success
    · cases success
    · exact signal_stacksKept (returning_eq_ok.mp success).2

end Sched

/-- The stacks are where they were at the start, and the free handles have one;
the root's handle, should a client destroy it, has a null one. -/
structure World.Stacked (config : Config) (coStackSize : BitVec 64) (coStacks : Nat → Address)
    (world : World) : Prop where
  rings : world.coController.RingsWellFormed config
  root : (world.coController.tcbs rootThread).localStorage = 0#64
  storage : ∀ i < config.maxCothreads - 1,
    (world.coController.tcbs ((i + 1 : Nat) : Int)).localStorage = coStacks i
  size : world.coController.coStackSize = coStackSize.setWidth 32
  free : ∀ h ∈ world.freeEntries, InRange config h

variable {config : Config} {Allowed : World → Call → Prop} {clientSems : Nat → CothreadSem}
  {memory : Memory} {coStackSize : BitVec 64} {coStacks : Nat → Address}
  {start world next final : World} {call : Call} {answer : Answer} {h : Int}
  {clientEntry privateArg : Address} {history : List (Transition World (Call × Answer))}

theorem init_stacked
    (success : microkitCothreadInit config none clientSems memory coStackSize coStacks = .ok start) :
    World.Stacked config coStackSize coStacks start := by
  have started : Started config start := ⟨_, _, _, _, success⟩
  obtain ⟨represents, initial⟩ := started.initial
  have accepted := init_accepted success
  refine ⟨represents.rings, init_rootStorage success, accepted.localStorage, accepted.size, ?_⟩
  intro h member
  rw [show start.freeEntries = spawnableHandles config from initial.free,
    mem_spawnableHandles] at member
  exact ⟨member.1.le, member.2⟩

/-- The initialisation writes to the stacks it is given. -/
theorem init_memory_outside {place : Address}
    (success : microkitCothreadInit config none clientSems memory coStackSize coStacks = .ok start)
    (outside : ∀ i < config.maxCothreads - 1, ¬ StackBytes coStackSize (coStacks i) place) :
    start.memory place = memory place := by
  have large := (init_accepted success).large
  unfold microkitCothreadInit at success
  split at success
  · cases success
  split at success
  · cases success
  obtain ⟨probed, recorded, success⟩ := bind_eq_ok.mp success
  obtain ⟨_, -, success⟩ := bind_eq_ok.mp success
  obtain ⟨_, -, success⟩ := bind_eq_ok.mp success
  obtain ⟨_, -, success⟩ := bind_eq_ok.mp success
  cases success
  change probed.memory place = memory place
  refine @foldlM_range'_invariant _ _ (fun _ (world : World) => world.memory place = memory place)
    _ _ _ _ _ rfl (fun {done world next} below before ended => ?_) recorded
  have stackOutside := outside done below
  have index : 1 + done - 1 = done := by omega
  unfold initStack at ended
  simp only [index] at ended
  split at ended
  · cases ended
  split at ended
  · cases ended
  rename_i fits
  cases ended
  unfold StackBytes at stackOutside
  simp only [minimumStackSize] at large
  have notFirst : place ≠ coStacks done := by
    rintro rfl
    bv_omega
  have notLast : place ≠ coStacks done + coStackSize - 1#64 := by
    rintro rfl
    bv_omega
  change Function.update (Function.update world.memory (coStacks done) 0#8)
    (coStacks done + coStackSize - 1#64) 0#8 place = _
  rw [Function.update_of_ne notLast, Function.update_of_ne notFirst]
  exact before

theorem World.Stacked.step (stacked : World.Stacked config coStackSize coStacks world)
    (success : Libmicrokitco.step config world call = .ok (answer, next)) :
    World.Stacked config coStackSize coStacks next := by
  have represents : Represents config world world.view := ⟨rfl, stacked.rings⟩
  have agreement := represents.step call
  rw [success] at agreement
  obtain ⟨⟨sameAnswer, sched⟩, listed, rfl, related⟩ := agreement.ok_left
  obtain ⟨rfl, rings⟩ := related
  have kept := step_stacksKept listed
  have storage : ∀ h, (next.coController.tcbs h).localStorage =
      (world.coController.tcbs h).localStorage := fun h => congrFun kept.storage h
  refine ⟨rings, (storage _).trans stacked.root, ?_, kept.size.trans stacked.size, ?_⟩
  · intro i below
    exact (storage _).trans (stacked.storage i below)
  · intro h member
    exact (kept.free h member).elim (stacked.free h) id

/-- The stacks stay where they are in every run. -/
theorem Run.stacked (run : Run config Allowed start history final)
    (stacked : World.Stacked config coStackSize coStacks start) :
    World.Stacked config coStackSize coStacks final :=
  run.invariant_of_step stacked fun before valid => before.step valid.2

/-- The lists do not depend on what the memory holds. -/
theorem World.Sound.forget (sound : World.Sound config world) (contents : Memory) :
    World.Sound config { world with memory := contents } where
  rings := sound.rings
  sound := ⟨sound.sound.running, sound.sound.threads, sound.sound.queue, sound.sound.free,
    ⟨sound.sound.slots.target, sound.sound.slots.unique, sound.sound.slots.tail⟩⟩
  contexts := ⟨sound.contexts.active, sound.contexts.root, sound.contexts.sited,
    sound.contexts.storage, sound.contexts.awaiting⟩

/-- Nor do the stacks. -/
theorem World.Stacked.forget (stacked : World.Stacked config coStackSize coStacks world)
    (contents : Memory) :
    World.Stacked config coStackSize coStacks { world with memory := contents } :=
  ⟨stacked.rings, stacked.root, stacked.storage, stacked.size, stacked.free⟩

/-- Every handle that can be spawned has a stack that does not wrap around. -/
theorem World.Stacked.fits (stacked : World.Stacked config coStackSize coStacks world)
    (fits : ∀ i < config.maxCothreads - 1, (coStacks i).toNat + coStackSize.toNat ≤ 2 ^ 64)
    (inRange : InRange config h) :
    (world.coController.tcbs h).localStorage.toNat + coStackSize.toNat ≤ 2 ^ 64 := by
  by_cases isRoot : h = rootThread
  · rw [isRoot, stacked.root]
    have bounded := coStackSize.isLt
    change 0 + coStackSize.toNat ≤ 2 ^ 64
    omega
  · obtain ⟨nonneg, below⟩ := inRange
    have positive : 0 < h := lt_of_le_of_ne nonneg (Ne.symm isRoot)
    obtain ⟨i, rfl⟩ : ∃ i : Nat, h = ((i + 1 : Nat) : Int) := ⟨h.toNat - 1, by omega⟩
    rw [stacked.storage i (by omega)]
    exact fits i (by omega)

/-- A spawn that answers a handle takes the first free one and makes it ready. -/
theorem World.spawned_view (rings : world.coController.RingsWellFormed config)
    (success : Libmicrokitco.step config world (.spawn clientEntry privateArg) =
      .ok (.handle h, next)) (isHandle : h ≠ nullHandle) :
    ∃ rest, world.freeEntries = h :: rest ∧
      next.view = world.view.spawned config clientEntry privateArg h rest := by
  have represents : Represents config world world.view := ⟨rfl, rings⟩
  have agreement := represents.step (.spawn clientEntry privateArg)
  rw [success] at agreement
  obtain ⟨⟨sameAnswer, sched⟩, listed, rfl, related⟩ := agreement.ok_left
  obtain ⟨⟨new, after⟩, spawned, pair⟩ := map_eq_ok.mp listed
  cases pair
  obtain ⟨rest, free, rfl⟩ := spawn_eq_ok spawned isHandle
  exact ⟨rest, free, related.view⟩

section Memory

variable {field : BitVec 32} {base place : Address}

/-- Offsets below the size are the bytes of a stack that does not wrap around. -/
theorem inStack_iff (fits : base.toNat + field.toNat ≤ 2 ^ 64) :
    StackTop.InStack base field place ↔ (place - base).toNat < field.toNat := by
  unfold StackTop.InStack
  constructor
  · intro inside
    bv_omega
  · intro offset
    bv_omega

/-- A size that fits an `int` is passed to `memzero` unchanged. -/
theorem memzero_field (short : field.toNat < 2 ^ 31) (memory : Memory) :
    memzero base (field.signExtend 64) memory place =
      if (place - base).toNat < field.toNat then 0#8 else memory place := by
  have same := toNat_signExtend_int short
  rw [memzero_eq_cleared (by omega), cleared, same]

/-- A spawn whose recorded size fits an `int` makes the stack a function of its
address and size, and leaves everything else as it was. -/
theorem World.spawned_memory (confined : config.backend.Confined)
    (rings : world.coController.RingsWellFormed config)
    (success : Libmicrokitco.step config world (.spawn clientEntry privateArg) =
      .ok (.handle h, next)) (isHandle : h ≠ nullHandle)
    (isBase : (world.coController.tcbs h).localStorage = base)
    (isField : world.coController.coStackSize = field) (large : 0x1000 ≤ field.toNat)
    (short : field.toNat < 2 ^ 31) (fits : base.toNat + field.toNat ≤ 2 ^ 64) :
    (∀ place, StackTop.InStack base field place → next.memory place =
      (config.backend.coDerive (fun _ => 0#8) base field config.cothreadEntryWrapper).1 place) ∧
    ∀ place, ¬ StackTop.InStack base field place → next.memory place = world.memory place := by
  obtain ⟨rest, -, view⟩ := World.spawned_view rings success isHandle
  obtain ⟨words, stores, inside⟩ := confined base field config.cothreadEntryWrapper large fits
  have written : next.memory =
      storeWords words (memzero base (field.signExtend 64) world.memory) := by
    rw [← stores, ← isBase, ← isField]
    exact congrArg Sched.memory view
  constructor
  · intro place within
    rw [written, stores]
    apply storeWords_congr
    rw [memzero_field short, if_pos ((inStack_iff fits).mp within)]
  · intro place outside
    rw [written, storeWords_outside inside fits outside, memzero_field short,
      if_neg fun offset => outside ((inStack_iff fits).mpr offset)]

end Memory

/-- The recorded size describes the stack if the conversion kept it. -/
theorem stackBytes_iff_inStack {field : BitVec 32} {base place : Address}
    (same : field.toNat = coStackSize.toNat) :
    StackBytes coStackSize base place ↔ StackTop.InStack base field place := by
  rw [StackBytes, StackTop.InStack, same]

/-- A size that fits an `int` is recorded as it is. -/
theorem World.Stacked.toNat_size (stacked : World.Stacked config coStackSize coStacks world)
    (short : coStackSize.toNat < 2 ^ 31) :
    world.coController.coStackSize.toNat = coStackSize.toNat := by
  rw [stacked.size, BitVec.toNat_setWidth]
  omega

/-- A spawn renews the stack given to `microkit_cothread_init` and no other byte,
if its size fits an `int`. -/
theorem World.Stacked.memory_of_spawn (stacked : World.Stacked config coStackSize coStacks world)
    (confined : config.backend.Confined) (large : 0x1000 ≤ coStackSize.toNat)
    (short : coStackSize.toNat < 2 ^ 31)
    (fits : ∀ i < config.maxCothreads - 1, (coStacks i).toNat + coStackSize.toNat ≤ 2 ^ 64)
    (success : Libmicrokitco.step config world (.spawn clientEntry privateArg) =
      .ok (.handle h, next)) (isHandle : h ≠ nullHandle) :
    (∀ place, StackBytes coStackSize (world.coController.tcbs h).localStorage place →
      next.memory place = (config.backend.coDerive (fun _ => 0#8)
        (world.coController.tcbs h).localStorage world.coController.coStackSize
        config.cothreadEntryWrapper).1 place) ∧
    ∀ place, ¬ StackBytes coStackSize (world.coController.tcbs h).localStorage place →
      next.memory place = world.memory place := by
  have same := stacked.toNat_size short
  obtain ⟨rest, free, -⟩ := World.spawned_view stacked.rings success isHandle
  have room := stacked.fits fits (stacked.free h (by rw [free]; exact List.mem_cons_self))
  obtain ⟨within, beyond⟩ := World.spawned_memory confined stacked.rings success isHandle rfl rfl
    (by omega) (by omega) (by omega)
  constructor
  · intro place inside
    exact within place ((stackBytes_iff_inStack same).mp inside)
  · intro place outside
    exact beyond place fun inside => outside ((stackBytes_iff_inStack same).mpr inside)

end Libmicrokitco
