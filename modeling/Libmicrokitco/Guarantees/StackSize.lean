import Libmicrokitco.Guarantees.Replay
import Libmicrokitco.Sched.Stacks

/-!
# The stack size and its conversions

`microkit_cothread_init` takes a `size_t`, the controller keeps an `int`,
`memzero` converts that back to a `size_t` and counts with an `int`, and
`co_derive` takes an `unsigned`. Sizes that fit an `int` survive all of it, and
no others do.
-/

namespace Libmicrokitco

/-- A stack of the given size after a spawn that finds it cleared. -/
def freshStack (config : Config) (coStackSize : BitVec 64) (base : Address) : Memory :=
  (config.backend.coDerive (fun _ => 0#8) base (coStackSize.setWidth 32)
    config.cothreadEntryWrapper).1

/-- A spawn that renews the stack of `h`, of the size given to
`microkit_cothread_init`, and nothing else. -/
structure SpawnsClean (config : Config) (coStackSize : BitVec 64) (h : Int)
    (before after : World) : Prop where
  /-- The counter of `memzero` does not overflow, so that the call has a meaning. -/
  counted : memzeroOverflows (before.coController.coStackSize.signExtend 64) = false
  zeroed : ∀ place,
    memzero (before.coController.tcbs h).localStorage
        (before.coController.coStackSize.signExtend 64) before.memory place =
      if StackBytes coStackSize (before.coController.tcbs h).localStorage place then 0#8
      else before.memory place
  derived : before.coController.coStackSize.toNat = coStackSize.toNat
  fresh : ∀ place, StackBytes coStackSize (before.coController.tcbs h).localStorage place →
    after.memory place =
      freshStack config coStackSize (before.coController.tcbs h).localStorage place
  outside : ∀ place, ¬ StackBytes coStackSize (before.coController.tcbs h).localStorage place →
    after.memory place = before.memory place

variable {config : Config} {Allowed : World → Call → Prop} {clientSems : Nat → CothreadSem}
  {memory contents : Memory} {coStackSize : BitVec 64} {coStacks : Nat → Address}
  {start world next : World} {h : Int} {clientEntry privateArg : Address}
  {history : List (Transition World (Call × Answer))}

/-- A recorded size that `memzero` can count to fits an `int`. -/
theorem short_of_counted {field : BitVec 32}
    (counted : memzeroOverflows (field.signExtend 64) = false) : field.toNat < 2 ^ 31 := by
  have short : ¬ 2 ^ 31 ≤ (field.signExtend 64).toNat := by
    rw [← memzeroOverflows_iff, counted]
    simp
  rw [BitVec.toNat_signExtend, BitVec.toNat_setWidth] at short
  have bounded := field.isLt
  omega

/-- A spawn that answers a handle renews its stack exactly if the size fits an `int`. -/
theorem World.Stacked.spawnsClean_iff (stacked : World.Stacked config coStackSize coStacks world)
    (confined : config.backend.Confined) (large : 0x1000 ≤ coStackSize.toNat)
    (fits : ∀ i < config.maxCothreads - 1, (coStacks i).toNat + coStackSize.toNat ≤ 2 ^ 64)
    (success : Libmicrokitco.step config world (.spawn clientEntry privateArg) =
      .ok (.handle h, next)) (isHandle : h ≠ nullHandle) :
    SpawnsClean config coStackSize h world next ↔ coStackSize.toNat < 2 ^ 31 := by
  constructor
  · intro clean
    have short := short_of_counted clean.counted
    have same := clean.derived
    omega
  · intro short
    have same := stacked.toNat_size short
    obtain ⟨rest, free, -⟩ := World.spawned_view stacked.rings success isHandle
    have room := stacked.fits fits (stacked.free h (by rw [free]; exact List.mem_cons_self))
    obtain ⟨within, beyond⟩ :=
      stacked.memory_of_spawn confined large short fits success isHandle
    constructor
    case counted =>
      by_contra overflows
      rw [Bool.not_eq_false, memzeroOverflows_iff, toNat_signExtend_int (by omega)] at overflows
      omega
    case zeroed =>
      intro place
      rw [memzero_field (by omega)]
      congr 1
      rw [stackBytes_iff_inStack same, inStack_iff (by omega)]
    case derived => exact same
    case fresh =>
      intro place inside
      rw [within place inside, freshStack, ← stacked.size]
    case outside => exact beyond

/-- Whatever the stack memory held, a spawn renews the stack that was given to
`microkit_cothread_init` if and only if its size fits an `int`. -/
theorem spawns_clean_iff (shipped : config.backend.Shipped)
    (initialised : microkitCothreadInit config none clientSems memory coStackSize coStacks = .ok start)
    (run : Run config Allowed start history world)
    (success : step config { world with memory := contents } (.spawn clientEntry privateArg) =
      .ok (.handle h, next)) (isHandle : h ≠ nullHandle) :
    SpawnsClean config coStackSize h { world with memory := contents } next ↔
      coStackSize.toNat < 2 ^ 31 := by
  have accepted := init_accepted initialised
  have stacked := (Run.stacked run (init_stacked initialised)).forget contents
  exact stacked.spawnsClean_iff shipped.confined (BitVec.le_def.mp accepted.large) accepted.fits
    success isHandle

/-- Handle 1 is spawned, ends and is spawned again on a stack full of ones. -/
theorem spawns_clean_again : ∃ (world next : World),
    world.glance = (0, [], [1]) ∧
      step twoHandles { world with memory := fun _ => 0xff#8 } .someSpawn =
        .ok (.handle 1, next) ∧
      SpawnsClean twoHandles 0x1000#64 1 { world with memory := fun _ => 0xff#8 } next := by
  have replayed : (replayFromInit twoHandles (fun _ _ => True) 0x1000#64 sampleStacks
      [.someSpawn, .yield, .entryReturn]).map (fun world => (world.glance,
        answerOf twoHandles .someSpawn { world with memory := fun _ => 0xff#8 })) =
      some ((0, [], [1]), some (.handle 1)) := by
    decide
  obtain ⟨start, history, world, initialised, run, -, seen⟩ := exists_run_on_of_replay replayed
  obtain ⟨glance, answered⟩ := Prod.mk.inj seen
  obtain ⟨next, success⟩ := answerOf_eq_some.mp answered
  exact ⟨world, next, glance, success,
    (spawns_clean_iff (.riscv64 .soft 0x1000#64) initialised run success (by decide)).mpr (by decide)⟩

/-- A stack of `2 ^ 32 + 0x1000` bytes is accepted, and a spawn treats it as one
of `0x1000` bytes: what was behind those stays. -/
theorem spawn_leaves_large_stack : ∃ (start next : World),
    microkitCothreadInit twoHandles none (fun _ => .zeroed) (fun _ => 0#8) 0x100001000#64
        sampleStacks = .ok start ∧
      step twoHandles { start with memory := fun _ => 0xff#8 } .someSpawn =
        .ok (.handle 1, next) ∧
      StackBytes 0x100001000#64 (sampleStacks 0) 0x11000#64 ∧ next.memory 0x11000#64 = 0xff#8 ∧
      ¬ SpawnsClean twoHandles 0x100001000#64 1 { start with memory := fun _ => 0xff#8 } next := by
  have replayed : (replayFromInit twoHandles (fun _ _ => True) 0x100001000#64 sampleStacks []).map
      (fun world => (answerOf twoHandles .someSpawn { world with memory := fun _ => 0xff#8 },
        (world.coController.tcbs 1).localStorage, world.coController.coStackSize)) =
      some (some (.handle 1), 0x10000#64, 0x1000#32) := by
    decide
  obtain ⟨start, history, world, initialised, run, calls, seen⟩ := exists_run_on_of_replay replayed
  obtain rfl : history = [] := List.map_eq_nil_iff.mp calls
  obtain rfl := run.nil_inv
  simp only [Prod.mk.injEq] at seen
  obtain ⟨answered, base, field⟩ := seen
  obtain ⟨next, success⟩ := answerOf_eq_some.mp answered
  have stacked := (init_stacked initialised).forget fun _ => 0xff#8
  have shipped : twoHandles.backend.Shipped := .riscv64 .soft 0x1000#64
  obtain ⟨-, beyond⟩ := World.spawned_memory shipped.confined stacked.rings success (by decide) base
    field (by decide) (by decide) (by decide)
  refine ⟨world, next, initialised, success, by decide, beyond _ ?_, ?_⟩
  · unfold StackTop.InStack
    decide
  · intro clean
    have derived : world.coController.coStackSize.toNat = (0x100001000#64 : BitVec 64).toNat :=
      clean.derived
    rw [field] at derived
    exact absurd derived (by decide)

end Libmicrokitco
