import Libmicrokitco.Guarantees.Replay
import Libmicrokitco.Sched.Stacks

/-!
# Spawning spares the stacks in use

A spawn writes to one stack, and that stack belongs to no thread that runs, is
ready or is blocked: `microkit_cothread_init` has checked that stacks do not
overlap, and no handle is free while its thread is active.
-/

namespace Libmicrokitco

open Sched

/-- The bytes of the stack of `h`. That of the root is the client's own. -/
def OnStack (coStackSize : BitVec 64) (coStacks : Nat → Address) (rootStack : Address → Prop)
    (h : Int) (place : Address) : Prop :=
  if h = rootThread then rootStack place
  else StackBytes coStackSize (coStacks (h - 1).toNat) place

/-- A spawn of `h` that leaves everything in use as it was. `onStack` gives the
stack of each thread and `controllerBytes` the memory of the controller. -/
structure SparesLive (onStack : Int → Address → Prop) (controllerBytes : Address → Prop) (h : Int)
    (before after : World) : Prop where
  idle : (before.coController.tcbs h).state = .notActive
  notRunning : h ≠ before.coController.running
  confined : ∀ place, ¬ onStack h place → after.memory place = before.memory place
  live : ∀ g, (before.coController.tcbs g).state ≠ .notActive → ∀ place, onStack g place →
    after.memory place = before.memory place
  controller : ∀ place, controllerBytes place → after.memory place = before.memory place
  /-- Every thread in use keeps its handle, and libco the context behind it. -/
  contexts : ∀ g, (before.coController.tcbs g).state ≠ .notActive →
    (after.coController.tcbs g).coHandle = (before.coController.tcbs g).coHandle ∧
      after.libco.contexts (before.coController.tcbs g).coHandle =
        before.libco.contexts (before.coController.tcbs g).coHandle

variable {config : Config} {Allowed : World → Call → Prop} {clientSems : Nat → CothreadSem}
  {memory contents : Memory} {coStackSize : BitVec 64} {coStacks : Nat → Address}
  {rootStack controllerBytes : Address → Prop} {start world next : World} {g h : Int}
  {clientEntry privateArg base other place : Address}
  {history : List (Transition World (Call × Answer))}

theorem StackBytes.apart (inside : StackBytes coStackSize base place)
    (disjoint : StacksDisjoint coStackSize base other) : ¬ StackBytes coStackSize other place := by
  obtain ⟨above, below⟩ := inside
  rintro ⟨otherAbove, otherBelow⟩
  rcases disjoint with before | after
  · omega
  · omega

theorem onStack_root : OnStack coStackSize coStacks rootStack 0 place ↔ rootStack place :=
  Iff.rfl

theorem onStack_cothread (positive : 0 < h) : OnStack coStackSize coStacks rootStack h place ↔
    StackBytes coStackSize (coStacks (h - 1).toNat) place := by
  have notRoot : h ≠ rootThread := positive.ne'
  rw [OnStack, if_neg notRoot]

/-- Different handles have stacks without a common byte. -/
theorem onStack_apart (accepted : StacksAccepted config coStackSize coStacks start)
    (rootApart : ∀ i < config.maxCothreads - 1, ∀ place,
      StackBytes coStackSize (coStacks i) place → ¬ rootStack place)
    (gRange : InRange config g) (positive : 0 < h) (below : h < config.maxCothreads)
    (different : g ≠ h) (onStack : OnStack coStackSize coStacks rootStack g place) :
    ¬ OnStack coStackSize coStacks rootStack h place := by
  rw [onStack_cothread positive]
  obtain ⟨gNonneg, gBelow⟩ := gRange
  by_cases gRoot : g = 0
  · rw [gRoot, onStack_root] at onStack
    exact fun inside => rootApart _ (by omega) place inside onStack
  · rw [onStack_cothread (by omega)] at onStack
    exact onStack.apart (accepted.disjoint _ (by omega) _ (by omega) (by omega))

/-- A spawn from a sound world spares what is in use. -/
theorem World.Stacked.sparesLive (stacked : World.Stacked config coStackSize coStacks world)
    (sound : World.Sound config world) (confined : config.backend.Confined)
    (accepted : StacksAccepted config coStackSize coStacks start) (short : coStackSize.toNat < 2 ^ 31)
    (rootApart : ∀ i < config.maxCothreads - 1, ∀ place,
      StackBytes coStackSize (coStacks i) place → ¬ rootStack place)
    (controllerApart : ∀ i < config.maxCothreads - 1, ∀ place,
      StackBytes coStackSize (coStacks i) place → ¬ controllerBytes place)
    (success : Libmicrokitco.step config world (.spawn clientEntry privateArg) =
      .ok (.handle h, next)) (isHandle : h ≠ nullHandle) :
    SparesLive (OnStack coStackSize coStacks rootStack) controllerBytes h world next := by
  obtain ⟨rest, free, view⟩ := World.spawned_view stacked.rings success isHandle
  have freed : h ∈ world.view.free := by
    rw [show world.view.free = h :: rest from free]
    exact List.mem_cons_self
  obtain ⟨positive, below, inactive⟩ := (sound.sound.free.exact h).mp freed
  have base : (world.coController.tcbs h).localStorage = coStacks (h - 1).toNat := by
    rw [← stacked.storage _ (show (h - 1).toNat < config.maxCothreads - 1 by omega)]
    congr 2
    omega
  obtain ⟨-, beyond⟩ := stacked.memory_of_spawn confined (BitVec.le_def.mp accepted.large) short
    accepted.fits success isHandle
  have outside : ∀ place, ¬ OnStack coStackSize coStacks rootStack h place →
      next.memory place = world.memory place := by
    intro place notOn
    rw [onStack_cothread positive, ← base] at notOn
    exact beyond place notOn
  have idle : h ≠ world.view.running := by
    rintro isRunning
    rw [isRunning, sound.sound.executingRunning] at inactive
    cases inactive
  have other : ∀ {g : Int}, world.view.state g ≠ .notActive → g ≠ h := by
    rintro g active rfl
    exact active inactive
  constructor
  case idle => exact inactive
  case notRunning => exact idle
  case confined => exact outside
  case live =>
    intro g active place onStack
    exact outside place (onStack_apart accepted rootApart (sound.sound.threads.inRange g active)
      positive below (other active) onStack)
  case controller =>
    intro place reserved
    refine outside place fun onStack => ?_
    rw [onStack_cothread positive] at onStack
    exact controllerApart _ (by omega) place onStack reserved
  case contexts =>
    intro g active
    have coHandle : next.view.coHandle = Function.update world.view.coHandle h
        (world.view.stackHandle config h) := by
      rw [view, spawned_coHandle]
    have libco : next.view.libco =
        world.view.libco.coDerive (world.view.stackHandle config h) := by
      rw [view, spawned_libco]
    change next.view.coHandle g = _ ∧ next.view.libco.contexts _ = _
    rw [coHandle, libco]
    exact sound.contexts.derive_kept sound.sound active positive below (other active)

/-- In every run that spares the root and blocked cothreads, and whatever the
memory holds, a spawn leaves the stacks and contexts in use as they are. -/
theorem spawn_spares_live_stacks (shipped : config.backend.Shipped)
    (initialised : microkitCothreadInit config none clientSems memory coStackSize coStacks = .ok start)
    (short : coStackSize.toNat < 2 ^ 31)
    (rootApart : ∀ i < config.maxCothreads - 1, ∀ place,
      StackBytes coStackSize (coStacks i) place → ¬ rootStack place)
    (controllerApart : ∀ i < config.maxCothreads - 1, ∀ place,
      StackBytes coStackSize (coStacks i) place → ¬ controllerBytes place)
    (run : Run config (Sparing config) start history world)
    (success : step config { world with memory := contents } (.spawn clientEntry privateArg) =
      .ok (.handle h, next)) (isHandle : h ≠ nullHandle) :
    SparesLive (OnStack coStackSize coStacks rootStack) controllerBytes h
      { world with memory := contents } next := by
  have started : Started config start := ⟨_, _, _, _, initialised⟩
  have stacked := (Run.stacked run (init_stacked initialised)).forget contents
  have sound := (Run.sound run started fun _ _ => id).forget contents
  exact stacked.sparesLive sound shipped.confined (init_accepted initialised) short rootApart
    controllerApart success isHandle

/-- Cothread 1 waits, the root runs and handle 2 is spawned, on memory full of
ones. The root's stack and the controller are below the stacks. -/
theorem spawn_spares_live_stacks_sample : ∃ (world next : World),
    world.glance = (0, [], [2]) ∧ (world.coController.tcbs 1).state = .blocked ∧
      step threeHandles { world with memory := fun _ => 0xff#8 } .someSpawn =
        .ok (.handle 2, next) ∧
      SparesLive (OnStack 0x1000#64 sampleStacks fun place => 0x8000 ≤ place.toNat ∧ place.toNat < 0x9000)
        (fun place => place.toNat < 0x1000) 2 { world with memory := fun _ => 0xff#8 } next := by
  have replayed : (replayFromInit threeHandles (Sparing threeHandles) 0x1000#64 sampleStacks
      [.someSpawn, .yield, .waitOnChannel 0]).map (fun world => (world.glance,
        (world.coController.tcbs 1).state,
        answerOf threeHandles .someSpawn { world with memory := fun _ => 0xff#8 })) =
      some ((0, [], [2]), .blocked, some (.handle 2)) := by
    decide
  obtain ⟨start, history, world, initialised, run, -, seen⟩ := exists_run_on_of_replay replayed
  obtain ⟨glance, seen⟩ := Prod.mk.inj seen
  obtain ⟨blocked, answered⟩ := Prod.mk.inj seen
  obtain ⟨next, success⟩ := answerOf_eq_some.mp answered
  have above : ∀ i < threeHandles.maxCothreads - 1, ∀ place,
      StackBytes 0x1000#64 (sampleStacks i) place → 0x10000 ≤ place.toNat := by
    intro i below place inside
    have few : i < 2 := below
    obtain ⟨above, -⟩ := inside
    obtain rfl | rfl : i = 0 ∨ i = 1 := by omega
    · exact above
    · exact le_trans (by decide) above
  refine ⟨world, next, glance, blocked, success, spawn_spares_live_stacks
    (.riscv64 .soft 0x1000#64) initialised (by decide) ?_ ?_ run success (by decide)⟩
  · intro i below place inside
    have := above i below place inside
    omega
  · intro i below place inside
    have := above i below place inside
    omega

end Libmicrokitco
