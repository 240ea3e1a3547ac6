import Libmicrokitco.Semantics.Simulation
import Libmicrokitco.System.Machine

/-!
# Runs of the library are runs of threads

Every step of the system is a move of the threads on the processor: the library
keeps libco's handles, its own records and the memory in step with the contexts
that `co_swap` saves and resumes.
-/

namespace Libmicrokitco.Installation

open Isa Sched StackTop

variable {ρ : Type} [DecidableEq ρ] [Registers ρ]

/-- The threads on the processor are those of the world. -/
structure Follows (inst : Installation ρ) (state : CrewState ρ Int) (machine : Machine ρ) : Prop where
  running : state.running = machine.world.coController.running
  cpu : state.cpu = machine.cpu
  sound : World.Sound inst.config machine.seen
  stacked : World.Stacked inst.config inst.coStackSize inst.coStacks machine.seen
  kept : inst.crew.Kept state
  /-- Every thread that may be dispatched has a context. -/
  suspended : ∀ h, machine.seen.view.state h ≠ .notActive → h ≠ state.running →
    ∃ saved, state.contexts h = some saved

/-- A handle that was spawned, with its stack in memory and its context. -/
structure Spawned (inst : Installation ρ) (h : Int) (memory : Memory) (saved : Saved ρ) : Prop where
  positive : 0 < h
  below : h < inst.config.maxCothreads
  derived : inst.port.Derived (inst.base h) inst.size inst.config.cothreadEntryWrapper memory
  fresh : inst.port.Fresh (inst.base h) inst.size inst.config.cothreadEntryWrapper memory saved

/-- The move that an event is. -/
inductive Shows (inst : Installation ρ) : Move ρ Int → Event ρ → Prop where
  | compute : Shows inst .compute .compute
  | returned {call : Call} {answer : Answer} {entered : Cpu ρ}
      (unspawned : call.spawns answer = none) : Shows inst .compute (.call call answer entered)
  | spawned {call : Call} {answer : Answer} {entered : Cpu ρ} {h : Int} {saved : Saved ρ}
      (spawns : call.spawns answer = some h) (spawned : inst.Spawned h entered.memory saved) :
      Shows inst (.derive h saved) (.call call answer entered)
  | switched {call : Call} {answer : Answer} {entered : Cpu ρ} {h : Int}
      (unspawned : call.spawns answer = none) :
      Shows inst (.switch h entered) (.call call answer entered)

variable {inst : Installation ρ} {machine : Machine ρ} {world next : World} {call : Call}
  {answer : Answer} {h : Int} {place : Address} {entered : Cpu ρ} {saved : Saved ρ}
  {state : CrewState ρ Int}

theorem spawns_of_shows {event : Event ρ} (shows : inst.Shows (.derive h saved) event) :
    event.spawns = some h := by
  cases shows with
  | spawned spawns => exact spawns

theorem derive_of_shows {move : Move ρ Int} (shows : inst.Shows move (.call call answer entered))
    (spawns : call.spawns answer = some h) :
    ∃ saved, move = .derive h saved ∧ inst.Spawned h entered.memory saved := by
  cases shows with
  | spawned alsoSpawns spawned =>
    obtain rfl := Option.some.inj (alsoSpawns.symm.trans spawns)
    exact ⟨_, rfl, spawned⟩
  | returned unspawned | switched unspawned =>
    rw [spawns] at unspawned
    cases unspawned

theorem entered_of_shows {cpu : Cpu ρ}
    (shows : inst.Shows (.switch h cpu) (.call call answer entered)) : cpu = entered := by
  cases shows with
  | switched => rfl

theorem toNat_size (inst : Installation ρ) : inst.size.toNat = inst.coStackSize.toNat := by
  have short := inst.short
  rw [size, BitVec.toNat_setWidth]
  omega

theorem large (inst : Installation ρ) : 0x1000 ≤ inst.size.toNat := by
  rw [inst.toNat_size]
  exact BitVec.le_def.mp inst.accepted.large

theorem fits (positive : 0 < h) (below : h < inst.config.maxCothreads) :
    (inst.base h).toNat + inst.size.toNat ≤ 2 ^ 64 := by
  rw [inst.toNat_size]
  exact inst.accepted.fits _ (by omega)

theorem crew_handle (positive : 0 < h) :
    inst.crew.handle h = inst.port.handle (inst.base h) inst.size := by
  have notRoot : h ≠ rootThread := positive.ne'
  exact if_neg notRoot

/-- The stack of a cothread is what `co_derive` was given. -/
theorem onStack_iff (positive : 0 < h) (below : h < inst.config.maxCothreads) :
    inst.crew.OnStack h place ↔ InStack (inst.base h) inst.size place := by
  have inRange : InRange inst.config h := ⟨positive.le, below⟩
  change InRange inst.config h ∧ OnStack _ _ _ h place ↔ _
  rw [onStack_cothread positive, and_iff_right inRange]
  exact stackBytes_iff_inStack inst.toNat_size

theorem localStorage_eq (stacked : World.Stacked inst.config inst.coStackSize inst.coStacks world)
    (positive : 0 < h) (below : h < inst.config.maxCothreads) :
    (world.coController.tcbs h).localStorage = inst.base h := by
  rw [base, ← stacked.storage _ (show (h - 1).toNat < inst.config.maxCothreads - 1 by omega)]
  congr 2
  omega

/-- The pointer in a TCB is the handle of the thread's context. -/
theorem address_coHandle (sound : World.Sound inst.config world)
    (stacked : World.Stacked inst.config inst.coStackSize inst.coStacks world)
    (inUse : world.view.state h ≠ .notActive ∨ h = world.view.running) :
    inst.address (world.coController.tcbs h).coHandle = inst.crew.handle h := by
  have inRange : InRange inst.config h := by
    rcases inUse with active | rfl
    · exact sound.sound.threads.inRange h active
    · exact sound.sound.running
  by_cases isRoot : h = 0
  · subst isRoot
    have root : (world.coController.tcbs 0).coHandle = .rootBuffer := sound.contexts.root
    rw [root]
    rfl
  · have positive : 0 < h := lt_of_le_of_ne inRange.1 (Ne.symm isRoot)
    have sited : (world.coController.tcbs h).coHandle = world.view.stackHandle inst.config h :=
      sound.contexts.sited h positive inUse
    have storage : world.view.localStorage h = inst.base h :=
      localStorage_eq stacked positive inRange.2
    rw [sited, crew_handle positive, Sched.stackHandle, storage, inst.backend]
    exact congrArg (fun size => inst.base h + inst.port.backend.handleOffset size) stacked.size

/-- A spawn leaves nothing but a fresh context in the stack of the handle it answers. -/
theorem derived_of_spawn (stacked : World.Stacked inst.config inst.coStackSize inst.coStacks world)
    {clientEntry privateArg : Address}
    (success : step inst.config world (.spawn clientEntry privateArg) = .ok (.handle h, next))
    (isHandle : h ≠ nullHandle) (positive : 0 < h) (below : h < inst.config.maxCothreads)
    {memory : Memory} (kept : ∀ place, inst.crew.OnStack h place → memory place = next.memory place) :
    inst.port.Derived (inst.base h) inst.size inst.config.cothreadEntryWrapper memory := by
  have confined : inst.config.backend.Confined := by
    rw [inst.backend]
    exact inst.lawful.confined
  obtain ⟨within, -⟩ := stacked.memory_of_spawn confined (BitVec.le_def.mp inst.accepted.large)
    inst.short inst.accepted.fits success isHandle
  rw [localStorage_eq stacked positive below, stacked.size, inst.backend] at within
  intro place inside
  rw [kept place ((onStack_iff positive below).mpr inside)]
  exact within place ((stackBytes_iff_inStack inst.toNat_size).mpr inside)

/-- The state after a step follows the world that the call left. -/
theorem Follows.after {after : CrewState ρ Int} (follows : inst.Follows state machine)
    (sparing : Sparing inst.config machine.seen call)
    (success : step inst.config machine.seen call = .ok (answer, next))
    (running : after.running = next.coController.running) (kept : inst.crew.Kept after)
    (suspended : ∀ g, next.view.state g ≠ .notActive → g ≠ after.running →
      ∃ saved, after.contexts g = some saved) : inst.Follows after ⟨next, after.cpu⟩ where
  running := running
  cpu := rfl
  sound := (follows.sound.step sparing success).forget _
  stacked := (follows.stacked.step success).forget _
  kept := kept
  suspended := suspended

/-- A spawn that answers a handle derives a context. -/
theorem Follows.derive (follows : inst.Follows state machine)
    (sparing : Sparing inst.config machine.seen call)
    (success : step inst.config machine.seen call = .ok (answer, next))
    (spares : inst.crew.Spares machine.world.coController.running next.memory entered.memory)
    (spawns : call.spawns answer = some h) : ∃ saved, inst.Spawned h entered.memory saved ∧
      inst.crew.Moves state (.derive h saved)
        { state with
          cpu := entered
          contexts := Function.update state.contexts h (some saved) } := by
  obtain ⟨⟨clientEntry, privateArg, rfl⟩, rfl, isHandle⟩ := Call.spawns_eq_some.mp spawns
  have sound := follows.sound
  obtain ⟨rest, free, -⟩ := World.spawned_view sound.rings success isHandle
  have isFree : h ∈ machine.seen.view.free := by
    change h ∈ machine.seen.freeEntries
    rw [free]
    exact List.mem_cons_self
  obtain ⟨positive, below, inactive⟩ := (sound.sound.free.exact h).mp isFree
  have other : h ≠ machine.world.coController.running := by
    intro isRunning
    have executing := sound.sound.executingRunning
    change machine.seen.view.state machine.world.coController.running = .running at executing
    rw [← isRunning, inactive] at executing
    cases executing
  have derived := derived_of_spawn follows.stacked success isHandle positive below (spares h other)
  have serves : inst.port.Serves (inst.port.handle (inst.base h) inst.size) :=
    inst.serves _ (by omega)
  obtain ⟨saved, fresh⟩ := inst.lawful.derives inst.large (fits positive below) serves derived
  refine ⟨saved, ⟨positive, below, derived, fresh⟩, .derive ?_ ?_ ⟨?_, ?_⟩ ?_⟩
  · rw [follows.running]
    exact other
  · intro another notRunning notNew place onStack
    rw [follows.running] at notRunning
    apply (spares another notRunning place onStack).trans
    have confined : inst.config.backend.Confined := by
      rw [inst.backend]
      exact inst.lawful.confined
    obtain ⟨-, beyond⟩ := follows.stacked.memory_of_spawn confined
      (BitVec.le_def.mp inst.accepted.large) inst.short inst.accepted.fits success isHandle
    rw [localStorage_eq follows.stacked positive below] at beyond
    rw [follows.cpu]
    apply beyond
    rw [stackBytes_iff_inStack inst.toNat_size, ← onStack_iff positive below]
    exact inst.crew.apart notNew place onStack
  · rw [crew_handle positive]
    exact fresh.sited
  · intro place inside
    rw [crew_handle positive] at inside
    exact (onStack_iff positive below).mpr (fresh.inside place inside)
  · rw [crew_handle positive]
    exact fresh.holds

/-- Between libco's pointers a switch is one between the contexts of its threads. -/
theorem Follows.enters (follows : inst.Follows state machine)
    (sparing : Sparing inst.config machine.seen call)
    (success : step inst.config machine.seen call = .ok (answer, next))
    (enters : inst.port.mechanism.Enters
      (inst.address (next.coController.tcbs next.coController.running).coHandle)
      (inst.address machine.world.libco.coActiveHandle) entered) :
    inst.crew.mechanism.Enters (inst.crew.handle next.coController.running)
      (inst.crew.handle state.running) entered := by
  have caller : inst.address machine.world.libco.coActiveHandle =
      inst.crew.handle state.running := by
    have active : machine.world.libco.coActiveHandle = _ := follows.sound.contexts.active
    rw [active, follows.running]
    exact address_coHandle follows.sound follows.stacked (.inr rfl)
  have chosen : inst.address (next.coController.tcbs next.coController.running).coHandle =
      inst.crew.handle next.coController.running :=
    address_coHandle (follows.sound.step sparing success) (follows.stacked.step success) (.inr rfl)
  rw [caller, chosen] at enters
  exact enters

/-- A call that spawns nothing leaves the memory to its caller. -/
theorem Follows.spares (follows : inst.Follows state machine)
    (effect : Effect inst.config machine.seen.view call answer next.view)
    (unspawned : call.spawns answer = none)
    (spares : inst.crew.Spares machine.world.coController.running next.memory entered.memory) :
    inst.crew.Spares state.running state.cpu.memory entered.memory := by
  have memory : next.memory = machine.cpu.memory :=
    effect.memory_kept follows.sound.sound unspawned
  rw [memory, ← follows.running, ← follows.cpu] at spares
  exact spares

/-- Nor does it make a thread active. -/
theorem Follows.active_before (follows : inst.Follows state machine)
    (effect : Effect inst.config machine.seen.view call answer next.view)
    (unspawned : call.spawns answer = none) (active : next.view.state h ≠ .notActive) :
    machine.seen.view.state h ≠ .notActive := by
  refine (effect.active_before follows.sound.sound active).resolve_right fun spawned => ?_
  rw [unspawned] at spawned
  cases spawned

/-- Every step of the system is a move of its threads. -/
theorem follows_simulates (inst : Installation ρ) :
    Simulates inst.crew.Moves inst.Step inst.Follows inst.Shows := by
  intro state machine event next follows taken
  have lawful : inst.crew.mechanism.Lawful := inst.lawful.switch
  cases taken with
  | @compute cpu spares =>
    rw [← follows.running, ← follows.cpu] at spares
    have moves : inst.crew.Moves state .compute _ := .compute spares
    refine ⟨_, _, moves, .compute, follows.running, rfl, ?_, ?_, moves.kept lawful follows.kept, ?_⟩
    · exact follows.sound.forget cpu.memory
    · exact follows.stacked.forget cpu.memory
    · exact follows.suspended
  | @returned call answer next entered sparing success spares stays =>
    obtain ⟨effect, -⟩ := follows.sound.effect sparing.wellPosed success
    have running : next.coController.running = machine.world.coController.running := by
      rcases effect.switches with ⟨-, same⟩ | ⟨switches, -⟩
      · exact same
      · rw [stays] at switches
        cases switches
    cases spawns : call.spawns answer with
    | none =>
      have moves : inst.crew.Moves state .compute _ :=
        .compute (follows.spares effect spawns spares)
      refine ⟨_, _, moves, .returned spawns, follows.after sparing success
        (follows.running.trans running.symm) (moves.kept lawful follows.kept) ?_⟩
      exact fun g active => follows.suspended g (follows.active_before effect spawns active)
    | some h =>
      obtain ⟨saved, spawned, moves⟩ := follows.derive sparing success spares spawns
      refine ⟨_, _, moves, .spawned spawns spawned, follows.after sparing success
        (follows.running.trans running.symm) (moves.kept lawful follows.kept) ?_⟩
      intro g active notRunning
      by_cases isNew : g = h
      · exact ⟨saved, by rw [isNew]; exact Function.update_self ..⟩
      · rcases effect.active_before follows.sound.sound active with before | spawned
        · obtain ⟨context, isContext⟩ := follows.suspended g before notRunning
          exact ⟨context, (Function.update_of_ne isNew ..).trans isContext⟩
        · exact absurd (Option.some.inj (spawned.symm.trans spawns)) isNew
  | @switched call answer next entered after sparing success spares switches enters within ran =>
    obtain ⟨effect, -⟩ := follows.sound.effect sparing.wellPosed success
    have unspawned := effect.unspawned_of_switches switches
    have spared := follows.spares effect unspawned spares
    have between := follows.enters sparing success enters
    rw [← follows.running] at within
    by_cases itself : next.coController.running = state.running
    · rw [itself] at between
      have moves : inst.crew.Moves state (.switch state.running entered) _ :=
        .itself spared between within ran
      refine ⟨_, _, moves, .switched unspawned, follows.after sparing success itself.symm
        (moves.kept lawful follows.kept) ?_⟩
      exact fun g active => follows.suspended g (follows.active_before effect unspawned active)
    · have active := follows.sound.sound.running_active effect
      obtain ⟨saved, isSaved⟩ := follows.suspended _ active itself
      have moves : inst.crew.Moves state (.switch next.coController.running entered) _ :=
        .switch itself isSaved spared between within ran
      refine ⟨_, _, moves, .switched unspawned, follows.after sparing success rfl
        (moves.kept lawful follows.kept) ?_⟩
      intro g isActive notChosen
      by_cases isCaller : g = state.running
      · exact ⟨_, by rw [isCaller]; exact Function.update_self ..⟩
      · obtain ⟨context, isContext⟩ :=
          follows.suspended g (follows.active_before effect unspawned isActive) isCaller
        exact ⟨context, (Function.update_of_ne isCaller ..).trans isContext⟩

/-- A call that switches finds a context to resume. -/
theorem Follows.exists_step (follows : inst.Follows state machine)
    (sparing : Sparing inst.config machine.seen call)
    (success : step inst.config machine.seen call = .ok (answer, next))
    (switches : call.switches machine.seen = true)
    (spares : inst.crew.Spares machine.world.coController.running next.memory entered.memory)
    (enters : inst.port.mechanism.Enters
      (inst.address (next.coController.tcbs next.coController.running).coHandle)
      (inst.address machine.world.libco.coActiveHandle) entered)
    (within : inst.crew.Within machine.world.coController.running
      (inst.port.mechanism.captured entered)) :
    ∃ after, inst.Step machine (.call call answer entered) ⟨next, after⟩ := by
  obtain ⟨effect, -⟩ := follows.sound.effect sparing.wellPosed success
  have between := follows.enters sparing success enters
  by_cases itself : next.coController.running = state.running
  · rw [itself] at between
    obtain ⟨after, ran, -⟩ := inst.lawful.switch.itself between
    exact ⟨after, .switched sparing success spares switches enters within ran⟩
  · obtain ⟨saved, isSaved⟩ :=
      follows.suspended _ (follows.sound.sound.running_active effect) itself
    have spared := follows.spares effect (effect.unspawned_of_switches switches) spares
    have room := within
    rw [← follows.running] at room
    obtain ⟨after, ran, -⟩ :=
      follows.kept.switch inst.lawful.switch itself isSaved spared between room
    exact ⟨after, .switched sparing success spares switches enters within ran⟩

/-- At first only the root has run. -/
theorem exists_follows (initial : machine.world = inst.start) :
    ∃ state, inst.Follows state machine := by
  have started : Started inst.config inst.start := ⟨_, _, _, _, inst.initialised⟩
  obtain ⟨-, first⟩ := started.initial
  have running : machine.world.coController.running = 0 := by
    rw [initial]
    exact first.running
  refine ⟨⟨machine.world.coController.running, machine.cpu, fun _ => none⟩, rfl, rfl, ?_, ?_, ?_, ?_⟩
  · rw [Machine.seen, initial]
    exact started.sound.forget _
  · rw [Machine.seen, initial]
    exact (init_stacked inst.initialised).forget _
  · rintro h saved - suspended
    cases suspended
  · intro h active notRunning
    have state : machine.seen.view.state h = if h = 0 then .running else .notActive := by
      rw [Machine.seen, initial]
      exact first.state h
    rw [state, if_neg (by rw [← running]; exact notRunning)] at active
    exact absurd rfl active

end Libmicrokitco.Installation
