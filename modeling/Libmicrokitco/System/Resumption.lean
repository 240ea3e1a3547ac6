import Libmicrokitco.Sched.Owners
import Libmicrokitco.System.Realisation

/-!
# Threads go on where they were

The library, a back end of libco and its `co_swap` together: in every run a
thread that called the library resumes behind that call with its registers and
its stack, and a thread that was spawned starts in a stack of its own. No switch
gets stuck.
-/

namespace Libmicrokitco.Installation

open Isa Sched StackTop

variable {ρ : Type} [DecidableEq ρ] [Registers ρ] {inst : Installation ρ}
  {start machine next final : Machine ρ} {event : Event ρ} {h : Int} {call : Call} {answer : Answer}
  {clientEntry privateArg : Address} {entered : Cpu ρ}
  {leaving spawning resuming : Transition (Machine ρ) (Event ρ)}
  {first between rest history : List (Transition (Machine ρ) (Event ρ))}

/-- `h` goes on behind the call of `co_swap` in `entered`. -/
structure BackFrom (inst : Installation ρ) (h : Int) (entered cpu : Cpu ρ) : Prop
    extends inst.port.mechanism.Resumes (inst.port.mechanism.captured entered) cpu where
  /-- Its stack is as it left it, but for its context. -/
  stack : ∀ place, inst.crew.OnStack h place →
    ¬ inst.port.mechanism.Footprint (inst.crew.handle h) (inst.port.mechanism.captured entered) place →
      cpu.memory place = entered.memory place

/-- `h` starts in a stack that holds nothing but its fresh context. -/
structure StartsIn (inst : Installation ρ) (h : Int) (clientEntry : Address) (machine : Machine ρ) :
    Prop where
  pc : machine.cpu.pc = inst.port.start
  inStack : InStack (inst.base h) inst.size (machine.cpu.get inst.port.stackPointer)
  aligned : (inst.base h).toNat % 16 = 0 →
    (machine.cpu.get inst.port.stackPointer).toNat % 16 = inst.port.entryAlignment
  /-- `co_entrypoint` calls `cothread_entry_wrapper`. -/
  callee : inst.port.callee (inst.crew.handle h) machine.cpu.memory = inst.config.cothreadEntryWrapper
  /-- `cothread_entry_wrapper` calls the client's entry. -/
  entry : cothreadEntryWrapperCallee machine.world = clientEntry
  stack : inst.port.Derived (inst.base h) inst.size inst.config.cothreadEntryWrapper
    machine.cpu.memory

theorem Step.sound (taken : inst.Step machine event next)
    (sound : World.Sound inst.config machine.seen) : World.Sound inst.config next.seen := by
  cases taken with
  | compute => exact sound.forget _
  | returned sparing success | switched sparing success =>
    exact (sound.step sparing success).forget _

/-- Only a spawn of `h` changes the entry of `h`. -/
theorem Step.clientEntry_kept (taken : inst.Step machine event next)
    (sound : World.Sound inst.config machine.seen) (nonneg : 0 ≤ h)
    (unspawned : event.spawns ≠ some h) :
    next.world.view.clientEntry h = machine.world.view.clientEntry h := by
  cases taken with
  | compute => rfl
  | returned sparing success | switched sparing success =>
    obtain ⟨effect, -⟩ := sound.effect sparing.wellPosed success
    exact effect.clientEntry_kept unspawned nonneg

theorem Run.clientEntry_kept (run : inst.Run machine history final)
    (sound : World.Sound inst.config machine.seen) (nonneg : 0 ≤ h)
    (unspawned : ∀ transition ∈ history, transition.label.spawns ≠ some h) :
    World.Sound inst.config final.seen ∧
      final.world.view.clientEntry h = machine.world.view.clientEntry h := by
  apply run.invariant (fun final => World.Sound inst.config final.seen ∧
    final.world.view.clientEntry h = machine.world.view.clientEntry h) ⟨sound, rfl⟩
  rintro transition member ⟨soundThen, same⟩
  have taken := run.valid_of_mem member
  exact ⟨taken.sound soundThen,
    (taken.clientEntry_kept soundThen nonneg (unspawned transition member)).trans same⟩

/-- A spawn returns to its caller, with the entry recorded. -/
theorem Step.of_spawn (taken : inst.Step machine (.call (.spawn clientEntry privateArg) (.handle h)
      entered) next) (sound : World.Sound inst.config machine.seen) (isHandle : h ≠ nullHandle) :
    next.cpu = entered ∧ next.world.view.clientEntry h = clientEntry := by
  cases taken with
  | returned sparing success =>
    obtain ⟨effect, -⟩ := sound.effect sparing.wellPosed success
    exact ⟨rfl, effect.clientEntry_of_spawn isHandle⟩
  | switched _ _ _ switches => cases switches

/-- A spawned handle does not run at once. -/
theorem Step.idle_of_spawns (taken : inst.Step machine event next)
    (sound : World.Sound inst.config machine.seen) (spawns : event.spawns = some h)
    (idle : machine.world.coController.running ≠ h) : next.world.coController.running ≠ h := by
  cases taken with
  | compute => cases spawns
  | returned sparing success | switched sparing success =>
    obtain ⟨effect, -⟩ := sound.effect sparing.wellPosed success
    have running : _ = machine.world.coController.running := effect.running_of_spawns spawns
    exact fun same => idle (running.symm.trans same)

theorem Run.idle (run : inst.Run machine history final)
    (notRunning : machine.world.coController.running ≠ h) (idle : Installation.Idle h history) :
    final.world.coController.running ≠ h :=
  run.invariant (fun final => final.world.coController.running ≠ h) notRunning
    fun transition member _ => (idle transition member).2

/-- Matching runs have the same idle threads. -/
theorem idle_of_matches {moves : List (Transition (CrewState ρ Int) (Move ρ Int))}
    (matched : List.Forall₂ (Matches inst.Follows inst.Shows) moves history)
    (idle : Installation.Idle h history) : Crew.Idle h moves := by
  refine forall_of_forall₂ matched (fun related undisturbed => ⟨?_, ?_⟩) idle
  · intro saved derives
    have shows := related.label
    rw [derives] at shows
    exact undisturbed.1 (spawns_of_shows shows)
  · rw [related.after.running]
    exact undisturbed.2

/-- A thread that makes way for another one goes on, when it runs again, behind
its call of `co_swap` with the registers and the stack it had there. -/
theorem thread_resumes_as_it_called (initial : start.world = inst.start)
    (run : inst.Run start (first ++ leaving :: (between ++ resuming :: rest)) final)
    (calls : leaving.label = .call call answer entered)
    (caller : leaving.before.world.coController.running = h)
    (away : leaving.after.world.coController.running ≠ h) (idle : Installation.Idle h between)
    (returns : resuming.after.world.coController.running = h) :
    inst.BackFrom h entered resuming.after.cpu := by
  obtain ⟨state, follows⟩ := exists_follows initial
  obtain ⟨moves, ended, trace, -, matched⟩ := (follows_simulates inst).trace follows run
  obtain ⟨firstMoves, left, later, rfl, -, leaves, matched⟩ := exists_middle_of_forall₂ matched
  obtain ⟨betweenMoves, back, restMoves, rfl, undisturbed, comes, -⟩ :=
    exists_middle_of_forall₂ matched
  have isCaller : left.before.running = h := leaves.before.running.trans caller
  have other : left.after.running ≠ h := by
    rw [leaves.after.running]
    exact away
  have label : left.label = .switch left.after.running entered := by
    obtain ⟨entry, switches⟩ := trace.split_at.2.1.switches (isCaller ▸ other)
    have shows := leaves.label
    rw [switches, calls] at shows
    rw [switches, entered_of_shows shows]
  obtain ⟨resumes, stack⟩ := Crew.resumes_as_left inst.lawful.switch trace follows.kept label
    isCaller other (idle_of_matches undisturbed idle) (comes.after.running.trans returns)
  rw [comes.after.cpu] at resumes stack
  exact ⟨resumes, stack⟩

/-- The root, back from a cothread. -/
theorem thread_resumes_as_it_called_sample : ∃ (inst : Installation Rv64.Reg)
    (leaving : Rv64.Hart) (first second third : Transition (Machine Rv64.Reg) (Event Rv64.Reg)),
    inst.Run ⟨inst.start, first.before.cpu⟩ [first, second, third] third.after ∧
      second.label = .call .yield .unit leaving ∧ second.after.world.coController.running = 1 ∧
      inst.BackFrom 0 leaving third.after.cpu := by
  obtain ⟨inst, cpu, spawning, leaving, coming, first, second, third, final, run, ⟨-, firstRuns⟩,
    ⟨secondLabel, secondRuns⟩, -, thirdRuns⟩ := sample_events
  obtain ⟨isStart, -, rest⟩ := run.cons_inv
  obtain ⟨isSecond, -, rest⟩ := rest.cons_inv
  obtain ⟨-, -, rest⟩ := rest.cons_inv
  obtain rfl := rest.nil_inv
  have back : inst.BackFrom 0 leaving third.after.cpu := by
    refine @thread_resumes_as_it_called _ _ _ inst ⟨inst.start, cpu⟩ third.after 0 _ _ leaving second third
      [first] [] [] rfl run secondLabel (by rw [isSecond]; exact firstRuns) ?_ (by simp [Idle])
      thirdRuns
    rw [secondRuns]
    decide
  rw [← isStart] at run
  exact ⟨inst, leaving, first, second, third, by simpa [isStart] using run, secondLabel, secondRuns,
    back⟩

/-- A cothread that was spawned starts, when it runs first, in `co_entrypoint` on
its own stack, of which nothing but its fresh context is left, and is to call the
entry of its spawn. -/
theorem spawned_thread_starts (initial : start.world = inst.start)
    (run : inst.Run start (first ++ spawning :: (between ++ resuming :: rest)) final)
    (spawns : spawning.label = .call (.spawn clientEntry privateArg) (.handle h) entered)
    (isHandle : h ≠ nullHandle) (idle : Installation.Idle h between)
    (returns : resuming.after.world.coController.running = h) :
    inst.StartsIn h clientEntry resuming.after := by
  obtain ⟨state, follows⟩ := exists_follows initial
  obtain ⟨moves, ended, trace, -, matched⟩ := (follows_simulates inst).trace follows run
  obtain ⟨firstMoves, made, later, rfl, -, makes, matched⟩ := exists_middle_of_forall₂ matched
  obtain ⟨betweenMoves, back, restMoves, rfl, undisturbed, comes, -⟩ :=
    exists_middle_of_forall₂ matched
  obtain ⟨-, taken, remaining⟩ := run.split_at
  obtain ⟨during, resumes, -⟩ := remaining.split_at
  have sound := makes.before.sound
  have shows := makes.label
  rw [spawns] at shows taken
  obtain ⟨saved, derives, spawned⟩ :=
    derive_of_shows shows (Call.spawns_eq_some.mpr ⟨⟨_, _, rfl⟩, rfl, isHandle⟩)
  obtain ⟨isEntered, entry⟩ := taken.of_spawn sound isHandle
  obtain ⟨context, stack⟩ := Crew.starts_as_derived inst.lawful.switch trace follows.kept derives
    (idle_of_matches undisturbed idle) (comes.after.running.trans returns)
  rw [comes.after.cpu, makes.after.cpu, isEntered] at stack
  rw [comes.after.cpu] at context
  have derived : inst.port.Derived (inst.base h) inst.size inst.config.cothreadEntryWrapper
      resuming.after.cpu.memory := fun place inside =>
    (stack place ((onStack_iff spawned.positive spawned.below).mpr inside)).trans
      (spawned.derived place inside)
  obtain ⟨again, fresh⟩ := inst.lawful.derives inst.large (fits spawned.positive spawned.below)
    (inst.serves _ (by have := spawned.positive; have := spawned.below; omega)) derived
  have pointer := context.regs _ inst.lawful.restores
  constructor
  case pc => exact context.pc.trans spawned.fresh.start
  case inStack =>
    rw [pointer]
    exact spawned.fresh.inStack
  case aligned =>
    rw [pointer]
    exact spawned.fresh.aligned
  case callee =>
    rw [crew_handle spawned.positive]
    exact fresh.callee
  case entry =>
    have nonneg := spawned.positive.le
    obtain ⟨soundThen, kept⟩ := Run.clientEntry_kept during (taken.sound sound) nonneg
      fun transition member => (idle transition member).1
    have notSpawned : resuming.label.spawns ≠ some h := by
      intro spawns
      have moves := trace.split_at.2.1
      rw [derives] at moves
      have notRunning : spawning.after.world.coController.running ≠ h := by
        rw [← makes.after.running]
        exact moves.derives.1.symm
      exact resumes.idle_of_spawns soundThen spawns (Run.idle during notRunning idle) returns
    rw [cothreadEntryWrapperCallee, returns]
    exact (resumes.clientEntry_kept soundThen nonneg notSpawned).trans (kept.trans entry)
  case stack => exact derived

/-- The cothread of the sample, at its first turn. -/
theorem spawned_thread_starts_sample : ∃ (inst : Installation Rv64.Reg)
    (spawning : Rv64.Hart) (first second third : Transition (Machine Rv64.Reg) (Event Rv64.Reg)),
    inst.Run ⟨inst.start, first.before.cpu⟩ [first, second, third] third.after ∧
      first.label = .call .someSpawn (.handle 1) spawning ∧
      second.after.world.coController.running = 1 ∧ inst.StartsIn 1 0x3000#64 second.after := by
  obtain ⟨inst, cpu, spawning, leaving, coming, first, second, third, final, run, ⟨firstLabel, -⟩,
    ⟨-, secondRuns⟩, -⟩ := sample_events
  obtain ⟨isStart, -, rest⟩ := run.cons_inv
  obtain ⟨-, -, rest⟩ := rest.cons_inv
  obtain ⟨-, -, rest⟩ := rest.cons_inv
  obtain rfl := rest.nil_inv
  have starts : inst.StartsIn 1 0x3000#64 second.after :=
    @spawned_thread_starts _ _ _ inst ⟨inst.start, cpu⟩ third.after 1 0x3000#64 0#64 spawning first second
      [] [] [third] rfl run firstLabel (by decide) (by simp [Idle]) secondRuns
  exact ⟨inst, spawning, first, second, third, by simpa [isStart] using run, firstLabel, secondRuns,
    starts⟩

end Libmicrokitco.Installation
