import Libmicrokitco.Guarantees.Replay
import Libmicrokitco.Sched.FifoOrder

/-!
# The documented scheduler

As long as cothreads are destroyed by themselves only, the library is the FIFO
scheduler with binary semaphores that it is documented to be, and none of its
scheduling calls panics.
-/

namespace Libmicrokitco

open Sched

/-- Disciplined clients that destroy no cothread but the running one. -/
structure SelfDestroying (config : Config) (world : World) (call : Call) : Prop
    extends Disciplined config world call where
  own : ∀ cothread, call = .destroy cothread → cothread = world.coController.running

instance (world : World) (call : Call) :
    Decidable (∀ cothread, call = .destroy cothread → cothread = world.coController.running) :=
  match call with
  | .destroy target =>
    decidable_of_iff (target = world.coController.running)
      ⟨fun own _ same => by cases same; exact own, fun own => own target rfl⟩
  | .freeHandleAvailable | .spawn _ _ | .setArg _ _ | .queryState _ | .myHandle | .myArg | .yield
  | .semaphoreInit _ | .semaphoreWait _ | .semaphoreSignal _ | .semaphoreIsQueueEmpty _
  | .semaphoreIsSet _ | .waitOnChannel _ | .recvNtfn _ | .entryReturn =>
    isTrue fun _ same => by cases same

instance (config : Config) (world : World) (call : Call) :
    Decidable (SelfDestroying config world call) :=
  decidable_of_iff (Disciplined config world call ∧
      ∀ cothread, call = .destroy cothread → cothread = world.coController.running)
    ⟨fun both => ⟨both.1, both.2⟩, fun selfDestroying => ⟨selfDestroying.1, selfDestroying.2⟩⟩

/-- A spawn, yield, wait, signal or self-destruction whose arguments pass the
checks that do not concern the scheduler. -/
def Call.Schedules (config : Config) (world : World) : Call → Prop
  | .spawn clientEntry _ => clientEntry ≠ 0#64
  | .yield | .semaphoreWait _ | .semaphoreSignal _ | .destroy _ | .entryReturn => True
  | .waitOnChannel wakeOn => wakeOn < config.maxChannels
  | .recvNtfn ch => ch < config.maxChannels ∧ world.coController.running = rootThread
  | _ => False

/-- The world holds what the abstract scheduler holds. -/
structure World.Implements (config : Config) (world : World) (fifo : Fifo Int SemRef) : Prop where
  running : world.coController.running = fifo.running
  liveEntries : world.schedulingEntries.filter
    (fun h => (world.coController.tcbs h).state = .ready) = fifo.ready
  noStale : ∀ entry ∈ world.schedulingEntries, (world.coController.tcbs entry).state = .ready
  nodup : world.schedulingEntries.Nodup
  ready : ∀ h, (world.coController.tcbs h).state = .ready ↔ h ∈ fifo.ready
  free : world.freeEntries = fifo.free
  flag : ∀ sem, world.live config sem → (world.sem sem).set = fifo.flag sem
  waiters : ∀ sem, world.live config sem → world.WaitList sem (fifo.waiters sem)

variable {config : Config} {start world next final : World} {call : Call} {answer : Answer}
  {history : List (Transition World (Call × Answer))} {fifo : Fifo Int SemRef}

/-- A world that follows the abstract scheduler, with all that carries it along. -/
structure World.Following (config : Config) (fifo : Fifo Int SemRef) (world : World) : Prop
    extends World.Orderly config fifo.waiters world where
  follows : world.view.Follows config fifo

theorem World.Following.implements (following : World.Following config fifo world) :
    world.Implements config fifo where
  running := following.follows.running
  liveEntries := by
    refine Eq.trans (List.filter_eq_self.mpr ?_) following.follows.queue
    intro entry member
    exact decide_eq_true (following.follows.entries entry member)
  noStale := following.follows.entries
  nodup := following.follows.nodup
  ready h := by
    rw [← following.follows.queue]
    exact ⟨following.sound.queue.readyQueued h, following.follows.entries h⟩
  free := following.follows.free
  flag sem live := following.follows.flag sem ((World.live_view sem).mpr live)
  waiters _ live := following.waitList live

theorem World.Following.step (following : World.Following config fifo world)
    (allowed : SelfDestroying config world call)
    (success : Libmicrokitco.step config world call = .ok (answer, next)) :
    ∃ after, fifo.step call.action = some after ∧ World.Following config after next := by
  obtain ⟨effect, -⟩ := following.effect allowed.wellPosed success
  obtain ⟨after, taken, follows, waiters⟩ := following.follows.effect following.sound
    following.waiting (following.supplied allowed.toDisciplined) allowed.own effect
  have orderly := following.toOrderly.step allowed.toDisciplined success
  rw [← waiters] at orderly
  exact ⟨after, taken, orderly, follows⟩

/-- A scheduling call never panics. -/
theorem World.Following.returns (following : World.Following config fifo world)
    (allowed : SelfDestroying config world call) (schedules : call.Schedules config world) :
    ∃ answer next, Libmicrokitco.step config world call = .ok (answer, next) := by
  have room := following.follows.toDistinct.length_lt following.sound
  have notFull : world.view.queue.length ≠ config.maxCothreads := room.ne
  have running := following.sound.executingRunning
  cases outcome : Libmicrokitco.step config world call with
  | ok answered => exact ⟨answered.1, answered.2, rfl⟩
  | error fault =>
    exfalso
    cases following.refusal allowed.wellPosed outcome with
    | nullEntry => exact schedules rfl
    | spawnFull _ full => exact notFull full
    | yieldFull full => exact notFull full
    | signalFull _ _ _ full => exact notFull full
    | destroyInvalid invalid =>
      rw [allowed.own _ rfl] at invalid
      exact invalid following.sound.running
    | destroyInactive _ inactive =>
      rw [allowed.own _ rfl, show world.view.state world.coController.running = _ from running]
        at inactive
      cases inactive
    | @destroyFromRoot _ cothread on _ _ root =>
      refine allowed.toSparing.exits_cothread (on.trans (congrArg some ?_)) root
      cases call with
      | destroy other =>
        cases on
        exact allowed.own _ rfl
      | entryReturn =>
        cases on
        rfl
      | _ => cases on
    | waitInvalid invalid => exact absurd schedules (Nat.not_lt_of_ge invalid)
    | recvFromCothread cothread => exact cothread schedules.2
    | recvInvalid invalid => exact absurd schedules.1 (Nat.not_lt_of_ge invalid)
    | argInvalid | queryInvalid | rootArg => exact schedules

theorem Run.following (run : Run config (SelfDestroying config) start history final)
    (started : Started config start) : ∃ fifo,
      (fifoAtStart config).run (history.map fun transition => transition.label.1.action) =
        some fifo ∧ World.Following config fifo final := by
  induction run with
  | nil => exact ⟨fifoAtStart config, rfl, started.orderly, started.initial.2.follows⟩
  | snoc prior valid ih =>
    obtain ⟨fifo, earlier, following⟩ := ih
    obtain ⟨allowed, success⟩ := valid
    obtain ⟨after, taken, followed⟩ := following.step allowed success
    refine ⟨after, ?_, followed⟩
    rw [List.map_append]
    exact Fifo.run_snoc earlier taken

/-- The implementation refines the abstract FIFO scheduler, and none of its
scheduling calls panics. -/
theorem refines_fifo (started : Started config start)
    (run : Run config (SelfDestroying config) start history final) :
    (∃ fifo, (fifoAtStart config).run (history.map fun transition => transition.label.1.action) =
        some fifo ∧ final.Implements config fifo) ∧
      ∀ call, SelfDestroying config final call → call.Schedules config final →
        ∃ answer next, step config final call = .ok (answer, next) := by
  obtain ⟨fifo, taken, following⟩ := Run.following run started
  exact ⟨⟨fifo, taken, following.implements⟩, fun _ => following.returns⟩

/-- Two cothreads wait, the root signals the first, and it ends. -/
theorem refines_fifo_sample :
    ∃ (history : List (Transition World (Call × Answer))) (final : World),
    history.map (fun transition => transition.label.1) =
      [.semaphoreInit 0, .someSpawn, .someSpawn, .yield, .semaphoreWait (.client 0),
        .semaphoreWait (.client 0), .semaphoreSignal (.client 0), .entryReturn] ∧
    final.glance = (0, [], [1]) ∧
    (∃ fifo, (fifoAtStart threeHandles).run
        (history.map fun transition => transition.label.1.action) = some fifo ∧
          final.Implements threeHandles fifo) ∧
      ∀ call, SelfDestroying threeHandles final call → call.Schedules threeHandles final →
        ∃ answer next, step threeHandles final call = .ok (answer, next) := by
  have replayed : (replayFromInit threeHandles (SelfDestroying threeHandles) 0x1000#64 sampleStacks
      [.semaphoreInit 0, .someSpawn, .someSpawn, .yield, .semaphoreWait (.client 0),
        .semaphoreWait (.client 0), .semaphoreSignal (.client 0), .entryReturn]).map World.glance =
      some (0, [], [1]) := by
    decide
  obtain ⟨start, history, final, started, run, calls, seen⟩ := exists_run_of_replay replayed
  exact ⟨history, final, calls, seen, refines_fifo started run⟩

end Libmicrokitco
