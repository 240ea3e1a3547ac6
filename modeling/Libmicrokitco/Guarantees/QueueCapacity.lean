import Libmicrokitco.Guarantees.Replay
import Libmicrokitco.Sched.DistinctQueue

/-!
# The capacity of the scheduling queue

A cothread destroyed while ready leaves its entry in the scheduling queue. When
its handle is spawned again before that entry is popped, the handle occupies
two cells, and the ring can fill up. While no spawn does that, no push fails.
-/

namespace Libmicrokitco

open Sched

/-- A spawn does not take a handle that still has an entry in the scheduling queue. -/
def FreshSpawn (world : World) (call : Call) : Prop :=
  ∀ clientEntry privateArg h, call = .spawn clientEntry privateArg →
    world.freeEntries.head? = some h → h ∉ world.schedulingEntries

instance (world : World) (call : Call) : Decidable (FreshSpawn world call) :=
  match call with
  | .spawn clientEntry privateArg =>
    decidable_of_iff (∀ h ∈ world.freeEntries.head?, h ∉ world.schedulingEntries)
      ⟨fun fresh _ _ h same first => by cases same; exact fresh h first,
        fun fresh h first => fresh clientEntry privateArg h rfl first⟩
  | .freeHandleAvailable | .setArg _ _ | .queryState _ | .myHandle | .myArg | .yield | .destroy _
  | .semaphoreInit _ | .semaphoreWait _ | .semaphoreSignal _ | .semaphoreIsQueueEmpty _
  | .semaphoreIsSet _ | .waitOnChannel _ | .recvNtfn _ | .entryReturn =>
    isTrue fun _ _ _ same => by cases same

/-- Disciplined clients whose spawns are fresh. -/
structure DisciplinedFresh (config : Config) (world : World) (call : Call) : Prop
    extends Disciplined config world call where
  fresh : FreshSpawn world call

instance (config : Config) (world : World) (call : Call) :
    Decidable (DisciplinedFresh config world call) :=
  decidable_of_iff (Disciplined config world call ∧ FreshSpawn world call)
    ⟨fun both => ⟨both.1, both.2⟩, fun fresh => ⟨fresh.toDisciplined, fresh.fresh⟩⟩

/-- The panics behind a push that finds the scheduling queue full. -/
def InternalCoFatalErrors.IsPushPanic : InternalCoFatalErrors → Prop
  | .spawnCannotScheduleNew | .yieldCannotScheduleCaller => True
  | .coErrSemSigOnceCannotScheduleCaller => True
  | _ => False

variable {config : Config} {start world next final : World} {call : Call} {answer : Answer}
  {waiters : SemRef → List Int} {history : List (Transition World (Call × Answer))}

theorem Run.distinct (run : Run config (DisciplinedFresh config) start history final)
    (started : Started config start) : final.view.Distinct := by
  induction run with
  | nil => exact started.initial.2.distinct
  | @snoc history state next label prior valid ih =>
    obtain ⟨allowed, success⟩ := valid
    have before : World.Orderly config (waitersAfter history) state :=
      Run.orderly prior started fun _ _ fresh => fresh.toDisciplined
    obtain ⟨effect, -⟩ := before.effect allowed.wellPosed success
    exact ih.effect before.sound before.waiting allowed.fresh effect

/-- Only a full scheduling queue makes a push panic. -/
theorem World.Sound.full_of_push_panic {err : InternalCoFatalErrors}
    (sound : World.Sound config world) (wellPosed : WellPosed config world call)
    (isPush : err.IsPushPanic) (failure : Libmicrokitco.step config world call = .error (.panic err)) :
    world.schedulingEntries.length = config.maxCothreads := by
  cases sound.refusal wellPosed failure with
  | spawnFull _ full => exact full
  | yieldFull full => exact full
  | signalFull _ _ _ full => exact full
  | _ => exact isPush.elim

/-- As long as every spawn is fresh, the scheduling queue has room for every push. -/
theorem scheduling_queue_has_room (started : Started config start)
    (run : Run config (DisciplinedFresh config) start history final) :
    final.schedulingEntries.length < config.maxCothreads ∧
      ∀ call err, DisciplinedFresh config final call → err.IsPushPanic →
        step config final call ≠ .error (.panic err) := by
  have orderly : World.Orderly config (waitersAfter history) final :=
    Run.orderly run started fun _ _ fresh => fresh.toDisciplined
  have room : final.schedulingEntries.length < config.maxCothreads :=
    (Run.distinct run started).length_lt orderly.sound
  refine ⟨room, ?_⟩
  intro call err allowed isPush failure
  have full := orderly.full_of_push_panic allowed.wellPosed isPush failure
  omega

/-- The root destroys nothing; cothread 1 destroys cothread 2, and both handles
are spawned again later. -/
theorem scheduling_queue_has_room_sample : ∃ final : World, final.glance = (2, [1, 0], []) ∧
    final.schedulingEntries.length < threeHandles.maxCothreads ∧
      ∀ call err, DisciplinedFresh threeHandles final call → err.IsPushPanic →
        step threeHandles final call ≠ .error (.panic err) := by
  have replayed : (replayFromInit threeHandles (DisciplinedFresh threeHandles) 0x1000#64 sampleStacks
      [.someSpawn, .someSpawn, .yield, .destroy 2, .yield, .yield, .someSpawn, .yield, .yield]).map
        World.glance = some (2, [1, 0], []) := by
    decide
  obtain ⟨start, history, final, started, run, -, seen⟩ := exists_run_of_replay replayed
  exact ⟨final, seen, scheduling_queue_has_room started run⟩

/-- Cothread 1 twice destroys the ready cothread 2 and spawns its handle again
before the old entry is popped: the second spawn finds the queue full. -/
theorem scheduling_queue_overflows : ∃ start history final,
    Started threeHandles start ∧
      Run threeHandles (Disciplined threeHandles) start history final ∧
        final.schedulingEntries = [2, 0, 2] ∧ Disciplined threeHandles final .someSpawn ∧
          step threeHandles final .someSpawn = .error (.panic .spawnCannotScheduleNew) := by
  have replayed : (replayFromInit threeHandles (Disciplined threeHandles) 0x1000#64 sampleStacks
      [.someSpawn, .someSpawn, .yield, .destroy 2, .someSpawn, .destroy 2]).map
        (fun world => (world.schedulingEntries, decide (Disciplined threeHandles world .someSpawn),
          faultOf threeHandles .someSpawn world)) =
      some ([2, 0, 2], true, some (.panic .spawnCannotScheduleNew)) := by
    decide
  obtain ⟨start, history, final, started, run, -, seen⟩ := exists_run_of_replay replayed
  simp only [Prod.mk.injEq, decide_eq_true_eq] at seen
  obtain ⟨entries, disciplined, fault⟩ := seen
  exact ⟨start, history, final, started, run, entries, disciplined, faultOf_eq_some.mp fault⟩

end Libmicrokitco
