import Libmicrokitco.Guarantees.Replay
import Libmicrokitco.Sched.Surroundings

/-!
# The library keeps to its arrays

In every state that clients can reach a call does the same whatever lies behind
the ends of the TCB array, of the two rings and of the channel map, and leaves
that as it is. The indices come from the rings, the wait lists and the clients;
nothing in the code checks the first two.
-/

namespace Libmicrokitco

open Sched

variable {config : Config} {rest : Surroundings} {start world final : World} {call : Call}
  {sem : SemRef} {point : SwitchPoint} {cothread : Int}
  {history : List (Transition World (Call × Answer))}

namespace World

theorem setArg_amid {privateArg : Address} :
    microkitCothreadSetArg config cothread privateArg (world.amid config rest) =
      World.amid config rest <$> microkitCothreadSetArg config cothread privateArg world := by
  unfold microkitCothreadSetArg
  by_cases bounds : InRange config cothread
  · have read : (world.amid config rest).coController.tcbs cothread =
        world.coController.tcbs cothread := CoControl.tcbs_amid bounds
    simp only [read]
    split
    · rfl
    · simp only [coController_amid, CoControl.update_tcbs_amid bounds]
      rfl
  · have outside : cothread ≥ config.maxCothreads ∨ cothread < 0 := by
      unfold InRange at bounds
      omega
    rw [if_pos (or_assoc.mp (.inl outside)), if_pos (or_assoc.mp (.inl outside))]
    rfl

theorem queryState_amid : microkitCothreadQueryState config cothread (world.amid config rest) =
    microkitCothreadQueryState config cothread world := by
  unfold microkitCothreadQueryState
  split
  · rfl
  · rename_i inside
    have bounds : InRange config cothread := by
      unfold InRange
      omega
    have read : (world.amid config rest).coController.tcbs cothread =
        world.coController.tcbs cothread := CoControl.tcbs_amid bounds
    rw [read]

end World

namespace World.Sound

variable (sound : World.Sound config world)

include sound

theorem indexed : world.Indexed config := ⟨sound.rings, sound.sound.queue.inRange⟩

theorem wait_amid (live : world.live config sem) :
    microkitCothreadSemaphoreWait sem (world.amid config rest) =
      World.amid config rest <$> microkitCothreadSemaphoreWait sem world := by
  have inBounds := live.inBounds
  have running : InRange config world.coController.running := sound.sound.running
  have blocked := sound.indexed.setState (h := world.coController.running) .blocked
  rw [microkitCothreadSemaphoreWait, microkitCothreadSemaphoreWait, sem_amid inBounds]
  split
  · rw [setSem_amid inBounds]
    rfl
  simp only [coController_amid, CoControl.running_amid, setState_amid running, sem_amid inBounds]
  split
  · rw [setSem_amid inBounds]
    exact (blocked.setSem _).goNext
  · rename_i nonempty
    have stays : (world.setState world.coController.running .blocked).sem sem = world.sem sem := by
      cases sem <;> rfl
    rw [stays] at nonempty ⊢
    have tail : InRange config (world.sem sem).tail :=
      sound.sound.slots.tail sem ((World.live_view sem).mpr live) nonempty
    rw [setNextBlocked_amid tail, sem_amid inBounds, setSem_amid inBounds]
    exact (blocked.setNextBlocked.setSem _).goNext

theorem signal_amid (live : world.live config sem) :
    microkitCothreadSemaphoreSignal sem (world.amid config rest) =
      World.amid config rest <$> microkitCothreadSemaphoreSignal sem world := by
  have inBounds := live.inBounds
  have running : InRange config world.coController.running := sound.sound.running
  rw [microkitCothreadSemaphoreSignal, microkitCothreadSemaphoreSignal, sem_amid inBounds]
  split
  · rfl
  split
  · rw [setSem_amid inBounds]
    rfl
  rename_i nonempty
  have waiting : (world.sem sem).head ≠ nullHandle := by
    simpa [microkitCothreadSemaphoreIsQueueEmpty] using nonempty
  have head : InRange config (world.sem sem).head :=
    sound.sound.slots.head_inRange sound.sound.threads ((World.live_view sem).mpr live) waiting
  have link : (world.amid config rest).coController.tcbs (world.sem sem).head =
      world.coController.tcbs (world.sem sem).head := CoControl.tcbs_amid head
  have represents : Represents config world world.view := ⟨rfl, sound.rings⟩
  have pushed := @CoControl.pushSchedulingQueue_amid config rest world.coController
    world.coController.running sound.rings
  rw [coController_amid] at link ⊢
  rw [CoControl.running_amid, pushed]
  simp only [link]
  rcases represents.pushSchedulingQueue world.coController.running with
    ⟨-, controller, full⟩ | ⟨-, controller, success, after⟩
  · rw [full]
    rfl
  rw [success]
  have caller : controller.running = world.coController.running := after.running
  simp only [with_amid, CoControl.running_amid, caller, setState_amid running, setSem_amid inBounds,
    sem_amid inBounds, setNextBlocked_amid head]
  split
  · exact dispatch_amid head
  · exact dispatch_amid head

theorem yield_amid : microkitCothreadYield (world.amid config rest) =
    World.amid config rest <$> microkitCothreadYield world := by
  have running : InRange config world.coController.running := sound.sound.running
  have represents : Represents config world world.view := ⟨rfl, sound.rings⟩
  have pushed := @CoControl.pushSchedulingQueue_amid config rest world.coController
    world.coController.running sound.rings
  rw [microkitCothreadYield, microkitCothreadYield, coController_amid, CoControl.running_amid, pushed]
  rcases represents.pushSchedulingQueue world.coController.running with
    ⟨-, controller, full⟩ | ⟨-, controller, success, after⟩
  · rw [full]
    rfl
  rw [success]
  have caller : controller.running = world.coController.running := after.running
  have bounds : InRange config controller.running := caller ▸ running
  simp only [with_amid, CoControl.running_amid, setState_amid bounds]
  refine (World.Indexed.setState ⟨after.rings, fun entry member => ?_⟩ .ready).goNext
  have entries : World.schedulingEntries { world with coController := controller } =
      world.schedulingEntries ++ [world.coController.running] := after.queue
  rw [entries, List.mem_append, List.mem_singleton] at member
  rcases member with queued | rfl
  · exact sound.sound.queue.inRange entry queued
  · exact running

theorem destroy_amid : microkitCothreadDestroy config point cothread (world.amid config rest) =
    World.amid config rest <$> microkitCothreadDestroy config point cothread world := by
  unfold microkitCothreadDestroy
  split
  · rfl
  rename_i inside
  have bounds : InRange config cothread := by
    unfold InRange
    omega
  have read : (world.amid config rest).coController.tcbs cothread =
      world.coController.tcbs cothread := CoControl.tcbs_amid bounds
  rw [read]
  split
  · rfl
  rw [coController_amid, CoControl.running_amid]
  split
  · rfl
  have represents : Represents config world world.view := ⟨rfl, sound.rings⟩
  have pushed := @CoControl.pushFreeHandleQueue_amid config rest world.coController cothread
    sound.rings
  rw [pushed]
  rcases represents.pushFreeHandleQueue cothread with
    ⟨-, controller, full⟩ | ⟨-, controller, success, after⟩
  · rw [full]
    rfl
  rw [success]
  simp only [with_amid, coController_amid, CoControl.running_amid, setState_amid bounds]
  split
  · have entries : World.schedulingEntries { world with coController := controller } =
      world.schedulingEntries := after.queue
    refine (World.Indexed.setState ⟨after.rings, fun entry member => ?_⟩ .notActive).goNext
    rw [entries] at member
    exact sound.sound.queue.inRange entry member
  · rfl

theorem spawn_amid {clientEntry privateArg : Address} :
    microkitCothreadSpawn config clientEntry privateArg (world.amid config rest) =
      (fun made => (made.1, made.2.amid config rest)) <$>
        microkitCothreadSpawn config clientEntry privateArg world := by
  unfold microkitCothreadSpawn
  split
  · rfl
  have represents : Represents config world world.view := ⟨rfl, sound.rings⟩
  have popped := @CoControl.popFreeHandleQueue_amid config rest world.coController nullHandle
    sound.rings
  rw [coController_amid, popped]
  rcases represents.popFreeHandleQueue nullHandle with
    ⟨-, empty⟩ | ⟨new, free, controller, entries, success, after⟩
  · rw [empty]
    rfl
  rw [success]
  have member : new ∈ world.view.free := by
    rw [entries]
    exact List.mem_cons_self
  obtain ⟨positive, below, -⟩ := (sound.sound.free.exact new).mp member
  have bounds : InRange config new := ⟨positive.le, below⟩
  have read : (controller.amid config rest).tcbs new = controller.tcbs new :=
    CoControl.tcbs_amid bounds
  have size : (controller.amid config rest).coStackSize = controller.coStackSize := rfl
  have memory : (world.amid config rest).memory = world.memory := rfl
  simp only [read, CoControl.update_tcbs_amid bounds]
  simp only [size, memory, libco_amid]
  generalize tcbUpdated : ({ controller with tcbs := Function.update controller.tcbs new _ } :
    CoControl) = updated
  have rings : updated.RingsWellFormed config := by
    subst tcbUpdated
    exact ⟨after.rings.free, after.rings.freeCapacity, after.rings.scheduling,
      after.rings.schedulingCapacity⟩
  rw [CoControl.pushSchedulingQueue_amid rings]
  obtain ⟨err, pushed⟩ := updated.pushSchedulingQueue new
  cases err <;> rfl

theorem myArg_amid :
    microkitCothreadMyArg (world.amid config rest) = microkitCothreadMyArg world := by
  have read : (world.amid config rest).coController.tcbs world.coController.running =
      world.coController.tcbs world.coController.running := CoControl.tcbs_amid sound.sound.running
  unfold microkitCothreadMyArg
  rw [coController_amid] at read ⊢
  rw [CoControl.running_amid, read]

theorem freeHandleAvailable_amid (ret : Int) :
    microkitCothreadFreeHandleAvailable ret (world.amid config rest) =
      microkitCothreadFreeHandleAvailable ret world := by
  have peeked := @CoControl.hostedqueuePeek_amid config _ world.coController.freeHandleQueueMem
    rest.freeHandleQueueMem ret sound.rings.free sound.rings.freeCapacity
  unfold microkitCothreadFreeHandleAvailable
  rw [coController_amid]
  exact congrArg (fun peek : HostedqueueErr × Int => (decide (peek.1 = .noerr), peek.2)) peeked

/-- Each call, from a state that a run keeps to. -/
theorem step_amid (wellPosed : WellPosed config world call) :
    Libmicrokitco.step config (world.amid config rest) call =
      (fun answered => (answered.1, answered.2.amid config rest)) <$>
        Libmicrokitco.step config world call := by
  have returns : ∀ {amid plain : Except Fault World}, amid = World.amid config rest <$> plain →
      returning amid = (fun answered => (answered.1, answered.2.amid config rest)) <$>
        returning plain := by
    rintro _ (fault | next) rfl <;> rfl
  cases call with
  | freeHandleAvailable =>
    simp only [Libmicrokitco.step, sound.freeHandleAvailable_amid]
    rfl
  | spawn clientEntry privateArg =>
    simp only [Libmicrokitco.step, sound.spawn_amid]
    cases microkitCothreadSpawn config clientEntry privateArg world <;> rfl
  | setArg cothread privateArg => exact returns setArg_amid
  | queryState cothread =>
    simp only [Libmicrokitco.step, queryState_amid]
    cases microkitCothreadQueryState config cothread world <;> rfl
  | myHandle => rfl
  | myArg =>
    simp only [Libmicrokitco.step, sound.myArg_amid]
    cases microkitCothreadMyArg world <;> rfl
  | yield => exact returns sound.yield_amid
  | destroy cothread => exact returns sound.destroy_amid
  | semaphoreInit id => rfl
  | semaphoreWait sem => exact returns (sound.wait_amid (wellPosed.semaphoreLive sem rfl))
  | semaphoreSignal sem => exact returns (sound.signal_amid (wellPosed.semaphoreLive sem rfl))
  | semaphoreIsQueueEmpty sem =>
    simp only [Libmicrokitco.step, sem_amid (wellPosed.semaphoreLive sem rfl).inBounds]
    rfl
  | semaphoreIsSet sem =>
    simp only [Libmicrokitco.step, sem_amid (wellPosed.semaphoreLive sem rfl).inBounds]
    rfl
  | waitOnChannel wakeOn =>
    apply returns
    unfold microkitCothreadWaitOnChannel
    split
    · rfl
    · rename_i valid
      exact sound.wait_amid (Nat.lt_of_not_le valid)
  | recvNtfn ch =>
    apply returns
    unfold microkitCothreadRecvNtfn
    rw [coController_amid, CoControl.running_amid]
    split
    · rfl
    split
    · rfl
    · rename_i valid
      exact sound.signal_amid (Nat.lt_of_not_le valid)
  | entryReturn => exact returns sound.destroy_amid

end World.Sound

/-- No call of a client reads or writes behind the ends of the arrays of the
controller, whichever calls were made before and whoever waits. -/
theorem calls_keep_to_arrays (started : Started config start)
    (run : Run config (Sparing config) start history final)
    (wellPosed : WellPosed config final call) (rest : Surroundings) :
    step config (final.amid config rest) call =
      (fun answered => (answered.1, answered.2.amid config rest)) <$> step config final call :=
  (run.sound started fun _ _ => id).step_amid wellPosed

/-- Handles and states that no array of the controller holds. -/
def strangeSurroundings : Surroundings where
  tcbs := fun h => { CoControl.zeroed.tcbs h with state := .blocked }
  freeHandleQueueMem := fun _ => 7
  schedulingQueueMem := fun _ => 7
  blockedChannelMap := fun _ => { CothreadSem.zeroed with head := 7, tail := 7 }

/-- The root signals a channel on which a cothread waits. -/
theorem calls_keep_to_arrays_sample :
    ∃ (history : List (Transition World (Call × Answer))) (final : World),
    history.map (fun transition => transition.label.1) = [.someSpawn, .yield, .waitOnChannel 0] ∧
    final.glance = (0, [], []) ∧
    step twoHandles (final.amid twoHandles strangeSurroundings) (.recvNtfn 0) =
      (fun answered => (answered.1, answered.2.amid twoHandles strangeSurroundings)) <$>
        step twoHandles final (.recvNtfn 0) := by
  have replayed : (replayFromInit twoHandles (Sparing twoHandles) 0x1000#64 sampleStacks
      [.someSpawn, .yield, .waitOnChannel 0]).map World.glance = some (0, [], []) := by
    decide
  obtain ⟨start, history, final, started, run, calls, seen⟩ := exists_run_of_replay replayed
  have wellPosed : WellPosed twoHandles final (.recvNtfn 0) := ⟨by simp [Call.semaphore], by simp⟩
  exact ⟨history, final, calls, seen, calls_keep_to_arrays started run wellPosed strangeSurroundings⟩

end Libmicrokitco
