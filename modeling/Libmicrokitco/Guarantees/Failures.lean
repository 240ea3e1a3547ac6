import Libmicrokitco.Guarantees.Replay

/-!
# When the library panics

`World.complaint` reads the guards of a call off the state it is made in. In
every reachable state a call ends in exactly that panic or returns: the searches
of the scheduler end, the thread it finds can be resumed, and nothing behind a
guard fails.
-/

namespace Libmicrokitco

open Sched

/-- The scheduling queue has no room for another entry. -/
def World.Full (config : Config) (world : World) : Prop :=
  world.schedulingEntries.length = config.maxCothreads

instance (config : Config) (world : World) : Decidable (world.Full config) :=
  inferInstanceAs (Decidable (_ = _))

/-- A signal that has to hand over queues its caller first. -/
def World.signalComplaint (config : Config) (world : World) (sem : SemRef) :
    Option InternalCoFatalErrors :=
  if (world.sem sem).set = false ∧ (world.sem sem).head ≠ nullHandle ∧ world.Full config then
    some .coErrSemSigOnceCannotScheduleCaller
  else none

/-- What a call panics with, if it does not return. -/
def World.complaint (config : Config) (world : World) : Call → Option InternalCoFatalErrors
  | .spawn clientEntry _ =>
    if clientEntry = 0#64 then some .spawnClientEntryIsNull
    else if world.freeEntries ≠ [] ∧ world.Full config then some .spawnCannotScheduleNew
    else none
  | .setArg cothread _ =>
    if InRange config cothread ∧ (world.coController.tcbs cothread).state ≠ .notActive then none
    else some .genericInvalidHandle
  | .queryState cothread => if InRange config cothread then none else some .genericInvalidHandle
  | .myArg => if world.coController.running = rootThread then some .myArgCalledFromRoot else none
  | .yield => if world.Full config then some .yieldCannotScheduleCaller else none
  | .destroy cothread =>
    if ¬ InRange config cothread then some .genericInvalidHandle
    else if (world.coController.tcbs cothread).state = .notActive then
      some .destroyAlreadyNotInitialised
    else if world.coController.running = rootThread then some .destroyCannotDestroyRoot
    else none
  | .semaphoreSignal sem => world.signalComplaint config sem
  | .waitOnChannel wakeOn =>
    if wakeOn < config.maxChannels then none else some .waitOnChannelInvalidChannel
  | .recvNtfn ch =>
    if world.coController.running ≠ rootThread then some .recvNtfnCalledFromNonRootCothread
    else if ch < config.maxChannels then world.signalComplaint config (.channel ch)
    else some .recvNtfnInvalidChannel
  | .freeHandleAvailable | .myHandle | .semaphoreInit _ | .semaphoreWait _
  | .semaphoreIsQueueEmpty _ | .semaphoreIsSet _ | .entryReturn => none

variable {config : Config} {start world final : World} {call : Call} {fault : Fault}
  {err : InternalCoFatalErrors} {sem : SemRef}
  {history : List (Transition World (Call × Answer))}

/-- The outcome is a panic exactly if there is a complaint, and that panic. -/
def Complains (outcome : Except Fault (Answer × Sched)) (complaint : Option InternalCoFatalErrors) :
    Prop :=
  ∀ fault, outcome = .error fault ↔ ∃ err, complaint = some err ∧ fault = .panic err

theorem complains_ok {answered : Answer × Sched} : Complains (.ok answered) none := by
  simp [Complains]

theorem complains_panic : Complains (.error (.panic err)) (some err) := by
  simp [Complains, eq_comm]

theorem World.Sound.wait_complains (sound : World.Sound config world) (live : world.live config sem) :
    Complains (Sched.returning (world.view.wait sem)) none := by
  rw [wait_ok sound.sound sound.contexts ((World.live_view sem).mpr live)]
  exact complains_ok

theorem World.Sound.signal_complains (sound : World.Sound config world)
    (live : world.live config sem) :
    Complains (Sched.returning (world.view.signal config sem)) (world.signalComplaint config sem) := by
  unfold World.signalComplaint
  split
  · rename_i refused
    obtain ⟨clear, nonempty, full⟩ := refused
    have notSet : ¬ (world.view.sem sem).set = true := by
      rw [show (world.view.sem sem).set = false from clear]
      exact Bool.false_ne_true
    have waiting : (world.view.sem sem).head ≠ nullHandle := nonempty
    have isFull : world.view.queue.length = config.maxCothreads := full
    rw [Sched.signal, if_neg notSet, if_neg waiting, requeue, if_pos isFull]
    exact complains_panic
  · rename_i accepted
    rw [signal_ok sound.sound sound.contexts ((World.live_view sem).mpr live)
      fun clear nonempty full => accepted ⟨clear, nonempty, full⟩]
    exact complains_ok

theorem World.Sound.complains (sound : World.Sound config world)
    (wellPosed : WellPosed config world call) :
    Complains (world.view.step config call) (world.complaint config call) := by
  have running := sound.sound.executingRunning
  cases call with
  | freeHandleAvailable | myHandle | semaphoreInit | semaphoreIsQueueEmpty | semaphoreIsSet =>
    exact complains_ok
  | spawn clientEntry privateArg =>
    simp only [Sched.step, Sched.spawn, World.complaint]
    split
    · exact complains_panic
    cases free : world.view.free with
    | nil =>
      have none : world.freeEntries = [] := free
      rw [if_neg (by simp [none])]
      exact complains_ok
    | cons new rest =>
      have some : world.freeEntries ≠ [] := by
        rw [show world.freeEntries = _ from free]
        simp
      by_cases full : world.Full config
      · simp only [if_pos (show world.freeEntries ≠ [] ∧ world.Full config from ⟨some, full⟩),
          if_pos (show world.view.queue.length = config.maxCothreads from full)]
        exact complains_panic
      · simp only [if_neg (fun both : world.freeEntries ≠ [] ∧ world.Full config => full both.2),
          if_neg (show ¬ world.view.queue.length = config.maxCothreads from full)]
        exact complains_ok
  | setArg cothread privateArg =>
    simp only [Sched.step, Sched.setArg, World.complaint]
    by_cases valid : InRange config cothread ∧ (world.coController.tcbs cothread).state ≠ .notActive
    · have accepted : ¬ (cothread ≥ config.maxCothreads ∨ cothread < 0 ∨
          world.view.state cothread = .notActive) := by
        obtain ⟨⟨nonneg, below⟩, active⟩ := valid
        rintro (above | negative | inactive)
        · omega
        · omega
        · exact active inactive
      rw [if_pos valid, if_neg accepted]
      exact complains_ok
    · have refused : cothread ≥ config.maxCothreads ∨ cothread < 0 ∨
          world.view.state cothread = .notActive := by
        by_contra accepted
        push Not at accepted
        exact valid ⟨⟨accepted.2.1, accepted.1⟩, accepted.2.2⟩
      rw [if_neg valid, if_pos refused]
      exact complains_panic
  | queryState cothread =>
    simp only [Sched.step, World.complaint]
    by_cases bounds : InRange config cothread
    · rw [if_pos bounds, if_neg (by unfold InRange at bounds; omega)]
      exact complains_ok
    · rw [if_neg bounds, if_pos (by unfold InRange at bounds; omega)]
      exact complains_panic
  | myArg =>
    by_cases root : world.coController.running = rootThread
    · have fails : world.view.step config .myArg = .error (.panic .myArgCalledFromRoot) := if_pos root
      rw [fails, World.complaint, if_pos root]
      exact complains_panic
    · have returns : world.view.step config .myArg = .ok _ := if_neg root
      rw [returns, World.complaint, if_neg root]
      exact complains_ok
  | yield =>
    simp only [Sched.step, World.complaint]
    by_cases full : world.Full config
    · have isFull : world.view.queue.length = config.maxCothreads := full
      rw [if_pos full, Sched.yield, requeue, if_pos isFull]
      exact complains_panic
    · rw [if_neg full, yield_ok sound.sound sound.contexts full]
      exact complains_ok
  | destroy cothread =>
    simp only [Sched.step, World.complaint]
    by_cases bounds : InRange config cothread
    · have inside : ¬ (cothread ≥ config.maxCothreads ∨ cothread < 0) := by
        unfold InRange at bounds
        omega
      rw [if_neg (not_not.mpr bounds)]
      split
      · rename_i inactive
        have isInactive : world.view.state cothread = .notActive := inactive
        rw [Sched.destroy, if_neg inside, if_pos isInactive]
        exact complains_panic
      rename_i active
      have isActive : world.view.state cothread ≠ .notActive := active
      split
      · rename_i root
        have isRoot : world.view.running = 0 := root
        rw [Sched.destroy, if_neg inside, if_neg isActive, if_pos isRoot]
        exact complains_panic
      · rename_i cothread
        rw [destroy_ok sound.sound sound.contexts bounds active cothread]
        exact complains_ok
    · rw [if_pos bounds, Sched.destroy, if_pos (by unfold InRange at bounds; omega)]
      exact complains_panic
  | semaphoreWait sem => exact sound.wait_complains (wellPosed.semaphoreLive sem rfl)
  | semaphoreSignal sem => exact sound.signal_complains (wellPosed.semaphoreLive sem rfl)
  | waitOnChannel wakeOn =>
    simp only [Sched.step, World.complaint]
    by_cases valid : wakeOn < config.maxChannels
    · rw [if_pos valid, if_neg (Nat.not_le_of_lt valid)]
      exact sound.wait_complains valid
    · rw [if_neg valid, if_pos (Nat.le_of_not_lt valid)]
      exact complains_panic
  | recvNtfn ch =>
    simp only [Sched.step, World.complaint]
    by_cases cothread : world.coController.running ≠ rootThread
    · rw [if_pos cothread, if_pos (show world.view.running ≠ 0 from cothread)]
      exact complains_panic
    rw [if_neg cothread, if_neg (show ¬ world.view.running ≠ 0 from cothread)]
    by_cases valid : ch < config.maxChannels
    · rw [if_pos valid, if_neg (Nat.not_le_of_lt valid)]
      exact sound.signal_complains valid
    · rw [if_neg valid, if_pos (Nat.le_of_not_lt valid)]
      exact complains_panic
  | entryReturn =>
    have cothread : world.view.running ≠ 0 := wellPosed.entered rfl
    have active : world.view.state world.view.running ≠ .notActive := by
      rw [running]
      simp
    simp only [Sched.step, World.complaint]
    rw [destroy_ok sound.sound sound.contexts sound.sound.running active cothread]
    exact complains_ok

/-- In every state that clients can reach, a call panics exactly if one of its
guards complains, with the panic of the first guard that does. -/
theorem panics_exactly_on_complaint (started : Started config start)
    (run : Run config (Sparing config) start history final)
    (wellPosed : WellPosed config final call) (fault : Fault) :
    step config final call = .error fault ↔
      ∃ err, final.complaint config call = some err ∧ fault = .panic err := by
  have sound := run.sound started fun _ _ => id
  have represents : Represents config final final.view := ⟨rfl, sound.rings⟩
  rw [(represents.step call).error_iff]
  exact sound.complains wellPosed fault

/-- A cothread is destroyed twice. -/
theorem panics_exactly_on_complaint_sample :
    ∃ (history : List (Transition World (Call × Answer))) (final : World),
    history.map (fun transition => transition.label.1) =
      [.someSpawn, .someSpawn, .yield, .destroy 2] ∧
    final.complaint threeHandles (.destroy 2) = some .destroyAlreadyNotInitialised ∧
    ∀ fault, step threeHandles final (.destroy 2) = .error fault ↔
      ∃ err, final.complaint threeHandles (.destroy 2) = some err ∧ fault = .panic err := by
  have replayed : (replayFromInit threeHandles (Sparing threeHandles) 0x1000#64 sampleStacks
      [.someSpawn, .someSpawn, .yield, .destroy 2]).map
        (fun world => world.complaint threeHandles (.destroy 2)) =
      some (some .destroyAlreadyNotInitialised) := by
    decide
  obtain ⟨start, history, final, started, run, calls, seen⟩ := exists_run_of_replay replayed
  have wellPosed : WellPosed threeHandles final (.destroy 2) := ⟨by simp [Call.semaphore], by simp⟩
  exact ⟨history, final, calls, seen, panics_exactly_on_complaint started run wellPosed⟩

end Libmicrokitco
