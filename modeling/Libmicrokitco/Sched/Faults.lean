import Libmicrokitco.Sched.Contexts

/-!
# When a call faults

`Refusal` is the inversion of `Sched.step` for the calls that do not return. In
sound states the scheduler always finds a thread to resume and the free handles
never fill their ring, so these guards are all that a client can run into.
-/

namespace Libmicrokitco.Sched

/-- What makes a call panic. -/
inductive Refusal (config : Config) (sched : Sched) : Call → Fault → Prop where
  | nullEntry {privateArg : Address} :
      Refusal config sched (.spawn 0#64 privateArg) (.panic .spawnClientEntryIsNull)
  | spawnFull {clientEntry privateArg : Address} (some : sched.free ≠ [])
      (full : sched.queue.length = config.maxCothreads) :
      Refusal config sched (.spawn clientEntry privateArg) (.panic .spawnCannotScheduleNew)
  | argInvalid {cothread : Int} {privateArg : Address}
      (invalid : ¬ InRange config cothread ∨ sched.state cothread = .notActive) :
      Refusal config sched (.setArg cothread privateArg) (.panic .genericInvalidHandle)
  | queryInvalid {cothread : Int} (invalid : ¬ InRange config cothread) :
      Refusal config sched (.queryState cothread) (.panic .genericInvalidHandle)
  | rootArg (root : sched.running = 0) : Refusal config sched .myArg (.panic .myArgCalledFromRoot)
  | yieldFull (full : sched.queue.length = config.maxCothreads) :
      Refusal config sched .yield (.panic .yieldCannotScheduleCaller)
  | destroyInvalid {cothread : Int} (invalid : ¬ InRange config cothread) :
      Refusal config sched (.destroy cothread) (.panic .genericInvalidHandle)
  | destroyInactive {cothread : Int} (bounds : InRange config cothread)
      (inactive : sched.state cothread = .notActive) :
      Refusal config sched (.destroy cothread) (.panic .destroyAlreadyNotInitialised)
  | destroyFromRoot {call : Call} {cothread : Int} (on : call.destroys sched.running = some cothread)
      (bounds : InRange config cothread) (active : sched.state cothread ≠ .notActive)
      (root : sched.running = 0) : Refusal config sched call (.panic .destroyCannotDestroyRoot)
  | signalFull {call : Call} {sem : SemRef} (on : call.signalsOn = some sem)
      (clear : (sched.sem sem).set = false) (nonempty : (sched.sem sem).head ≠ nullHandle)
      (full : sched.queue.length = config.maxCothreads) :
      Refusal config sched call (.panic .coErrSemSigOnceCannotScheduleCaller)
  | waitInvalid {wakeOn : Nat} (invalid : config.maxChannels ≤ wakeOn) :
      Refusal config sched (.waitOnChannel wakeOn) (.panic .waitOnChannelInvalidChannel)
  | recvFromCothread {ch : Nat} (cothread : sched.running ≠ 0) :
      Refusal config sched (.recvNtfn ch) (.panic .recvNtfnCalledFromNonRootCothread)
  | recvInvalid {ch : Nat} (invalid : config.maxChannels ≤ ch) :
      Refusal config sched (.recvNtfn ch) (.panic .recvNtfnInvalidChannel)

variable {config : Config} {sched next : Sched} {call : Call} {answer : Answer}
  {point : SwitchPoint} {sem : SemRef} {cothread : Int} {fault : Fault}

theorem returning_eq_error {result : Except Fault Sched} :
    returning result = .error fault ↔ result = .error fault :=
  map_eq_error

section Total

variable (sound : Sound config (some sched.running) sched) (contexts : ContextsSound config sched)

include sound contexts

/-- A wait on an initialised semaphore never faults. -/
theorem wait_ok (live : sched.live config sem) :
    sched.wait sem = .ok (if (sched.sem sem).set then sched.flagged sem false
      else (sched.blockedOn sem).gone .semaphoreWait) := by
  unfold wait
  split
  · rfl
  · rw [goNext_eq]
    apply resume_of_resumable
    exact (contexts.blockedGone sound live).2.resumable

theorem yield_ok (room : sched.queue.length ≠ config.maxCothreads) :
    sched.yield config = .ok (sched.requeued.gone .yield) := by
  rw [yield, requeue, if_neg room]
  change goNext .yield sched.requeued = _
  rw [goNext_eq]
  apply resume_of_resumable
  exact (contexts.requeuedGone sound).2.resumable

theorem signal_ok (live : sched.live config sem) (room : (sched.sem sem).set = false →
    (sched.sem sem).head ≠ nullHandle → sched.queue.length ≠ config.maxCothreads) :
    sched.signal config sem = .ok (if (sched.sem sem).set then sched
      else if (sched.sem sem).head = nullHandle then sched.flagged sem true
      else sched.handed sem) := by
  unfold signal
  split
  · rfl
  rename_i clear
  split
  · rfl
  rename_i nonempty
  rw [requeue, if_neg (room (by simpa using clear) nonempty)]
  apply resume_of_resumable
  exact (contexts.handed sound live nonempty).2.resumable

/-- A valid destruction by a cothread never faults. -/
theorem destroy_ok (bounds : InRange config cothread) (active : sched.state cothread ≠ .notActive)
    (fromCothread : sched.running ≠ 0) :
    sched.destroy config point cothread = .ok (if cothread = sched.running then
      (sched.released cothread).gone point else sched.released cothread) := by
  obtain ⟨nonneg, below⟩ := bounds
  have room : sched.free.length ≠ config.maxCothreads := by
    have := sound.free.length_lt
    omega
  rw [destroy, if_neg (by omega), if_neg active, if_neg fromCothread, if_neg room]
  split
  · rename_i self
    subst self
    rw [goNext_eq]
    apply resume_of_resumable
    exact (contexts.releasedGone sound fromCothread).2.resumable
  · rfl

private theorem signal_refusal (on : call.signalsOn = some sem) (live : sched.live config sem)
    (failure : sched.signal config sem = .error fault) : Refusal config sched call fault := by
  by_cases room : (sched.sem sem).set = false → (sched.sem sem).head ≠ nullHandle →
      sched.queue.length ≠ config.maxCothreads
  · rw [signal_ok sound contexts live room] at failure
    cases failure
  · push Not at room
    obtain ⟨clear, nonempty, full⟩ := room
    rw [signal, clear, if_neg (by simp), if_neg nonempty, requeue, if_pos full] at failure
    cases failure
    exact .signalFull on clear nonempty full

private theorem destroy_refusal (on : call.destroys sched.running = some cothread)
    (explicit : cothread ≠ sched.running → call = .destroy cothread)
    (failure : sched.destroy config point cothread = .error fault) :
    Refusal config sched call fault := by
  have running := sound.executingRunning
  by_cases bounds : InRange config cothread
  · by_cases inactive : sched.state cothread = .notActive
    · have other : cothread ≠ sched.running := by
        rintro rfl
        rw [running] at inactive
        cases inactive
      have unbounded : ¬ (cothread ≥ config.maxCothreads ∨ cothread < 0) := by
        obtain ⟨nonneg, below⟩ := bounds
        omega
      rw [destroy, if_neg unbounded, if_pos inactive] at failure
      cases failure
      rw [explicit other]
      exact .destroyInactive bounds inactive
    · by_cases root : sched.running = 0
      · have unbounded : ¬ (cothread ≥ config.maxCothreads ∨ cothread < 0) := by
          obtain ⟨nonneg, below⟩ := bounds
          omega
        rw [destroy, if_neg unbounded, if_neg inactive, if_pos root] at failure
        cases failure
        exact .destroyFromRoot on bounds inactive root
      · rw [destroy_ok sound contexts bounds inactive root] at failure
        cases failure
  · have other : cothread ≠ sched.running := fun self => bounds (self ▸ sound.running)
    have outside : cothread ≥ config.maxCothreads ∨ cothread < 0 := by
      unfold InRange at bounds
      omega
    rw [destroy, if_pos outside] at failure
    cases failure
    rw [explicit other]
    exact .destroyInvalid bounds

/-- Every faulting call ran into one of the guards. -/
theorem step_refusal (semaphoreLive : ∀ sem, call.semaphore = some sem → sched.live config sem)
    (failure : sched.step config call = .error fault) : Refusal config sched call fault := by
  cases call with
  | freeHandleAvailable | myHandle | semaphoreInit | semaphoreIsQueueEmpty | semaphoreIsSet =>
    cases failure
  | spawn clientEntry privateArg =>
    simp only [step, spawn, map_eq_error] at failure
    split at failure
    · rename_i isNull
      cases failure
      rw [isNull]
      exact .nullEntry
    split at failure
    · cases failure
    · rename_i new rest free
      split at failure
      · rename_i full
        cases failure
        exact .spawnFull (by rw [free]; simp) full
      · cases failure
  | setArg cothread privateArg =>
    simp only [step, returning_eq_error, setArg] at failure
    split at failure
    · rename_i invalid
      cases failure
      refine .argInvalid ?_
      unfold InRange
      rcases invalid with above | below | inactive
      · exact .inl (by omega)
      · exact .inl (by omega)
      · exact .inr inactive
    · cases failure
  | queryState cothread =>
    simp only [step] at failure
    split at failure
    · rename_i invalid
      cases failure
      exact .queryInvalid (by unfold InRange; omega)
    · cases failure
  | myArg =>
    simp only [step] at failure
    split at failure
    · rename_i root
      cases failure
      exact .rootArg root
    · cases failure
  | yield =>
    have failed := returning_eq_error.mp failure
    by_cases room : sched.queue.length ≠ config.maxCothreads
    · rw [yield_ok sound contexts room] at failed
      cases failed
    · rw [not_not] at room
      rw [yield, requeue, if_pos room] at failed
      cases failed
      exact .yieldFull room
  | destroy cothread =>
    exact destroy_refusal sound contexts rfl (fun _ => rfl) (returning_eq_error.mp failure)
  | semaphoreWait sem =>
    have failed := returning_eq_error.mp failure
    rw [wait_ok sound contexts (semaphoreLive sem rfl)] at failed
    cases failed
  | semaphoreSignal sem =>
    exact signal_refusal sound contexts rfl (semaphoreLive sem rfl) (returning_eq_error.mp failure)
  | waitOnChannel wakeOn =>
    simp only [step] at failure
    split at failure
    · rename_i invalid
      cases failure
      exact .waitInvalid invalid
    · rename_i valid
      have live : sched.live config (.channel wakeOn) := Nat.lt_of_not_le valid
      have failed := returning_eq_error.mp failure
      rw [wait_ok sound contexts live] at failed
      cases failed
  | recvNtfn ch =>
    simp only [step] at failure
    split at failure
    · rename_i cothread
      cases failure
      exact .recvFromCothread cothread
    split at failure
    · rename_i invalid
      cases failure
      exact .recvInvalid invalid
    · rename_i valid
      exact signal_refusal sound contexts rfl (Nat.lt_of_not_le valid)
        (returning_eq_error.mp failure)
  | entryReturn =>
    exact destroy_refusal sound contexts rfl (fun other => absurd rfl other)
      (returning_eq_error.mp failure)

end Total

end Libmicrokitco.Sched
