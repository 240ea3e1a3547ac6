import Libmicrokitco.Sched.Waiting

/-!
# What a call does to one semaphore

The flag and the waiters of an initialised semaphore change only by waits and
signals on it. The thread that runs after a call is a waiter exactly if the
call was a signal that found it first.
-/

namespace Libmicrokitco.Sched

/-- The caller, if the call blocks it on `sem`. -/
def blocking (sched : Sched) (call : Call) (sem : SemRef) : List Int :=
  if call.waitsOn = some sem ∧ (sched.sem sem).set = false then [sched.running] else []

/-- The waiters once the caller has joined them, before any is resumed. -/
def joined (sched : Sched) (waiters : SemRef → List Int) (call : Call) (sem : SemRef) : List Int :=
  waiters sem ++ sched.blocking call sem

variable {config : Config} {sched next : Sched} {call : Call} {answer : Answer} {sem : SemRef}
  {h : Int} {waiters : SemRef → List Int}

theorem joined_of_signal (on : call.signalsOn = some sem) :
    sched.joined waiters call sem = waiters sem := by
  have joins : ¬ (call.waitsOn = some sem ∧ (sched.sem sem).set = false) := by
    rintro ⟨waits, -⟩
    rw [Call.signalsOn_of_waitsOn waits] at on
    cases on
  rw [joined, blocking, if_neg joins, List.append_nil]

/-- A call that is no signal on `sem` resumes none of its waiters. -/
theorem nextWaiters_eq_joined (signals : call.signalsOn ≠ some sem)
    (inits : ∀ id, call = .semaphoreInit id → sem ≠ .client id) :
    sched.nextWaiters waiters call sem = sched.joined waiters call sem := by
  unfold joined blocking
  split
  · rename_i blocks
    obtain ⟨on, clear⟩ := blocks
    rw [nextWaiters_of_wait on, clear, if_neg (by simp), Function.update_self]
  rename_i joins
  rw [List.append_nil]
  cases waits : call.waitsOn with
  | some other =>
    rw [nextWaiters_of_wait waits]
    split
    · rfl
    · rename_i clear
      refine Function.update_of_ne ?_ ..
      rintro rfl
      exact joins ⟨waits, by simpa using clear⟩
  | none =>
    cases on : call.signalsOn with
    | some other =>
      rw [nextWaiters_of_signal on]
      refine Function.update_of_ne ?_ ..
      rintro rfl
      exact signals on
    | none =>
      by_cases isInit : ∃ id, call = .semaphoreInit id
      · obtain ⟨id, rfl⟩ := isInit
        rw [nextWaiters_of_init]
        exact Function.update_of_ne (inits id rfl) ..
      · rw [nextWaiters_of_other waits on fun id same => isInit ⟨id, same⟩]

/-- Who runs after a call: the first waiter, after a signal, or none of those
who wait. -/
inductive Resumes (sched : Sched) (waiters : SemRef → List Int) (call : Call) (sem : SemRef)
    (next : Sched) : Prop where
  | first (on : call.signalsOn = some sem)
      (shape : waiters sem = next.running :: sched.nextWaiters waiters call sem)
  | none (absent : next.running ∉ sched.joined waiters call sem)
      (kept : sched.nextWaiters waiters call sem = sched.joined waiters call sem)

theorem Waiting.resumes (waiting : Waiting config waiters sched)
    (after : Waiting config (sched.nextWaiters waiters call) next)
    (executing : next.state next.running = .running) (live : sched.live config sem)
    (inits : ∀ id, call = .semaphoreInit id → sem ≠ .client id)
    (effect : Effect config sched call answer next) : Resumes sched waiters call sem next := by
  have absent : next.running ∉ sched.nextWaiters waiters call sem :=
    after.notMem (effect.live live) (by rw [executing]; simp)
  by_cases on : call.signalsOn = some sem
  · cases shape : waiters sem with
    | nil =>
      have kept : sched.nextWaiters waiters call sem = sched.joined waiters call sem := by
        rw [nextWaiters_of_signal_nil on shape, joined_of_signal on]
      exact .none (kept ▸ absent) kept
    | cons first rest =>
      obtain ⟨-, -, running⟩ := waiting.signalled on (by rw [shape]; rfl) effect
      refine .first on ?_
      rw [nextWaiters_of_signal on, Function.update_self, shape, running]
      rfl
  · have kept : sched.nextWaiters waiters call sem = sched.joined waiters call sem :=
      nextWaiters_eq_joined on inits
    exact .none (kept ▸ absent) kept

/-- Calls on other semaphores and all other calls leave a flag as it is. -/
theorem Effect.flag_kept (effect : Effect config sched call answer next)
    (waits : call.waitsOn ≠ some sem) (signals : call.signalsOn ≠ some sem)
    (inits : ∀ id, call = .semaphoreInit id → sem ≠ .client id) :
    (next.sem sem).set = (sched.sem sem).set := by
  have elsewhere : ∀ {other : SemRef} {value : CothreadSem}, sem ≠ other →
      (Function.update sched.sem other value sem).set = (sched.sem sem).set := by
    intro other value different
    rw [Function.update_of_ne different]
  cases effect with
  | queried | peeked | argued | exhausted | spawned | ignored | yielded | destroyed | exited => rfl
  | initialised => exact elsewhere (inits _ rfl)
  | consumed on | blocked on =>
    refine elsewhere ?_
    rintro rfl
    exact waits on
  | raised on | handedOver on =>
    refine elsewhere ?_
    rintro rfl
    exact signals on

/-- A wait leaves the flag clear. -/
theorem Effect.flag_of_wait (effect : Effect config sched call answer next)
    (on : call.waitsOn = some sem) : (next.sem sem).set = false := by
  obtain ⟨-, ⟨-, rfl⟩ | ⟨clear, rfl⟩⟩ := effect.of_wait on
  · simp [Sched.flagged, setSem]
  · change (Function.update sched.sem sem _ sem).set = false
    rw [Function.update_self]
    exact clear

/-- An initialised semaphore is clear. -/
theorem Effect.flag_of_init {id : Nat} (effect : Effect config sched (.semaphoreInit id) answer next) :
    (next.sem (.client id)).set = false := by
  cases effect with
  | initialised =>
    simp [Sched.semaphoreInitialised, setSem, microkitCothreadSemaphoreInit]
  | queried passive => exact passive.elim
  | consumed on | blocked on | ignored on | raised on | handedOver on => cases on
  | exited self => cases self

/-- A signal leaves the flag set if it finds it set or finds no waiter. -/
theorem Waiting.flag_of_signal (waiting : Waiting config waiters sched)
    (on : call.signalsOn = some sem) (effect : Effect config sched call answer next) :
    (next.sem sem).set = true ↔ (sched.sem sem).set = true ∨ waiters sem = [] := by
  obtain ⟨live, ⟨set, rfl⟩ | ⟨clear, empty, rfl⟩ | ⟨clear, nonempty, -, rfl⟩⟩ := effect.of_signal on
  · simp [set]
  · simp [(waiting.nil_iff live).mpr empty, Sched.flagged, setSem]
  · have some : waiters sem ≠ [] := fun none => nonempty ((waiting.nil_iff live).mp none)
    have after : ((sched.handed sem).sem sem).set = false := by
      change (Function.update sched.sem sem _ sem).set = false
      rw [Function.update_self]
      split
      · rfl
      · exact clear
    simp [after, clear, some]

end Libmicrokitco.Sched
