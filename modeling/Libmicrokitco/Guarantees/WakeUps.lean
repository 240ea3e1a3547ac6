import Libmicrokitco.Guarantees.Scheduling
import Libmicrokitco.Sched.WakeUps

/-!
# Semaphores lose and reorder no wake-up

`semLog` records what the calls of a history did on one semaphore: who blocked,
who ran again, and what the signals found. Waits and signals balance and the
waiters are resumed in order. The one wake-up that fails is a signal whose
caller finds the scheduling queue full.
-/

namespace Libmicrokitco

open Sched LinkedChain

/-- The caller, if the call blocks it on `sem`. -/
def World.blocking (world : World) (call : Call) (sem : SemRef) : List Int :=
  if call.waitsOn = some sem ∧ (world.sem sem).set = false then [world.coController.running]
  else []

/-- The history of one semaphore. -/
structure SemLog where
  /-- The threads that blocked, in the order of their calls. -/
  waited : List Int
  /-- The threads that ran again, in the order in which they did. -/
  resumed : List Int
  /-- The threads that have not run since they blocked. -/
  pending : List Int
  /-- Waits that found the flag set. -/
  consumed : Nat
  signals : Nat
  /-- Signals that found the flag set. -/
  ignored : Nat

def SemLog.empty : SemLog where
  waited := []
  resumed := []
  pending := []
  consumed := 0
  signals := 0
  ignored := 0

def SemLog.next (sem : SemRef) (log : SemLog) (transition : Transition World (Call × Answer)) :
    SemLog :=
  let call := transition.label.1
  let set := (transition.before.sem sem).set
  let blocking := transition.before.blocking call sem
  let running := transition.after.coController.running
  { waited := log.waited ++ blocking
    resumed := log.resumed ++ (log.pending ++ blocking).filter (· = running)
    pending := (log.pending ++ blocking).filter (· ≠ running)
    consumed := log.consumed + if call.waitsOn = some sem ∧ set = true then 1 else 0
    signals := log.signals + if call.signalsOn = some sem then 1 else 0
    ignored := log.ignored + if call.signalsOn = some sem ∧ set = true then 1 else 0 }

def semLog (history : List (Transition World (Call × Answer))) (sem : SemRef) : SemLog :=
  history.foldl (SemLog.next sem) .empty

theorem semLog_snoc (history : List (Transition World (Call × Answer)))
    (transition : Transition World (Call × Answer)) (sem : SemRef) :
    semLog (history ++ [transition]) sem = (semLog history sem).next sem transition := by
  simp [semLog]

/-- The semaphore is initialised at most once in a history. -/
def InitialisedOnce (history : List (Transition World (Call × Answer))) (sem : SemRef) : Prop :=
  ∀ id, sem = .client id →
    history.countP (fun transition => transition.label.1 = .semaphoreInit id) ≤ 1

/-- The waits that have completed: those that found the flag set, and the
waiters that were resumed. -/
def SemLog.completed (log : SemLog) : Nat := log.consumed + log.resumed.length

/-- The log agrees with the flag and the waiters of the semaphore. -/
structure SemLog.Settles (log : SemLog) (set : Bool) (waiters : List Int) : Prop where
  balance : log.completed + set.toNat + log.ignored = log.signals
  order : log.waited = log.resumed ++ log.pending
  pending : log.pending = waiters

variable {config : Config} {start world next final : World} {call : Call} {answer : Answer}
  {history : List (Transition World (Call × Answer))} {sem : SemRef} {waiters : SemRef → List Int}
  {log : SemLog} {h : Int}

/-- A call that neither waits on nor signals a semaphore without waiters adds
nothing to its log. -/
theorem SemLog.next_empty (waits : call.waitsOn ≠ some sem) (signals : call.signalsOn ≠ some sem) :
    SemLog.empty.next sem ⟨world, (call, answer), next⟩ = .empty := by
  simp [SemLog.next, SemLog.empty, World.blocking, waits, signals]

/-- Taking out a thread that is not in a list. -/
theorem filter_ne_of_notMem {threads : List Int} (absent : h ∉ threads) :
    threads.filter (· ≠ h) = threads := by
  rw [List.filter_eq_self]
  intro thread member
  have other : thread ≠ h := fun same => absent (same ▸ member)
  simpa using other

theorem filter_eq_of_notMem {threads : List Int} (absent : h ∉ threads) :
    threads.filter (· = h) = [] := by
  rw [List.filter_eq_nil_iff]
  intro thread member same
  rw [decide_eq_true_eq] at same
  exact absent (same ▸ member)

/-- A signal moves the first waiter to the resumed threads. -/
theorem SemLog.Settles.resume (settles : log.Settles (world.sem sem).set (waiters sem))
    (orderly : World.Orderly config waiters world) (live : world.view.live config sem)
    (on : call.signalsOn = some sem)
    (shape : waiters sem = next.view.running :: world.view.nextWaiters waiters call sem)
    (effect : Effect config world.view call answer next.view) :
    (log.next sem ⟨world, (call, answer), next⟩).Settles (next.sem sem).set
      (world.view.nextWaiters waiters call sem) := by
  have waits : call.waitsOn ≠ some sem := by
    intro waits
    rw [Call.signalsOn_of_waitsOn waits] at on
    cases on
  have nodup := (orderly.waiting.chain sem live).nodup
  rw [shape, List.nodup_cons] at nodup
  have clear : (world.sem sem).set = false := by
    by_contra set
    have none := orderly.waiting.flag sem live (Bool.not_eq_false _ ▸ set)
    rw [shape] at none
    cases none
  have stillClear : (next.sem sem).set = false := by
    by_contra set
    rcases (orderly.waiting.flag_of_signal on effect).mp (Bool.not_eq_false _ ▸ set) with before | none
    · rw [show (world.view.sem sem).set = _ from clear] at before
      cases before
    · rw [shape] at none
      cases none
  obtain ⟨balance, order, pending⟩ := settles
  rw [shape] at pending
  have asked : log.pending ++ world.blocking call sem =
      next.coController.running :: world.view.nextWaiters waiters call sem := by
    rw [World.blocking, if_neg fun blocks => waits blocks.1, List.append_nil]
    exact pending
  have others := filter_ne_of_notMem nodup.1
  have noneAgain := filter_eq_of_notMem nodup.1
  change List.filter (· ≠ next.coController.running) _ = _ at others
  change List.filter (· = next.coController.running) _ = _ at noneAgain
  constructor
  case balance =>
    rw [SemLog.completed, clear, Bool.toNat_false] at balance
    simp only [SemLog.next, SemLog.completed, asked, List.filter_cons, noneAgain, clear, stillClear,
      on, waits]
    simp
    omega
  case order =>
    simp only [SemLog.next, asked, List.filter_cons, noneAgain, others]
    rw [order, List.append_assoc, List.append_assoc, asked]
    simp
  case pending =>
    simp only [SemLog.next, asked, List.filter_cons, others]
    simp

/-- A call that resumes no waiter adds its caller to them if it blocks. -/
theorem SemLog.Settles.join (settles : log.Settles (world.sem sem).set (waiters sem))
    (orderly : World.Orderly config waiters world)
    (inits : ∀ id, call = .semaphoreInit id → sem ≠ .client id)
    (absent : next.view.running ∉ world.view.joined waiters call sem)
    (effect : Effect config world.view call answer next.view) :
    (log.next sem ⟨world, (call, answer), next⟩).Settles (next.sem sem).set
      (world.view.joined waiters call sem) := by
  obtain ⟨balance, order, pending⟩ := settles
  have asked : log.pending ++ world.blocking call sem = world.view.joined waiters call sem := by
    rw [pending]
    rfl
  have others := filter_ne_of_notMem absent
  have none := filter_eq_of_notMem absent
  change List.filter (· ≠ next.coController.running) _ = _ at others
  change List.filter (· = next.coController.running) _ = _ at none
  constructor
  case balance =>
    rw [SemLog.completed] at balance
    simp only [SemLog.next, SemLog.completed, asked, none, List.append_nil]
    by_cases waits : call.waitsOn = some sem
    · have clear : (next.sem sem).set = false := effect.flag_of_wait waits
      have signals := Call.signalsOn_of_waitsOn waits
      cases set : (world.sem sem).set <;> simp [set, waits, signals, clear] at balance ⊢ <;> omega
    by_cases signals : call.signalsOn = some sem
    · have noWaiter : waiters sem = [] := by
        cases shape : waiters sem with
        | nil => rfl
        | cons first rest =>
          obtain ⟨-, -, running⟩ := orderly.waiting.signalled signals (by rw [shape]; rfl) effect
          rw [joined_of_signal signals, shape, running] at absent
          exact absurd List.mem_cons_self absent
      have raised : (next.sem sem).set = true :=
        (orderly.waiting.flag_of_signal signals effect).mpr (.inr noWaiter)
      cases set : (world.sem sem).set <;> simp [set, waits, signals, raised] at balance ⊢ <;> omega
    · have kept : (next.sem sem).set = (world.sem sem).set := effect.flag_kept waits signals inits
      simpa [waits, signals, kept] using balance
  case order =>
    simp only [SemLog.next, asked, none, others]
    rw [order, List.append_assoc, asked, List.append_nil]
  case pending => simp only [SemLog.next, asked, others]

/-- Every call on an initialised semaphore keeps its log settled. -/
theorem SemLog.Settles.step (settles : log.Settles (world.sem sem).set (waiters sem))
    (orderly : World.Orderly config waiters world) (live : world.live config sem)
    (inits : ∀ id, call = .semaphoreInit id → sem ≠ .client id)
    (disciplined : Disciplined config world call)
    (success : Libmicrokitco.step config world call = .ok (answer, next)) :
    (log.next sem ⟨world, (call, answer), next⟩).Settles (next.sem sem).set
      (world.view.nextWaiters waiters call sem) := by
  have viewLive := (World.live_view sem).mpr live
  have after := orderly.step disciplined success
  obtain ⟨effect, -⟩ := orderly.effect disciplined.wellPosed success
  cases orderly.waiting.resumes after.waiting after.sound.executingRunning viewLive inits effect with
  | first on shape => exact settles.resume orderly viewLive on shape effect
  | none absent kept =>
    rw [kept]
    exact settles.join orderly inits absent effect

/-- A semaphore that is not initialised has been neither waited on nor signalled. -/
theorem Run.semLog_of_dead (run : Run config (Disciplined config) start history final)
    (started : Started config start) (dead : ¬ final.live config sem) :
    semLog history sem = .empty := by
  induction run with
  | nil => rfl
  | @snoc history state next label prior valid ih =>
    obtain ⟨disciplined, success⟩ := valid
    have before : World.Orderly config (waitersAfter history) state :=
      Run.orderly prior started fun _ _ => id
    obtain ⟨effect, -⟩ := before.effect disciplined.wellPosed success
    rw [← World.live_view] at dead
    have deadBefore : ¬ state.view.live config sem := fun live => dead (effect.live live)
    rw [semLog_snoc, ih fun live => deadBefore ((World.live_view sem).mpr live)]
    refine SemLog.next_empty ?_ ?_
    · exact fun on => deadBefore (effect.of_wait on).1
    · exact fun on => deadBefore (effect.of_signal on).1

/-- A client's semaphore is live because a call initialised it. -/
theorem Run.initialised (run : Run config (Disciplined config) start history final)
    (started : Started config start) {id : Nat} (live : final.live config (.client id)) :
    0 < history.countP (fun transition => transition.label.1 = .semaphoreInit id) := by
  induction run with
  | nil =>
    have dead : start.initialised id = false := started.initial.2.initialised id
    rw [show start.initialised id = true from live] at dead
    cases dead
  | @snoc history state next label prior valid ih =>
    obtain ⟨disciplined, success⟩ := valid
    have before : World.Orderly config (waitersAfter history) state :=
      Run.orderly prior started fun _ _ allowed => allowed
    obtain ⟨effect, -⟩ := before.effect disciplined.wellPosed success
    rw [List.countP_append]
    rcases effect.of_live ((World.live_view _).mpr live) with earlier | ⟨other, isInit, same⟩
    · exact Nat.lt_of_lt_of_le (ih ((World.live_view _).mp earlier)) (Nat.le_add_right ..)
    · cases same
      simp [isInit]

/-- The log of a semaphore that is initialised once is settled. -/
theorem Run.settles (run : Run config (Disciplined config) start history final)
    (started : Started config start) (once : InitialisedOnce history sem)
    (live : final.live config sem) :
    (semLog history sem).Settles (final.sem sem).set (waitersAfter history sem) := by
  induction run with
  | nil =>
    have clear : start.sem sem = ⟨false, nullHandle, nullHandle⟩ :=
      started.initial.2.sem_of_live ((World.live_view sem).mpr live)
    rw [clear]
    exact ⟨rfl, rfl, rfl⟩
  | @snoc history state next label prior valid ih =>
    have onceBefore : InitialisedOnce history sem := by
      intro id same
      have bound := once id same
      rw [List.countP_append] at bound
      omega
    have before : World.Orderly config (waitersAfter history) state :=
      Run.orderly prior started fun _ _ => id
    obtain ⟨disciplined, success⟩ := valid
    rw [semLog_snoc, waitersAfter_snoc]
    by_cases liveBefore : state.live config sem
    · refine (ih onceBefore liveBefore).step before liveBefore ?_ disciplined success
      rintro id isInit rfl
      have bound := once id rfl
      have positive := Run.initialised prior started liveBefore
      rw [List.countP_append, List.countP_singleton, isInit] at bound
      simp only [decide_true, if_true] at bound
      omega
    · obtain ⟨effect, -⟩ := before.effect disciplined.wellPosed success
      have dead := Run.semLog_of_dead prior started liveBefore
      rw [← World.live_view] at live liveBefore
      obtain ⟨id, isInit, rfl⟩ := (effect.of_live live).resolve_left liveBefore
      obtain ⟨call, answer⟩ := label
      obtain rfl : call = .semaphoreInit id := isInit
      have clear : (next.sem (.client id)).set = false := effect.flag_of_init
      rw [dead, clear, nextWaiters_of_init, Function.update_self]
      have kept : SemLog.empty.next (.client id) ⟨state, (.semaphoreInit id, answer), next⟩ = .empty :=
        SemLog.next_empty (by simp [Call.waitsOn]) (by simp [Call.signalsOn])
      rw [kept]
      exact ⟨rfl, rfl, rfl⟩

/-- A signal that finds a waiter resumes the first one at once, exactly if the
scheduling queue has room for its caller. -/
theorem World.Orderly.hands_over_iff {first : Int} {rest : List Int}
    (orderly : World.Orderly config waiters world) (disciplined : Disciplined config world call)
    (schedules : call.Schedules config world) (on : call.signalsOn = some sem)
    (live : world.live config sem) (shape : waiters sem = first :: rest) :
    (∃ answer next, Libmicrokitco.step config world call = .ok (answer, next) ∧
        next.coController.running = first ∧ next.WaitList sem rest) ↔
      world.schedulingEntries.length ≠ config.maxCothreads := by
  have isFirst : (waiters sem).head? = some first := by rw [shape]; rfl
  constructor
  · rintro ⟨answer, next, success, -⟩
    obtain ⟨effect, -⟩ := orderly.effect disciplined.wellPosed success
    exact (orderly.waiting.signalled on isFirst effect).1
  · intro room
    cases outcome : Libmicrokitco.step config world call with
    | ok answered =>
      obtain ⟨answer, next⟩ := answered
      obtain ⟨effect, -⟩ := orderly.effect disciplined.wellPosed outcome
      have after := orderly.step disciplined outcome
      have viewLive := effect.live ((World.live_view sem).mpr live)
      have list := after.waitList ((World.live_view sem).mp viewLive)
      rw [nextWaiters_of_signal on, Function.update_self, shape] at list
      exact ⟨answer, next, rfl, (orderly.waiting.signalled on isFirst effect).2.2, list⟩
    | error fault =>
      exfalso
      cases orderly.refusal disciplined.wellPosed outcome with
      | signalFull _ _ _ full => exact room full
      | recvFromCothread cothread => exact cothread schedules.2
      | recvInvalid invalid => exact absurd schedules.1 (Nat.not_lt_of_ge invalid)
      | destroyFromRoot destroys =>
        rw [Call.signalsOn_of_destroys destroys] at on
        cases on
      | _ => cases on

/-- A waiter is resumed by a signal on its semaphore, when it is the first. -/
theorem World.Orderly.resumed_by_signal (orderly : World.Orderly config waiters world)
    (disciplined : Disciplined config world call)
    (success : Libmicrokitco.step config world call = .ok (answer, next))
    (live : world.live config sem) (member : h ∈ waiters sem)
    (resumed : next.coController.running = h) :
    call.signalsOn = some sem ∧ (waiters sem).head? = some h := by
  have viewLive := (World.live_view sem).mpr live
  obtain ⟨effect, -⟩ := orderly.effect disciplined.wellPosed success
  obtain ⟨other, on, otherLive, isHead, also⟩ := orderly.waiting.resumed orderly.sound
    (orderly.supplied disciplined) effect (orderly.waiting.blocked sem viewLive h member) resumed
  have same : other = sem := by
    by_contra different
    exact orderly.waiting.disjoint other sem otherLive viewLive different h also member
  rw [same] at on isHead
  refine ⟨on, ?_⟩
  have chain := orderly.waiting.chain sem viewLive
  cases shape : waiters sem with
  | nil =>
    rw [shape] at member
    cases member
  | cons first rest =>
    rw [shape] at chain
    rw [List.head?_cons, ← isHead, chain.1]

/-- What the semaphores promise about waiters and signals. -/
structure WakeUpsKept (config : Config) (history : List (Transition World (Call × Answer)))
    (final : World) (sem : SemRef) : Prop where
  /-- The balance, the order of the wake-ups, and who is still pending. -/
  balance : (semLog history sem).completed + (final.sem sem).set.toNat +
    (semLog history sem).ignored = (semLog history sem).signals
  order : (semLog history sem).waited = (semLog history sem).resumed ++ (semLog history sem).pending
  waiting : final.WaitList sem (semLog history sem).pending
  flag : (final.sem sem).set = true → (semLog history sem).pending = []
  handsOver : ∀ call first rest, Disciplined config final call → call.Schedules config final →
    call.signalsOn = some sem → (semLog history sem).pending = first :: rest →
      ((∃ answer next, step config final call = .ok (answer, next) ∧
          next.coController.running = first ∧ next.WaitList sem rest) ↔
        final.schedulingEntries.length ≠ config.maxCothreads)
  bySignal : ∀ call answer next h, Disciplined config final call →
    step config final call = .ok (answer, next) → h ∈ (semLog history sem).pending →
      next.coController.running = h →
        call.signalsOn = some sem ∧ (semLog history sem).pending.head? = some h
  untouched : ∀ call answer next, Disciplined config final call →
    step config final call = .ok (answer, next) → call.waitsOn ≠ some sem →
      call.signalsOn ≠ some sem → (∀ id, call = .semaphoreInit id → sem ≠ .client id) →
        (next.sem sem).set = (final.sem sem).set ∧
          next.WaitList sem (semLog history sem).pending

/-- Semaphores lose, duplicate and reorder no wake-up, apart from a signal
whose caller finds the scheduling queue full. -/
theorem wake_ups_kept (started : Started config start)
    (run : Run config (Disciplined config) start history final)
    (once : InitialisedOnce history sem) (live : final.live config sem) :
    WakeUpsKept config history final sem := by
  have orderly : World.Orderly config (waitersAfter history) final :=
    Run.orderly run started fun _ _ => id
  have viewLive := (World.live_view sem).mpr live
  obtain ⟨balance, order, pending⟩ := Run.settles run started once live
  constructor
  case balance => exact balance
  case order => exact order
  case waiting =>
    rw [pending]
    exact orderly.waitList live
  case flag =>
    rw [pending]
    exact orderly.waiting.flag sem viewLive
  case handsOver =>
    intro call first rest disciplined schedules on shape
    rw [pending] at shape
    exact orderly.hands_over_iff disciplined schedules on live shape
  case bySignal =>
    intro call answer next h disciplined success member resumed
    rw [pending] at member ⊢
    exact orderly.resumed_by_signal disciplined success live member resumed
  case untouched =>
    intro call answer next disciplined success waits signals inits
    obtain ⟨effect, -⟩ := orderly.effect disciplined.wellPosed success
    have after := orderly.step disciplined success
    have list := after.waitList ((World.live_view sem).mp (effect.live viewLive))
    rw [nextWaiters_eq_joined signals inits, joined, blocking, if_neg fun blocks => waits blocks.1,
      List.append_nil] at list
    rw [pending]
    exact ⟨effect.flag_kept waits signals inits, list⟩

/-- Two cothreads wait, and the root's signal resumes the first. -/
theorem wake_ups_kept_sample : ∃ (history : List (Transition World (Call × Answer))) (final : World),
    history.map (fun transition => transition.label.1) =
      [.semaphoreInit 0, .someSpawn, .someSpawn, .yield, .semaphoreWait (.client 0),
        .semaphoreWait (.client 0), .semaphoreSignal (.client 0)] ∧
    final.glance = (1, [0], []) ∧ WakeUpsKept threeHandles history final (.client 0) := by
  have replayed : (replayFromInit threeHandles (Disciplined threeHandles) 0x1000#64 sampleStacks
      [.semaphoreInit 0, .someSpawn, .someSpawn, .yield, .semaphoreWait (.client 0),
        .semaphoreWait (.client 0), .semaphoreSignal (.client 0)]).map
          (fun world => (world.glance, world.initialised 0)) = some ((1, [0], []), true) := by
    decide
  obtain ⟨start, history, final, started, run, calls, seen⟩ := exists_run_of_replay replayed
  rw [Prod.mk.injEq] at seen
  have once : InitialisedOnce history (.client 0) := by
    rintro id same
    cases same
    have counted : (history.map fun transition => transition.label.1).countP
        (fun call => call = .semaphoreInit 0) = 1 := by
      rw [calls]
      decide
    rw [List.countP_map] at counted
    exact counted.le
  exact ⟨history, final, calls, seen.1, wake_ups_kept started run once seen.2⟩

/-- Cothread 1 waits. Cothread 2 fills the scheduling queue by twice destroying
the ready cothread 3 and spawning its handle again; its signal then panics. -/
theorem wake_up_lost : ∃ start history final, Started fourHandles start ∧
    Run fourHandles (Disciplined fourHandles) start history final ∧
      final.WaitList (.client 0) [1] ∧
        Disciplined fourHandles final (.semaphoreSignal (.client 0)) ∧
          step fourHandles final (.semaphoreSignal (.client 0)) =
            .error (.panic .coErrSemSigOnceCannotScheduleCaller) := by
  have replayed : (replayFromInit fourHandles (Disciplined fourHandles) 0x1000#64 sampleStacks
      [.semaphoreInit 0, .someSpawn, .someSpawn, .someSpawn, .yield, .semaphoreWait (.client 0),
        .destroy 3, .someSpawn, .destroy 3, .someSpawn]).map
          (fun world => (decide ((world.sem (.client 0)).head = 1 ∧
              (world.coController.tcbs 1).nextBlockedOnSameEvent = nullHandle),
            decide (Disciplined fourHandles world (.semaphoreSignal (.client 0))),
            faultOf fourHandles (.semaphoreSignal (.client 0)) world)) =
      some (true, true, some (.panic .coErrSemSigOnceCannotScheduleCaller)) := by
    decide
  obtain ⟨start, history, final, started, run, -, seen⟩ := exists_run_of_replay replayed
  simp only [Prod.mk.injEq, decide_eq_true_eq] at seen
  obtain ⟨⟨head, last⟩, disciplined, fault⟩ := seen
  refine ⟨start, history, final, started, run, ?_, disciplined, faultOf_eq_some.mp fault⟩
  exact ⟨head, by decide, last⟩

end Libmicrokitco
