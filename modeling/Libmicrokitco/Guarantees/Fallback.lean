import Libmicrokitco.Guarantees.Replay
import Libmicrokitco.Sched.Asking

/-!
# The scheduler's fallback to the root

When `internal_schedule` finds nothing to dispatch, `internal_go_next` gives
control to the root, whatever the root was doing. It was blocked then: a root
that never waits is always ready and queued while a cothread runs, and comes
back through the queue.
-/

namespace Libmicrokitco

open Sched

/-- `internal_schedule` finds no dispatchable entry. -/
def World.FallsBack (world : World) : Prop :=
  ∃ controller, internalSchedule world.coController = .ok (schedulerNullChoice, controller)

/-- The scheduler takes the root from the scheduling queue. -/
def World.TakesRoot (world : World) : Prop :=
  ∃ controller, internalSchedule world.coController = .ok (rootThread, controller)

/-- What is known of the root after a run whose root never waits. -/
structure RootReturns (config : Config) (history : List (Transition World (Call × Answer)))
    (final : World) : Prop where
  noFallback : ∀ call point stopped, Disciplined config final call →
    final.asksNext config call = some (point, stopped) → ¬ stopped.FallsBack
  ready : final.coController.running ≠ rootThread →
    (final.coController.tcbs rootThread).state = .ready
  queued : final.coController.running ≠ rootThread → rootThread ∈ final.schedulingEntries
  /-- The root is taken from the queue whenever it gets control back. -/
  byQueue : ∀ transition ∈ history, transition.before.coController.running ≠ rootThread →
    transition.after.coController.running = rootThread → ∃ point stopped,
      transition.before.asksNext config transition.label.1 = some (point, stopped) ∧
        stopped.TakesRoot

variable {config : Config} {start world stopped final : World} {call : Call} {point : SwitchPoint}
  {history : List (Transition World (Call × Answer))} {waiters : SemRef → List Int}

namespace Sched

variable {sched after : Sched}

/-- A queue without a choice holds neither the root nor a ready thread. -/
theorem stale_of_null (state : Int → CoState) {queue : List Int}
    (nonneg : ∀ entry ∈ queue, 0 ≤ entry) (null : (pick state queue).1 = schedulerNullChoice) :
    ∀ entry ∈ queue, entry ≠ 0 ∧ state entry ≠ .ready := by
  induction queue with
  | nil => simp
  | cons first rest ih =>
    have bounded := nonneg first List.mem_cons_self
    by_cases dispatchable : first = 0 ∨ state first = .ready
    · rw [pick, if_pos dispatchable] at null
      have negative : first = -1 := null
      omega
    · rw [pick, if_neg dispatchable] at null
      have others := ih (fun later member => nonneg later (List.mem_cons_of_mem _ member)) null
      exact List.forall_mem_cons.mpr ⟨not_or.mp dispatchable, others⟩

/-- Every ready thread is queued, so a root that is not chosen is blocked. -/
theorem Sound.root_blocked (sound : Sound config none sched)
    (null : (pick sched.state sched.queue).1 = schedulerNullChoice) : sched.state 0 = .blocked := by
  have stale := stale_of_null sched.state (fun entry member => (sound.queue.inRange entry member).1)
    null
  have notReady : sched.state 0 ≠ .ready :=
    fun ready => (stale 0 (sound.queue.readyQueued 0 ready)).1 rfl
  have notRunning : sched.state 0 ≠ .running := by
    rw [ne_eq, sound.threads.executing]
    simp
  have active := sound.threads.rootActive
  cases known : sched.state 0 with
  | blocked => rfl
  | ready => exact absurd known notReady
  | running => exact absurd known notRunning
  | notActive => exact absurd known active

/-- Only a caller can be blocked when the scheduler is asked and not before. -/
theorem Stopped.blocked (halted : sched.Stopped call after) {h : Int}
    (blocked : after.state h = .blocked) :
    sched.state h = .blocked ∨ h = sched.running ∧ call.waitsOn ≠ none := by
  by_cases caller : h = sched.running
  · subst caller
    cases halted with
    | waits on => exact .inr ⟨rfl, by simp [on]⟩
    | yields => simp [Sched.requeued] at blocked
    | ends => simp [Sched.released] at blocked
  · exact .inl ((halted.state_of_ne caller).symm.trans blocked)

end Sched

/-- The scheduler falls back to a blocked root. -/
theorem World.Sound.root_blocked (sound : World.Sound config world)
    (wellPosed : WellPosed config world call)
    (asks : world.asksNext config call = some (point, stopped)) (fallsBack : stopped.FallsBack) :
    (stopped.coController.tcbs rootThread).state = .blocked := by
  obtain ⟨after, -, represents, afterSound⟩ := sound.whenAsked wellPosed asks
  obtain ⟨controller, chosen⟩ := fallsBack
  obtain ⟨picked, success, -⟩ := represents.internalSchedule
  have null : (pick after.state after.queue).1 = schedulerNullChoice :=
    congrArg Prod.fst (Except.ok.inj (success.symm.trans chosen))
  rw [represents.state]
  exact afterSound.root_blocked null

theorem World.Orderly.no_fallback (orderly : World.Orderly config waiters world)
    (disciplined : Disciplined config world call)
    (asks : world.asksNext config call = some (point, stopped)) : ¬ stopped.FallsBack := by
  intro fallsBack
  have blocked := orderly.toSound.root_blocked disciplined.wellPosed asks fallsBack
  obtain ⟨after, halted, represents, -⟩ := orderly.toSound.whenAsked disciplined.wellPosed asks
  rw [represents.state] at blocked
  rcases halted.blocked blocked with before | ⟨isRoot, waits⟩
  · exact orderly.rootAwake before
  · exact disciplined.rootNeverWaits waits isRoot.symm

/-- A root that is ready gets control from the queue. -/
theorem World.Orderly.takes_root {answer : Answer} {next : World}
    (orderly : World.Orderly config waiters world) (disciplined : Disciplined config world call)
    (success : Libmicrokitco.step config world call = .ok (answer, next))
    (cothread : world.coController.running ≠ rootThread)
    (control : next.coController.running = rootThread) :
    ∃ point stopped, world.asksNext config call = some (point, stopped) ∧ stopped.TakesRoot := by
  obtain ⟨effect, -⟩ := orderly.effect disciplined.wellPosed success
  have ready : world.view.state next.view.running = .ready := by
    rw [show next.view.running = 0 from control]
    exact orderly.root_ready cothread
  have dispatches := orderly.waiting.dispatches_of_ready orderly.sound effect ready
  obtain ⟨⟨point, stopped⟩, asks⟩ :=
    Option.isSome_iff_exists.mp (asksNext_of_dispatches success dispatches)
  refine ⟨point, stopped, asks, ?_⟩
  obtain ⟨after, -, represents, -⟩ := orderly.toSound.whenAsked disciplined.wellPosed asks
  obtain ⟨controller, chosen, -⟩ := represents.internalSchedule
  have chosenRoot : orRoot (pick after.state after.queue).1 = 0 := by
    have gone := represents.gone_of_asks asks success
    exact (congrArg Sched.running gone).symm.trans control
  unfold orRoot at chosenRoot
  split at chosenRoot
  case isTrue null =>
    rw [null] at chosen
    exact absurd ⟨controller, chosen⟩ (orderly.no_fallback disciplined asks)
  case isFalse =>
    rw [chosenRoot] at chosen
    exact ⟨controller, chosen⟩

theorem Run.rootReturns (run : Run config (Disciplined config) start history final)
    (started : Started config start) : RootReturns config history final := by
  have orderly : World.Orderly config (waitersAfter history) final :=
    Run.orderly run started fun _ _ => id
  constructor
  case noFallback => exact fun _ _ _ disciplined asks => orderly.no_fallback disciplined asks
  case ready => exact orderly.root_ready
  case queued => exact fun cothread => orderly.sound.queue.readyQueued 0 (orderly.root_ready cothread)
  case byQueue =>
    intro transition member cothread control
    obtain ⟨first, second, rfl⟩ := List.append_of_mem member
    obtain ⟨prior, ⟨disciplined, success⟩, -⟩ := run.split_at
    have before : World.Orderly config (waitersAfter first) transition.before :=
      Run.orderly prior started fun _ _ => id
    exact before.takes_root disciplined success cothread control

/-- The fallback finds the root blocked, whoever waits. So it is never taken
when the root never waits, and the root comes back through the queue. -/
theorem fallback_finds_root_blocked (started : Started config start) :
    (∀ history final, Run config (Sparing config) start history final →
      ∀ call point stopped, Sparing config final call →
        final.asksNext config call = some (point, stopped) → stopped.FallsBack →
          (stopped.coController.tcbs rootThread).state = .blocked) ∧
      ∀ history final, Run config (Disciplined config) start history final →
        RootReturns config history final := by
  constructor
  · intro history final run call point stopped sparing asks fallsBack
    have sound : World.Sound config final := Run.sound run started fun _ _ => id
    exact sound.root_blocked sparing.wellPosed asks fallsBack
  · intro history final run
    exact Run.rootReturns run started

/-- A root that waits although nothing was spawned is given control again; one
that yields to a cothread comes back when the cothread yields. -/
theorem fallback_finds_root_blocked_sample : ∃ start, Started threeHandles start ∧
    (∃ point stopped, start.asksNext threeHandles (.waitOnChannel 0) = some (point, stopped) ∧
      stopped.FallsBack ∧ (stopped.coController.tcbs rootThread).state = .blocked) ∧
    ∃ (history : List (Transition World (Call × Answer))) (final : World),
      history.map (fun transition => transition.label.1) = [.someSpawn, .yield, .yield] ∧
      final.coController.running = 0 ∧ RootReturns threeHandles history final := by
  have replayed : (replayFromInit threeHandles (Sparing threeHandles) 0x1000#64 sampleStacks
      []).map (fun world =>
        (decide (Sparing threeHandles world (.waitOnChannel 0)),
          (world.asksNext threeHandles (.waitOnChannel 0)).map
            (fun asked => (internalSchedule asked.2.coController).toOption.map Prod.fst),
          (replay threeHandles (Disciplined threeHandles) world [.someSpawn, .yield, .yield]).map
            fun final => final.coController.running)) =
      some (true, some (some (-1)), some 0) := by
    decide
  obtain ⟨start, history, final, started, run, calls, seen⟩ := exists_run_of_replay replayed
  simp only [Prod.mk.injEq, decide_eq_true_eq] at seen
  obtain ⟨sparing, chosen, continues⟩ := seen
  obtain ⟨blocked, returns⟩ := fallback_finds_root_blocked started
  obtain ⟨⟨point, stopped⟩, asks, answered⟩ := Option.map_eq_some_iff.mp chosen
  obtain ⟨last, continued, ended⟩ := Option.map_eq_some_iff.mp continues
  obtain rfl := List.map_eq_nil_iff.mp calls
  obtain rfl := run.nil_inv
  obtain ⟨later, laterRun, labels⟩ := replay_run continued
  have fallsBack : stopped.FallsBack := by
    cases chose : internalSchedule stopped.coController with
    | error fault =>
      simp only [chose, Except.toOption, Option.map_none] at answered
      cases answered
    | ok result =>
      simp only [chose, Except.toOption, Option.map_some, Option.some.injEq] at answered
      exact ⟨result.2, chose.trans (congrArg Except.ok (Prod.ext answered rfl))⟩
  exact ⟨final, started, ⟨point, stopped, asks, fallsBack,
    blocked [] final .nil _ point stopped sparing asks fallsBack⟩,
    later, last, labels, ended, returns later last laterRun⟩

end Libmicrokitco
