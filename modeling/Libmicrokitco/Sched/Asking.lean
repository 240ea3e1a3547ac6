import Libmicrokitco.Sched.Runs
import Libmicrokitco.Sched.TurnOrder

/-!
# The calls of `internal_go_next`

`World.asksNext` is the world in which a call enters `internal_go_next`, with
the caller already queued, blocked or released. What the scheduler finds there
is read off the lists through the refinement.
-/

namespace Libmicrokitco

namespace World

/-- `microkit_cothread_yield` up to its call of `internal_go_next`. -/
def yieldAsks (world : World) : Option (SwitchPoint × World) :=
  match world.coController.pushSchedulingQueue world.coController.running with
  | (.noerr, controller) =>
    let world := { world with coController := controller }
    some (.yield, world.setState world.coController.running .ready)
  | (_, _) => none

/-- `microkit_cothread_semaphore_wait` up to its call of `internal_go_next`. -/
def waitAsks (sem : SemRef) (world : World) : Option (SwitchPoint × World) :=
  if (world.sem sem).set then none
  else
    let running := world.coController.running
    let world := world.setState running .blocked
    let world :=
      if (world.sem sem).head = nullHandle then
        world.setSem sem { world.sem sem with head := running, tail := running }
      else
        let world := world.setNextBlocked (world.sem sem).tail running
        world.setSem sem { world.sem sem with tail := running }
    some (.semaphoreWait, world)

/-- `microkit_cothread_destroy` up to its call of `internal_go_next`. -/
def destroyAsks (config : Config) (point : SwitchPoint) (cothread : Int) (world : World) :
    Option (SwitchPoint × World) :=
  if cothread ≥ config.maxCothreads ∨ cothread < 0 then none
  else if (world.coController.tcbs cothread).state = .notActive then none
  else if world.coController.running = 0 then none
  else
    match world.coController.pushFreeHandleQueue cothread with
    | (.noerr, controller) =>
      let world := { world with coController := controller }
      let world := world.setState cothread .notActive
      if cothread = world.coController.running then some (point, world) else none
    | (_, _) => none

/-- The switch point and the world with which a call enters `internal_go_next`;
`none` for a call that does not. -/
def asksNext (config : Config) (world : World) : Call → Option (SwitchPoint × World)
  | .yield => world.yieldAsks
  | .semaphoreWait sem => world.waitAsks sem
  | .waitOnChannel wakeOn =>
    if wakeOn ≥ config.maxChannels then none else world.waitAsks (.channel wakeOn)
  | .destroy cothread => world.destroyAsks config .selfDestroy cothread
  | .entryReturn => world.destroyAsks config .entryReturn world.coController.running
  | _ => none

end World

variable {config : Config} {world stopped : World} {call : Call} {point : SwitchPoint}
  {sem : SemRef} {cothread : Int}

private theorem yield_of_asks (asks : world.yieldAsks = some (point, stopped)) :
    microkitCothreadYield world = internalGoNext point stopped := by
  unfold World.yieldAsks at asks
  unfold microkitCothreadYield
  rcases pushed : world.coController.pushSchedulingQueue world.coController.running with
    ⟨err, controller⟩
  rw [pushed] at asks
  cases err with
  | noerr =>
    cases asks
    rfl
  | invalidArgs | full | empty => cases asks

private theorem wait_of_asks (asks : world.waitAsks sem = some (point, stopped)) :
    microkitCothreadSemaphoreWait sem world = internalGoNext point stopped := by
  unfold World.waitAsks at asks
  unfold microkitCothreadSemaphoreWait
  split at asks
  case isTrue => cases asks
  case isFalse clear =>
    cases asks
    rw [if_neg clear]

private theorem destroy_of_asks {origin : SwitchPoint}
    (asks : world.destroyAsks config origin cothread = some (point, stopped)) :
    microkitCothreadDestroy config origin cothread world = internalGoNext point stopped := by
  unfold World.destroyAsks at asks
  unfold microkitCothreadDestroy
  split at asks
  · cases asks
  split at asks
  · cases asks
  split at asks
  · cases asks
  rename_i inRange active fromCothread
  rw [if_neg inRange, if_neg active, if_neg fromCothread]
  rcases pushed : world.coController.pushFreeHandleQueue cothread with ⟨err, controller⟩
  rw [pushed] at asks
  cases err with
  | noerr =>
    obtain ⟨itself, same⟩ := Option.ite_none_right_eq_some.mp asks
    cases same
    exact if_pos itself
  | invalidArgs | full | empty => cases asks

/-- A call that enters `internal_go_next` does the rest there. -/
theorem step_of_asksNext (asks : world.asksNext config call = some (point, stopped)) :
    step config world call = returning (internalGoNext point stopped) := by
  cases call with
  | yield => exact congrArg returning (yield_of_asks asks)
  | semaphoreWait sem => exact congrArg returning (wait_of_asks asks)
  | waitOnChannel wakeOn =>
    change (if wakeOn ≥ config.maxChannels then none else _) = _ at asks
    obtain ⟨valid, asks⟩ := Option.ite_none_left_eq_some.mp asks
    refine congrArg returning ?_
    rw [microkitCothreadWaitOnChannel, if_neg valid]
    exact wait_of_asks asks
  | destroy cothread => exact congrArg returning (destroy_of_asks asks)
  | entryReturn => exact congrArg returning (destroy_of_asks asks)
  | freeHandleAvailable | spawn | setArg | queryState | myHandle | myArg | semaphoreInit
  | semaphoreSignal | semaphoreIsQueueEmpty | semaphoreIsSet | recvNtfn => cases asks

private theorem asks_of_yield {next : World} (success : microkitCothreadYield world = .ok next) :
    world.yieldAsks.isSome := by
  unfold microkitCothreadYield at success
  unfold World.yieldAsks
  rcases pushed : world.coController.pushSchedulingQueue world.coController.running with
    ⟨err, controller⟩
  rw [pushed] at success
  cases err with
  | noerr => rfl
  | invalidArgs | full | empty => cases success

private theorem asks_of_wait (clear : (world.sem sem).set = false) :
    (world.waitAsks sem).isSome := by
  rw [World.waitAsks, clear, if_neg Bool.false_ne_true]
  rfl

private theorem asks_of_destroy {origin : SwitchPoint} {next : World}
    (itself : cothread = world.coController.running)
    (success : microkitCothreadDestroy config origin cothread world = .ok next) :
    (world.destroyAsks config origin cothread).isSome := by
  unfold microkitCothreadDestroy at success
  unfold World.destroyAsks
  split at success
  · cases success
  split at success
  · cases success
  split at success
  · cases success
  rename_i inRange active fromCothread
  rw [if_neg inRange, if_neg active, if_neg fromCothread]
  rcases pushed : world.coController.pushFreeHandleQueue cothread with ⟨err, controller⟩
  rw [pushed] at success
  cases err with
  | noerr =>
    have running : controller.running = world.coController.running := by
      have same := congrArg (fun pushed => pushed.2.running) pushed
      exact same.symm
    change (if cothread = controller.running then some _ else none).isSome
    rw [if_pos (itself.trans running.symm)]
    rfl
  | invalidArgs | full | empty => cases success

private theorem returns {answer : Answer} {next : World} {result : Except Fault World}
    (success : returning result = .ok (answer, next)) : result = .ok next := by
  cases result with
  | error fault => cases success
  | ok world =>
    cases success
    rfl

/-- A call that dispatches does so through `internal_go_next`. -/
theorem asksNext_of_dispatches {answer : Answer} {next : World}
    (success : step config world call = .ok (answer, next))
    (dispatches : world.view.Dispatches call) : (world.asksNext config call).isSome := by
  rcases dispatches with rfl | ⟨sem, on, clear⟩ | self
  · exact asks_of_yield (returns success)
  · cases call with
    | semaphoreWait other =>
      cases on
      exact asks_of_wait clear
    | waitOnChannel wakeOn =>
      cases on
      have waited := returns success
      rw [microkitCothreadWaitOnChannel] at waited
      split at waited
      · cases waited
      · rename_i valid
        change (if wakeOn ≥ config.maxChannels then none else _).isSome
        rw [if_neg valid]
        exact asks_of_wait clear
    | _ => cases on
  · cases call with
    | destroy cothread => exact asks_of_destroy (Option.some.inj self) (returns success)
    | entryReturn => exact asks_of_destroy rfl (returns success)
    | _ => cases self

namespace Sched

/-- The caller queued, blocked or released, when the scheduler is asked. -/
inductive Stopped (sched : Sched) (call : Call) : Sched → Prop where
  | yields (isYield : call = .yield) : Stopped sched call sched.requeued
  | waits {sem : SemRef} (on : call.waitsOn = some sem) (clear : (sched.sem sem).set = false) :
      Stopped sched call (sched.blockedOn sem)
  | ends (self : call.destroys sched.running = some sched.running)
      (fromCothread : sched.running ≠ 0) : Stopped sched call (sched.released sched.running)

theorem Stopped.sound {sched after : Sched} (halted : sched.Stopped call after)
    (sound : Sound config (some sched.running) sched)
    (live : ∀ sem, call.waitsOn = some sem → sched.live config sem) : Sound config none after := by
  cases halted with
  | yields => exact sound.requeued
  | waits on => exact sound.blockedOn (live _ on)
  | ends _ fromCothread => exact sound.releasedSelf fromCothread

/-- Only the caller has changed its state. -/
theorem Stopped.state_of_ne {sched after : Sched} {h : Int} (halted : sched.Stopped call after)
    (other : h ≠ sched.running) : after.state h = sched.state h := by
  cases halted with
  | yields | waits | ends => exact Function.update_of_ne other ..

end Sched

namespace Represents

variable {sched : Sched}

private theorem yieldAsks (represents : Represents config world sched)
    (asks : world.yieldAsks = some (point, stopped)) :
    Represents config stopped sched.requeued := by
  rcases represents.pushSchedulingQueue world.coController.running with
    ⟨-, controller, pushed⟩ | ⟨-, controller, pushed, after⟩
  · rw [World.yieldAsks, pushed] at asks
    cases asks
  · rw [World.yieldAsks, pushed] at asks
    cases asks
    have caller : controller.running = sched.running := after.running
    have queued := after.setState sched.running .ready
    rw [represents.running] at queued
    change Represents config (World.setState controller.running .ready _) _
    rw [caller]
    exact queued

private theorem waitAsks (represents : Represents config world sched)
    (asks : world.waitAsks sem = some (point, stopped)) :
    (sched.sem sem).set = false ∧ Represents config stopped (sched.blockedOn sem) := by
  obtain ⟨clear, asks⟩ := Option.ite_none_left_eq_some.mp asks
  cases asks
  rw [represents.sem] at clear
  refine ⟨by simpa using clear, ?_⟩
  simp only [represents.running]
  have blocked := represents.setState sched.running .blocked
  have linked := blocked.setNextBlocked (sched.sem sem).tail sched.running
  by_cases isEmpty : (sched.sem sem).head = nullHandle
  · simp only [blocked.sem sem, isEmpty, if_true]
    simpa [Sched.blockedOn, Sched.setSem, isEmpty] using blocked.setSem sem
      { sched.sem sem with head := sched.running, tail := sched.running }
  · simp only [blocked.sem sem, linked.sem sem, isEmpty, if_false]
    simpa [Sched.blockedOn, Sched.setSem, isEmpty] using linked.setSem sem
      { sched.sem sem with tail := sched.running }

private theorem destroyAsks {origin : SwitchPoint} (represents : Represents config world sched)
    (asks : world.destroyAsks config origin cothread = some (point, stopped)) :
    cothread = sched.running ∧ sched.running ≠ 0 ∧
      Represents config stopped (sched.released sched.running) := by
  obtain ⟨-, asks⟩ := Option.ite_none_left_eq_some.mp asks
  obtain ⟨-, asks⟩ := Option.ite_none_left_eq_some.mp asks
  obtain ⟨fromCothread, asks⟩ := Option.ite_none_left_eq_some.mp asks
  rw [represents.running] at fromCothread
  rcases represents.pushFreeHandleQueue cothread with
    ⟨-, controller, pushed⟩ | ⟨-, controller, pushed, after⟩
  · rw [pushed] at asks
    cases asks
  · rw [pushed] at asks
    obtain ⟨itself, same⟩ := Option.ite_none_right_eq_some.mp asks
    cases same
    have caller : cothread = sched.running := itself.trans after.running
    refine ⟨caller, fromCothread, ?_⟩
    rw [caller] at after
    rw [caller]
    exact after.setState sched.running .notActive

/-- The lists when the scheduler is asked. -/
theorem asksNext (represents : Represents config world sched)
    (asks : world.asksNext config call = some (point, stopped)) :
    ∃ after, sched.Stopped call after ∧ Represents config stopped after := by
  cases call with
  | yield => exact ⟨_, .yields rfl, represents.yieldAsks asks⟩
  | semaphoreWait sem =>
    obtain ⟨clear, after⟩ := represents.waitAsks asks
    exact ⟨_, .waits rfl clear, after⟩
  | waitOnChannel wakeOn =>
    obtain ⟨-, asks⟩ := Option.ite_none_left_eq_some.mp asks
    obtain ⟨clear, after⟩ := represents.waitAsks asks
    exact ⟨_, .waits rfl clear, after⟩
  | destroy cothread =>
    obtain ⟨caller, fromCothread, after⟩ := represents.destroyAsks asks
    exact ⟨_, .ends (congrArg some caller) fromCothread, after⟩
  | entryReturn =>
    obtain ⟨caller, fromCothread, after⟩ := represents.destroyAsks asks
    exact ⟨_, .ends rfl fromCothread, after⟩
  | freeHandleAvailable | spawn | setArg | queryState | myHandle | myArg | semaphoreInit
  | semaphoreSignal | semaphoreIsQueueEmpty | semaphoreIsSet | recvNtfn => cases asks

end Represents

/-- A semaphore on which the caller blocks is initialised. -/
private theorem live_of_asks (wellPosed : WellPosed config world call)
    (asks : world.asksNext config call = some (point, stopped)) (on : call.waitsOn = some sem) :
    world.view.live config sem := by
  cases call with
  | semaphoreWait other =>
    cases on
    exact (World.live_view sem).mpr (wellPosed.semaphoreLive sem rfl)
  | waitOnChannel wakeOn =>
    cases on
    exact Nat.lt_of_not_le (Option.ite_none_left_eq_some.mp asks).1
  | _ => cases on

/-- When the scheduler is asked no thread executes and the invariant holds. -/
theorem World.Sound.whenAsked (sound : World.Sound config world)
    (wellPosed : WellPosed config world call)
    (asks : world.asksNext config call = some (point, stopped)) :
    ∃ after, world.view.Stopped call after ∧ Represents config stopped after ∧
      Sched.Sound config none after := by
  have represents : Represents config world world.view := ⟨rfl, sound.rings⟩
  obtain ⟨after, halted, represented⟩ := represents.asksNext asks
  exact ⟨after, halted, represented,
    halted.sound sound.sound fun _ => live_of_asks wellPosed asks⟩

/-- The call returns in the thread which the scheduler chose. -/
theorem Represents.gone_of_asks {after : Sched} {answer : Answer} {next : World}
    (represents : Represents config stopped after)
    (asks : world.asksNext config call = some (point, stopped))
    (success : Libmicrokitco.step config world call = .ok (answer, next)) :
    next.view = after.gone point := by
  rw [step_of_asksNext asks] at success
  have agreement := represents.goNext point
  rw [returns success] at agreement
  obtain ⟨sched, listed, related⟩ := agreement.ok_left
  rw [Sched.goNext_eq, Sched.resume_eq_ok] at listed
  exact related.view.trans listed.1

end Libmicrokitco
