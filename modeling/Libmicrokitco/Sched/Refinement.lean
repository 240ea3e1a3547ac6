import Libmicrokitco.Sched.State
import Libmicrokitco.Semantics.Agreement

/-!
# The ring implementation refines the plain lists

`Represents` relates a world whose two rings are well formed to its list
reading. Every call of the implementation agrees, in its result, its answer and
its faults, with the same call on the lists.
-/

namespace Libmicrokitco

/-- Both rings are well-formed rings of `LIBMICROKITCO_MAX_COTHREADS` cells. -/
structure CoControl.RingsWellFormed (config : Config) (controller : CoControl) : Prop where
  free : controller.freeHandleQueue.WellFormed
  freeCapacity : controller.freeHandleQueue.capacity.toNat = config.maxCothreads
  scheduling : controller.schedulingQueue.WellFormed
  schedulingCapacity : controller.schedulingQueue.capacity.toNat = config.maxCothreads

/-- `sched` is the list reading of `world`. -/
structure Represents (config : Config) (world : World) (sched : Sched) : Prop where
  view : world.view = sched
  rings : world.coController.RingsWellFormed config

variable {config : Config} {world : World} {sched : Sched}

namespace Represents

theorem running (represents : Represents config world sched) :
    world.coController.running = sched.running := by
  rw [← represents.view]
  rfl

theorem state (represents : Represents config world sched) (h : Int) :
    (world.coController.tcbs h).state = sched.state h := by
  rw [← represents.view]
  rfl

theorem link (represents : Represents config world sched) (h : Int) :
    (world.coController.tcbs h).nextBlockedOnSameEvent = sched.link h := by
  rw [← represents.view]
  rfl

theorem coHandle (represents : Represents config world sched) (h : Int) :
    (world.coController.tcbs h).coHandle = sched.coHandle h := by
  rw [← represents.view]
  rfl

theorem sem (represents : Represents config world sched) (sem : SemRef) :
    world.sem sem = sched.sem sem := by
  rw [← represents.view]
  rfl

theorem queue (represents : Represents config world sched) :
    world.schedulingEntries = sched.queue := by
  rw [← represents.view]
  rfl

theorem free (represents : Represents config world sched) :
    world.freeEntries = sched.free := by
  rw [← represents.view]
  rfl

/-- Reading one field of an updated TCB table. -/
private theorem field_update {β : Type} (tcbs : Int → CoTcb) (h : Int)
    (tcb : CoTcb) (field : CoTcb → β) :
    (fun x => field (Function.update tcbs h tcb x)) =
      Function.update (fun x => field (tcbs x)) h (field tcb) := by
  funext x
  by_cases same : x = h
  · subst same
    simp
  · simp [same]

private theorem field_update_same {β : Type} (tcbs : Int → CoTcb) (h : Int)
    (tcb : CoTcb) (field : CoTcb → β) (unchanged : field tcb = field (tcbs h)) :
    (fun x => field (Function.update tcbs h tcb x)) = fun x => field (tcbs x) := by
  rw [field_update, unchanged]
  exact Function.update_eq_self h _

/-- A change of the controller outside its channel map leaves every semaphore. -/
private theorem sem_withController (controller : CoControl)
    (unchanged : controller.blockedChannelMap = world.coController.blockedChannelMap) :
    World.sem { world with coController := controller } = world.sem := by
  funext sem
  cases sem with
  | channel ch => exact congrFun unchanged ch
  | client id => rfl

theorem setState (represents : Represents config world sched) (h : Int)
    (state : CoState) :
    Represents config (world.setState h state)
      { sched with state := Function.update sched.state h state } := by
  obtain ⟨rfl, rings⟩ := represents
  refine ⟨?_, ⟨rings.free, rings.freeCapacity, rings.scheduling, rings.schedulingCapacity⟩⟩
  exact Sched.ext rfl (field_update _ _ _ CoTcb.state)
    (field_update_same _ _ _ CoTcb.nextBlockedOnSameEvent rfl) rfl rfl
    (sem_withController _ rfl) rfl (field_update_same _ _ _ CoTcb.coHandle rfl) rfl
    (field_update_same _ _ _ CoTcb.localStorage rfl)
    (field_update_same _ _ _ CoTcb.clientEntry rfl)
    (field_update_same _ _ _ CoTcb.privateArg rfl) rfl rfl

theorem setNextBlocked (represents : Represents config world sched) (h next : Int) :
    Represents config (world.setNextBlocked h next)
      { sched with link := Function.update sched.link h next } := by
  obtain ⟨rfl, rings⟩ := represents
  refine ⟨?_, ⟨rings.free, rings.freeCapacity, rings.scheduling, rings.schedulingCapacity⟩⟩
  exact Sched.ext rfl (field_update_same _ _ _ CoTcb.state rfl)
    (field_update _ _ _ CoTcb.nextBlockedOnSameEvent) rfl rfl (sem_withController _ rfl) rfl
    (field_update_same _ _ _ CoTcb.coHandle rfl) rfl
    (field_update_same _ _ _ CoTcb.localStorage rfl)
    (field_update_same _ _ _ CoTcb.clientEntry rfl)
    (field_update_same _ _ _ CoTcb.privateArg rfl) rfl rfl

theorem setRunning (represents : Represents config world sched) (h : Int) :
    Represents config (world.setRunning h) { sched with running := h } := by
  obtain ⟨rfl, rings⟩ := represents
  refine ⟨?_, ⟨rings.free, rings.freeCapacity, rings.scheduling, rings.schedulingCapacity⟩⟩
  exact Sched.ext rfl rfl rfl rfl rfl (sem_withController _ rfl) rfl rfl rfl rfl rfl rfl rfl rfl

theorem setSem (represents : Represents config world sched) (sem : SemRef)
    (value : CothreadSem) : Represents config (world.setSem sem value) (sched.setSem sem value) := by
  obtain ⟨rfl, rings⟩ := represents
  have read : (world.setSem sem value).sem = Function.update world.sem sem value := by
    funext other
    cases sem <;> cases other <;> simp [World.sem, World.setSem, Function.update_apply]
  cases sem with
  | channel ch =>
    refine ⟨?_, ⟨rings.free, rings.freeCapacity, rings.scheduling, rings.schedulingCapacity⟩⟩
    exact Sched.ext rfl rfl rfl rfl rfl read rfl rfl rfl rfl rfl rfl rfl rfl
  | client id =>
    refine ⟨?_, ⟨rings.free, rings.freeCapacity, rings.scheduling, rings.schedulingCapacity⟩⟩
    exact Sched.ext rfl rfl rfl rfl rfl read rfl rfl rfl rfl rfl rfl rfl rfl

/-- A push onto the scheduling queue fails exactly when it is full. -/
theorem pushSchedulingQueue (represents : Represents config world sched) (h : Int) :
    (sched.queue.length = config.maxCothreads ∧
      ∃ controller, world.coController.pushSchedulingQueue h = (.full, controller)) ∨
    (sched.queue.length ≠ config.maxCothreads ∧
      ∃ controller, world.coController.pushSchedulingQueue h = (.noerr, controller) ∧
        Represents config { world with coController := controller }
          { sched with queue := sched.queue ++ [h] }) := by
  have entries := represents.queue
  obtain ⟨rfl, rings⟩ := represents
  by_cases filled : world.view.queue.length = config.maxCothreads
  · left
    refine ⟨filled, world.coController, ?_⟩
    rw [CoControl.pushSchedulingQueue,
      HostedQueue.push_of_full (by rw [rings.schedulingCapacity]; exact filled)]
  · right
    obtain ⟨pushed, cells, success, wellFormed, capacity, appended⟩ :=
      rings.scheduling.push_of_room (by rw [rings.schedulingCapacity]; exact filled) h
    refine ⟨filled, _, by rw [CoControl.pushSchedulingQueue, success], ?_, ?_⟩
    · exact Sched.ext rfl rfl rfl appended rfl (sem_withController _ rfl) rfl rfl rfl rfl rfl rfl
        rfl rfl
    · exact ⟨rings.free, rings.freeCapacity, wellFormed, by rw [capacity, rings.schedulingCapacity]⟩

/-- A push onto the free handles fails exactly when they fill their ring. -/
theorem pushFreeHandleQueue (represents : Represents config world sched) (h : Int) :
    (sched.free.length = config.maxCothreads ∧
      ∃ controller, world.coController.pushFreeHandleQueue h = (.full, controller)) ∨
    (sched.free.length ≠ config.maxCothreads ∧
      ∃ controller, world.coController.pushFreeHandleQueue h = (.noerr, controller) ∧
        Represents config { world with coController := controller }
          { sched with free := sched.free ++ [h] }) := by
  obtain ⟨rfl, rings⟩ := represents
  by_cases filled : world.view.free.length = config.maxCothreads
  · left
    refine ⟨filled, world.coController, ?_⟩
    rw [CoControl.pushFreeHandleQueue,
      HostedQueue.push_of_full (by rw [rings.freeCapacity]; exact filled)]
  · right
    obtain ⟨pushed, cells, success, wellFormed, capacity, appended⟩ :=
      rings.free.push_of_room (by rw [rings.freeCapacity]; exact filled) h
    refine ⟨filled, _, by rw [CoControl.pushFreeHandleQueue, success], ?_, ?_⟩
    · exact Sched.ext rfl rfl rfl rfl appended (sem_withController _ rfl) rfl rfl rfl rfl rfl rfl
        rfl rfl
    · exact ⟨wellFormed, by rw [capacity, rings.freeCapacity], rings.scheduling,
        rings.schedulingCapacity⟩

/-- Popping the scheduling queue takes the front of the list reading. -/
theorem popSchedulingQueue (represents : Represents config world sched) (ret : Int) :
    (sched.queue = [] ∧
      world.coController.popSchedulingQueue ret = (.empty, world.coController, ret)) ∨
    ∃ front rest controller, sched.queue = front :: rest ∧
      world.coController.popSchedulingQueue ret = (.noerr, controller, front) ∧
        Represents config { world with coController := controller }
          { sched with queue := rest } := by
  obtain ⟨rfl, rings⟩ := represents
  cases entries : world.view.queue with
  | nil =>
    left
    refine ⟨rfl, ?_⟩
    rw [CoControl.popSchedulingQueue, HostedQueue.pop_of_nil entries]
  | cons front rest =>
    right
    obtain ⟨popped, success, wellFormed, capacity, -, remaining⟩ :=
      rings.scheduling.pop_of_cons entries ret
    refine ⟨front, rest, _, rfl, by rw [CoControl.popSchedulingQueue, success], ?_, ?_⟩
    · exact Sched.ext rfl rfl rfl remaining rfl (sem_withController _ rfl) rfl rfl rfl rfl rfl rfl
        rfl rfl
    · exact ⟨rings.free, rings.freeCapacity, wellFormed, by rw [capacity, rings.schedulingCapacity]⟩

/-- Popping the free handles takes the front of the list reading. -/
theorem popFreeHandleQueue (represents : Represents config world sched) (ret : Int) :
    (sched.free = [] ∧
      world.coController.popFreeHandleQueue ret = (.empty, world.coController, ret)) ∨
    ∃ front rest controller, sched.free = front :: rest ∧
      world.coController.popFreeHandleQueue ret = (.noerr, controller, front) ∧
        Represents config { world with coController := controller }
          { sched with free := rest } := by
  obtain ⟨rfl, rings⟩ := represents
  cases entries : world.view.free with
  | nil =>
    left
    refine ⟨rfl, ?_⟩
    rw [CoControl.popFreeHandleQueue, HostedQueue.pop_of_nil entries]
  | cons front rest =>
    right
    obtain ⟨popped, success, wellFormed, capacity, -, remaining⟩ :=
      rings.free.pop_of_cons entries ret
    refine ⟨front, rest, _, rfl, by rw [CoControl.popFreeHandleQueue, success], ?_, ?_⟩
    · exact Sched.ext rfl rfl rfl rfl remaining (sem_withController _ rfl) rfl rfl rfl rfl rfl rfl
        rfl rfl
    · exact ⟨wellFormed, by rw [capacity, rings.freeCapacity], rings.scheduling,
        rings.schedulingCapacity⟩

/-- The loop of `internal_schedule` chooses the first dispatchable entry and
pops everything up to it. Every iteration pops one entry. -/
theorem internalScheduleLoop (represents : Represents config world sched) {fuel : Nat}
    (enough : sched.queue.length < fuel) :
    ∃ controller, Libmicrokitco.internalScheduleLoop fuel world.coController =
        .ok ((pick sched.state sched.queue).1, controller) ∧
      Represents config { world with coController := controller }
        { sched with queue := (pick sched.state sched.queue).2 } := by
  induction fuel generalizing world sched with
  | zero => omega
  | succ fuel ih =>
    rcases represents.popSchedulingQueue schedulerNullChoice with
      ⟨isEmpty, popped⟩ | ⟨front, rest, controller, entries, popped, after⟩
    · refine ⟨world.coController, ?_, ?_⟩
      · simp [Libmicrokitco.internalScheduleLoop, popped, isEmpty, pick]
      · have nothingLeft : (pick sched.state sched.queue).2 = sched.queue := by
          rw [isEmpty]
          rfl
        rw [nothingLeft]
        exact represents
    · have stateRead : (controller.tcbs front).state = sched.state front := after.state front
      rw [entries, List.length_cons] at enough
      by_cases dispatchable : front = 0 ∨ sched.state front = .ready
      · refine ⟨controller, ?_, ?_⟩
        · rw [Libmicrokitco.internalScheduleLoop, popped, entries, pick, if_pos dispatchable]
          simp only [stateRead]
          rcases dispatchable with root | ready
          · rw [if_pos root]
          · simp only [ready, if_true, ite_self]
        · rw [entries, pick, if_pos dispatchable]
          exact after
      · obtain ⟨final, success, represented⟩ := ih after (by simpa using enough)
        refine ⟨final, ?_, ?_⟩
        · rw [not_or] at dispatchable
          rw [Libmicrokitco.internalScheduleLoop, popped]
          simp only [stateRead, success, entries, pick, or_self, dispatchable, if_false]
        · rw [entries, pick, if_neg dispatchable]
          exact represented

theorem internalSchedule (represents : Represents config world sched) :
    ∃ controller, Libmicrokitco.internalSchedule world.coController =
        .ok ((pick sched.state sched.queue).1, controller) ∧
      Represents config { world with coController := controller }
        { sched with queue := (pick sched.state sched.queue).2 } := by
  apply represents.internalScheduleLoop
  rw [← represents.queue, World.schedulingEntries, HostedQueue.length_live]
  exact Nat.lt_succ_self _

theorem resume (represents : Represents config world sched) :
    Agrees (Represents config) world.resume sched.resume := by
  have libco : world.libco.resumed = sched.libco.resumed := by
    rw [← represents.view]
    rfl
  rw [World.resume, Sched.resume, libco]
  generalize sched.libco.resumed = context
  cases context with
  | unset => exact .ok represents
  | derived => exact .ok represents
  | suspended incarnation point =>
    cases point with
    | entryReturn => exact .error _
    | _ => exact .ok represents

theorem coSwitch (represents : Represents config world sched) (point : SwitchPoint)
    (handle : CothreadT) :
    Agrees (Represents config) (world.coSwitch point handle)
      (Sched.resume { sched with libco := sched.libco.coSwitch point handle }) := by
  apply resume
  obtain ⟨rfl, rings⟩ := represents
  exact ⟨Sched.ext rfl rfl rfl rfl rfl (sem_withController _ rfl) rfl rfl rfl rfl rfl rfl rfl rfl,
    rings⟩

/-- Making `next` the running thread and switching to it. -/
theorem dispatch (represents : Represents config world sched) (point : SwitchPoint)
    (next : Int) :
    Agrees (Represents config)
      (World.coSwitch point
        (((world.setState next .running).setRunning next).coController.tcbs next).coHandle
        ((world.setState next .running).setRunning next))
      (sched.dispatch point next) := by
  have prepared := (represents.setState next .running).setRunning next
  have handle := prepared.coHandle next
  have switched := prepared.coSwitch point
    (((world.setState next .running).setRunning next).coController.tcbs next).coHandle
  rw [handle] at switched ⊢
  exact switched

theorem goNext (represents : Represents config world sched) (point : SwitchPoint) :
    Agrees (Represents config) (internalGoNext point world) (sched.goNext point) := by
  obtain ⟨controller, success, popped⟩ := represents.internalSchedule
  rw [internalGoNext, success]
  exact popped.dispatch point _

theorem semaphoreWait (represents : Represents config world sched) (sem : SemRef) :
    Agrees (Represents config) (microkitCothreadSemaphoreWait sem world) (sched.wait sem) := by
  rw [microkitCothreadSemaphoreWait, Sched.wait, represents.sem sem]
  split
  · exact .ok (represents.setSem sem _)
  · apply goNext
    simp only [represents.running]
    have blocked := represents.setState sched.running .blocked
    have linked := blocked.setNextBlocked (sched.sem sem).tail sched.running
    by_cases isEmpty : (sched.sem sem).head = nullHandle
    · simp only [blocked.sem sem, isEmpty, if_true]
      simpa [Sched.blockedOn, Sched.setSem, isEmpty] using blocked.setSem sem
        { sched.sem sem with head := sched.running, tail := sched.running }
    · simp only [blocked.sem sem, linked.sem sem, isEmpty, if_false]
      simpa [Sched.blockedOn, Sched.setSem, isEmpty] using linked.setSem sem
        { sched.sem sem with tail := sched.running }

theorem yield (represents : Represents config world sched) :
    Agrees (Represents config) (microkitCothreadYield world) (sched.yield config) := by
  rw [microkitCothreadYield, Sched.yield, Sched.requeue, represents.running]
  rcases represents.pushSchedulingQueue sched.running with
    ⟨full, controller, pushed⟩ | ⟨room, controller, pushed, after⟩
  · rw [pushed, if_pos full]
    exact .error _
  · rw [pushed, if_neg room]
    have caller : controller.running = sched.running := after.running
    apply goNext
    rw [caller]
    exact after.setState sched.running .ready

/-- The part of `microkit_cothread_semaphore_signal` that takes `head` off the
wait list, of which `next` is the rest. -/
private def moveSemaphoreList (sem : SemRef) (head next : Int) (world : World) : World :=
  let world := world.setSem sem { world.sem sem with head := next }
  let world := world.setNextBlocked head nullHandle
  if next = nullHandle then
    world.setSem sem (microkitCothreadSemaphoreInit (world.sem sem))
  else world

private theorem moveSemaphoreList_unlinked (represents : Represents config world sched)
    (sem : SemRef) :
    Represents config
      (moveSemaphoreList sem (sched.sem sem).head (sched.link (sched.sem sem).head) world)
      (sched.unlinked sem) := by
  have moved := (represents.setSem sem
    { sched.sem sem with head := sched.link (sched.sem sem).head }).setNextBlocked
      (sched.sem sem).head nullHandle
  simp only [moveSemaphoreList, represents.sem sem]
  by_cases last : sched.link (sched.sem sem).head = nullHandle
  · have reset := moved.setSem sem (microkitCothreadSemaphoreInit (sched.sem sem))
    rw [if_pos last, moved.sem sem]
    simpa [Sched.unlinked, Sched.setSem, last, microkitCothreadSemaphoreInit] using reset
  · rw [if_neg last]
    simpa [Sched.unlinked, Sched.setSem, last] using moved

theorem semaphoreSignal (represents : Represents config world sched) (sem : SemRef) :
    Agrees (Represents config) (microkitCothreadSemaphoreSignal sem world)
      (sched.signal config sem) := by
  rw [microkitCothreadSemaphoreSignal, Sched.signal, represents.sem sem]
  simp only [microkitCothreadSemaphoreIsSet, microkitCothreadSemaphoreIsQueueEmpty,
    decide_eq_true_eq, represents.running, represents.link]
  split
  · exact .ok represents
  split
  · exact .ok (represents.setSem sem _)
  rw [Sched.requeue]
  rcases represents.pushSchedulingQueue sched.running with
    ⟨full, controller, pushed⟩ | ⟨room, controller, pushed, after⟩
  · rw [pushed, if_pos full]
    exact .error _
  rw [pushed, if_neg room]
  have caller : controller.running = sched.running := after.running
  have ready := after.setState controller.running .ready
  rw [caller] at ready
  have moved := moveSemaphoreList_unlinked ready sem
  simp only [caller]
  exact moved.dispatch .semaphoreSignal (sched.sem sem).head

/-- The TCB of a spawned cothread and its fresh context. -/
private theorem derived (represents : Represents config world sched) (new : Int)
    (clientEntry privateArg : Address) (made : Memory × Address) :
    Represents config
      { world with
        coController := { world.coController with
          tcbs := Function.update world.coController.tcbs new
            { world.coController.tcbs new with
              clientEntry := clientEntry
              privateArg := privateArg
              coHandle := .stack made.2
              state := .ready
              nextBlockedOnSameEvent := nullHandle } }
        libco := world.libco.coDerive (.stack made.2)
        memory := made.1 }
      { sched with
        state := Function.update sched.state new .ready
        link := Function.update sched.link new nullHandle
        coHandle := Function.update sched.coHandle new (.stack made.2)
        libco := sched.libco.coDerive (.stack made.2)
        clientEntry := Function.update sched.clientEntry new clientEntry
        privateArg := Function.update sched.privateArg new privateArg
        memory := made.1 } := by
  obtain ⟨rfl, rings⟩ := represents
  refine ⟨?_, ⟨rings.free, rings.freeCapacity, rings.scheduling, rings.schedulingCapacity⟩⟩
  refine Sched.ext rfl (field_update _ _ _ CoTcb.state)
    (field_update _ _ _ CoTcb.nextBlockedOnSameEvent) rfl rfl ?_ rfl
    (field_update _ _ _ CoTcb.coHandle) rfl (field_update_same _ _ _ CoTcb.localStorage rfl)
    (field_update _ _ _ CoTcb.clientEntry) (field_update _ _ _ CoTcb.privateArg) rfl rfl
  funext sem
  cases sem <;> rfl

theorem spawn (represents : Represents config world sched) (clientEntry privateArg : Address) :
    Agrees (fun left right => left.1 = right.1 ∧ Represents config left.2 right.2)
      (microkitCothreadSpawn config clientEntry privateArg world)
      (sched.spawn config clientEntry privateArg) := by
  rw [microkitCothreadSpawn, Sched.spawn]
  split
  · exact .error _
  rcases represents.popFreeHandleQueue nullHandle with
    ⟨none, popped⟩ | ⟨new, rest, controller, handles, popped, after⟩
  · simp only [popped, none]
    exact .ok ⟨rfl, represents⟩
  simp only [popped, handles]
  have storage : (controller.tcbs new).localStorage = sched.localStorage new :=
    congrFun (congrArg Sched.localStorage after.view) new
  have size : controller.coStackSize = sched.coStackSize :=
    congrArg Sched.coStackSize after.view
  have memory : world.memory = sched.memory := congrArg Sched.memory represents.view
  have prepared := after.derived new clientEntry privateArg
    (config.backend.coDerive
      (memzero (sched.localStorage new) (sched.coStackSize.signExtend 64) sched.memory)
      (sched.localStorage new) sched.coStackSize config.cothreadEntryWrapper)
  have made : config.backend.coDerive
      (memzero (controller.tcbs new).localStorage (controller.coStackSize.signExtend 64)
        world.memory) (controller.tcbs new).localStorage controller.coStackSize
        config.cothreadEntryWrapper =
      config.backend.coDerive
        (memzero (sched.localStorage new) (sched.coStackSize.signExtend 64) sched.memory)
        (sched.localStorage new) sched.coStackSize config.cothreadEntryWrapper := by
    rw [storage, size, memory]
  rw [made]
  rcases prepared.pushSchedulingQueue new with
    ⟨full, final, pushed⟩ | ⟨room, final, pushed, done⟩
  · rw [pushed, if_pos full]
    exact .error _
  · rw [pushed, if_neg room]
    exact .ok ⟨rfl, done⟩

theorem destroy (represents : Represents config world sched) (point : SwitchPoint)
    (cothread : Int) :
    Agrees (Represents config) (microkitCothreadDestroy config point cothread world)
      (sched.destroy config point cothread) := by
  rw [microkitCothreadDestroy, Sched.destroy, represents.state, represents.running]
  split
  · exact .error _
  split
  · exact .error _
  split
  · exact .error _
  rcases represents.pushFreeHandleQueue cothread with
    ⟨full, controller, pushed⟩ | ⟨room, controller, pushed, after⟩
  · rw [pushed, if_pos full]
    exact .error _
  rw [pushed, if_neg room]
  have released := after.setState cothread .notActive
  have caller : (World.setState cothread .notActive
      { world with coController := controller }).coController.running = sched.running :=
    after.running
  simp only [caller]
  by_cases itself : cothread = sched.running
  · rw [if_pos itself, if_pos itself]
    exact released.goNext point
  · rw [if_neg itself, if_neg itself]
    exact .ok released

theorem setArg (represents : Represents config world sched) (cothread : Int)
    (privateArg : Address) :
    Agrees (Represents config) (microkitCothreadSetArg config cothread privateArg world)
      (sched.setArg config cothread privateArg) := by
  rw [microkitCothreadSetArg, Sched.setArg]
  simp only [represents.state]
  split
  · exact .error _
  refine .ok ⟨?_, ?_⟩
  · obtain ⟨rfl, -⟩ := represents
    exact Sched.ext rfl (field_update_same _ _ _ CoTcb.state rfl)
      (field_update_same _ _ _ CoTcb.nextBlockedOnSameEvent rfl) rfl rfl
      (sem_withController _ rfl) rfl (field_update_same _ _ _ CoTcb.coHandle rfl) rfl
      (field_update_same _ _ _ CoTcb.localStorage rfl)
      (field_update_same _ _ _ CoTcb.clientEntry rfl)
      (field_update _ _ _ CoTcb.privateArg) rfl rfl
  · exact ⟨represents.rings.free, represents.rings.freeCapacity, represents.rings.scheduling,
      represents.rings.schedulingCapacity⟩

theorem semaphoreInit (represents : Represents config world sched) (id : Nat) :
    Represents config
      { world with
        clientSems := Function.update world.clientSems id
          (microkitCothreadSemaphoreInit (world.clientSems id))
        initialised := Function.update world.initialised id true }
      { sched.setSem (.client id) (microkitCothreadSemaphoreInit (sched.sem (.client id))) with
        initialised := Function.update sched.initialised id true } := by
  have reset := represents.setSem (.client id)
    (microkitCothreadSemaphoreInit (sched.sem (.client id)))
  obtain ⟨rfl, rings⟩ := represents
  have semRead := congrArg Sched.sem reset.view
  exact ⟨Sched.ext rfl rfl rfl rfl rfl semRead rfl rfl rfl rfl rfl rfl rfl rfl, rings⟩

theorem freeHandleAvailable (represents : Represents config world sched) :
    microkitCothreadFreeHandleAvailable nullHandle world =
      (decide (sched.free ≠ []), sched.free.headD nullHandle) := by
  rw [microkitCothreadFreeHandleAvailable]
  have entries := represents.free
  cases shape : sched.free with
  | nil => rw [HostedQueue.peek_of_nil (entries.trans shape)]; rfl
  | cons front rest =>
    rw [represents.rings.free.peek_of_cons (entries.trans shape)]
    rfl

/-- Agreement of a call's answer and of the state after it. -/
def Answered (config : Config) (left : Answer × World) (right : Answer × Sched) : Prop :=
  left.1 = right.1 ∧ Represents config left.2 right.2

theorem answered {left : Except Fault World} {right : Except Fault Sched}
    (agreement : Agrees (Represents config) left right) :
    Agrees (Answered config) (Libmicrokitco.returning left) (Sched.returning right) :=
  agreement.map fun related => ⟨rfl, related⟩

/-- Every call of the implementation agrees with the call on the lists. -/
theorem step (represents : Represents config world sched) (call : Call) :
    Agrees (Answered config) (Libmicrokitco.step config world call) (sched.step config call) := by
  cases call with
  | freeHandleAvailable =>
    simp only [Libmicrokitco.step, Sched.step, represents.freeHandleAvailable]
    exact .ok ⟨rfl, represents⟩
  | spawn clientEntry privateArg =>
    exact (represents.spawn clientEntry privateArg).map fun related =>
      ⟨congrArg Answer.handle related.1, related.2⟩
  | setArg cothread privateArg => exact answered (represents.setArg cothread privateArg)
  | queryState cothread =>
    simp only [Libmicrokitco.step, Sched.step, microkitCothreadQueryState, represents.state]
    split
    · exact .error _
    · exact .ok ⟨rfl, represents⟩
  | myHandle => exact .ok ⟨congrArg Answer.handle represents.running, represents⟩
  | myArg =>
    have arg : ∀ h, (world.coController.tcbs h).privateArg = sched.privateArg h := fun h =>
      congrFun (congrArg Sched.privateArg represents.view) h
    simp only [Libmicrokitco.step, Sched.step, microkitCothreadMyArg, represents.running, arg]
    split
    · exact .error _
    · exact .ok ⟨rfl, represents⟩
  | yield => exact answered represents.yield
  | destroy cothread => exact answered (represents.destroy .selfDestroy cothread)
  | semaphoreInit id => exact .ok ⟨rfl, represents.semaphoreInit id⟩
  | semaphoreWait sem => exact answered (represents.semaphoreWait sem)
  | semaphoreSignal sem => exact answered (represents.semaphoreSignal sem)
  | semaphoreIsQueueEmpty sem =>
    simp only [Libmicrokitco.step, Sched.step, represents.sem sem]
    exact .ok ⟨rfl, represents⟩
  | semaphoreIsSet sem =>
    simp only [Libmicrokitco.step, Sched.step, represents.sem sem]
    exact .ok ⟨rfl, represents⟩
  | waitOnChannel wakeOn =>
    simp only [Libmicrokitco.step, Sched.step, microkitCothreadWaitOnChannel]
    split
    · exact .error _
    · exact answered (represents.semaphoreWait (.channel wakeOn))
  | recvNtfn ch =>
    simp only [Libmicrokitco.step, Sched.step, microkitCothreadRecvNtfn, represents.running]
    split
    · exact .error _
    split
    · exact .error _
    · exact answered (represents.semaphoreSignal (.channel ch))
  | entryReturn =>
    simp only [Libmicrokitco.step, Sched.step, cothreadEntryReturn, represents.running]
    exact answered (represents.destroy .entryReturn sched.running)

end Represents
end Libmicrokitco
