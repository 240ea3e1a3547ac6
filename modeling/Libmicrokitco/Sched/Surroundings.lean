import Libmicrokitco.Sched.Faults

/-!
# The controller amid other memory

The arrays of the controller are functions of their index here, in C they end.
`World.amid` puts other contents behind their ends. An operation that commutes
with it neither reads nor writes there.
-/

namespace Libmicrokitco

/-- An array inside its bounds and something else outside them. -/
def amid {ι α : Type} (Inside : ι → Prop) [DecidablePred Inside] (array outside : ι → α) : ι → α :=
  fun i => if Inside i then array i else outside i

section

variable {ι α : Type} {Inside : ι → Prop} [DecidablePred Inside] {array outside : ι → α} {i : ι}

theorem amid_of_inside (inside : Inside i) : amid Inside array outside i = array i := if_pos inside

theorem update_amid [DecidableEq ι] (inside : Inside i) (value : α) :
    Function.update (amid Inside array outside) i value =
      amid Inside (Function.update array i value) outside := by
  funext j
  by_cases same : j = i
  · subst same
    rw [Function.update_self, amid_of_inside inside, Function.update_self]
  · simp only [amid, Function.update_of_ne same]

end

/-- What lies behind the ends of the arrays. -/
structure Surroundings where
  tcbs : Int → CoTcb
  freeHandleQueueMem : Nat → Int
  schedulingQueueMem : Nat → Int
  blockedChannelMap : Nat → CothreadSem

open Sched

def CoControl.amid (config : Config) (rest : Surroundings) (controller : CoControl) : CoControl :=
  { controller with
    tcbs := Libmicrokitco.amid (InRange config) controller.tcbs rest.tcbs
    freeHandleQueueMem := Libmicrokitco.amid (· < config.maxCothreads) controller.freeHandleQueueMem
      rest.freeHandleQueueMem
    schedulingQueueMem := Libmicrokitco.amid (· < config.maxCothreads) controller.schedulingQueueMem
      rest.schedulingQueueMem
    blockedChannelMap := Libmicrokitco.amid (· < config.maxChannels) controller.blockedChannelMap
      rest.blockedChannelMap }

def World.amid (config : Config) (rest : Surroundings) (world : World) : World :=
  { world with coController := world.coController.amid config rest }

/-- Channel semaphores in the map, and all others. -/
def SemRef.InBounds (config : Config) : SemRef → Prop
  | .channel ch => ch < config.maxChannels
  | .client _ => True

variable {config : Config} {rest : Surroundings} {controller : CoControl} {world : World}
  {h next : Int} {sem : SemRef} {point : SwitchPoint}

theorem World.live.inBounds (live : world.live config sem) : sem.InBounds config := by
  cases sem with
  | channel ch => exact live
  | client id => exact trivial

namespace CoControl

theorem tcbs_amid (bounds : InRange config h) :
    (controller.amid config rest).tcbs h = controller.tcbs h := amid_of_inside bounds

theorem running_amid : (controller.amid config rest).running = controller.running := rfl

theorem update_tcbs_amid (bounds : InRange config h) (tcb : CoTcb) :
    ({ controller.amid config rest with
        tcbs := Function.update (controller.amid config rest).tcbs h tcb } : CoControl) =
      ({ controller with tcbs := Function.update controller.tcbs h tcb } : CoControl).amid config rest := by
  simp only [amid, update_amid bounds]

theorem setState_amid (bounds : InRange config h) (state : CoState) :
    (controller.amid config rest).setState h state = (controller.setState h state).amid config rest := by
  rw [setState, tcbs_amid bounds]
  exact update_tcbs_amid bounds _

theorem setNextBlocked_amid (bounds : InRange config h) :
    (controller.amid config rest).setNextBlocked h next =
      (controller.setNextBlocked h next).amid config rest := by
  rw [setNextBlocked, tcbs_amid bounds]
  exact update_tcbs_amid bounds _

section Rings

variable {queue : HostedQueue} {cells outside : Nat → Int} {item ret : Int}
  (wellFormed : queue.WellFormed) (capacity : queue.capacity.toNat = config.maxCothreads)

include wellFormed capacity

/-- A ring is read at its head, which is in the array. -/
theorem hostedqueuePeek_amid :
    hostedqueuePeek queue (Libmicrokitco.amid (· < config.maxCothreads) cells outside) ret =
      hostedqueuePeek queue cells ret := by
  have bounded := wellFormed.headBounded
  rw [capacity] at bounded
  have read : Libmicrokitco.amid (· < config.maxCothreads) cells outside queue.head.toNat =
      cells queue.head.toNat := amid_of_inside bounded
  unfold hostedqueuePeek
  rw [read]

theorem hostedqueuePop_amid :
    hostedqueuePop queue (Libmicrokitco.amid (· < config.maxCothreads) cells outside) ret =
      hostedqueuePop queue cells ret := by
  unfold hostedqueuePop
  rw [hostedqueuePeek_amid wellFormed capacity]

/-- A ring is written at its tail, which is in the array. -/
theorem hostedqueuePush_amid :
    hostedqueuePush queue (Libmicrokitco.amid (· < config.maxCothreads) cells outside) item =
      ((hostedqueuePush queue cells item).1, (hostedqueuePush queue cells item).2.1,
        Libmicrokitco.amid (· < config.maxCothreads) (hostedqueuePush queue cells item).2.2 outside) := by
  have bounded := wellFormed.tailBounded
  rw [capacity] at bounded
  unfold hostedqueuePush
  split
  · rfl
  · rw [update_amid]
    exact bounded

end Rings

section Queues

variable {item ret : Int} (rings : controller.RingsWellFormed config)

include rings

theorem pushSchedulingQueue_amid : (controller.amid config rest).pushSchedulingQueue item =
    ((controller.pushSchedulingQueue item).1,
      (controller.pushSchedulingQueue item).2.amid config rest) := by
  simp only [pushSchedulingQueue, amid,
    hostedqueuePush_amid rings.scheduling rings.schedulingCapacity]

theorem popSchedulingQueue_amid : (controller.amid config rest).popSchedulingQueue ret =
    ((controller.popSchedulingQueue ret).1, (controller.popSchedulingQueue ret).2.1.amid config rest,
      (controller.popSchedulingQueue ret).2.2) := by
  simp only [popSchedulingQueue, amid, hostedqueuePop_amid rings.scheduling rings.schedulingCapacity]

theorem pushFreeHandleQueue_amid : (controller.amid config rest).pushFreeHandleQueue item =
    ((controller.pushFreeHandleQueue item).1,
      (controller.pushFreeHandleQueue item).2.amid config rest) := by
  simp only [pushFreeHandleQueue, amid, hostedqueuePush_amid rings.free rings.freeCapacity]

theorem popFreeHandleQueue_amid : (controller.amid config rest).popFreeHandleQueue ret =
    ((controller.popFreeHandleQueue ret).1, (controller.popFreeHandleQueue ret).2.1.amid config rest,
      (controller.popFreeHandleQueue ret).2.2) := by
  simp only [popFreeHandleQueue, amid, hostedqueuePop_amid rings.free rings.freeCapacity]

end Queues

end CoControl

/-- The thread that the scheduler goes to has a TCB. -/
theorem orRoot_pick_inRange (state : Int → CoState) {queue : List Int}
    (bounds : ∀ entry ∈ queue, InRange config entry) : InRange config (orRoot (pick state queue).1) := by
  have picks := picks_pick state fun entry member => (bounds entry member).1
  generalize orRoot (pick state queue).1 = chosen, (pick state queue).2 = left at picks ⊢
  cases picks with
  | entry => exact bounds chosen (by simp)
  | fallback =>
    have several := config.atLeastTwo
    exact ⟨le_rfl, by omega⟩

theorem internalScheduleLoop_amid {fuel : Nat} (rings : controller.RingsWellFormed config)
    (bounds : ∀ entry ∈ controller.schedulingQueue.live controller.schedulingQueueMem,
      InRange config entry) : internalScheduleLoop fuel (controller.amid config rest) =
        (fun chosen => (chosen.1, chosen.2.amid config rest)) <$>
          internalScheduleLoop fuel controller := by
  induction fuel generalizing controller with
  | zero => rfl
  | succ fuel ih =>
    rw [internalScheduleLoop, internalScheduleLoop, CoControl.popSchedulingQueue_amid rings]
    cases entries : controller.schedulingQueue.live controller.schedulingQueueMem with
    | nil =>
      have popped : controller.popSchedulingQueue schedulerNullChoice =
          (.empty, controller, schedulerNullChoice) := by
        rw [CoControl.popSchedulingQueue, HostedQueue.pop_of_nil entries]
      rw [popped]
      rfl
    | cons front behind =>
      obtain ⟨queue, success, wellFormed, capacity, -, remaining⟩ :=
        rings.scheduling.pop_of_cons entries schedulerNullChoice
      have popped : controller.popSchedulingQueue schedulerNullChoice =
          (.noerr, { controller with schedulingQueue := queue }, front) := by
        rw [CoControl.popSchedulingQueue, success]
      rw [entries, List.forall_mem_cons] at bounds
      have read := @CoControl.tcbs_amid config rest { controller with schedulingQueue := queue } _
        bounds.1
      rw [popped]
      simp only [read]
      split
      · rfl
      split
      · rfl
      · have ringsAfter : ({ controller with schedulingQueue := queue } : CoControl).RingsWellFormed
            config :=
          ⟨rings.free, rings.freeCapacity, wellFormed, by rw [capacity, rings.schedulingCapacity]⟩
        apply ih ringsAfter
        change ∀ entry ∈ queue.live controller.schedulingQueueMem, InRange config entry
        rw [remaining]
        exact bounds.2

namespace World

theorem coController_amid :
    (world.amid config rest).coController = world.coController.amid config rest := rfl

/-- A controller for the one amid the surroundings. -/
theorem with_amid (other : CoControl) :
    ({ world.amid config rest with coController := other.amid config rest } : World) =
      ({ world with coController := other } : World).amid config rest := rfl

theorem sem_amid (inBounds : sem.InBounds config) : (world.amid config rest).sem sem = world.sem sem := by
  cases sem with
  | channel ch =>
    have bounded : ch < config.maxChannels := inBounds
    exact @amid_of_inside _ _ (· < config.maxChannels) _ world.coController.blockedChannelMap _ ch bounded
  | client id => rfl

theorem setSem_amid (inBounds : sem.InBounds config) (value : CothreadSem) :
    (world.amid config rest).setSem sem value = (world.setSem sem value).amid config rest := by
  cases sem with
  | channel ch =>
    have bounded : ch < config.maxChannels := inBounds
    simp only [setSem, amid, CoControl.amid]
    rw [@update_amid _ _ (· < config.maxChannels) _ _ _ ch _ bounded]
  | client id => rfl

theorem setState_amid (bounds : InRange config h) (state : CoState) :
    (world.amid config rest).setState h state = (world.setState h state).amid config rest := by
  simp only [setState, amid, CoControl.setState_amid bounds]

theorem setNextBlocked_amid (bounds : InRange config h) :
    (world.amid config rest).setNextBlocked h next = (world.setNextBlocked h next).amid config rest := by
  simp only [setNextBlocked, amid, CoControl.setNextBlocked_amid bounds]

theorem libco_amid : (world.amid config rest).libco = world.libco := rfl

theorem resume_amid : (world.amid config rest).resume = World.amid config rest <$> world.resume := by
  unfold resume
  rw [libco_amid]
  split <;> rfl

theorem coSwitch_amid (handle : CothreadT) : (world.amid config rest).coSwitch point handle =
    World.amid config rest <$> world.coSwitch point handle :=
  @resume_amid config rest { world with libco := world.libco.coSwitch point handle }

/-- Making `next` the running thread and switching to it. -/
theorem dispatch_amid (bounds : InRange config next) :
    World.coSwitch point
        ((((world.amid config rest).setState next .running).setRunning next).coController.tcbs
          next).coHandle
        (((world.amid config rest).setState next .running).setRunning next) =
      World.amid config rest <$> World.coSwitch point
        (((world.setState next .running).setRunning next).coController.tcbs next).coHandle
        ((world.setState next .running).setRunning next) := by
  rw [setState_amid bounds]
  change World.coSwitch point
      ((((world.setState next .running).setRunning next).amid config rest).coController.tcbs
        next).coHandle
      (((world.setState next .running).setRunning next).amid config rest) = _
  rw [coSwitch_amid]
  have read : (((world.setState next .running).setRunning next).amid config rest).coController.tcbs
      next = ((world.setState next .running).setRunning next).coController.tcbs next :=
    CoControl.tcbs_amid bounds
  rw [read]

end World

/-- The rings are well formed and the scheduling queue holds handles. -/
structure World.Indexed (config : Config) (world : World) : Prop where
  rings : world.coController.RingsWellFormed config
  entries : ∀ entry ∈ world.schedulingEntries, InRange config entry

namespace World.Indexed

theorem setState (indexed : world.Indexed config) (state : CoState) :
    (world.setState h state).Indexed config :=
  ⟨⟨indexed.rings.free, indexed.rings.freeCapacity, indexed.rings.scheduling,
    indexed.rings.schedulingCapacity⟩, indexed.entries⟩

theorem setNextBlocked (indexed : world.Indexed config) :
    (world.setNextBlocked h next).Indexed config :=
  ⟨⟨indexed.rings.free, indexed.rings.freeCapacity, indexed.rings.scheduling,
    indexed.rings.schedulingCapacity⟩, indexed.entries⟩

theorem setSem (indexed : world.Indexed config) (value : CothreadSem) :
    (world.setSem sem value).Indexed config := by
  cases sem <;> exact ⟨⟨indexed.rings.free, indexed.rings.freeCapacity, indexed.rings.scheduling,
    indexed.rings.schedulingCapacity⟩, indexed.entries⟩

/-- The scheduler reads the states of the threads it finds in its queue. -/
theorem goNext (indexed : world.Indexed config) :
    internalGoNext point (world.amid config rest) =
      World.amid config rest <$> internalGoNext point world := by
  have represents : Represents config world world.view := ⟨rfl, indexed.rings⟩
  obtain ⟨controller, success, -⟩ := represents.internalSchedule
  have successAmid : internalSchedule (world.amid config rest).coController =
      .ok ((pick world.view.state world.view.queue).1, controller.amid config rest) := by
    have looped : internalSchedule (world.coController.amid config rest) =
        (fun chosen => (chosen.1, chosen.2.amid config rest)) <$>
          internalSchedule world.coController :=
      internalScheduleLoop_amid indexed.rings indexed.entries
    rw [success] at looped
    exact looped
  have inRange : InRange config (orRoot (pick world.view.state world.view.queue).1) :=
    orRoot_pick_inRange _ indexed.entries
  rw [internalGoNext, internalGoNext, success, successAmid]
  exact @World.dispatch_amid config rest { world with coController := controller } _ _ inRange

end World.Indexed

end Libmicrokitco
