import Libmicrokitco.Cothread.Control

/-!
# The scheduler and the semaphores

`internal_schedule`, `internal_go_next` and the `microkit_cothread_semaphore_*`
functions. A call that switches away ends, as a step of the system, with
the state in which the resumed thread continues.
-/

namespace Libmicrokitco

/-- The `while (true)` loop of `internal_schedule`; every iteration pops an
entry, so `fuel` beyond their number is never used up. -/
def internalScheduleLoop : Nat → CoControl → Except Fault (Int × CoControl)
  | 0, _ => .error .diverged
  | fuel + 1, controller =>
    match controller.popSchedulingQueue schedulerNullChoice with
    | (.empty, controller, _) => .ok (schedulerNullChoice, controller)
    | (.noerr, controller, nextChoice) =>
      if nextChoice = rootThread then
        .ok (nextChoice, controller)
      else if (controller.tcbs nextChoice).state = .ready then
        .ok (nextChoice, controller)
      else
        -- the entry of a cothread destroyed while it was ready
        internalScheduleLoop fuel controller
    | (_, _, _) => .error (.panic .internalPopFromQueueCannotPop)

def internalSchedule (controller : CoControl) : Except Fault (Int × CoControl) :=
  internalScheduleLoop (controller.schedulingQueue.items.toNat + 1) controller

/-- The code behind `co_switch` in the resumed thread. Every library call
returns to its client there, except that `cothread_entry_wrapper` panics when
the destruction of its own cothread returns. -/
def World.resume (world : World) : Except Fault World :=
  match world.libco.resumed with
  | .suspended _ .entryReturn => .error (.panic .cannotDestroySelfAfterReturn)
  | _ => .ok world

/-- `co_switch(handle)` called from the library call `point`. -/
def World.coSwitch (point : SwitchPoint) (handle : CothreadT) (world : World) :
    Except Fault World :=
  World.resume { world with libco := world.libco.coSwitch point handle }

def internalGoNext (point : SwitchPoint) (world : World) : Except Fault World := do
  let (choice, controller) ← internalSchedule world.coController
  -- no ready thread in the queue: back to the root to receive notifications
  let next := if choice = schedulerNullChoice then 0 else choice
  let world := { world with coController := controller }
  let world := (world.setState next .running).setRunning next
  world.coSwitch point (world.coController.tcbs next).coHandle

def microkitCothreadSemaphoreInit (retSem : CothreadSem) : CothreadSem :=
  { retSem with head := nullHandle, tail := nullHandle, set := false }

def microkitCothreadSemaphoreIsQueueEmpty (sem : CothreadSem) : Bool :=
  sem.head = nullHandle

def microkitCothreadSemaphoreIsSet (sem : CothreadSem) : Bool :=
  sem.set

def microkitCothreadSemaphoreWait (sem : SemRef) (world : World) : Except Fault World :=
  if (world.sem sem).set then
    .ok (world.setSem sem { world.sem sem with set := false })
  else
    let running := world.coController.running
    let world := world.setState running .blocked
    let world :=
      if (world.sem sem).head = nullHandle then
        world.setSem sem { world.sem sem with head := running, tail := running }
      else
        let world := world.setNextBlocked (world.sem sem).tail running
        world.setSem sem { world.sem sem with tail := running }
    internalGoNext .semaphoreWait world

def microkitCothreadSemaphoreSignal (sem : SemRef) (world : World) : Except Fault World :=
  if microkitCothreadSemaphoreIsSet (world.sem sem) then
    .ok world
  else if microkitCothreadSemaphoreIsQueueEmpty (world.sem sem) then
    .ok (world.setSem sem { world.sem sem with set := true })
  else
    let head := (world.sem sem).head
    let next := (world.coController.tcbs head).nextBlockedOnSameEvent
    -- schedule caller
    match world.coController.pushSchedulingQueue world.coController.running with
    | (.noerr, controller) =>
      let world := { world with coController := controller }
      let world := world.setState world.coController.running .ready
      -- move semaphore list
      let world := world.setSem sem { world.sem sem with head := next }
      let world := world.setNextBlocked head nullHandle
      let world :=
        if next = nullHandle then
          world.setSem sem (microkitCothreadSemaphoreInit (world.sem sem))
        else world
      -- directly switch to unblocked cothread
      let world := world.setRunning head
      let world := world.setState world.coController.running .running
      world.coSwitch .semaphoreSignal
        (world.coController.tcbs world.coController.running).coHandle
    | (_, _) => .error (.panic .coErrSemSigOnceCannotScheduleCaller)

def microkitCothreadWaitOnChannel (config : Config) (wakeOn : Nat) (world : World) :
    Except Fault World :=
  if wakeOn ≥ config.maxChannels then
    .error (.panic .waitOnChannelInvalidChannel)
  else
    microkitCothreadSemaphoreWait (.channel wakeOn) world

def microkitCothreadRecvNtfn (config : Config) (ch : Nat) (world : World) :
    Except Fault World :=
  if world.coController.running ≠ rootThread then
    .error (.panic .recvNtfnCalledFromNonRootCothread)
  else if ch ≥ config.maxChannels then
    .error (.panic .recvNtfnInvalidChannel)
  else
    microkitCothreadSemaphoreSignal (.channel ch) world

end Libmicrokitco
