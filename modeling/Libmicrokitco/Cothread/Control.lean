import Libmicrokitco.HostedQueue.Basic
import Libmicrokitco.Cothread.Libco

/-!
# The controller and the world around it

The data types of `libmicrokitco.h`, and `World`: the controller, the client's
semaphores, libco and the client's memory. A `microkit_cothread_ref_t` is a C
`int` and an `Int` here. Arrays are functions of their index; that every index
used is inside its array is a theorem about reachable states.
-/

namespace Libmicrokitco

/-- `LIBMICROKITCO_NULL_HANDLE`. -/
abbrev nullHandle : Int := -1

/-- `LIBMICROKITCO_ROOT_THREAD`. -/
abbrev rootThread : Int := 0

/-- `SCHEDULER_NULL_CHOICE`. -/
abbrev schedulerNullChoice : Int := nullHandle

/-- `MINIMUM_STACK_SIZE`. -/
def minimumStackSize : BitVec 64 := 0x1000#64

/-- `internal_co_fatal_errors_t`. -/
inductive InternalCoFatalErrors where
  | reserved
  | cannotDestroySelfAfterReturn
  | coErrSemSigOnceCannotScheduleCaller
  | destroyCannotDestroyRoot
  | destroyCannotReleaseHandle
  | destroyAlreadyNotInitialised
  | genericInvalidHandle
  | initAlreadyInitialised
  | initCoStackNull
  | initCoStackOverlap
  | initFreeHandlesInitFail
  | initFreeHandlesPopulateFail
  | initNumCostacksNotEqualDefined
  | initSchedInitFail
  | initStackTooSmall
  | internalPopFromQueueCannotPop
  | internalPopFromQueueFoundNonReadyCothreadInScheduleQueue
  | myArgCalledFromRoot
  | recvNtfnCalledFromNonRootCothread
  | recvNtfnInvalidChannel
  | spawnCannotScheduleNew
  | spawnClientEntryIsNull
  | waitOnChannelInvalidChannel
  | yieldCannotScheduleCaller
deriving DecidableEq, Repr

/-- How a call can end other than by returning. -/
inductive Fault where
  /-- `microkit_cothread_panic`, which never returns. -/
  | panic (err : InternalCoFatalErrors)
  /-- A store outside the address space. -/
  | vmFault
  /-- A `while (true)` loop that used up its fuel. -/
  | diverged
deriving DecidableEq, Repr

/-- `co_state_t`. -/
inductive CoState where
  | notActive
  | blocked
  | ready
  | running
deriving DecidableEq, Repr

/-- `co_tcb_t`. -/
structure CoTcb where
  localStorage : Address
  coHandle : CothreadT
  clientEntry : Address
  privateArg : Address
  state : CoState
  nextBlockedOnSameEvent : Int

/-- A TCB in zeroed memory. -/
def CoTcb.zeroed : CoTcb where
  localStorage := 0#64
  coHandle := .null
  clientEntry := 0#64
  privateArg := 0#64
  state := .notActive
  nextBlockedOnSameEvent := 0

/-- `microkit_cothread_sem_t`. -/
structure CothreadSem where
  set : Bool
  head : Int
  tail : Int
deriving DecidableEq, Repr

/-- A semaphore in zeroed memory. -/
def CothreadSem.zeroed : CothreadSem := ⟨false, 0, 0⟩

/-- `co_control_t`. -/
structure CoControl where
  coStackSize : BitVec 32
  running : Int
  tcbs : Int → CoTcb
  freeHandleQueue : HostedQueue
  schedulingQueue : HostedQueue
  freeHandleQueueMem : Nat → Int
  schedulingQueueMem : Nat → Int
  blockedChannelMap : Nat → CothreadSem

/-- The controller after `memzero`. -/
def CoControl.zeroed : CoControl where
  coStackSize := 0#32
  running := 0
  tcbs := fun _ => CoTcb.zeroed
  freeHandleQueue := ⟨0#32, 0#32, 0#32, 0#32⟩
  schedulingQueue := ⟨0#32, 0#32, 0#32, 0#32⟩
  freeHandleQueueMem := fun _ => 0
  schedulingQueueMem := fun _ => 0
  blockedChannelMap := fun _ => CothreadSem.zeroed

/-- The build: `LIBMICROKITCO_MAX_COTHREADS`, which the header requires to be
at least 2 and which `int` handles count, `MICROKIT_MAX_CHANNELS` and libco's
back end. -/
structure Config where
  maxCothreads : Nat
  maxChannels : Nat
  backend : Backend
  /-- The address of `cothread_entry_wrapper`. -/
  cothreadEntryWrapper : Address
  atLeastTwo : 2 ≤ maxCothreads
  fitsInt : maxCothreads < 2 ^ 31

/-- A pointer to a semaphore: one of the controller's channel semaphores or one
in the client's memory. -/
inductive SemRef where
  | channel (ch : Nat)
  | client (id : Nat)
deriving DecidableEq, Repr

structure World where
  coController : CoControl
  clientSems : Nat → CothreadSem
  /-- Ghost: which client semaphores `microkit_cothread_semaphore_init` was called on. -/
  initialised : Nat → Bool
  libco : Libco
  memory : Memory

/-- `co_controller->tcbs[h].state = state`. -/
def CoControl.setState (h : Int) (state : CoState) (controller : CoControl) :
    CoControl :=
  { controller with
    tcbs := Function.update controller.tcbs h { controller.tcbs h with state := state } }

/-- `co_controller->tcbs[h].next_blocked_on_same_event = next`. -/
def CoControl.setNextBlocked (h next : Int) (controller : CoControl) : CoControl :=
  { controller with
    tcbs := Function.update controller.tcbs h
      { controller.tcbs h with nextBlockedOnSameEvent := next } }

def CoControl.pushSchedulingQueue (item : Int) (controller : CoControl) :
    HostedqueueErr × CoControl :=
  let (err, queue, mem) :=
    hostedqueuePush controller.schedulingQueue controller.schedulingQueueMem item
  (err, { controller with schedulingQueue := queue, schedulingQueueMem := mem })

def CoControl.popSchedulingQueue (ret : Int) (controller : CoControl) :
    HostedqueueErr × CoControl × Int :=
  let (err, queue, item) :=
    hostedqueuePop controller.schedulingQueue controller.schedulingQueueMem ret
  (err, { controller with schedulingQueue := queue }, item)

def CoControl.pushFreeHandleQueue (item : Int) (controller : CoControl) :
    HostedqueueErr × CoControl :=
  let (err, queue, mem) :=
    hostedqueuePush controller.freeHandleQueue controller.freeHandleQueueMem item
  (err, { controller with freeHandleQueue := queue, freeHandleQueueMem := mem })

def CoControl.popFreeHandleQueue (ret : Int) (controller : CoControl) :
    HostedqueueErr × CoControl × Int :=
  let (err, queue, item) :=
    hostedqueuePop controller.freeHandleQueue controller.freeHandleQueueMem ret
  (err, { controller with freeHandleQueue := queue }, item)

namespace World

/-- `*sem`. -/
def sem (world : World) : SemRef → CothreadSem
  | .channel ch => world.coController.blockedChannelMap ch
  | .client id => world.clientSems id

/-- `*sem = value`. -/
def setSem (sem : SemRef) (value : CothreadSem) (world : World) : World :=
  match sem with
  | .channel ch =>
    { world with
      coController := { world.coController with
        blockedChannelMap := Function.update world.coController.blockedChannelMap ch value } }
  | .client id => { world with clientSems := Function.update world.clientSems id value }

def setState (h : Int) (state : CoState) (world : World) : World :=
  { world with coController := world.coController.setState h state }

def setNextBlocked (h next : Int) (world : World) : World :=
  { world with coController := world.coController.setNextBlocked h next }

def setRunning (h : Int) (world : World) : World :=
  { world with coController := { world.coController with running := h } }

/-- The live entries of `scheduling_queue`, front first. -/
def schedulingEntries (world : World) : List Int :=
  world.coController.schedulingQueue.live world.coController.schedulingQueueMem

/-- The live entries of `free_handle_queue`, front first. -/
def freeEntries (world : World) : List Int :=
  world.coController.freeHandleQueue.live world.coController.freeHandleQueueMem

end World
end Libmicrokitco
