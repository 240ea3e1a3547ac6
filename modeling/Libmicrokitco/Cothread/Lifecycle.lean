import Libmicrokitco.Cothread.Scheduler

/-!
# Initialisation and the cothread functions

`memzero` and the public functions of `libmicrokitco.c` other than the
semaphores. `int` counters and the conversions between `int`, `unsigned` and
`size_t` are those of the source, in two's complement.
-/

namespace Libmicrokitco

/-- The loop of `memzero` from counter `i` on. The `int` counter is converted
to `size_t` for the comparison and for the address. -/
def memzeroLoop (dst : Address) (n : BitVec 64) : Nat → BitVec 32 → Memory → Memory
  | 0, _, memory => memory
  | fuel + 1, i, memory =>
    if i.signExtend 64 < n then
      memzeroLoop dst n fuel (i + 1#32)
        (Function.update memory (dst + i.signExtend 64) 0#8)
    else memory

/-- An `int` counter takes every value before it repeats one, and -1 is never
below a `size_t`, so `2 ^ 32` iterations are enough. -/
def memzero (dst : Address) (n : BitVec 64) (memory : Memory) : Memory :=
  memzeroLoop dst n (2 ^ 32) 0#32 memory

/-- First pass over the stacks: record the address of stack `i` and write its
first and last byte. The last byte of a stack that would run past the end of
the address space cannot be written. -/
def initStack (coStackSize : BitVec 64) (coStacks : Nat → Address) (world : World) (i : Nat) :
    Except Fault World :=
  let stack := coStacks (i - 1)
  let controller := world.coController
  let tcbs := Function.update controller.tcbs (i : Int)
    { controller.tcbs i with localStorage := stack }
  if stack = 0#64 then
    .error (.panic .initCoStackNull)
  else if 2 ^ 64 < stack.toNat + coStackSize.toNat then
    .error .vmFault
  else
    .ok { world with
      coController := { controller with tcbs := tcbs }
      memory := Function.update (Function.update world.memory stack 0#8)
        (stack + coStackSize - 1#64) 0#8 }

/-- Second pass: stacks `i` and `j` must not overlap. -/
def initCheckOverlap (coStackSize : BitVec 64) (controller : CoControl) (i j : Nat) :
    Except Fault Unit :=
  let thisStackStart := (controller.tcbs i).localStorage
  let thisStackEnd := thisStackStart + coStackSize - 1#64
  let otherStackStart := (controller.tcbs j).localStorage
  let otherStackEnd := otherStackStart + coStackSize - 1#64
  if j ≠ i ∧ thisStackStart ≤ otherStackEnd ∧ otherStackStart ≤ thisStackEnd then
    .error (.panic .initCoStackOverlap)
  else
    .ok ()

def initRootThread (coActive : CothreadT) (controller : CoControl) : CoControl :=
  { controller with
    tcbs := Function.update controller.tcbs rootThread
      { controller.tcbs rootThread with
        localStorage := 0#64
        coHandle := coActive
        state := .running
        nextBlockedOnSameEvent := nullHandle }
    running := rootThread }

def initQueues (config : Config) (controller : CoControl) : Except Fault CoControl :=
  let capacity := BitVec.ofNat 32 config.maxCothreads
  let (errHq, freeHandleQueue) := hostedqueueInit controller.freeHandleQueue capacity
  let (errSq, schedulingQueue) := hostedqueueInit controller.schedulingQueue capacity
  if errHq ≠ .noerr then
    .error (.panic .initFreeHandlesInitFail)
  else if errSq ≠ .noerr then
    .error (.panic .initSchedInitFail)
  else
    .ok { controller with freeHandleQueue := freeHandleQueue, schedulingQueue := schedulingQueue }

def initFreeHandle (controller : CoControl) (i : Nat) : Except Fault CoControl :=
  match controller.pushFreeHandleQueue i with
  | (.noerr, controller) => .ok controller
  | (_, _) => .error (.panic .initFreeHandlesPopulateFail)

def initBlockedTable (config : Config) (controller : CoControl) : CoControl :=
  { controller with
    blockedChannelMap := (List.range config.maxChannels).foldl
      (fun table i => Function.update table i (microkitCothreadSemaphoreInit (table i)))
      controller.blockedChannelMap }

/-- `microkit_cothread_init`. `existing` is the static `co_controller`, `NULL`
as `none`; `coStacks` is the array of stack addresses. -/
def microkitCothreadInit (config : Config) (existing : Option CoControl)
    (clientSems : Nat → CothreadSem) (memory : Memory) (coStackSize : BitVec 64)
    (coStacks : Nat → Address) : Except Fault World :=
  if existing.isSome then
    .error (.panic .initAlreadyInitialised)
  else if coStackSize < minimumStackSize then
    .error (.panic .initStackTooSmall)
  else do
    let handles := List.range' 1 (config.maxCothreads - 1)
    let zeroed : World :=
      { coController := { CoControl.zeroed with coStackSize := coStackSize.setWidth 32 }
        clientSems := clientSems
        initialised := fun _ => false
        libco := Libco.atStart
        memory := memory }
    let world ← handles.foldlM (initStack coStackSize coStacks) zeroed
    handles.forM fun i => handles.forM fun j =>
      initCheckOverlap coStackSize world.coController i j
    let controller ← initQueues config (initRootThread world.libco.coActive world.coController)
    let controller ← handles.foldlM initFreeHandle controller
    return { world with coController := initBlockedTable config controller }

def microkitCothreadFreeHandleAvailable (retHandle : Int) (world : World) :
    Bool × Int :=
  let (err, retHandle) := hostedqueuePeek world.coController.freeHandleQueue
    world.coController.freeHandleQueueMem retHandle
  (err = .noerr, retHandle)

def microkitCothreadSpawn (config : Config) (clientEntry privateArg : Address) (world : World) :
    Except Fault (Int × World) :=
  if clientEntry = 0#64 then
    .error (.panic .spawnClientEntryIsNull)
  else
    match world.coController.popFreeHandleQueue nullHandle with
    | (.noerr, controller, new) =>
      let costack := (controller.tcbs new).localStorage
      let size := controller.coStackSize
      let memory := memzero costack (size.signExtend 64) world.memory
      let made := config.backend.coDerive memory costack size config.cothreadEntryWrapper
      let controller := { controller with
        tcbs := Function.update controller.tcbs new
          { controller.tcbs new with
            clientEntry := clientEntry
            privateArg := privateArg
            coHandle := .stack made.2
            state := .ready
            nextBlockedOnSameEvent := nullHandle } }
      match controller.pushSchedulingQueue new with
      | (.noerr, controller) =>
        .ok (new, { world with
          coController := controller
          libco := world.libco.coDerive (.stack made.2)
          memory := made.1 })
      | (_, _) => .error (.panic .spawnCannotScheduleNew)
    | (_, controller, _) => .ok (nullHandle, { world with coController := controller })

def microkitCothreadSetArg (config : Config) (cothread : Int) (privateArg : Address)
    (world : World) : Except Fault World :=
  let controller := world.coController
  if cothread ≥ config.maxCothreads ∨ cothread < 0 ∨
      (controller.tcbs cothread).state = .notActive then
    .error (.panic .genericInvalidHandle)
  else
    .ok { world with
      coController := { controller with
        tcbs := Function.update controller.tcbs cothread
          { controller.tcbs cothread with privateArg := privateArg } } }

def microkitCothreadQueryState (config : Config) (cothread : Int) (world : World) :
    Except Fault CoState :=
  if cothread ≥ config.maxCothreads ∨ cothread < 0 then
    .error (.panic .genericInvalidHandle)
  else
    .ok (world.coController.tcbs cothread).state

def microkitCothreadMyHandle (world : World) : Int :=
  world.coController.running

def microkitCothreadMyArg (world : World) : Except Fault Address :=
  if world.coController.running = 0 then
    .error (.panic .myArgCalledFromRoot)
  else
    .ok (world.coController.tcbs world.coController.running).privateArg

def microkitCothreadYield (world : World) : Except Fault World :=
  match world.coController.pushSchedulingQueue world.coController.running with
  | (.noerr, controller) =>
    let world := { world with coController := controller }
    internalGoNext .yield (world.setState world.coController.running .ready)
  | (_, _) => .error (.panic .yieldCannotScheduleCaller)

/-- `microkit_cothread_destroy`, called from client code or from the entry
wrapper according to `point`. -/
def microkitCothreadDestroy (config : Config) (point : SwitchPoint) (cothread : Int)
    (world : World) : Except Fault World :=
  if cothread ≥ config.maxCothreads ∨ cothread < 0 then
    .error (.panic .genericInvalidHandle)
  else if (world.coController.tcbs cothread).state = .notActive then
    .error (.panic .destroyAlreadyNotInitialised)
  else if world.coController.running = 0 then
    .error (.panic .destroyCannotDestroyRoot)
  else
    match world.coController.pushFreeHandleQueue cothread with
    | (.noerr, controller) =>
      let world := { world with coController := controller }
      let world := world.setState cothread .notActive
      if cothread = world.coController.running then
        internalGoNext point world
      else
        .ok world
    | (_, _) => .error (.panic .destroyCannotReleaseHandle)

/-- The client entry that `cothread_entry_wrapper` calls when it starts. -/
def cothreadEntryWrapperCallee (world : World) : Address :=
  (world.coController.tcbs world.coController.running).clientEntry

/-- The rest of `cothread_entry_wrapper` once the client's entry has returned.
The panic behind the destruction is in `World.resume`. -/
def cothreadEntryReturn (config : Config) (world : World) : Except Fault World :=
  microkitCothreadDestroy config .entryReturn world.coController.running world

end Libmicrokitco
