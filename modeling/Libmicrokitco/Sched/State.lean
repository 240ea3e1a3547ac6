import Libmicrokitco.Cothread.Calls

/-!
# The scheduler over plain lists

`Sched` is the state of the library with its two rings read as lists and its
TCB table split by field; the wait lists stay the intrusive lists of the code.
`Sched.step` is one call on that state. `Sched.Refinement` shows that the ring
implementation computes exactly this, so the invariants are proved here.
-/

namespace Libmicrokitco

@[ext]
structure Sched where
  running : Int
  state : Int → CoState
  /-- `next_blocked_on_same_event`. -/
  link : Int → Int
  /-- Entries of the scheduling queue, stale ones included. -/
  queue : List Int
  free : List Int
  sem : SemRef → CothreadSem
  initialised : Nat → Bool
  coHandle : Int → CothreadT
  libco : Libco
  localStorage : Int → Address
  clientEntry : Int → Address
  privateArg : Int → Address
  coStackSize : BitVec 32
  memory : Memory

/-- The first dispatchable entry and the entries behind it. -/
def pick (state : Int → CoState) : List Int → Int × List Int
  | [] => (schedulerNullChoice, [])
  | entry :: rest =>
    if entry = 0 ∨ state entry = .ready then (entry, rest) else pick state rest

namespace Sched

def resume (sched : Sched) : Except Fault Sched :=
  match sched.libco.resumed with
  | .suspended _ .entryReturn => .error (.panic .cannotDestroySelfAfterReturn)
  | _ => .ok sched

/-- The state in which `next` continues. -/
def switched (point : SwitchPoint) (next : Int) (sched : Sched) : Sched :=
  { sched with
    state := Function.update sched.state next .running
    running := next
    libco := sched.libco.coSwitch point (sched.coHandle next) }

def dispatch (point : SwitchPoint) (next : Int) (sched : Sched) : Except Fault Sched :=
  resume (sched.switched point next)

/-- The thread the scheduler falls back to when it chose none. -/
def orRoot (choice : Int) : Int :=
  if choice = schedulerNullChoice then 0 else choice

def goNext (point : SwitchPoint) (sched : Sched) : Except Fault Sched :=
  dispatch point (orRoot (pick sched.state sched.queue).1)
    { sched with queue := (pick sched.state sched.queue).2 }

/-- The caller, ready at the back of the scheduling queue. -/
def requeued (sched : Sched) : Sched :=
  { sched with
    queue := sched.queue ++ [sched.running]
    state := Function.update sched.state sched.running .ready }

def requeue (config : Config) (err : InternalCoFatalErrors) (sched : Sched) :
    Except Fault Sched :=
  if sched.queue.length = config.maxCothreads then .error (.panic err) else .ok sched.requeued

def setSem (sem : SemRef) (value : CothreadSem) (sched : Sched) : Sched :=
  { sched with sem := Function.update sched.sem sem value }

/-- The caller, blocked at the end of the wait list of `sem`. -/
def blockedOn (sem : SemRef) (sched : Sched) : Sched :=
  { sched with
    state := Function.update sched.state sched.running .blocked
    link :=
      if (sched.sem sem).head = nullHandle then sched.link
      else Function.update sched.link (sched.sem sem).tail sched.running
    sem := Function.update sched.sem sem
      { sched.sem sem with
        head :=
          if (sched.sem sem).head = nullHandle then sched.running else (sched.sem sem).head
        tail := sched.running } }

/-- The wait list of `sem` without its first thread. -/
def unlinked (sem : SemRef) (sched : Sched) : Sched :=
  { sched with
    link := Function.update sched.link (sched.sem sem).head nullHandle
    sem := Function.update sched.sem sem
      (if sched.link (sched.sem sem).head = nullHandle then
        microkitCothreadSemaphoreInit (sched.sem sem)
      else { sched.sem sem with head := sched.link (sched.sem sem).head }) }

/-- A handle given back. -/
def released (cothread : Int) (sched : Sched) : Sched :=
  { sched with
    free := sched.free ++ [cothread]
    state := Function.update sched.state cothread .notActive }

/-- Handle `new` taken from the free handles, of which `rest` remain. -/
def spawned (config : Config) (clientEntry privateArg : Address) (new : Int)
    (rest : List Int) (sched : Sched) : Sched :=
  let costack := sched.localStorage new
  let made := config.backend.coDerive
    (memzero costack (sched.coStackSize.signExtend 64) sched.memory) costack sched.coStackSize
    config.cothreadEntryWrapper
  { sched with
    free := rest
    queue := sched.queue ++ [new]
    state := Function.update sched.state new .ready
    link := Function.update sched.link new nullHandle
    coHandle := Function.update sched.coHandle new (.stack made.2)
    libco := sched.libco.coDerive (.stack made.2)
    clientEntry := Function.update sched.clientEntry new clientEntry
    privateArg := Function.update sched.privateArg new privateArg
    memory := made.1 }

def wait (sem : SemRef) (sched : Sched) : Except Fault Sched :=
  if (sched.sem sem).set then
    .ok (sched.setSem sem { sched.sem sem with set := false })
  else
    goNext .semaphoreWait (sched.blockedOn sem)

def signal (config : Config) (sem : SemRef) (sched : Sched) : Except Fault Sched :=
  if (sched.sem sem).set then
    .ok sched
  else if (sched.sem sem).head = nullHandle then
    .ok (sched.setSem sem { sched.sem sem with set := true })
  else do
    let requeued ← sched.requeue config .coErrSemSigOnceCannotScheduleCaller
    dispatch .semaphoreSignal (sched.sem sem).head (requeued.unlinked sem)

def yield (config : Config) (sched : Sched) : Except Fault Sched := do
  let requeued ← sched.requeue config .yieldCannotScheduleCaller
  goNext .yield requeued

def spawn (config : Config) (clientEntry privateArg : Address) (sched : Sched) :
    Except Fault (Int × Sched) :=
  if clientEntry = 0#64 then
    .error (.panic .spawnClientEntryIsNull)
  else
    match sched.free with
    | [] => .ok (nullHandle, sched)
    | new :: rest =>
      if sched.queue.length = config.maxCothreads then
        .error (.panic .spawnCannotScheduleNew)
      else
        .ok (new, sched.spawned config clientEntry privateArg new rest)

def destroy (config : Config) (point : SwitchPoint) (cothread : Int) (sched : Sched) :
    Except Fault Sched :=
  if cothread ≥ config.maxCothreads ∨ cothread < 0 then
    .error (.panic .genericInvalidHandle)
  else if sched.state cothread = .notActive then
    .error (.panic .destroyAlreadyNotInitialised)
  else if sched.running = 0 then
    .error (.panic .destroyCannotDestroyRoot)
  else if sched.free.length = config.maxCothreads then
    .error (.panic .destroyCannotReleaseHandle)
  else if cothread = sched.running then
    goNext point (sched.released cothread)
  else
    .ok (sched.released cothread)

def setArg (config : Config) (cothread : Int) (privateArg : Address) (sched : Sched) :
    Except Fault Sched :=
  if cothread ≥ config.maxCothreads ∨ cothread < 0 ∨ sched.state cothread = .notActive then
    .error (.panic .genericInvalidHandle)
  else
    .ok { sched with privateArg := Function.update sched.privateArg cothread privateArg }

def returning (result : Except Fault Sched) : Except Fault (Answer × Sched) :=
  (fun sched => (.unit, sched)) <$> result

def step (config : Config) (sched : Sched) : Call → Except Fault (Answer × Sched)
  | .freeHandleAvailable =>
    .ok (.freeHandle (sched.free ≠ []) (sched.free.headD nullHandle), sched)
  | .spawn clientEntry privateArg =>
    (fun (h, sched) => (.handle h, sched)) <$> sched.spawn config clientEntry privateArg
  | .setArg cothread privateArg => returning (sched.setArg config cothread privateArg)
  | .queryState cothread =>
    if cothread ≥ config.maxCothreads ∨ cothread < 0 then
      .error (.panic .genericInvalidHandle)
    else .ok (.state (sched.state cothread), sched)
  | .myHandle => .ok (.handle sched.running, sched)
  | .myArg =>
    if sched.running = 0 then .error (.panic .myArgCalledFromRoot)
    else .ok (.arg (sched.privateArg sched.running), sched)
  | .yield => returning (sched.yield config)
  | .destroy cothread => returning (sched.destroy config .selfDestroy cothread)
  | .semaphoreInit id =>
    .ok (.unit,
      { sched.setSem (.client id) (microkitCothreadSemaphoreInit (sched.sem (.client id))) with
        initialised := Function.update sched.initialised id true })
  | .semaphoreWait sem => returning (sched.wait sem)
  | .semaphoreSignal sem => returning (sched.signal config sem)
  | .semaphoreIsQueueEmpty sem =>
    .ok (.flag (microkitCothreadSemaphoreIsQueueEmpty (sched.sem sem)), sched)
  | .semaphoreIsSet sem => .ok (.flag (microkitCothreadSemaphoreIsSet (sched.sem sem)), sched)
  | .waitOnChannel wakeOn =>
    if wakeOn ≥ config.maxChannels then .error (.panic .waitOnChannelInvalidChannel)
    else returning (sched.wait (.channel wakeOn))
  | .recvNtfn ch =>
    if sched.running ≠ 0 then .error (.panic .recvNtfnCalledFromNonRootCothread)
    else if ch ≥ config.maxChannels then .error (.panic .recvNtfnInvalidChannel)
    else returning (sched.signal config (.channel ch))
  | .entryReturn => returning (sched.destroy config .entryReturn sched.running)

end Sched

/-- The list reading of a world. -/
def World.view (world : World) : Sched where
  running := world.coController.running
  state h := (world.coController.tcbs h).state
  link h := (world.coController.tcbs h).nextBlockedOnSameEvent
  queue := world.schedulingEntries
  free := world.freeEntries
  sem := world.sem
  initialised := world.initialised
  coHandle h := (world.coController.tcbs h).coHandle
  libco := world.libco
  localStorage h := (world.coController.tcbs h).localStorage
  clientEntry h := (world.coController.tcbs h).clientEntry
  privateArg h := (world.coController.tcbs h).privateArg
  coStackSize := world.coController.coStackSize
  memory := world.memory

end Libmicrokitco
