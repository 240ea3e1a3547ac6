import Libmicrokitco.Cothread.Lifecycle
import Libmicrokitco.Semantics.Trace

/-!
# The system of library calls

The running thread makes one public call after another; a call that switches
away leaves another thread running. `step` is one call, `Run` a finite run of
calls that the clients are allowed to make. A run ends at a fault, since no
step follows one.
-/

namespace Libmicrokitco

/-- A public call of the running thread. `entryReturn` is the return of a
cothread's client entry. -/
inductive Call where
  | freeHandleAvailable
  | spawn (clientEntry privateArg : Address)
  | setArg (cothread : Int) (privateArg : Address)
  | queryState (cothread : Int)
  | myHandle
  | myArg
  | yield
  | destroy (cothread : Int)
  | semaphoreInit (id : Nat)
  | semaphoreWait (sem : SemRef)
  | semaphoreSignal (sem : SemRef)
  | semaphoreIsQueueEmpty (sem : SemRef)
  | semaphoreIsSet (sem : SemRef)
  | waitOnChannel (wakeOn : Nat)
  | recvNtfn (ch : Nat)
  | entryReturn
deriving DecidableEq, Repr

/-- The value a call answers to its caller. -/
inductive Answer where
  | unit
  | handle (h : Int)
  | freeHandle (available : Bool) (h : Int)
  | state (state : CoState)
  | arg (arg : Address)
  | flag (value : Bool)
deriving DecidableEq, Repr

def returning (result : Except Fault World) : Except Fault (Answer × World) :=
  (fun world => (.unit, world)) <$> result

def step (config : Config) (world : World) : Call → Except Fault (Answer × World)
  | .freeHandleAvailable =>
    let (available, h) := microkitCothreadFreeHandleAvailable nullHandle world
    .ok (.freeHandle available h, world)
  | .spawn clientEntry privateArg =>
    (fun (h, world) => (.handle h, world)) <$>
      microkitCothreadSpawn config clientEntry privateArg world
  | .setArg cothread privateArg =>
    returning (microkitCothreadSetArg config cothread privateArg world)
  | .queryState cothread =>
    (fun state => (.state state, world)) <$> microkitCothreadQueryState config cothread world
  | .myHandle => .ok (.handle (microkitCothreadMyHandle world), world)
  | .myArg => (fun arg => (.arg arg, world)) <$> microkitCothreadMyArg world
  | .yield => returning (microkitCothreadYield world)
  | .destroy cothread => returning (microkitCothreadDestroy config .selfDestroy cothread world)
  | .semaphoreInit id =>
    .ok (.unit, { world with
      clientSems := Function.update world.clientSems id
        (microkitCothreadSemaphoreInit (world.clientSems id))
      initialised := Function.update world.initialised id true })
  | .semaphoreWait sem => returning (microkitCothreadSemaphoreWait sem world)
  | .semaphoreSignal sem => returning (microkitCothreadSemaphoreSignal sem world)
  | .semaphoreIsQueueEmpty sem =>
    .ok (.flag (microkitCothreadSemaphoreIsQueueEmpty (world.sem sem)), world)
  | .semaphoreIsSet sem => .ok (.flag (microkitCothreadSemaphoreIsSet (world.sem sem)), world)
  | .waitOnChannel wakeOn => returning (microkitCothreadWaitOnChannel config wakeOn world)
  | .recvNtfn ch => returning (microkitCothreadRecvNtfn config ch world)
  | .entryReturn => returning (cothreadEntryReturn config world)

/-- The semaphore a call waits on. -/
def Call.waitsOn : Call → Option SemRef
  | .semaphoreWait sem => some sem
  | .waitOnChannel wakeOn => some (.channel wakeOn)
  | _ => none

/-- The semaphore a call signals. -/
def Call.signalsOn : Call → Option SemRef
  | .semaphoreSignal sem => some sem
  | .recvNtfn ch => some (.channel ch)
  | _ => none

/-- The semaphore a call reads through a pointer of the client. -/
def Call.semaphore : Call → Option SemRef
  | .semaphoreWait sem | .semaphoreSignal sem => some sem
  | .semaphoreIsQueueEmpty sem | .semaphoreIsSet sem => some sem
  | _ => none

/-- The cothread a call destroys. -/
def Call.destroys (running : Int) : Call → Option Int
  | .destroy cothread => some cothread
  | .entryReturn => some running
  | _ => none

/-- A semaphore that has been initialised. -/
def World.live (config : Config) (world : World) : SemRef → Prop
  | .channel ch => ch < config.maxChannels
  | .client id => world.initialised id = true

instance (config : Config) (world : World) (sem : SemRef) : Decidable (world.live config sem) :=
  match sem with
  | .channel ch => inferInstanceAs (Decidable (ch < config.maxChannels))
  | .client id => inferInstanceAs (Decidable (world.initialised id = true))

/-- The call is one that C gives a meaning: its semaphore is initialised, and
only a cothread has a client entry to return from. -/
structure WellPosed (config : Config) (world : World) (call : Call) : Prop where
  semaphoreLive : ∀ sem, call.semaphore = some sem → world.live config sem
  entered : call = .entryReturn → world.coController.running ≠ rootThread

instance (config : Config) (world : World) (call : Call) : Decidable (WellPosed config world call) :=
  decidable_of_iff
    ((∀ sem ∈ call.semaphore, world.live config sem) ∧
      (call = .entryReturn → world.coController.running ≠ rootThread))
    ⟨fun both => ⟨both.1, both.2⟩, fun posed => ⟨posed.semaphoreLive, posed.entered⟩⟩

/-- The root never waits. -/
def RootNeverWaits (world : World) (call : Call) : Prop :=
  call.waitsOn ≠ none → world.coController.running ≠ rootThread

/-- No call destroys the root. -/
def SparesRoot (call : Call) : Prop := call ≠ .destroy rootThread

/-- No call destroys a blocked cothread. -/
def SparesBlocked (world : World) (call : Call) : Prop :=
  ∀ cothread, cothread ≠ rootThread → call = .destroy cothread →
    (world.coController.tcbs cothread).state ≠ .blocked

instance (world : World) (call : Call) : Decidable (RootNeverWaits world call) :=
  inferInstanceAs (Decidable (_ → _))

instance (call : Call) : Decidable (SparesRoot call) := inferInstanceAs (Decidable (_ ≠ _))

instance (world : World) (call : Call) : Decidable (SparesBlocked world call) :=
  match call with
  | .destroy target =>
    decidable_of_iff (target ≠ rootThread → (world.coController.tcbs target).state ≠ .blocked)
      ⟨fun spared _ nonRoot same => by cases same; exact spared nonRoot,
        fun spared nonRoot => spared target nonRoot rfl⟩
  | .freeHandleAvailable | .spawn _ _ | .setArg _ _ | .queryState _ | .myHandle | .myArg
  | .yield | .semaphoreInit _ | .semaphoreWait _ | .semaphoreSignal _
  | .semaphoreIsQueueEmpty _ | .semaphoreIsSet _ | .waitOnChannel _ | .recvNtfn _
  | .entryReturn => isTrue fun _ _ same => by cases same

/-- No semaphore is initialised twice. -/
def InitialisesOnce (world : World) (call : Call) : Prop :=
  ∀ id, call = .semaphoreInit id → world.initialised id = false

instance (world : World) (call : Call) : Decidable (InitialisesOnce world call) :=
  match call with
  | .semaphoreInit id =>
    decidable_of_iff (world.initialised id = false)
      ⟨fun unset _ same => by cases same; exact unset, fun once => once id rfl⟩
  | .freeHandleAvailable | .spawn _ _ | .setArg _ _ | .queryState _ | .myHandle | .myArg
  | .yield | .destroy _ | .semaphoreWait _ | .semaphoreSignal _
  | .semaphoreIsQueueEmpty _ | .semaphoreIsSet _ | .waitOnChannel _ | .recvNtfn _
  | .entryReturn => isTrue fun _ same => by cases same

/-- One allowed call that returns. -/
def Step (config : Config) (Allowed : World → Call → Prop) (world : World)
    (label : Call × Answer) (next : World) : Prop :=
  Allowed world label.1 ∧ step config world label.1 = .ok (label.2, next)

/-- A finite run of allowed calls. -/
abbrev Run (config : Config) (Allowed : World → Call → Prop) (start : World)
    (history : List (Transition World (Call × Answer))) (final : World) : Prop :=
  Trace (Step config Allowed) start history final

/-- The state after a successful `microkit_cothread_init`. -/
def Started (config : Config) (world : World) : Prop :=
  ∃ clientSems memory coStackSize coStacks,
    microkitCothreadInit config none clientSems memory coStackSize coStacks = .ok world

/-- A call that destroys neither the root nor a blocked cothread. -/
structure Sparing (config : Config) (world : World) (call : Call) : Prop where
  wellPosed : WellPosed config world call
  sparesRoot : SparesRoot call
  sparesBlocked : SparesBlocked world call

instance (config : Config) (world : World) (call : Call) : Decidable (Sparing config world call) :=
  decidable_of_iff (WellPosed config world call ∧ SparesRoot call ∧ SparesBlocked world call)
    ⟨fun all => ⟨all.1, all.2.1, all.2.2⟩,
      fun sparing => ⟨sparing.wellPosed, sparing.sparesRoot, sparing.sparesBlocked⟩⟩

/-- A call of clients that keep to the documented use, whose root never waits. -/
structure Disciplined (config : Config) (world : World) (call : Call) : Prop
    extends Sparing config world call where
  rootNeverWaits : RootNeverWaits world call

instance (config : Config) (world : World) (call : Call) :
    Decidable (Disciplined config world call) :=
  decidable_of_iff (Sparing config world call ∧ RootNeverWaits world call)
    ⟨fun both => ⟨both.1, both.2⟩,
      fun disciplined => ⟨disciplined.toSparing, disciplined.rootNeverWaits⟩⟩

end Libmicrokitco
