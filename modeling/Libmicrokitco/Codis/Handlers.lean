import Libmicrokitco.Codis.Server
import Libmicrokitco.Cothread.Calls
import Libmicrokitco.Data.CString

/-!
# The server as a protection domain

`init`, `notified` and the cothreads that `client_handler` runs in. A cothread
gets from one `microkit_cothread_wait_on_channel` to the next in one step, since
it calls nothing else that switches away. What is printed is left out.
-/

namespace Libmicrokitco.Codis

/-- `arg_t`. -/
structure Arg where
  channel : Nat
  ipc : Address

/-- Where a cothread is in `client_handler`. -/
inductive Handler where
  | entered
  | waiting (myOwnedArgs : Arg)

/-- What the system description and the linker decide. -/
structure Setup where
  config : Config
  pages : Nat → Bool
  db : Address
  /-- `client1_ipc`, `client2_ipc` and `client3_ipc`. -/
  ipc : Fin 3 → Address
  /-- `stack1`, `stack2` and `stack3`. -/
  stack : Nat → Address
  /-- The address of `client_handler`. -/
  clientHandler : Address
  /-- The addresses of `arg1`, `arg2` and `arg3`. -/
  arg : Fin 3 → Address

/-- The state of the protection domain. -/
structure Domain where
  world : World
  dataLen : Nat → Int
  handlers : Int → Handler
  /-- The local variables of `init` while it runs. -/
  frame : Address → Option Arg
  /-- The channels that `microkit_notify` was called on. -/
  notifications : List Nat

def library {α : Type} : Except Fault α → Except Mishap α
  | .ok value => .ok value
  | .error fault => .error (.library fault)

namespace Domain

def server (setup : Setup) (domain : Domain) : Server :=
  ⟨⟨setup.pages, domain.world.memory⟩, domain.dataLen⟩

def setServer (server : Server) (domain : Domain) : Domain :=
  { domain with
    world := { domain.world with memory := server.space.bytes }
    dataLen := server.dataLen }

def setHandler (cothread : Int) (handler : Handler) (domain : Domain) : Domain :=
  { domain with handlers := Function.update domain.handlers cothread handler }

/-- `*arg_ptr`. -/
def readArg (domain : Domain) (argPtr : Address) : Except Mishap Arg :=
  match domain.frame argPtr with
  | some arg => .ok arg
  | none => .error (.dangling argPtr)

/-- `microkit_notify`. -/
def notify (channel : Nat) (domain : Domain) : Domain :=
  { domain with notifications := domain.notifications ++ [channel] }

/-- The head of the loop in `client_handler`. -/
def waitOnChannel (setup : Setup) (myOwnedArgs : Arg) (domain : Domain) : Except Mishap Domain := do
  let world ← library
    (microkitCothreadWaitOnChannel setup.config myOwnedArgs.channel domain.world)
  let waiting := domain.setHandler domain.world.coController.running (.waiting myOwnedArgs)
  return { waiting with world := world }

end Domain

/-- The running cothread, up to its next wait. -/
def clientHandler (setup : Setup) (domain : Domain) : Except Mishap Domain :=
  match domain.handlers domain.world.coController.running with
  | .entered => do
    let argPtr ← library (microkitCothreadMyArg domain.world)
    let myOwnedArgs ← domain.readArg argPtr
    domain.waitOnChannel setup myOwnedArgs
  | .waiting myOwnedArgs => do
    let server ← handleRequest setup.db myOwnedArgs.ipc (domain.server setup)
    ((domain.setServer server).notify myOwnedArgs.channel).waitOnChannel setup myOwnedArgs

/-- Cothreads run until one of them switches to the root. -/
def untilRoot (setup : Setup) : Nat → Domain → Except Mishap Domain
  | 0, _ => .error .diverged
  | fuel + 1, domain =>
    if domain.world.coController.running = rootThread then .ok domain
    else do untilRoot setup fuel (← clientHandler setup domain)

/-- The part of `init` that starts the cothread for a client. If it gets no
handle it loops forever. -/
def startHandler (setup : Setup) (client : Fin 3) (domain : Domain) : Except Mishap Domain := do
  let argPtr := setup.arg client
  let frame := Function.update domain.frame argPtr (some ⟨client, setup.ipc client⟩)
  let (handle, world) ← library
    (microkitCothreadSpawn setup.config setup.clientHandler argPtr domain.world)
  if handle = nullHandle then
    .error .diverged
  else
    return { domain.setHandler handle .entered with world := world, frame := frame }

def init (setup : Setup) (clientSems : Nat → CothreadSem) (memory : Memory) :
    Except Mishap Domain := do
  let space ← memzero setup.db (BitVec.ofNat 64 (nBuckets * bucketSize)) ⟨setup.pages, memory⟩
  let world ← library
    (microkitCothreadInit setup.config none clientSems space.bytes 0x2000#64 setup.stack)
  let domain : Domain :=
    { world := world
      dataLen := fun _ => 0
      handlers := fun _ => .entered
      frame := fun _ => none
      notifications := [] }
  let domain ← startHandler setup 0 domain
  let domain ← startHandler setup 1 domain
  let domain ← startHandler setup 2 domain
  let world ← library (microkitCothreadYield domain.world)
  let domain ← untilRoot setup everywhere { domain with world := world }
  return { domain with frame := fun _ => none }

def notified (setup : Setup) (channel : Nat) (domain : Domain) : Except Mishap Domain := do
  let world ← library (microkitCothreadRecvNtfn setup.config channel domain.world)
  untilRoot setup everywhere { domain with world := world }

/-- What a client writes to its page, or the event loop running `notified`. -/
def Domain.receive (setup : Setup) (domain : Domain) : Event → Except Mishap Domain
  | .written client page =>
    let memory := fun place =>
      if CString.Within (setup.ipc client) bucketSize place then
        page (place - setup.ipc client).toNat
      else domain.world.memory place
    .ok { domain with world := { domain.world with memory := memory } }
  | .notified client => notified setup client domain

end Libmicrokitco.Codis
