import Libmicrokitco.Guarantees.LiveStacks
import Libmicrokitco.Isa.Coroutines
import Libmicrokitco.System.Port

/-!
# The library on a processor

`Installation.Step` runs client code, the library and `co_swap` on one processor.
The code of the library itself is not executed: a call changes the world as
`step` does, and the processor comes out of it somehow, with the client's memory
as the call left it. Where the call switches, that is followed by a run of
`co_swap` between the handles of the two threads.
-/

namespace Libmicrokitco

open Isa

/-- The call ends in `co_switch`. -/
def Call.switches (world : World) : Call → Bool
  | .yield | .entryReturn => true
  | .destroy cothread => cothread = world.coController.running
  | .semaphoreWait sem => !(world.sem sem).set
  | .waitOnChannel wakeOn => !(world.sem (.channel wakeOn)).set
  | .semaphoreSignal sem => !(world.sem sem).set && (world.sem sem).head ≠ nullHandle
  | .recvNtfn ch =>
    !(world.sem (.channel ch)).set && (world.sem (.channel ch)).head ≠ nullHandle
  | .freeHandleAvailable | .spawn _ _ | .setArg _ _ | .queryState _ | .myHandle | .myArg
  | .semaphoreInit _ | .semaphoreIsQueueEmpty _ | .semaphoreIsSet _ => false

/-- The library on a port after a successful `microkit_cothread_init`. The save
area of the root is in libco's own buffer, which counts as a part of its stack. -/
structure Installation (ρ : Type) [DecidableEq ρ] [Registers ρ] where
  config : Config
  port : Port ρ
  clientSems : Nat → CothreadSem
  memory : Memory
  coStackSize : BitVec 64
  coStacks : Nat → Address
  start : World
  rootHandle : Address
  rootStack : Address → Prop
  backend : config.backend = port.backend
  lawful : port.Lawful
  initialised : microkitCothreadInit config none clientSems memory coStackSize coStacks = .ok start
  /-- The size is recorded and passed on as an `int`. -/
  short : coStackSize.toNat < 2 ^ 31
  rootApart : ∀ i < config.maxCothreads - 1, ∀ place,
    StackBytes coStackSize (coStacks i) place → ¬ rootStack place
  serves : ∀ i < config.maxCothreads - 1,
    port.Serves (port.handle (coStacks i) (coStackSize.setWidth 32))

/-- What is running: the world, and the processor with the client's memory. -/
structure Machine (ρ : Type) where
  world : World
  cpu : Cpu ρ

/-- What happens: client code, or a call with its answer. `entered` is the processor
at the call of `co_swap`, or at the return if there is none. -/
inductive Event (ρ : Type) where
  | compute
  | call (call : Call) (answer : Answer) (entered : Cpu ρ)

/-- The handle that a spawn answered. -/
def Event.spawns {ρ : Type} : Event ρ → Option Int
  | .compute => none
  | .call made answer _ => made.spawns answer

/-- The world with the memory of the processor. -/
def Machine.seen {ρ : Type} (machine : Machine ρ) : World :=
  { machine.world with memory := machine.cpu.memory }

namespace Installation

variable {ρ : Type} [DecidableEq ρ] [Registers ρ] (inst : Installation ρ)

/-- The stack size as `co_derive` gets it. -/
def size : BitVec 32 := inst.coStackSize.setWidth 32

/-- The stack of a cothread. -/
def base (h : Int) : Address := inst.coStacks (h - 1).toNat

/-- The pointer that a `cothread_t` is. -/
def address : CothreadT → Address
  | .null => 0#64
  | .rootBuffer => inst.rootHandle
  | .stack top => top

theorem accepted : StacksAccepted inst.config inst.coStackSize inst.coStacks inst.start :=
  init_accepted inst.initialised

/-- The threads as the processor sees them. -/
def crew : Crew ρ Int where
  mechanism := inst.port.mechanism
  handle h := if h = rootThread then inst.rootHandle else inst.port.handle (inst.base h) inst.size
  OnStack h place := Sched.InRange inst.config h ∧
    OnStack inst.coStackSize inst.coStacks inst.rootStack h place
  apart := by
    rintro g h different place ⟨gRange, onStack⟩ ⟨hRange, alsoOnStack⟩
    by_cases hRoot : h = 0
    · subst hRoot
      have positive : 0 < g := lt_of_le_of_ne gRange.1 different.symm
      exact onStack_apart inst.accepted inst.rootApart hRange positive gRange.2 different.symm
        alsoOnStack onStack
    · have positive : 0 < h := lt_of_le_of_ne hRange.1 (Ne.symm hRoot)
      exact onStack_apart inst.accepted inst.rootApart gRange positive hRange.2 different onStack
        alsoOnStack

/-- One step. Client code and the library stay on the stack of the running
thread, and a call of `co_swap` finds room there for the context of its caller. -/
inductive Step : Machine ρ → Event ρ → Machine ρ → Prop where
  | compute {machine : Machine ρ} {cpu : Cpu ρ}
      (spares : inst.crew.Spares machine.world.coController.running machine.cpu.memory cpu.memory) :
      Step machine .compute { machine with cpu := cpu }
  | returned {machine : Machine ρ} {call : Call} {answer : Answer} {next : World} {entered : Cpu ρ}
      (allowed : Sparing inst.config machine.seen call)
      (success : step inst.config machine.seen call = .ok (answer, next))
      (spares : inst.crew.Spares machine.world.coController.running next.memory entered.memory)
      (stays : call.switches machine.seen = false) :
      Step machine (.call call answer entered) ⟨next, entered⟩
  | switched {machine : Machine ρ} {call : Call} {answer : Answer} {next : World}
      {entered after : Cpu ρ} (allowed : Sparing inst.config machine.seen call)
      (success : step inst.config machine.seen call = .ok (answer, next))
      (spares : inst.crew.Spares machine.world.coController.running next.memory entered.memory)
      (switches : call.switches machine.seen = true)
      (enters : inst.port.mechanism.Enters
        (inst.address (next.coController.tcbs next.coController.running).coHandle)
        (inst.address machine.world.libco.coActiveHandle) entered)
      (within : inst.crew.Within machine.world.coController.running
        (inst.port.mechanism.captured entered))
      (ran : inst.port.mechanism.run entered = some after) :
      Step machine (.call call answer entered) ⟨next, after⟩

/-- A run of the whole system. -/
abbrev Run (start : Machine ρ) (history : List (Transition (Machine ρ) (Event ρ)))
    (final : Machine ρ) : Prop :=
  Trace inst.Step start history final

/-- A thread does not run, and its handle is not spawned, in the course of a run. -/
def Idle (h : Int) (history : List (Transition (Machine ρ) (Event ρ))) : Prop :=
  ∀ transition ∈ history, transition.label.spawns ≠ some h ∧
    transition.after.world.coController.running ≠ h

end Installation

namespace Sched

variable {config : Config} {world next : World} {call : Call} {answer : Answer}

theorem switches_of_waitsOn {sem : SemRef} (on : call.waitsOn = some sem) :
    call.switches world = !(world.sem sem).set := by
  cases call <;> cases on <;> rfl

theorem switches_of_signalsOn {sem : SemRef} (on : call.signalsOn = some sem) :
    call.switches world = (!(world.sem sem).set && (world.sem sem).head ≠ nullHandle) := by
  cases call <;> cases on <;> rfl

theorem switches_of_destroys {cothread : Int}
    (destroys : call.destroys world.coController.running = some cothread) :
    call.switches world = decide (cothread = world.coController.running) := by
  cases call <;> cases destroys <;> simp [Call.switches]

theorem switches_of_passive (passive : call.Passive) : call.switches world = false := by
  cases call <;> first | rfl | exact passive.elim

/-- A call that switches asks libco for a switch to the thread that runs next; one
that does not leaves its caller running. -/
theorem Effect.switches (effect : Effect config world.view call answer next.view) :
    call.switches world = false ∧ next.view.running = world.view.running ∨
      call.switches world = true ∧ call.spawns answer = none ∧ ∃ point,
        next.view.libco = world.view.libco.coSwitch point
          (next.view.coHandle next.view.running) := by
  generalize view : next.view = after at effect ⊢
  cases effect with
  | queried passive => exact .inl ⟨switches_of_passive passive, rfl⟩
  | peeked | argued | exhausted | spawned | initialised => exact .inl ⟨rfl, rfl⟩
  | consumed on _ set =>
    refine .inl ⟨?_, rfl⟩
    rw [switches_of_waitsOn on, show (world.sem _).set = true from set]
    rfl
  | blocked on _ clear =>
    refine .inr ⟨?_, Call.spawns_of_waitsOn on, _, rfl⟩
    rw [switches_of_waitsOn on, show (world.sem _).set = false from clear]
    rfl
  | ignored on _ set =>
    refine .inl ⟨?_, rfl⟩
    rw [switches_of_signalsOn on, show (world.sem _).set = true from set]
    rfl
  | raised on _ _ empty =>
    refine .inl ⟨?_, rfl⟩
    rw [switches_of_signalsOn on, show (world.sem _).head = nullHandle from empty]
    simp
  | handedOver on _ clear nonempty =>
    refine .inr ⟨?_, Call.spawns_of_signalsOn on, _, rfl⟩
    have waiting : (world.sem _).head ≠ nullHandle := nonempty
    rw [switches_of_signalsOn on, show (world.sem _).set = false from clear]
    simpa using waiting
  | yielded => exact .inr ⟨rfl, rfl, _, rfl⟩
  | @destroyed cothread _ _ _ _ other =>
    have notCaller : cothread ≠ world.coController.running := other
    refine .inl ⟨?_, rfl⟩
    simpa [Call.switches] using notCaller
  | exited self =>
    refine .inr ⟨?_, Call.spawns_of_destroys self, _, rfl⟩
    rw [switches_of_destroys self]
    exact decide_eq_true rfl

theorem Effect.unspawned_of_switches (effect : Effect config world.view call answer next.view)
    (switches : call.switches world = true) : call.spawns answer = none := by
  rcases effect.switches with ⟨stays, -⟩ | ⟨-, unspawned, -⟩
  · rw [switches] at stays
    cases stays
  · exact unspawned

/-- Only a spawn that answers a handle writes to the client's memory. -/
theorem Effect.memory_kept {sched after : Sched} (effect : Effect config sched call answer after)
    (sound : Sound config (some sched.running) sched) (unspawned : call.spawns answer = none) :
    after.memory = sched.memory := by
  cases effect with
  | @spawned _ _ new rest _ free =>
    have isFree : new ∈ sched.free := by
      rw [free]
      exact List.mem_cons_self
    have positive := ((sound.free.exact new).mp isFree).1
    simp [Call.spawns, positive_ne_nullHandle positive] at unspawned
  | _ => rfl

end Sched

end Libmicrokitco
