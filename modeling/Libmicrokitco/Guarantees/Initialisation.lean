import Libmicrokitco.Guarantees.Replay
import Libmicrokitco.Sched.Initial

/-!
# What `microkit_cothread_init` accepts

Exactly the stacks that are not `NULL` and pairwise disjoint, and the state it
leaves.
-/

namespace Libmicrokitco

/-- The state of the controller that a fresh instance starts from. -/
structure World.AtStart (config : Config) (coStacks : Nat → Address) (world : World) : Prop where
  running : world.coController.running = rootThread
  rootState : (world.coController.tcbs rootThread).state = .running
  rootLink : (world.coController.tcbs rootThread).nextBlockedOnSameEvent = nullHandle
  others : ∀ i < config.maxCothreads - 1,
    (world.coController.tcbs ((i + 1 : Nat) : Int)).state = .notActive ∧
      (world.coController.tcbs ((i + 1 : Nat) : Int)).localStorage = coStacks i
  free : world.freeEntries = spawnableHandles config
  scheduling : world.schedulingEntries = []
  channels : ∀ ch < config.maxChannels,
    world.coController.blockedChannelMap ch = ⟨false, nullHandle, nullHandle⟩

variable {config : Config} {world : World}

theorem init_atStart {clientSems : Nat → CothreadSem} {memory : Memory} {coStackSize : BitVec 64}
    {coStacks : Nat → Address}
    (success : microkitCothreadInit config none clientSems memory coStackSize coStacks = .ok world) :
    world.AtStart config coStacks := by
  have started : Started config world := ⟨_, _, _, _, success⟩
  obtain ⟨-, initial⟩ := started.initial
  have accepted := init_accepted success
  constructor
  case running => exact initial.running
  case rootState => exact initial.state rootThread
  case rootLink => exact initial.link rootThread
  case others =>
    intro i below
    have notRoot : ((i + 1 : Nat) : Int) ≠ 0 := by omega
    exact ⟨(initial.state _).trans (if_neg notRoot), accepted.localStorage i below⟩
  case free => exact initial.free
  case scheduling => exact initial.queue
  case channels => exact initial.channels

/-- Two adjacent stacks, the upper of which ends with the address space. -/
def adjacentStacks (i : Nat) : Address :=
  if i = 0 then 0xffffffffffffe000#64 else 0xfffffffffffff000#64

end Libmicrokitco
