import Libmicrokitco.Sched.Runs
import Libmicrokitco.Libco.Riscv64

/-!
# Replaying calls

`replay` runs a list of calls from a given world as long as each is allowed and
returns. What it returns is the end of a run, so that runs on given inputs can
be computed.
-/

namespace Libmicrokitco

/-- The world after the calls, if all are allowed and return. -/
def replay (config : Config) (Allowed : World → Call → Prop)
    [∀ world call, Decidable (Allowed world call)] : World → List Call → Option World
  | world, [] => some world
  | world, call :: rest =>
    if Allowed world call then
      match step config world call with
      | .ok (_, next) => replay config Allowed next rest
      | .error _ => none
    else none

/-- The world after initialisation with the given stacks and the calls. -/
def replayFromInit (config : Config) (Allowed : World → Call → Prop)
    [∀ world call, Decidable (Allowed world call)] (coStackSize : BitVec 64)
    (coStacks : Nat → Address) (calls : List Call) : Option World :=
  match microkitCothreadInit config none (fun _ => .zeroed) (fun _ => 0#8) coStackSize coStacks with
  | .ok start => replay config Allowed start calls
  | .error _ => none

variable {config : Config} {Allowed : World → Call → Prop}
  [∀ world call, Decidable (Allowed world call)] {start final : World} {calls : List Call}

theorem replay_run (replayed : replay config Allowed start calls = some final) :
    ∃ history, Run config Allowed start history final ∧
      history.map (fun transition => transition.label.1) = calls := by
  induction calls generalizing start with
  | nil =>
    cases replayed
    exact ⟨[], .nil, rfl⟩
  | cons call rest ih =>
    simp only [replay] at replayed
    split at replayed
    · rename_i allowed
      split at replayed
      · rename_i answer next success
        obtain ⟨history, run, same⟩ := ih replayed
        have taken : Run config Allowed start [⟨start, (call, answer), next⟩] next :=
          .snoc .nil ⟨allowed, success⟩
        exact ⟨⟨start, (call, answer), next⟩ :: history, taken.append run, by simp [same]⟩
      · cases replayed
    · cases replayed

/-- A replay that can be observed is a run on the given stacks with that observation. -/
theorem exists_run_on_of_replay {Observation : Type} {observe : World → Observation}
    {seen : Observation} {coStackSize : BitVec 64} {coStacks : Nat → Address}
    (replayed : (replayFromInit config Allowed coStackSize coStacks calls).map observe = some seen) :
    ∃ start history final, microkitCothreadInit config none (fun _ => .zeroed) (fun _ => 0#8)
        coStackSize coStacks = .ok start ∧ Run config Allowed start history final ∧
      history.map (fun transition => transition.label.1) = calls ∧ observe final = seen := by
  obtain ⟨final, same, rfl⟩ := Option.map_eq_some_iff.mp replayed
  unfold replayFromInit at same
  split at same
  · rename_i start success
    obtain ⟨history, run, labels⟩ := replay_run same
    exact ⟨start, history, final, success, run, labels, rfl⟩
  · cases same

theorem exists_run_of_replay {Observation : Type} {observe : World → Observation}
    {seen : Observation} {coStackSize : BitVec 64} {coStacks : Nat → Address}
    (replayed : (replayFromInit config Allowed coStackSize coStacks calls).map observe = some seen) :
    ∃ start history final, Started config start ∧ Run config Allowed start history final ∧
      history.map (fun transition => transition.label.1) = calls ∧ observe final = seen := by
  obtain ⟨start, history, final, initialised, run, labels, observed⟩ :=
    exists_run_on_of_replay replayed
  exact ⟨start, history, final, ⟨_, _, _, _, initialised⟩, run, labels, observed⟩

/-- The answers of the calls and the threads that run after them, from
initialisation on, if all are allowed and return. -/
def rehearse (config : Config) (Allowed : World → Call → Prop)
    [∀ world call, Decidable (Allowed world call)] : World → List Call → Option (List (Answer × Int))
  | _, [] => some []
  | world, call :: rest =>
    if Allowed world call then
      match step config world call with
      | .ok (answer, next) =>
        (rehearse config Allowed next rest).map ((answer, next.coController.running) :: ·)
      | .error _ => none
    else none

def rehearseFromInit (config : Config) (Allowed : World → Call → Prop)
    [∀ world call, Decidable (Allowed world call)] (coStackSize : BitVec 64)
    (coStacks : Nat → Address) (calls : List Call) : Option (List (Answer × Int)) :=
  match microkitCothreadInit config none (fun _ => .zeroed) (fun _ => 0#8) coStackSize coStacks with
  | .ok start => rehearse config Allowed start calls
  | .error _ => none

theorem rehearse_run {seen : List (Answer × Int)}
    (rehearsed : rehearse config Allowed start calls = some seen) :
    ∃ history final, Run config Allowed start history final ∧
      history.map (fun transition => transition.label.1) = calls ∧
      history.map (fun transition => (transition.label.2, transition.after.coController.running)) =
        seen := by
  induction calls generalizing start seen with
  | nil =>
    cases rehearsed
    exact ⟨[], start, .nil, rfl, rfl⟩
  | cons call rest ih =>
    simp only [rehearse] at rehearsed
    split at rehearsed
    · rename_i allowed
      split at rehearsed
      · rename_i answer next success
        obtain ⟨later, sameLater, rfl⟩ := Option.map_eq_some_iff.mp rehearsed
        obtain ⟨history, final, run, same, observed⟩ := ih sameLater
        have taken : Run config Allowed start [⟨start, (call, answer), next⟩] next :=
          .snoc .nil ⟨allowed, success⟩
        exact ⟨⟨start, (call, answer), next⟩ :: history, final, taken.append run, by simp [same],
          by simp [observed]⟩
      · cases rehearsed
    · cases rehearsed

/-- What can be rehearsed is a run on the given stacks. -/
theorem exists_run_of_rehearse {coStackSize : BitVec 64} {coStacks : Nat → Address}
    {seen : List (Answer × Int)}
    (rehearsed : rehearseFromInit config Allowed coStackSize coStacks calls = some seen) :
    ∃ start, microkitCothreadInit config none (fun _ => .zeroed) (fun _ => 0#8) coStackSize
        coStacks = .ok start ∧ ∃ history final, Run config Allowed start history final ∧
      history.map (fun transition => transition.label.1) = calls ∧
      history.map (fun transition => (transition.label.2, transition.after.coController.running)) =
        seen := by
  unfold rehearseFromInit at rehearsed
  split at rehearsed
  · rename_i start success
    exact ⟨start, success, rehearse_run rehearsed⟩
  · cases rehearsed

/-- The fault of a call that does not return. -/
def faultOf (config : Config) (call : Call) (world : World) : Option Fault :=
  match step config world call with
  | .ok _ => none
  | .error fault => some fault

omit [∀ world call, Decidable (Allowed world call)] in
theorem faultOf_eq_some {world : World} {call : Call} {fault : Fault} :
    faultOf config call world = some fault ↔ step config world call = .error fault := by
  unfold faultOf
  cases step config world call with
  | ok answered => simp
  | error failure => simp

/-- The answer of a call that returns. -/
def answerOf (config : Config) (call : Call) (world : World) : Option Answer :=
  match step config world call with
  | .ok (answer, _) => some answer
  | .error _ => none

omit [∀ world call, Decidable (Allowed world call)] in
theorem answerOf_eq_some {world : World} {call : Call} {answer : Answer} :
    answerOf config call world = some answer ↔
      ∃ next, step config world call = .ok (answer, next) := by
  unfold answerOf
  cases step config world call with
  | ok answered => simp [Prod.ext_iff]
  | error failure => simp

/-- A build for RISC-V with `count + 2` cothreads and one channel. -/
def sampleConfig (count : Nat) (fits : count + 2 < 2 ^ 31) : Config where
  maxCothreads := count + 2
  maxChannels := 1
  backend := Riscv64.backend .soft 0x1000#64
  cothreadEntryWrapper := 0x2000#64
  atLeastTwo := by omega
  fitsInt := fits

/-- Stacks of `0x1000` bytes at the multiples of `0x10000`. -/
def sampleStacks (i : Nat) : Address := BitVec.ofNat 64 (0x10000 * (i + 1))

/-- Two handles: the root and one cothread. -/
def twoHandles : Config := sampleConfig 0 (by decide)

/-- Three handles: the root and two cothreads. -/
def threeHandles : Config := sampleConfig 1 (by decide)

/-- Four handles: the root and three cothreads. -/
def fourHandles : Config := sampleConfig 2 (by decide)

/-- The running thread and the two rings. -/
def World.glance (world : World) : Int × List Int × List Int :=
  (world.coController.running, world.schedulingEntries, world.freeEntries)

/-- A spawn with some entry and argument. -/
def Call.someSpawn : Call := .spawn 0x3000#64 0#64

end Libmicrokitco
