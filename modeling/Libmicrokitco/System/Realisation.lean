import Libmicrokitco.Guarantees.Obliviousness
import Libmicrokitco.System.Threads

/-!
# The processor carries out what the library does

Every run of the library's calls is a run of the whole system, as long as a
thread that calls `co_swap` has room for its context: no call that the model of
the library lets through gets stuck in a switch, however the memory came to be.
-/

namespace Libmicrokitco.Installation

open Isa Sched StackTop

variable {ρ : Type} [DecidableEq ρ] [Registers ρ] {inst : Installation ρ} {machine : Machine ρ}
  {world next final : World} {call : Call} {answer : Answer} {cpu : Cpu ρ} {state : CrewState ρ Int}
  {history : List (Transition World (Call × Answer))}

/-- Whatever is in memory, a thread can get to a call of `co_swap` from its own
stack, with room for its context. -/
def Enterable (inst : Installation ρ) : Prop :=
  ∀ g h, InRange inst.config g → InRange inst.config h → ∀ memory, ∃ entered : Cpu ρ,
    inst.crew.Spares g memory entered.memory ∧
      inst.port.mechanism.Enters (inst.crew.handle h) (inst.crew.handle g) entered ∧
      inst.crew.Within g (inst.port.mechanism.captured entered)

/-- The event is the call, from some state of the processor. -/
def Carries (label : Call × Answer) (event : Event ρ) : Prop :=
  ∃ entered, event = .call label.1 label.2 entered

/-- Whatever call returns in the model of the library, the system can make it. -/
theorem Follows.exists_call (follows : inst.Follows state machine) (enterable : inst.Enterable)
    (sparing : Sparing inst.config machine.seen call)
    (success : step inst.config machine.seen call = .ok (answer, next)) :
    ∃ entered after, inst.Step machine (.call call answer entered) ⟨next, after⟩ := by
  cases switches : call.switches machine.seen with
  | false =>
    exact ⟨⟨machine.cpu.pc, machine.cpu.regs, next.memory⟩, _,
      .returned sparing success (fun _ _ _ _ => rfl) switches⟩
  | true =>
    have soundThen := follows.sound.step sparing success
    have caller : inst.address machine.world.libco.coActiveHandle =
        inst.crew.handle machine.world.coController.running := by
      have active : machine.world.libco.coActiveHandle = _ := follows.sound.contexts.active
      rw [active]
      exact address_coHandle follows.sound follows.stacked (.inr rfl)
    have chosen : inst.address (next.coController.tcbs next.coController.running).coHandle =
        inst.crew.handle next.coController.running :=
      address_coHandle soundThen (follows.stacked.step success) (.inr rfl)
    obtain ⟨entered, spares, enters, within⟩ := enterable machine.world.coController.running
      next.coController.running follows.sound.sound.running soundThen.sound.running next.memory
    rw [← caller, ← chosen] at enters
    obtain ⟨after, taken⟩ :=
      follows.exists_step sparing success switches spares enters within
    exact ⟨entered, after, taken⟩

/-- The run of the whole system that makes the calls of a run of the library. -/
theorem exists_events (enterable : inst.Enterable) (cpu : Cpu ρ)
    (run : Libmicrokitco.Run inst.config (Sparing inst.config) inst.start history final) :
    ∃ events machine state, inst.Run ⟨inst.start, cpu⟩ events machine ∧
      List.Forall₂ (Matches (fun world machine => world.Resembles inst.config .equal machine.seen)
        Carries) history events ∧
      final.Resembles inst.config .equal machine.seen ∧ inst.Follows state machine := by
  have started : Started inst.config inst.start := ⟨_, _, _, _, inst.initialised⟩
  induction run with
  | nil =>
    have initially : ∃ state, inst.Follows state ⟨inst.start, cpu⟩ := exists_follows rfl
    obtain ⟨state, follows⟩ := initially
    exact ⟨[], _, state, .nil, .nil, (World.Resembles.refl inst.start).forget _, follows⟩
  | snoc prior valid ih =>
    obtain ⟨events, machine, state, ran, matched, resembles, follows⟩ := ih
    obtain ⟨sparing, success⟩ := valid
    have sparingHere := sparing.resembles resembles ⟨rfl, rfl⟩ (Call.Resembles.refl _)
    have outcome := resembles.step ⟨rfl, rfl⟩ (Run.sound prior started fun _ _ => id) follows.sound
      sparing.wellPosed (Call.Resembles.refl _)
    rw [success] at outcome
    obtain ⟨⟨answer, next⟩, successHere, answers, after⟩ := outcome.ok_left
    obtain rfl := answers.eq
    obtain ⟨entered, cpuAfter, taken⟩ := follows.exists_call enterable sparingHere successHere
    obtain ⟨_, stateAfter, _, _, followsAfter⟩ := follows_simulates inst follows taken
    refine ⟨_, _, stateAfter, ran.snoc taken, ?_, after.forget _, followsAfter⟩
    exact List.rel_append matched (.cons ⟨resembles, ⟨entered, rfl⟩, after.forget _⟩ .nil)

/-- Every run of the library is carried out: from initialisation on, whatever the
processor holds then, there is a run of the whole system with the same calls and
the same answers. -/
theorem library_runs_carried_out (enterable : inst.Enterable) (cpu : Cpu ρ)
    (run : Libmicrokitco.Run inst.config (Sparing inst.config) inst.start history final) :
    ∃ events machine, inst.Run ⟨inst.start, cpu⟩ events machine ∧
      List.Forall₂ (Matches (fun world machine => world.Resembles inst.config .equal machine.seen)
        Carries) history events ∧ final.Resembles inst.config .equal machine.seen := by
  obtain ⟨events, machine, _, ran, matched, resembles, _⟩ := exists_events enterable cpu run
  exact ⟨events, machine, ran, matched, resembles⟩

/-- A switch with save areas can be entered anywhere, if it can use all handles
and their areas lie in the stacks of their threads. -/
theorem enterable_of_switch {switch : Switch ρ} {Fits : Address → Prop}
    (isSwitch : inst.port.mechanism = switch.mechanism Fits)
    (apart : switch.handleReg ≠ switch.previousReg) (handleNonzero : switch.handleReg ≠ Registers.zero)
    (previousNonzero : switch.previousReg ≠ Registers.zero)
    (fits : ∀ h, InRange inst.config h → Fits (inst.crew.handle h))
    (inside : ∀ h, InRange inst.config h → ∀ place,
      switch.layout.InArea (inst.crew.handle h) place → inst.crew.OnStack h place) :
    inst.Enterable := by
  intro g h gRange hRange memory
  obtain ⟨entered, same, enters⟩ := switch.exists_enters apart handleNonzero previousNonzero
    (fits g gRange) (inst.crew.handle h) memory
  refine ⟨entered, fun _ _ place _ => congrFun same place, by rwa [isSwitch], ?_⟩
  change inst.port.mechanism.Sited _ _ ∧ ∀ place, inst.port.mechanism.Footprint _ _ place → _
  rw [isSwitch]
  exact ⟨fits g gRange, inside g gRange⟩

end Libmicrokitco.Installation

namespace Libmicrokitco

open Isa StackTop

/-- Where the sample stacks are. -/
private theorem toNat_sampleStacks {i : Nat} (few : i < 2) :
    (sampleStacks i).toNat = 0x10000 * (i + 1) := by
  unfold sampleStacks
  rw [BitVec.toNat_ofNat]
  omega

/-- Three threads on RISC-V. The stack of the root is at `0x8000`, with libco's
buffer at its upper end. -/
def sampleInstallation (start : World) (initialised : microkitCothreadInit threeHandles none
    (fun _ => .zeroed) (fun _ => 0#8) 0x1000#64 sampleStacks = .ok start) :
    Installation Rv64.Reg where
  config := threeHandles
  port := Riscv64.port .soft 0x1000#64
  clientSems _ := .zeroed
  memory _ := 0#8
  coStackSize := 0x1000#64
  coStacks := sampleStacks
  start := start
  rootHandle := 0x8ff8#64
  rootStack place := 0x8000 ≤ place.toNat ∧ place.toNat < 0x9000
  backend := rfl
  lawful := Riscv64.port_lawful ..
  initialised := initialised
  short := by decide
  rootApart i bounded place inside := by
    have base := toNat_sampleStacks bounded
    unfold StackBytes at inside
    omega
  serves i bounded := by
    have cases : i = 0 ∨ i = 1 := by
      have few : i < 2 := bounded
      omega
    rcases cases with rfl | rfl
    · change Riscv64.FitsWord .soft _
      decide
    · change Riscv64.FitsWord .soft _
      decide

theorem sampleInstallation_enterable {start : World} (initialised : microkitCothreadInit threeHandles
    none (fun _ => .zeroed) (fun _ => 0#8) 0x1000#64 sampleStacks = .ok start) :
    (sampleInstallation start initialised).Enterable := by
  let inst := sampleInstallation start initialised
  have handle : ∀ h, inst.crew.handle h = if h = 0 then 0x8ff8#64
      else (Riscv64.port .soft 0x1000#64).handle (sampleStacks (h - 1).toNat) 0x1000#32 :=
    fun _ => rfl
  refine @Installation.enterable_of_switch _ _ _ inst (Riscv64.swap .soft) (Riscv64.FitsWord .soft) rfl
    (by decide) (by decide) (by decide) ?_ ?_
  · rintro h ⟨nonneg, below⟩
    have few : h < 3 := below
    have cases : h = 0 ∨ h = 1 ∨ h = 2 := by omega
    rw [handle]
    rcases cases with rfl | rfl | rfl <;> decide
  · rintro h ⟨nonneg, below⟩ place inArea
    by_cases isRoot : h = 0
    · subst isRoot
      have inBuffer : (0x8ff8#64 + 7#64 - place).toNat < 8 * 16 := inArea
      refine ⟨⟨le_rfl, below⟩, ?_⟩
      change 0x8000 ≤ place.toNat ∧ place.toNat < 0x9000
      bv_omega
    · have positive : 0 < h := lt_of_le_of_ne nonneg (Ne.symm isRoot)
      rw [Installation.crew_handle positive] at inArea
      exact (Installation.onStack_iff positive below).mpr (inStack_of_inArea (Riscv64.few_slots .soft)
        inst.large (Installation.fits positive below) inArea)

/-- The root spawns a cothread and yields to it, and it yields back. -/
theorem sample_run : ∃ (start : World) (_ : microkitCothreadInit threeHandles none (fun _ => .zeroed)
      (fun _ => 0#8) 0x1000#64 sampleStacks = .ok start)
    (first second third : Transition World (Call × Answer)) (final : World),
    Run threeHandles (Sparing threeHandles) start [first, second, third] final ∧
    (first.label = (.someSpawn, .handle 1) ∧ first.after.coController.running = 0) ∧
    (second.label = (.yield, .unit) ∧ second.after.coController.running = 1) ∧
      third.label = (.yield, .unit) ∧ third.after.coController.running = 0 := by
  have rehearsed : rehearseFromInit threeHandles (Sparing threeHandles) 0x1000#64 sampleStacks
      [.someSpawn, .yield, .yield] = some [(.handle 1, 0), (.unit, 1), (.unit, 0)] := by
    decide
  obtain ⟨start, initialised, history, final, run, calls, seen⟩ := exists_run_of_rehearse rehearsed
  obtain ⟨first, later, rfl, firstSeen, seen⟩ := List.map_eq_cons_iff.mp seen
  obtain ⟨second, last, rfl, secondSeen, seen⟩ := List.map_eq_cons_iff.mp seen
  obtain ⟨third, none, rfl, thirdSeen, seen⟩ := List.map_eq_cons_iff.mp seen
  obtain rfl := List.map_eq_nil_iff.mp seen
  simp only [List.map_cons, List.map_nil, List.cons.injEq, and_true] at calls
  simp only [Prod.mk.injEq] at firstSeen secondSeen thirdSeen
  exact ⟨start, initialised, first, second, third, final, run,
    ⟨Prod.ext calls.1 firstSeen.1, firstSeen.2⟩, ⟨Prod.ext calls.2.1 secondSeen.1, secondSeen.2⟩,
    Prod.ext calls.2.2 thirdSeen.1, thirdSeen.2⟩

/-- The same on the processor, with what it held at each call. -/
theorem sample_events : ∃ (inst : Installation Rv64.Reg) (cpu spawning leaving coming : Rv64.Hart)
    (first second third : Transition (Machine Rv64.Reg) (Event Rv64.Reg)) (final : Machine Rv64.Reg),
    inst.Run ⟨inst.start, cpu⟩ [first, second, third] final ∧
    (first.label = .call .someSpawn (.handle 1) spawning ∧ first.after.world.coController.running = 0) ∧
    (second.label = .call .yield .unit leaving ∧ second.after.world.coController.running = 1) ∧
      third.label = .call .yield .unit coming ∧ third.after.world.coController.running = 0 := by
  obtain ⟨start, initialised, first, second, third, final, run, ⟨firstLabel, firstRuns⟩,
    ⟨secondLabel, secondRuns⟩, thirdLabel, thirdRuns⟩ := sample_run
  let inst := sampleInstallation start initialised
  obtain ⟨events, machine, state, ran, matched, -⟩ := @Installation.exists_events _ _ _ inst _ _
    (sampleInstallation_enterable initialised) ⟨0#64, fun _ => 0#64, fun _ => 0#8⟩ run
  obtain ⟨spawns, _, ⟨_, ⟨spawning, spawned⟩, spawnedAfter⟩, later, rfl⟩ :=
    List.forall₂_cons_left_iff.mp matched
  obtain ⟨yields, _, ⟨_, ⟨leaving, left⟩, leftAfter⟩, last, rfl⟩ :=
    List.forall₂_cons_left_iff.mp later
  obtain ⟨returns, _, ⟨_, ⟨coming, came⟩, cameAfter⟩, none, rfl⟩ :=
    List.forall₂_cons_left_iff.mp last
  obtain rfl := List.forall₂_nil_left_iff.mp none
  rw [firstLabel] at spawned
  rw [secondLabel] at left
  rw [thirdLabel] at came
  exact ⟨inst, _, spawning, leaving, coming, spawns, yields, returns, machine, ran,
    ⟨spawned, (Sched.Resembles.running spawnedAfter).symm.trans firstRuns⟩,
    ⟨left, (Sched.Resembles.running leftAfter).symm.trans secondRuns⟩,
    came, (Sched.Resembles.running cameAfter).symm.trans thirdRuns⟩

theorem Installation.library_runs_carried_out_sample : ∃ (inst : Installation Rv64.Reg)
    (first second third : Transition World (Call × Answer)) (final : World),
    (first.label = (.someSpawn, .handle 1) ∧ second.label = (.yield, .unit) ∧
      third.label = (.yield, .unit)) ∧
    ∃ events machine, inst.Run ⟨inst.start, ⟨0#64, fun _ => 0#64, fun _ => 0#8⟩⟩ events machine ∧
      List.Forall₂ (Matches (fun world machine => world.Resembles inst.config .equal machine.seen)
        Installation.Carries) [first, second, third] events ∧
      final.Resembles inst.config .equal machine.seen := by
  obtain ⟨start, initialised, first, second, third, final, run, ⟨firstLabel, -⟩, ⟨secondLabel, -⟩,
    thirdLabel, -⟩ := sample_run
  exact ⟨sampleInstallation start initialised, first, second, third, final,
    ⟨firstLabel, secondLabel, thirdLabel⟩, Installation.library_runs_carried_out
      (sampleInstallation_enterable initialised) _ run⟩

end Libmicrokitco
