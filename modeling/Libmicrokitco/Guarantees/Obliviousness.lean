import Libmicrokitco.Guarantees.Replay
import Libmicrokitco.Libco.Aarch64
import Libmicrokitco.Sched.Oblivious
import Libmicrokitco.Semantics.Simulation

/-!
# Scheduling does not depend on memory

Which thread runs, which handles a spawn answers and which calls panic follow
from the number of cothreads, the number of channels and the calls alone. Two
builds of the same shape that are initialised on different stacks, with other
memory and other back ends, go through the same runs.
-/

namespace Libmicrokitco

open Sched

variable {config other : Config} {ties : Correspondence} {left right start startToo final : World}
  {call asked : Call} {history : List (Transition World (Call × Answer))} {calls : List Call}

/-- Worlds whose scheduling is the same and whose cothreads correspond. -/
def World.Resembles (config : Config) (ties : Correspondence) (left right : World) : Prop :=
  left.view.Resembles config ties right.view

theorem World.Resembles.refl (world : World) : world.Resembles config .equal world :=
  ⟨rfl, rfl, rfl, rfl, rfl, rfl, fun _ _ => rfl, fun _ _ _ _ => ⟨rfl, rfl⟩⟩

/-- Memory is not compared. -/
theorem World.Resembles.forget (resembles : left.Resembles config ties right) (memory : Memory) :
    left.Resembles config ties { right with memory := memory } :=
  ⟨resembles.running, resembles.state, resembles.link, resembles.queue, resembles.free,
    resembles.initialised, resembles.sem, resembles.given⟩

/-- Resembling calls with resembling answers. -/
def LabelsResemble (ties : Correspondence) (label labelToo : Call × Answer) : Prop :=
  label.1.Resembles ties labelToo.1 ∧ label.2.Resembles ties labelToo.2

/-- Resembling answers and worlds, or the same fault. -/
def OutcomesResemble (config : Config) (ties : Correspondence) : Except Fault (Answer × World) →
    Except Fault (Answer × World) → Prop :=
  Agrees fun answered answeredToo =>
    answered.1.Resembles ties answeredToo.1 ∧ answered.2.Resembles config ties answeredToo.2

/-- Clients that ask alike keep to the documented use alike. -/
theorem Sparing.resembles (sparing : Sparing config left call)
    (resembles : left.Resembles config ties right) (shape : config.SameShape other)
    (asks : call.Resembles ties asked) : Sparing other right asked := by
  have running : left.coController.running = right.coController.running :=
    Sched.Resembles.running resembles
  rcases asks.eq_or with rfl | ⟨_, _, _, _, -, rfl⟩ | ⟨_, _, _, -, rfl⟩
  · refine ⟨⟨?_, ?_⟩, sparing.sparesRoot, ?_⟩
    · intro sem uses
      have live := (World.live_view sem).mpr (sparing.wellPosed.semaphoreLive sem uses)
      exact (World.live_view sem).mp ((Sched.Resembles.live_iff resembles shape).mp live)
    · rw [← running]
      exact sparing.wellPosed.entered
    · intro cothread nonRoot isDestroy
      have state : (left.coController.tcbs cothread).state =
          (right.coController.tcbs cothread).state :=
        congrFun (Sched.Resembles.state resembles) cothread
      rw [← state]
      exact sparing.sparesBlocked cothread nonRoot isDestroy
  all_goals
    refine ⟨⟨fun sem uses => ?_, fun same => ?_⟩, fun same => ?_, fun cothread _ same => ?_⟩
    · cases uses
    all_goals cases same

/-- One call, in two worlds whose scheduling is the same. -/
theorem World.Resembles.step (resembles : left.Resembles config ties right)
    (shape : config.SameShape other) (leftSound : World.Sound config left)
    (rightSound : World.Sound other right) (wellPosed : WellPosed config left call)
    (asks : call.Resembles ties asked) :
    OutcomesResemble config ties (step config left call) (step other right asked) := by
  have leftListed : Represents config left left.view := ⟨rfl, leftSound.rings⟩
  have rightListed : Represents other right right.view := ⟨rfl, rightSound.rings⟩
  have listed := Sched.Resembles.step resembles shape leftSound.sound rightSound.sound
    leftSound.contexts rightSound.contexts
    (fun sem uses => (World.live_view sem).mpr (wellPosed.semaphoreLive sem uses)) asks
  apply (((leftListed.step call).trans listed).trans (rightListed.step asked).symm).mono
  rintro ⟨answer, next⟩ ⟨answerToo, nextToo⟩
    ⟨⟨_, sched⟩, ⟨⟨_, schedToo⟩, ⟨rfl, represents⟩, answers, same⟩, rfl, representsToo⟩
  refine ⟨answers, ?_⟩
  rw [← represents.view, ← representsToo.view] at same
  exact same

/-- Scheduling depends on nothing but the calls: a run of one build is, call by
call, a run of every other build of its shape, and it stops there in the same
way. The entries and arguments of the cothreads may differ as well; the library
only hands them on. -/
theorem scheduling_oblivious (shape : config.SameShape other) (started : Started config start)
    (startedToo : Started other startToo) (run : Run config (Sparing config) start history final)
    (asks : List.Forall₂ (fun call transition => transition.label.1.Resembles ties call) calls
      history) :
    ∃ historyToo finalToo, Run other (Sparing other) startToo historyToo finalToo ∧
      historyToo.map (fun transition => transition.label.1) = calls ∧
      List.Forall₂ (Matches (World.Resembles config ties) (LabelsResemble ties)) history
        historyToo ∧
      ∀ call asked, call.Resembles ties asked → Sparing config final call →
        Sparing other finalToo asked ∧
          OutcomesResemble config ties (step config final call) (step other finalToo asked) := by
  have followed : ∃ historyToo finalToo, Run other (Sparing other) startToo historyToo finalToo ∧
      historyToo.map (fun transition => transition.label.1) = calls ∧
      List.Forall₂ (Matches (World.Resembles config ties) (LabelsResemble ties)) history
        historyToo ∧ final.Resembles config ties finalToo := by
    induction run generalizing calls with
    | nil =>
      cases asks
      exact ⟨[], startToo, .nil, rfl, .nil, started.initial.2.resembles startedToo.initial.2 shape⟩
    | snoc prior valid ih =>
      obtain ⟨earlier, asked, none, rfl, asksBefore, asksLast, empty⟩ := exists_middle_of_forall₂ asks
      cases empty
      obtain ⟨historyToo, stateToo, runToo, same, matched, resembles⟩ := ih asksBefore
      obtain ⟨sparing, success⟩ := valid
      have leftSound := Run.sound prior started fun _ _ => id
      have rightSound := runToo.sound startedToo fun _ _ => id
      have outcome := resembles.step shape leftSound rightSound sparing.wellPosed asksLast
      rw [success] at outcome
      obtain ⟨⟨answer, nextToo⟩, successToo, answers, after⟩ := outcome.ok_left
      have validToo : Step other (Sparing other) stateToo (asked, answer) nextToo :=
        ⟨sparing.resembles resembles shape asksLast, successToo⟩
      refine ⟨_, nextToo, runToo.snoc validToo, by simp [same], ?_, after⟩
      exact List.rel_append matched (.cons ⟨resembles, ⟨asksLast, answers⟩, after⟩ .nil)
  obtain ⟨historyToo, finalToo, runToo, same, matched, resembles⟩ := followed
  refine ⟨historyToo, finalToo, runToo, same, matched, fun call asked asks sparing => ?_⟩
  exact ⟨sparing.resembles resembles shape asks, resembles.step shape
    (run.sound started fun _ _ => id) (runToo.sound startedToo fun _ _ => id) sparing.wellPosed asks⟩

/-- A build for AArch64 of the shape of `threeHandles`. -/
def threeHandlesOnArm : Config :=
  { threeHandles with
    backend := Aarch64.backend 0x8000#64
    cothreadEntryWrapper := 0x9000#64 }

/-- Entries elsewhere in memory, and arguments one higher. -/
def shiftedCorrespondence : Correspondence where
  Entry clientEntry otherEntry := clientEntry ≠ 0#64 ∧ otherEntry ≠ 0#64
  Arg privateArg otherArg := otherArg = privateArg + 1#64
  null := fun ⟨nonNull, otherNonNull⟩ => iff_of_false nonNull otherNonNull

/-- A thread ends on RISC-V and on AArch64, with other stacks, entries and arguments. -/
theorem scheduling_oblivious_sample :
    ∃ (history historyToo : List (Transition World (Call × Answer))) (final finalToo : World),
    history.map (fun transition => transition.label.1) =
      [.someSpawn, .spawn 0x3000#64 5#64, .yield, .myArg, .entryReturn] ∧
    historyToo.map (fun transition => transition.label.1) =
      [.spawn 0x7000#64 1#64, .spawn 0x7100#64 6#64, .yield, .myArg, .entryReturn] ∧
    final.glance = (2, [0], [1]) ∧
    List.Forall₂ (Matches (World.Resembles threeHandles shiftedCorrespondence)
      (LabelsResemble shiftedCorrespondence)) history historyToo ∧
      ∀ call asked, call.Resembles shiftedCorrespondence asked → Sparing threeHandles final call →
        Sparing threeHandlesOnArm finalToo asked ∧
          OutcomesResemble threeHandles shiftedCorrespondence (step threeHandles final call)
            (step threeHandlesOnArm finalToo asked) := by
  have replayed : (replayFromInit threeHandles (Sparing threeHandles) 0x1000#64 sampleStacks
      [.someSpawn, .spawn 0x3000#64 5#64, .yield, .myArg, .entryReturn]).map World.glance =
      some (2, [0], [1]) := by
    decide
  have onArm : (replayFromInit threeHandlesOnArm (Sparing threeHandlesOnArm) 0x3000#64
      (fun i => BitVec.ofNat 64 (0x400000 - 0x100000 * i)) []).map World.glance =
      some (0, [], [1, 2]) := by
    decide
  obtain ⟨start, history, final, started, run, calls, seen⟩ := exists_run_of_replay replayed
  obtain ⟨startToo, -, -, startedToo, -⟩ := exists_run_of_replay onArm
  have asks : List.Forall₂
      (fun call transition => transition.label.1.Resembles shiftedCorrespondence call)
      [.spawn 0x7000#64 1#64, .spawn 0x7100#64 6#64, .yield, .myArg, .entryReturn] history := by
    rw [← List.forall₂_map_right_iff
      (R := fun call asked : Call => asked.Resembles shiftedCorrespondence call), calls]
    have first : 0x3000#64 ≠ 0#64 ∧ 0x7000#64 ≠ 0#64 := by decide
    have second : 0x3000#64 ≠ 0#64 ∧ 0x7100#64 ≠ 0#64 := by decide
    exact .cons ⟨first, rfl⟩ (.cons ⟨second, rfl⟩ (.cons rfl (.cons rfl (.cons rfl .nil))))
  have shape : threeHandles.SameShape threeHandlesOnArm := ⟨rfl, rfl⟩
  obtain ⟨historyToo, finalToo, -, callsToo, matched, outcomes⟩ :=
    scheduling_oblivious shape started startedToo run asks
  exact ⟨history, historyToo, final, finalToo, calls, callsToo, seen, matched, outcomes⟩

end Libmicrokitco
