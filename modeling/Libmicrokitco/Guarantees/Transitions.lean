import Libmicrokitco.Guarantees.Replay

/-!
# The life of a thread

A thread goes from one state to another only by the calls that `Passage` lists.
A blocked thread is never queued: a signal that finds it first resumes it, and
nothing else ends its wait.
-/

namespace Libmicrokitco

open Sched

/-- A change of the state of `h` in the course of a call, and who made it. -/
inductive Passage (transition : Transition World (Call × Answer)) (h : Int) :
    CoState → CoState → Prop where
  | stays (state : CoState) : Passage transition h state state
  | spawned {clientEntry privateArg : Address}
      (spawns : transition.label = (.spawn clientEntry privateArg, .handle h)) :
      Passage transition h .notActive .ready
  | dispatched (other : transition.before.coController.running ≠ h)
      (chosen : transition.after.coController.running = h) : Passage transition h .ready .running
  | woken {sem : SemRef} (signals : transition.label.1.signalsOn = some sem)
      (first : (transition.before.sem sem).head = h)
      (chosen : transition.after.coController.running = h) : Passage transition h .blocked .running
  | queued (caller : transition.before.coController.running = h)
      (away : transition.after.coController.running ≠ h) : Passage transition h .running .ready
  | blocked {sem : SemRef} (caller : transition.before.coController.running = h)
      (waits : transition.label.1.waitsOn = some sem)
      (clear : (transition.before.sem sem).set = false) : Passage transition h .running .blocked
  | exited (caller : transition.before.coController.running = h)
      (destroys : transition.label.1.destroys h = some h) : Passage transition h .running .notActive
  | destroyed (other : transition.before.coController.running ≠ h)
      (destroys : transition.label.1 = .destroy h) : Passage transition h .ready .notActive

variable {config : Config} {start world next final : World} {call : Call} {answer : Answer} {h : Int}
  {waiters : SemRef → List Int} {history : List (Transition World (Call × Answer))}

/-- What one call of a disciplined client does to the state of a thread. -/
theorem World.Orderly.passage (orderly : World.Orderly config waiters world)
    (disciplined : Disciplined config world call)
    (success : Libmicrokitco.step config world call = .ok (answer, next)) :
    Passage ⟨world, (call, answer), next⟩ h (world.coController.tcbs h).state
      (next.coController.tcbs h).state := by
  obtain ⟨effect, -⟩ := orderly.effect disciplined.wellPosed success
  have sound := orderly.sound
  have executing := sound.threads.executing h
  have executingNext := (orderly.step disciplined success).sound.threads.executing h
  change world.view.state h = .running ↔ some world.coController.running = some h at executing
  change next.view.state h = .running ↔ some next.coController.running = some h at executingNext
  rw [Option.some.injEq] at executing executingNext
  change Passage _ h (world.view.state h) (next.view.state h)
  cases effect.stateChange h with
  | kept same =>
    rw [same]
    exact .stays _
  | dispatched chosen now =>
    have active : world.view.state h ≠ .notActive := by
      rw [chosen]
      exact sound.running_active effect
    rw [now]
    cases before : world.view.state h with
    | notActive => exact absurd before active
    | running => exact .stays _
    | ready =>
      refine .dispatched (fun caller => ?_) chosen.symm
      rw [executing.mpr caller] at before
      cases before
    | blocked =>
      obtain ⟨sem, signals, -, first, -⟩ :=
        orderly.waiting.resumed sound (orderly.supplied disciplined) effect before chosen.symm
      exact .woken signals first chosen.symm
  | queued caller now =>
    rw [executing.mpr caller.symm, now]
    refine .queued caller.symm fun again => ?_
    rw [executingNext.mpr again] at now
    cases now
  | blocked caller on clear now =>
    rw [executing.mpr caller.symm, now]
    exact .blocked caller.symm on clear
  | destroyed destroys now =>
    rw [now]
    by_cases caller : world.coController.running = h
    · rw [executing.mpr caller]
      refine .exited caller ?_
      change call.destroys world.coController.running = some h at destroys
      rwa [caller] at destroys
    · have isDestroy : call = .destroy h := by
        cases call with
        | destroy cothread =>
          cases destroys
          rfl
        | entryReturn => exact absurd (Option.some.inj destroys) caller
        | _ => cases destroys
      have nonRoot : h ≠ rootThread := fun isRoot => disciplined.sparesRoot (isRoot ▸ isDestroy)
      cases before : world.view.state h with
      | notActive => exact .stays _
      | running => exact absurd (executing.mp before) caller
      | ready => exact .destroyed caller isDestroy
      | blocked => exact absurd before (disciplined.sparesBlocked h nonRoot isDestroy)
  | spawned isSpawn free answered now =>
    have inactive : world.view.state h = .notActive := ((sound.free.exact h).mp free).2.2
    rw [inactive, now]
    exact .spawned (Prod.ext isSpawn answered)

/-- In every run of disciplined clients every thread goes only through these
passages, and exactly the thread that runs is in the state of one that does. -/
theorem threads_keep_to_passages (started : Started config start)
    (run : Run config (Disciplined config) start history final) :
    (∀ transition ∈ history, ∀ h, Passage transition h
      (transition.before.coController.tcbs h).state (transition.after.coController.tcbs h).state) ∧
      ∀ h, (final.coController.tcbs h).state = .running ↔ final.coController.running = h := by
  constructor
  · intro transition member h
    obtain ⟨first, second, rfl⟩ := List.append_of_mem member
    obtain ⟨prior, ⟨disciplined, success⟩, -⟩ := run.split_at
    exact (Run.orderly prior started fun _ _ => id).passage disciplined success
  · intro h
    have executing := (run.orderly started fun _ _ => id).sound.threads.executing h
    rwa [Option.some.injEq] at executing

/-- A cothread waits, is woken by the root, and ends. -/
theorem threads_keep_to_passages_sample :
    ∃ (history : List (Transition World (Call × Answer))) (final : World),
    history.map (fun transition => transition.label.1) =
      [.someSpawn, .yield, .waitOnChannel 0, .recvNtfn 0, .entryReturn] ∧
    final.glance = (0, [], [1]) ∧
    (∀ transition ∈ history, ∀ h, Passage transition h
      (transition.before.coController.tcbs h).state (transition.after.coController.tcbs h).state) ∧
      ∀ h, (final.coController.tcbs h).state = .running ↔ final.coController.running = h := by
  have replayed : (replayFromInit twoHandles (Disciplined twoHandles) 0x1000#64 sampleStacks
      [.someSpawn, .yield, .waitOnChannel 0, .recvNtfn 0, .entryReturn]).map World.glance =
      some (0, [], [1]) := by
    decide
  obtain ⟨start, history, final, started, run, calls, seen⟩ := exists_run_of_replay replayed
  exact ⟨history, final, calls, seen, threads_keep_to_passages started run⟩

end Libmicrokitco
