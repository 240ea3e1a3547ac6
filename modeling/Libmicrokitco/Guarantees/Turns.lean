import Libmicrokitco.Guarantees.Incarnations
import Libmicrokitco.Guarantees.QueueCapacity
import Libmicrokitco.Guarantees.Waits
import Libmicrokitco.Sched.TurnOrder

/-!
# Whose turn it is

The scheduling queue knows threads by their handles only, so a handle spawned
again inherits the turn that its destroyed predecessor left in the queue. While
spawns are fresh, threads are dispatched in the order in which their current
incarnations became ready.
-/

namespace Libmicrokitco

open Sched

/-- The ready threads after one more call, in the order in which they became
ready: those that stay ready, and behind them the spawned thread or the caller,
if the call made it ready. -/
def turnsNext (turns : List Int) (transition : Transition World (Call × Answer)) : List Int :=
  (turns ++ (transition.label.1.spawns transition.label.2).toList ++
    [transition.before.coController.running]).filter fun h =>
      (transition.after.coController.tcbs h).state = .ready

/-- The ready threads in the order in which their current incarnations became ready. -/
def turns (history : List (Transition World (Call × Answer))) : List Int :=
  history.foldl turnsNext []

@[simp] theorem turns_snoc (history : List (Transition World (Call × Answer)))
    (transition : Transition World (Call × Answer)) :
    turns (history ++ [transition]) = turnsNext (turns history) transition := by
  simp [turns]

/-- The call asks the scheduler for the next thread. -/
def World.Dispatches (world : World) (call : Call) : Prop :=
  call = .yield ∨ (∃ sem, world.BlocksOn call sem) ∨
    call.destroys world.coController.running = some world.coController.running

/-- The caller, if the call queues it before the scheduler is asked. -/
def World.requeuedBy (world : World) (call : Call) : List Int :=
  if call = .yield then [world.coController.running] else []

/-- What is promised about the order of dispatches. -/
structure TurnsKept (config : Config) (history : List (Transition World (Call × Answer)))
    (final : World) : Prop where
  /-- A dispatch from the scheduling queue takes the thread that became ready first. -/
  inOrder : ∀ call answer next, Disciplined config final call →
    step config final call = .ok (answer, next) → final.Dispatches call →
      (turns history ++ final.requeuedBy call).head? = some next.coController.running
  /-- A spawned thread does not run before one that was ready at its spawn, and
  that has neither run nor been destroyed since. -/
  notOvertaken : ∀ first spawning between dispatching rest g h,
    history = first ++ spawning :: (between ++ dispatching :: rest) → Spawns spawning h →
      (spawning.before.coController.tcbs g).state = .ready →
        (∀ transition ∈ between,
          ¬ Spawns transition h ∧ transition.after.coController.running ≠ h) →
            dispatching.after.coController.running = h →
              ∃ transition ∈ between, transition.after.coController.running = g ∨
                transition.label.1.destroys transition.before.coController.running = some g

variable {config : Config} {start world next final : World} {call : Call} {answer : Answer}
  {history first between : List (Transition World (Call × Answer))}
  {spawning : Transition World (Call × Answer)} {sched after : Sched} {g h : Int}

/-- The turns are the live part of the scheduling queue. -/
theorem Run.turns_eq (run : Run config (DisciplinedFresh config) start history final)
    (started : Started config start) : turns history = final.view.readyQueue := by
  induction run with
  | nil =>
    rw [readyQueue, started.initial.2.queue]
    rfl
  | @snoc history state next label prior valid ih =>
    obtain ⟨allowed, success⟩ := valid
    have before : World.Orderly config (waitersAfter history) state :=
      Run.orderly prior started fun _ _ fresh => fresh.toDisciplined
    obtain ⟨effect, -⟩ := before.effect allowed.wellPosed success
    rw [turns_snoc, turnsNext, ih]
    exact ((Run.distinct prior started).readyQueue_next before.sound allowed.fresh effect).symm

/-- A spawn makes the thread it answers ready, behind those that are. -/
theorem Sched.Effect.spawned_behind (effect : Effect config sched call answer after)
    (sound : Sched.Sound config (some sched.running) sched) (spawns : call.spawns answer = some h)
    (ready : sched.state g = .ready) : g ≠ h ∧ after.state g = .ready ∧ after.state h = .ready := by
  obtain ⟨⟨clientEntry, privateArg, rfl⟩, rfl, isHandle⟩ := Call.spawns_eq_some.mp spawns
  rcases effect.of_spawn with ⟨-, isNull, -⟩ | ⟨new, rest, free, -, answered, rfl⟩
  · cases isNull
    exact absurd rfl isHandle
  cases answered
  have inactive : sched.state h = .notActive :=
    ((sound.free.exact h).mp (by rw [free]; exact List.mem_cons_self)).2.2
  have different : g ≠ h := by
    rintro rfl
    rw [ready] at inactive
    cases inactive
  exact ⟨different, (Function.update_of_ne different ..).trans ready, Function.update_self ..⟩

/-- A ready thread stays ready until it runs or is destroyed. -/
theorem Sched.Effect.ready_kept (effect : Effect config sched call answer after)
    (sound : Sched.Sound config (some sched.running) sched) (ready : sched.state g = .ready)
    (undispatched : after.running ≠ g) :
    after.state g = .ready ∨
      call.destroys sched.running = some g ∧ after.state g = .notActive := by
  have other : g ≠ sched.running := by
    rintro rfl
    rw [sound.executingRunning] at ready
    cases ready
  cases effect.stateChange g with
  | kept same => exact .inl (same.trans ready)
  | dispatched chosen => exact absurd chosen.symm undispatched
  | queued caller | blocked caller => exact absurd caller other
  | destroyed destroys now => exact .inr ⟨destroys, now⟩
  | spawned _ _ _ now => exact .inl now

/-- `h` is behind `g`, or has been destroyed. -/
def Behind (turns : List Int) (world : World) (g h : Int) : Prop :=
  (world.coController.tcbs h).state = .notActive ∨ [g, h].Sublist turns

/-- Threads that stay ready keep their order. -/
theorem sublist_turnsNext {turns : List Int} {transition : Transition World (Call × Answer)}
    (ordered : [g, h].Sublist (turns ++ (transition.label.1.spawns transition.label.2).toList))
    (gReady : (transition.after.coController.tcbs g).state = .ready)
    (hReady : (transition.after.coController.tcbs h).state = .ready) :
    [g, h].Sublist (turnsNext turns transition) := by
  have kept : [g, h].filter (fun h => (transition.after.coController.tcbs h).state = .ready) =
      [g, h] := by
    simp [gReady, hReady]
  rw [← kept]
  exact (ordered.trans (List.sublist_append_left _ _)).filter _

/-- A spawned thread stays behind one that was ready at its spawn, as long as
neither runs and the latter is not destroyed. -/
theorem Run.behind (run : Run config (DisciplinedFresh config) start (first ++ spawning :: between) final)
    (started : Started config start) (spawns : Spawns spawning h)
    (ready : (spawning.before.coController.tcbs g).state = .ready)
    (quiet : ∀ transition ∈ between, ¬ Spawns transition h ∧
      transition.after.coController.running ≠ h ∧ transition.after.coController.running ≠ g ∧
        transition.label.1.destroys transition.before.coController.running ≠ some g) :
    Behind (turns (first ++ spawning :: between)) final g h := by
  induction between using List.reverseRecOn generalizing final with
  | nil =>
    obtain ⟨prior, ⟨allowed, success⟩, same⟩ := run.snoc_inv
    have before : World.Orderly config (waitersAfter first) spawning.before :=
      Run.orderly prior started fun _ _ fresh => fresh.toDisciplined
    obtain ⟨effect, -⟩ := before.effect allowed.wellPosed success
    obtain ⟨-, gReady, hReady⟩ := effect.spawned_behind before.sound spawns ready
    have queued : g ∈ turns first := by
      rw [Run.turns_eq prior started, readyQueue, List.mem_filter]
      exact ⟨before.sound.queue.readyQueued g ready, decide_eq_true ready⟩
    refine .inr ?_
    rw [turns_snoc]
    refine sublist_turnsNext ?_ gReady hReady
    rw [show spawning.label.1.spawns spawning.label.2 = some h from spawns]
    exact (List.singleton_sublist.mpr queued).append (List.Sublist.refl [h])
  | append_singleton between transition ih =>
    rw [← List.cons_append, ← List.append_assoc] at run ⊢
    obtain ⟨prior, ⟨allowed, success⟩, rfl⟩ := run.snoc_inv
    have behind := ih prior fun earlier member => quiet earlier (List.mem_append_left _ member)
    obtain ⟨unspawned, hWaits, gWaits, gSpared⟩ :=
      quiet transition (List.mem_append_right _ (List.mem_singleton_self _))
    have before : World.Orderly config (waitersAfter (first ++ spawning :: between))
        transition.before := Run.orderly prior started fun _ _ fresh => fresh.toDisciplined
    obtain ⟨effect, -⟩ := before.effect allowed.wellPosed success
    rcases behind with inactive | ordered
    · exact .inl (effect.inactive before.sound inactive unspawned)
    have isReady : ∀ thread ∈ [g, h], transition.before.view.state thread = .ready := by
      intro thread member
      have queued := ordered.subset member
      rw [Run.turns_eq prior started, readyQueue, List.mem_filter] at queued
      exact of_decide_eq_true queued.2
    have gReady := (effect.ready_kept before.sound (isReady g (by simp)) gWaits).resolve_right
      fun destroyed => gSpared destroyed.1
    rcases effect.ready_kept before.sound (isReady h (by simp)) hWaits with hReady | ⟨-, inactive⟩
    · refine .inr ?_
      rw [turns_snoc]
      exact sublist_turnsNext (ordered.trans (List.sublist_append_left _ _)) gReady hReady
    · exact .inl inactive

/-- A dispatch goes to the thread that became ready first. -/
theorem Run.dispatches_first (run : Run config (DisciplinedFresh config) start history final)
    (started : Started config start) (disciplined : Disciplined config final call)
    (success : step config final call = .ok (answer, next)) (dispatches : final.Dispatches call) :
    (turns history ++ final.requeuedBy call).head? = some next.coController.running := by
  have before : World.Orderly config (waitersAfter history) final :=
    Run.orderly run started fun _ _ fresh => fresh.toDisciplined
  obtain ⟨effect, -⟩ := before.effect disciplined.wellPosed success
  rw [Run.turns_eq run started]
  exact (Run.distinct run started).dispatched before.waiting before.sound
    (before.supplied disciplined) effect dispatches

/-- As long as spawns are fresh, threads are dispatched in the order in which
their current incarnations became ready. -/
theorem turns_kept (started : Started config start)
    (run : Run config (DisciplinedFresh config) start history final) :
    TurnsKept config history final := by
  constructor
  case inOrder =>
    intro call answer next disciplined success dispatches
    exact Run.dispatches_first run started disciplined success dispatches
  case notOvertaken =>
    rintro first spawning between dispatching rest g h rfl spawns ready undispatched chosen
    by_contra overtaken
    have quiet : ∀ transition ∈ between, ¬ Spawns transition h ∧
        transition.after.coController.running ≠ h ∧ transition.after.coController.running ≠ g ∧
          transition.label.1.destroys transition.before.coController.running ≠ some g := by
      intro transition member
      obtain ⟨unspawned, waits⟩ := undispatched transition member
      exact ⟨unspawned, waits, fun runs => overtaken ⟨transition, member, .inl runs⟩,
        fun destroys => overtaken ⟨transition, member, .inr destroys⟩⟩
    rw [← List.cons_append, ← List.append_assoc] at run
    obtain ⟨prior, ⟨allowed, success⟩, -⟩ := run.split_at
    have before : World.Orderly config _ dispatching.before :=
      Run.orderly prior started fun _ _ fresh => fresh.toDisciplined
    obtain ⟨effect, -⟩ := before.effect allowed.wellPosed success
    rcases Run.behind prior started spawns ready quiet with inactive | ordered
    · rw [← chosen] at inactive
      exact before.sound.running_active effect inactive
    have order := Run.turns_eq prior started
    have nodup : (turns (first ++ spawning :: between)).Nodup := by
      rw [order]
      exact (Run.distinct prior started).nodup.filter _
    have hReady : dispatching.before.view.state dispatching.after.view.running = .ready := by
      have queued := ordered.subset (List.mem_cons_of_mem g (List.mem_singleton_self h))
      rw [order, readyQueue, List.mem_filter] at queued
      rw [show dispatching.after.view.running = h from chosen]
      exact of_decide_eq_true queued.2
    have turn := Run.dispatches_first prior started allowed.toDisciplined success
      (before.waiting.dispatches_of_ready before.sound effect hReady)
    have distinct : g ≠ h := by
      have pair := nodup.sublist ordered
      simpa using pair
    -- `h` has the first turn, but `g` stands before it
    generalize turns (first ++ spawning :: between) = order at nodup ordered turn
    cases order with
    | nil => cases ordered
    | cons head behind =>
      have isHead : head = h := by
        rw [List.cons_append, List.head?_cons, chosen] at turn
        exact Option.some.inj turn
      subst isHead
      cases ordered with
      | cons _ later =>
        exact (List.nodup_cons.mp nodup).1 (later.subset (by simp))
      | cons_cons => exact distinct rfl

/-- The cothreads yield in turn while cothread 1 destroys cothread 2, whose
handle is spawned again once its stale entry is gone. -/
theorem turns_kept_sample : ∃ (history : List (Transition World (Call × Answer))) (final : World),
    history.map (fun transition => transition.label.1) =
      [.someSpawn, .someSpawn, .yield, .destroy 2, .yield, .someSpawn, .yield] ∧
    final.glance = (1, [2, 0], []) ∧ TurnsKept threeHandles history final := by
  have replayed : (replayFromInit threeHandles (DisciplinedFresh threeHandles) 0x1000#64 sampleStacks
      [.someSpawn, .someSpawn, .yield, .destroy 2, .yield, .someSpawn, .yield]).map World.glance =
      some (1, [2, 0], []) := by
    decide
  obtain ⟨start, history, final, started, run, calls, seen⟩ := exists_run_of_replay replayed
  exact ⟨history, final, calls, seen, turns_kept started run⟩

/-- Cothread 1 destroys the ready cothread 2 and spawns its handle again while
the root is queued; when it then waits, the new cothread 2 runs before the root. -/
theorem turn_inherited : ∃ start history spawning dispatching final,
    Started threeHandles start ∧
      Run threeHandles (Disciplined threeHandles) start (history ++ [spawning, dispatching]) final ∧
        Spawns spawning 2 ∧ (spawning.before.coController.tcbs 0).state = .ready ∧
          dispatching.label.1 = .waitOnChannel 0 ∧
            dispatching.after.coController.running = 2 := by
  have replayed : (replayFromInit threeHandles (Disciplined threeHandles) 0x1000#64 sampleStacks
      [.someSpawn, .someSpawn, .yield, .destroy 2]).map (fun world =>
        ((world.coController.tcbs 0).state,
          (step threeHandles world .someSpawn).map (fun answered => answered.1),
          (replay threeHandles (Disciplined threeHandles) world [.someSpawn, .waitOnChannel 0]).map
            fun next => next.coController.running)) =
      some (.ready, .ok (.handle 2), some 2) := by
    decide
  obtain ⟨start, history, middle, started, run, -, seen⟩ := exists_run_of_replay replayed
  simp only [Prod.mk.injEq] at seen
  obtain ⟨ready, answers, continues⟩ := seen
  obtain ⟨final, continued, running⟩ := Option.map_eq_some_iff.mp continues
  obtain ⟨later, laterRun, calls⟩ := replay_run continued
  obtain ⟨spawning, waits, rfl, isSpawn, calls⟩ := List.map_eq_cons_iff.mp calls
  obtain ⟨dispatching, none, rfl, isWait, calls⟩ := List.map_eq_cons_iff.mp calls
  obtain rfl := List.map_eq_nil_iff.mp calls
  obtain ⟨rfl, ⟨-, success⟩, -⟩ := laterRun.cons_inv
  have lastStep : Run threeHandles (Disciplined threeHandles) spawning.before
    ([spawning] ++ [dispatching]) final := laterRun
  obtain ⟨-, -, ended⟩ := lastStep.snoc_inv
  refine ⟨start, history, spawning, dispatching, final, started, run.append laterRun, ?_, ready,
    isWait, ?_⟩
  · rw [isSpawn] at success
    rw [success] at answers
    have answer : spawning.label.2 = .handle 2 := Except.ok.inj answers
    rw [Spawns, isSpawn, answer]
    rfl
  · rw [ended]
    exact running

end Libmicrokitco
