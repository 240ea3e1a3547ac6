import Libmicrokitco.Guarantees.Incarnations
import Libmicrokitco.Sched.Owners

/-!
# Who is running

The controller and libco agree on the running thread, so that everything looked
up through `co_controller->running` belongs to the code that looks it up: the
entry that a cothread starts with, the handle that its return destroys and its
argument.
-/

namespace Libmicrokitco

open Sched

/-- The latest argument that a handle was given, by its spawn or by
`microkit_cothread_set_arg`. -/
def lastArgument (history : List (Transition World (Call × Answer))) (h : Int) : Option Address :=
  history.foldl (fun last transition =>
    (transition.label.1.given h transition.label.2).or last) none

@[simp] theorem lastArgument_snoc (history : List (Transition World (Call × Answer)))
    (transition : Transition World (Call × Answer)) (h : Int) :
    lastArgument (history ++ [transition]) h =
      (transition.label.1.given h transition.label.2).or (lastArgument history h) := by
  simp [lastArgument]

/-- What is promised about the identity of the running thread. -/
structure Identified (config : Config) (history : List (Transition World (Call × Answer)))
    (final : World) : Prop where
  /-- libco's active context is that of the running thread. -/
  agreed : final.libco.coActiveHandle =
    (final.coController.tcbs final.coController.running).coHandle
  distinct : ∀ g h, g ≠ h → (final.coController.tcbs g).state ≠ .notActive →
    (final.coController.tcbs h).state ≠ .notActive →
      (final.coController.tcbs g).coHandle ≠ (final.coController.tcbs h).coHandle
  /-- The first dispatch of a spawned cothread starts the wrapper in the context
  that the spawn derived, and the wrapper finds the entry that was spawned. -/
  starts : ∀ first spawning between dispatching rest clientEntry privateArg h,
    history = first ++ spawning :: (between ++ dispatching :: rest) →
      spawning.label = (.spawn clientEntry privateArg, .handle h) → h ≠ nullHandle →
        (∀ transition ∈ between,
          ¬ Spawns transition h ∧ transition.after.coController.running ≠ h) →
            dispatching.after.coController.running = h →
              dispatching.after.libco.resumed = .derived spawning.after.libco.derivations ∧
                dispatching.after.libco.current = spawning.after.libco.derivations ∧
                  cothreadEntryWrapperCallee dispatching.after = clientEntry
  /-- An entry that returns destroys the cothread that it was spawned for. -/
  returns : ∀ first spawning between returning rest h,
    history = first ++ spawning :: (between ++ returning :: rest) → Spawns spawning h →
      returning.label.1 = .entryReturn →
        returning.before.libco.current = spawning.after.libco.derivations →
          returning.before.coController.running = h ∧
            (returning.after.coController.tcbs h).state = .notActive
  /-- `microkit_cothread_my_arg` answers the latest argument of its caller. -/
  argument : final.coController.running ≠ rootThread →
    ∃ privateArg, lastArgument history final.coController.running = some privateArg ∧
      step config final .myArg = .ok (.arg privateArg, final)

variable {config : Config} {start final : World} {h : Int} {incarnation : Nat}
  {history between : List (Transition World (Call × Answer))}

theorem Started.counted (started : Started config start) : Counted start.libco := by
  have atStart : start.libco = Libco.atStart := started.initial.2.libco
  rw [atStart]
  exact ⟨fun _ => le_rfl, le_rfl⟩

theorem Run.counted (run : Run config (Sparing config) start history final)
    (started : Started config start) : Counted final.libco := by
  induction run with
  | nil => exact started.counted
  | @snoc history state next label prior valid ih =>
    obtain ⟨sparing, success⟩ := valid
    have before : World.Sound config state := Run.sound prior started fun _ _ => id
    obtain ⟨effect, -⟩ := before.effect sparing.wellPosed success
    exact Counted.effect ih effect

/-- An active cothread holds the latest argument that its handle was given. -/
theorem Run.lastArgument_eq (run : Run config (Sparing config) start history final)
    (started : Started config start) (positive : 0 < h) (active : final.view.state h ≠ .notActive) :
    lastArgument history h = some (final.view.privateArg h) := by
  induction run with
  | nil =>
    rw [started.initial.2.state, if_neg (by omega)] at active
    exact absurd rfl active
  | @snoc history state next label prior valid ih =>
    obtain ⟨sparing, success⟩ := valid
    have before : World.Sound config state := Run.sound prior started fun _ _ => id
    obtain ⟨effect, -⟩ := before.effect sparing.wellPosed success
    rw [lastArgument_snoc, effect.privateArg_next positive.le]
    cases given : label.1.given h label.2 with
    | some privateArg => rfl
    | none =>
      have unspawned : label.1.spawns label.2 ≠ some h :=
        fun spawns => Call.given_of_spawns spawns given
      exact ih ((effect.active_before before.sound active).resolve_right unspawned)

/-- The code of an incarnation executes only while its handle is running. -/
theorem Run.belongs (run : Run config (Sparing config) start between final)
    (sound : World.Sound config start) (belongs : Belongs incarnation h start.view) :
    World.Sound config final ∧ Belongs incarnation h final.view := by
  apply run.invariant (fun world => World.Sound config world ∧ Belongs incarnation h world.view)
    ⟨sound, belongs⟩
  rintro transition member ⟨before, owned⟩
  obtain ⟨sparing, success⟩ := run.valid_of_mem member
  obtain ⟨effect, -⟩ := before.effect sparing.wellPosed success
  exact ⟨before.step sparing success, owned.effect before.sound before.contexts effect⟩

/-- The entry of a handle stays until the handle is spawned again. -/
theorem Run.clientEntry_eq (run : Run config (Sparing config) start between final)
    (sound : World.Sound config start) (nonneg : 0 ≤ h)
    (unspawned : ∀ transition ∈ between, ¬ Spawns transition h) :
    final.view.clientEntry h = start.view.clientEntry h := by
  have kept := run.invariant (fun world => World.Sound config world ∧
    world.view.clientEntry h = start.view.clientEntry h) ⟨sound, rfl⟩ ?_
  · exact kept.2
  · rintro transition member ⟨before, same⟩
    obtain ⟨sparing, success⟩ := run.valid_of_mem member
    obtain ⟨effect, -⟩ := before.effect sparing.wellPosed success
    refine ⟨before.step sparing success, ?_⟩
    exact (effect.clientEntry_kept (unspawned transition member) nonneg).trans same

/-- The controller and libco agree on who is running, and each cothread runs its
own entry with its own argument. -/
theorem running_thread_identified (started : Started config start)
    (run : Run config (Sparing config) start history final) :
    Identified config history final := by
  have sound : World.Sound config final := Run.sound run started fun _ _ => id
  constructor
  case agreed => exact sound.contexts.active
  case distinct =>
    intro g h different gActive hActive
    have inRange := sound.sound.threads.inRange
    exact sound.contexts.coHandle_ne (inRange g gActive) (inRange h hActive) (.inl gActive)
      (.inl hActive) different
  case starts =>
    rintro first spawning between dispatching rest clientEntry privateArg h rfl label isHandle
      undispatched chosen
    obtain ⟨prior, ⟨sparing, success⟩, later⟩ := run.split_at
    obtain ⟨during, ⟨sparingAt, successAt⟩, -⟩ := later.split_at
    have before : World.Sound config spawning.before := Run.sound prior started fun _ _ => id
    obtain ⟨effect, -⟩ := before.effect sparing.wellPosed success
    have spawns : spawning.label.1.spawns spawning.label.2 = some h := by
      rw [label, Call.spawns, if_neg isHandle]
    have awaiting : World.Awaiting config spawning.after spawning.after.libco.derivations h :=
      ⟨before.step sparing success, (effect.spawn_awaits before.sound spawns).2⟩
    have awaits := Run.awaiting during awaiting undispatched
    have resumed := awaits.dispatched sparingAt successAt chosen
    obtain ⟨dispatch, -⟩ := awaits.1.effect sparingAt.wellPosed successAt
    have newcomer : dispatching.after.view.running ≠ dispatching.before.view.running := by
      intro same
      have running := awaits.1.sound.executingRunning
      rcases awaits.2 with inactive | ⟨-, notRunning, -⟩
      · rw [← chosen, show dispatching.after.coController.running = _ from same, running] at inactive
        cases inactive
      · exact notRunning (chosen.symm.trans same)
    have unspawned : dispatching.label.1.spawns dispatching.label.2 ≠ some h :=
      fun spawnsAgain => newcomer (dispatch.running_of_spawns spawnsAgain)
    have nonneg : 0 ≤ h := by
      have inRange := (awaits.1.step sparingAt successAt).sound.running
      exact chosen ▸ inRange.1
    refine ⟨resumed, ?_, ?_⟩
    · have current := dispatch.current_eq newcomer
      rw [show dispatching.after.view.libco.resumed = _ from resumed] at current
      exact current
    · have spawnedEntry : spawning.after.view.clientEntry h = clientEntry := by
        rw [label] at effect
        exact effect.clientEntry_of_spawn isHandle
      change dispatching.after.view.clientEntry dispatching.after.coController.running = _
      rw [chosen, dispatch.clientEntry_kept unspawned nonneg, ← spawnedEntry]
      exact Run.clientEntry_eq during awaiting.1 nonneg fun transition member =>
        (undispatched transition member).1
  case returns =>
    rintro first spawning between returning rest h rfl spawns isReturn current
    obtain ⟨prior, ⟨sparing, success⟩, later⟩ := run.split_at
    obtain ⟨during, ⟨sparingAt, successAt⟩, -⟩ := later.split_at
    have before : World.Sound config spawning.before := Run.sound prior started fun _ _ => id
    obtain ⟨effect, -⟩ := before.effect sparing.wellPosed success
    have belongs := effect.belongs_of_spawns before.sound before.contexts
      (Run.counted prior started) spawns
    obtain ⟨soundAt, belongsAt⟩ := Run.belongs during (before.step sparing success) belongs
    have running : returning.before.view.running = h := belongsAt.current current
    refine ⟨running, ?_⟩
    obtain ⟨effectAt, -⟩ := soundAt.effect sparingAt.wellPosed successAt
    apply effectAt.destroyed_inactive soundAt.sound
    rw [isReturn, Call.destroys, running]
  case argument =>
    intro cothread
    have nonneg := sound.sound.running.1
    have positive : 0 < final.view.running := by
      have nonzero : final.view.running ≠ 0 := cothread
      omega
    have active : final.view.state final.view.running ≠ .notActive := by
      rw [sound.sound.executingRunning]
      simp
    refine ⟨_, Run.lastArgument_eq run started positive active, ?_⟩
    rw [step, microkitCothreadMyArg, if_neg cothread]
    rfl

/-- Cothread 1 gives cothread 2 another argument and yields; cothread 2 runs the
entry that it was spawned with. -/
theorem running_thread_identified_sample : ∃ history final,
    history.map (fun transition => transition.label.1) =
      [.spawn 0x3000#64 1#64, .spawn 0x4000#64 2#64, .yield, .setArg 2 7#64, .yield] ∧
    cothreadEntryWrapperCallee final = 0x4000#64 ∧
    step threeHandles final .myArg = .ok (.arg 7#64, final) ∧
      Identified threeHandles history final := by
  have replayed : (replayFromInit threeHandles (Sparing threeHandles) 0x1000#64 sampleStacks
      [.spawn 0x3000#64 1#64, .spawn 0x4000#64 2#64, .yield, .setArg 2 7#64, .yield]).map
        (fun world => (world.coController.running, cothreadEntryWrapperCallee world,
          (world.coController.tcbs 2).privateArg)) =
      some (2, 0x4000#64, 7#64) := by
    decide
  obtain ⟨start, history, final, started, run, calls, seen⟩ := exists_run_of_replay replayed
  simp only [Prod.mk.injEq] at seen
  obtain ⟨running, callee, privateArg⟩ := seen
  refine ⟨history, final, calls, callee, ?_, running_thread_identified started run⟩
  rw [step, microkitCothreadMyArg, running, if_neg (by decide), privateArg]
  rfl

end Libmicrokitco
