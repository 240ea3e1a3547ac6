import Libmicrokitco.Guarantees.QueueCapacity

/-!
# The order in which handles are allocated

Handles are answered in the order 1, 2, … and then in the order in which they
were destroyed. What stands at the front of the free handles is what the next
spawn answers, unless that spawn finds the scheduling queue full.
-/

namespace Libmicrokitco

open Sched

/-- The handles that the spawns of a history answered, in order. -/
def spawnedHandles (history : List (Transition World (Call × Answer))) : List Int :=
  history.filterMap fun transition => transition.label.1.spawns transition.label.2

/-- The handles that the calls of a history destroyed, in order. -/
def destroyedHandles (history : List (Transition World (Call × Answer))) : List Int :=
  history.filterMap fun transition =>
    transition.label.1.destroys transition.before.coController.running

variable {config : Config} {start world next final : World} {call : Call} {answer : Answer}
  {history : List (Transition World (Call × Answer))} {sched after : Sched} {h : Int}

/-- A call takes what it answers from the front of the free handles and puts
what it destroys behind them. -/
theorem Sched.Effect.free (effect : Effect config sched call answer after)
    (sound : Sched.Sound config (some sched.running) sched) :
    (call.spawns answer).toList ++ after.free =
      sched.free ++ (call.destroys sched.running).toList := by
  cases effect with
  | queried passive => simp [passive.spawns, passive.destroys]
  | consumed on => simp [Call.spawns_of_waitsOn on, Call.destroys_of_waitsOn on, flagged, setSem]
  | blocked on =>
    rw [Call.spawns_of_waitsOn on, Call.destroys_of_waitsOn on]
    exact (List.append_nil _).symm
  | ignored on => simp [Call.spawns_of_signalsOn on, Call.destroys_of_signalsOn on]
  | raised on => simp [Call.spawns_of_signalsOn on, Call.destroys_of_signalsOn on, flagged, setSem]
  | handedOver on =>
    rw [Call.spawns_of_signalsOn on, Call.destroys_of_signalsOn on]
    exact (List.append_nil _).symm
  | @spawned _ _ new rest _ taken =>
    have positive := ((sound.free.exact new).mp (by rw [taken]; exact List.mem_cons_self)).1
    have isHandle : new ≠ nullHandle := positive_ne_nullHandle positive
    rw [taken, Call.spawns, if_neg isHandle]
    exact (List.append_nil _).symm
  | exhausted => simp [Call.spawns, Call.destroys]
  | peeked | argued | initialised | yielded => exact (List.append_nil _).symm
  | destroyed => rfl
  | exited self =>
    rw [Call.spawns_of_destroys self, self]
    rfl

theorem spawnedHandles_snoc (history : List (Transition World (Call × Answer)))
    (transition : Transition World (Call × Answer)) :
    spawnedHandles (history ++ [transition]) = spawnedHandles history ++
      (transition.label.1.spawns transition.label.2).toList := by
  rw [spawnedHandles, List.filterMap_append, List.filterMap_cons]
  split <;> simp_all [spawnedHandles]

theorem destroyedHandles_snoc (history : List (Transition World (Call × Answer)))
    (transition : Transition World (Call × Answer)) :
    destroyedHandles (history ++ [transition]) = destroyedHandles history ++
      (transition.label.1.destroys transition.before.coController.running).toList := by
  rw [destroyedHandles, List.filterMap_append, List.filterMap_cons]
  split <;> simp_all [destroyedHandles]

/-- Along a run, the free handles lose what spawns answer and gain what is destroyed. -/
theorem Run.free (run : Run config (Disciplined config) start history final)
    (sound : World.Sound config start) :
    World.Sound config final ∧ spawnedHandles history ++ final.freeEntries =
      start.freeEntries ++ destroyedHandles history := by
  induction run with
  | nil => exact ⟨sound, (List.append_nil _).symm⟩
  | @snoc history state next label prior valid ih =>
    obtain ⟨before, kept⟩ := ih
    obtain ⟨disciplined, success⟩ := valid
    obtain ⟨effect, -⟩ := before.effect disciplined.wellPosed success
    have moved : (label.1.spawns label.2).toList ++ next.freeEntries =
        state.freeEntries ++ (label.1.destroys state.coController.running).toList :=
      effect.free before.sound
    refine ⟨before.step disciplined.toSparing success, ?_⟩
    calc spawnedHandles (history ++ [⟨state, label, next⟩]) ++ next.freeEntries
        = spawnedHandles history ++ (state.freeEntries ++
            (label.1.destroys state.coController.running).toList) := by
          rw [spawnedHandles_snoc, List.append_assoc, moved]
      _ = start.freeEntries ++ destroyedHandles (history ++ [⟨state, label, next⟩]) := by
          rw [← List.append_assoc, kept, List.append_assoc, destroyedHandles_snoc]

section Spawn

variable {clientEntry privateArg : Address} {rest : List Int}

theorem wellPosed_spawn : WellPosed config world (.spawn clientEntry privateArg) :=
  ⟨by simp [Call.semaphore], by simp⟩

/-- A spawn answers the first free handle, exactly if the scheduling queue has
room for it. -/
theorem World.Sound.spawn_iff (sound : World.Sound config world) (nonNull : clientEntry ≠ 0#64)
    (first : world.freeEntries = h :: rest) :
    (∃ next, Libmicrokitco.step config world (.spawn clientEntry privateArg) =
        .ok (.handle h, next)) ↔ world.schedulingEntries.length ≠ config.maxCothreads := by
  constructor
  · rintro ⟨next, success⟩
    obtain ⟨effect, -⟩ := sound.effect wellPosed_spawn success
    rcases effect.of_spawn with ⟨none, -⟩ | ⟨new, others, -, room, -⟩
    · rw [show world.view.free = _ from first] at none
      cases none
    · exact room
  · intro room
    cases outcome : Libmicrokitco.step config world (.spawn clientEntry privateArg) with
    | ok answered =>
      obtain ⟨answer, next⟩ := answered
      obtain ⟨effect, -⟩ := sound.effect wellPosed_spawn outcome
      rcases effect.of_spawn with ⟨none, -⟩ | ⟨new, others, taken, -, rfl, -⟩
      · rw [show world.view.free = _ from first] at none
        cases none
      · rw [show world.view.free = _ from first] at taken
        cases taken
        exact ⟨next, rfl⟩
    | error fault =>
      exfalso
      cases sound.refusal wellPosed_spawn outcome with
      | nullEntry => exact nonNull rfl
      | spawnFull _ full => exact room full
      | signalFull on | destroyFromRoot on => cases on

/-- Without a free handle a spawn answers the null handle and changes nothing. -/
theorem World.Sound.spawn_exhausted (sound : World.Sound config world)
    (nonNull : clientEntry ≠ 0#64) (none : world.freeEntries = []) :
    Libmicrokitco.step config world (.spawn clientEntry privateArg) =
      .ok (.handle nullHandle, world) := by
  have represents : Represents config world world.view := ⟨rfl, sound.rings⟩
  rcases represents.popFreeHandleQueue nullHandle with ⟨-, popped⟩ | ⟨front, rest, -, some, -⟩
  · rw [Libmicrokitco.step, microkitCothreadSpawn, if_neg nonNull, popped]
    rfl
  · rw [show world.view.free = _ from none] at some
    cases some

/-- A spawn answers the null handle exactly if no handle is free. -/
theorem World.Sound.spawn_null_iff (sound : World.Sound config world)
    (nonNull : clientEntry ≠ 0#64) :
    (∃ next, Libmicrokitco.step config world (.spawn clientEntry privateArg) =
        .ok (.handle nullHandle, next)) ↔ world.freeEntries = [] := by
  constructor
  · rintro ⟨next, success⟩
    obtain ⟨effect, -⟩ := sound.effect wellPosed_spawn success
    rcases effect.of_spawn with ⟨none, -⟩ | ⟨new, rest, taken, -, answered, -⟩
    · exact none
    · have positive := ((sound.sound.free.exact new).mp (by rw [taken]; exact List.mem_cons_self)).1
      cases answered
      exact absurd rfl (positive_ne_nullHandle positive)
  · exact fun none => ⟨world, sound.spawn_exhausted nonNull none⟩

end Spawn

/-- No handle is free exactly if every cothread is active. -/
theorem World.Sound.free_nil_iff (sound : World.Sound config world) :
    world.freeEntries = [] ↔
      ∀ h : Int, 0 < h → h < config.maxCothreads → (world.coController.tcbs h).state ≠ .notActive := by
  rw [List.eq_nil_iff_forall_not_mem]
  constructor
  · intro none h positive below inactive
    exact none h ((sound.sound.free.exact h).mpr ⟨positive, below, inactive⟩)
  · intro active h member
    obtain ⟨positive, below, inactive⟩ := (sound.sound.free.exact h).mp member
    exact active h positive below inactive

/-- What is promised about the handles that spawns answer. -/
structure AllocatedInOrder (config : Config) (history : List (Transition World (Call × Answer)))
    (final : World) : Prop where
  order : spawnedHandles history <+: spawnableHandles config ++ destroyedHandles history
  rest : spawnedHandles history ++ final.freeEntries =
    spawnableHandles config ++ destroyedHandles history
  exhausted : ∀ clientEntry privateArg, clientEntry ≠ 0#64 →
    ((∃ next, step config final (.spawn clientEntry privateArg) = .ok (.handle nullHandle, next)) ↔
      ∀ h : Int, 0 < h → h < config.maxCothreads → (final.coController.tcbs h).state ≠ .notActive)
  unchanged : ∀ clientEntry privateArg next,
    step config final (.spawn clientEntry privateArg) = .ok (.handle nullHandle, next) →
      next = final
  released : ∀ call, Disciplined config final call →
    step config final call ≠ .error (.panic .destroyCannotReleaseHandle)
  predicted : ∀ first reporting between h, history = first ++ reporting :: between →
    reporting.label = (.freeHandleAvailable, .freeHandle true h) →
      (∀ transition ∈ between, transition.label.1.spawns transition.label.2 = none) →
        ∀ clientEntry privateArg, clientEntry ≠ 0#64 →
          ((∃ next, step config final (.spawn clientEntry privateArg) = .ok (.handle h, next)) ↔
            final.schedulingEntries.length ≠ config.maxCothreads)

/-- The handle that was reported is the first free one until a spawn answers it. -/
theorem Run.first_free {first between : List (Transition World (Call × Answer))}
    {reporting : Transition World (Call × Answer)} (started : Started config start)
    (run : Run config (Disciplined config) start (first ++ reporting :: between) final)
    (reports : reporting.label = (.freeHandleAvailable, .freeHandle true h))
    (unspawned : ∀ transition ∈ between, transition.label.1.spawns transition.label.2 = none) :
    ∃ rest, final.freeEntries = h :: rest := by
  obtain ⟨prior, ⟨disciplined, success⟩, later⟩ := run.split_at
  have before : World.Sound config reporting.before :=
    Run.sound prior started fun _ _ disciplined => disciplined.toSparing
  have after := before.step disciplined.toSparing success
  obtain ⟨effect, -⟩ := before.effect disciplined.wellPosed success
  rw [reports] at effect
  obtain ⟨answered, same⟩ := effect.of_peek
  rw [Answer.freeHandle.injEq] at answered
  have front : ∃ rest, reporting.after.freeEntries = h :: rest := by
    change ∃ rest, reporting.after.view.free = h :: rest
    rw [same]
    cases shape : reporting.before.view.free with
    | nil => simp [shape] at answered
    | cons first rest =>
      rw [shape] at answered
      exact ⟨rest, by rw [answered.2, List.headD_cons]⟩
  have silent : spawnedHandles between = [] := List.filterMap_eq_nil_iff.mpr unspawned
  have kept := (Run.free later after).2
  rw [silent, List.nil_append] at kept
  obtain ⟨rest, front⟩ := front
  exact ⟨rest ++ destroyedHandles between, by rw [kept, front, List.cons_append]⟩

/-- Handles are allocated in order; the reported one is next. -/
theorem allocated_in_order (started : Started config start)
    (run : Run config (Disciplined config) start history final) :
    AllocatedInOrder config history final := by
  obtain ⟨sound, kept⟩ := Run.free run started.sound
  rw [show start.freeEntries = _ from started.initial.2.free] at kept
  constructor
  case order => exact ⟨final.freeEntries, kept⟩
  case rest => exact kept
  case exhausted =>
    intro clientEntry privateArg nonNull
    rw [sound.spawn_null_iff nonNull, sound.free_nil_iff]
  case unchanged =>
    intro clientEntry privateArg next success
    by_cases isNull : clientEntry = 0#64
    · rw [step, microkitCothreadSpawn, if_pos isNull] at success
      cases success
    · have none := (sound.spawn_null_iff isNull).mp ⟨next, success⟩
      rw [sound.spawn_exhausted isNull none] at success
      cases success
      rfl
  case released =>
    intro call disciplined failure
    cases sound.refusal disciplined.wellPosed failure
  case predicted =>
    rintro first reporting between h rfl reports unspawned clientEntry privateArg nonNull
    obtain ⟨rest, front⟩ := Run.first_free started run reports unspawned
    exact sound.spawn_iff nonNull front

/-- Cothread 1 destroys the ready cothread 2 and ends; their handles are spawned
in that order. -/
theorem allocated_in_order_sample :
    ∃ (history : List (Transition World (Call × Answer))) (final : World),
      history.map (fun transition => transition.label.1) =
        [.someSpawn, .someSpawn, .yield, .destroy 2, .entryReturn, .someSpawn,
          .freeHandleAvailable] ∧
      final.glance = (0, [2], [1]) ∧ AllocatedInOrder threeHandles history final := by
  have replayed : (replayFromInit threeHandles (Disciplined threeHandles) 0x1000#64 sampleStacks
      [.someSpawn, .someSpawn, .yield, .destroy 2, .entryReturn, .someSpawn,
        .freeHandleAvailable]).map World.glance = some (0, [2], [1]) := by
    decide
  obtain ⟨start, history, final, started, run, calls, seen⟩ := exists_run_of_replay replayed
  exact ⟨history, final, calls, seen, allocated_in_order started run⟩

/-- Handle 2 has just been reported as available to cothread 1, and the spawn
that follows panics: the queue holds handle 2 twice and is full. -/
theorem reported_handle_not_spawned : ∃ start history final,
    Started threeHandles start ∧ Run threeHandles (Disciplined threeHandles) start history final ∧
      (history.map fun transition => transition.label).getLast? =
        some (.freeHandleAvailable, .freeHandle true 2) ∧
      Disciplined threeHandles final .someSpawn ∧
        step threeHandles final .someSpawn = .error (.panic .spawnCannotScheduleNew) := by
  have replayed : (replayFromInit threeHandles (Disciplined threeHandles) 0x1000#64 sampleStacks
      [.someSpawn, .someSpawn, .yield, .destroy 2, .someSpawn, .destroy 2]).map
        (fun world => (microkitCothreadFreeHandleAvailable nullHandle world,
          decide (Disciplined threeHandles world .freeHandleAvailable),
          decide (Disciplined threeHandles world .someSpawn),
          faultOf threeHandles .someSpawn world)) =
      some ((true, 2), true, true, some (.panic .spawnCannotScheduleNew)) := by
    decide
  obtain ⟨start, history, final, started, run, -, seen⟩ := exists_run_of_replay replayed
  obtain ⟨reported, rest⟩ := Prod.mk.inj seen
  simp only [Prod.mk.injEq, decide_eq_true_eq] at rest
  obtain ⟨asks, disciplined, fault⟩ := rest
  have answers : step threeHandles final .freeHandleAvailable =
      .ok (.freeHandle true 2, final) := by
    rw [step, reported]
  have asked : Step threeHandles (Disciplined threeHandles) final
      (.freeHandleAvailable, .freeHandle true 2) final := ⟨asks, answers⟩
  refine ⟨start, _, final, started, run.snoc asked, ?_, disciplined, faultOf_eq_some.mp fault⟩
  rw [List.map_append, List.getLast?_append]
  rfl

end Libmicrokitco
