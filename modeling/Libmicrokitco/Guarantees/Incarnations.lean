import Libmicrokitco.Guarantees.Replay

/-!
# Incarnations of a handle

A handle is reused. Between its destruction and the spawn that answers it again
it never runs, and the first dispatch after a spawn starts the context that this
very spawn derived.
-/

namespace Libmicrokitco

open Sched

/-- The transition is a spawn that answered `h`. -/
def Spawns (transition : Transition World (Call × Answer)) (h : Int) : Prop :=
  transition.label.1.spawns transition.label.2 = some h

variable {config : Config} {start world next final : World} {call : Call} {answer : Answer}
  {history : List (Transition World (Call × Answer))} {sched after : Sched} {h : Int}
  {incarnation : Nat}

/-- The handle waits for its first dispatch in the given incarnation, or has
been destroyed before it. -/
def Sched.Awaits (sched : Sched) (incarnation : Nat) (h : Int) : Prop :=
  sched.state h = .notActive ∨
    sched.state h = .ready ∧ h ≠ sched.running ∧
      sched.libco.contexts (sched.coHandle h) = .derived incarnation

theorem Sched.Effect.awaits (effect : Effect config sched call answer after)
    (sound : Sched.Sound config (some sched.running) sched) (contexts : ContextsSound config sched)
    (awaits : sched.Awaits incarnation h) (undispatched : after.running ≠ h)
    (unspawned : call.spawns answer ≠ some h) :
    after.Awaits incarnation h := by
  rcases awaits with inactive | ⟨ready, notRunning, derived⟩
  · exact .inl (effect.inactive sound inactive unspawned)
  have active : sched.state h ≠ .notActive := by
    rw [ready]
    simp
  obtain ⟨sameHandle, sameContext⟩ := contexts.context_kept sound effect active notRunning
  cases effect.stateChange h with
  | kept same =>
    refine .inr ⟨same.trans ready, undispatched.symm, ?_⟩
    rw [sameHandle, sameContext, derived]
  | dispatched chosen => exact absurd chosen.symm undispatched
  | queued caller | blocked caller => exact absurd caller notRunning
  | destroyed _ now => exact .inl now
  | spawned _ free => exact absurd ((sound.free.exact h).mp free).2.2 active

/-- A spawn leaves the handle it answers waiting for its first dispatch. -/
theorem Sched.Effect.spawn_awaits (effect : Effect config sched call answer after)
    (sound : Sched.Sound config (some sched.running) sched) (spawns : call.spawns answer = some h) :
    after.libco.derivations = sched.libco.derivations + 1 ∧
      after.Awaits after.libco.derivations h := by
  obtain ⟨⟨clientEntry, privateArg, rfl⟩, rfl, isHandle⟩ := Call.spawns_eq_some.mp spawns
  rcases effect.of_spawn with ⟨-, isNull, -⟩ | ⟨new, rest, free, -, answered, rfl⟩
  · cases isNull
    exact absurd rfl isHandle
  cases answered
  have inactive : sched.state h = .notActive :=
    ((sound.free.exact h).mp (by rw [free]; exact List.mem_cons_self)).2.2
  have notRunning : h ≠ sched.running := by
    rintro rfl
    rw [sound.executingRunning] at inactive
    cases inactive
  refine ⟨rfl, .inr ⟨Function.update_self .., notRunning, ?_⟩⟩
  change (sched.libco.coDerive (.stack _)).contexts (Function.update sched.coHandle h _ h) = _
  rw [Function.update_self, Libco.contexts_coDerive, Function.update_self]
  rfl

/-- A handle that is destroyed becomes inactive. -/
theorem Sched.Effect.destroyed_inactive (effect : Effect config sched call answer after)
    (sound : Sched.Sound config (some sched.running) sched)
    (destroys : call.destroys sched.running = some h) : after.state h = .notActive := by
  cases effect with
  | destroyed =>
    cases destroys
    exact Function.update_self ..
  | @exited _ point self _ _ _ fromCothread =>
    cases self.symm.trans destroys
    have active : (sched.released sched.running).state
        ((sched.released sched.running).gone point).running ≠ .notActive :=
      (sound.releasedSelf fromCothread).gone_active
    refine (Function.update_of_ne ?_ ..).trans (Function.update_self ..)
    intro chosen
    apply active
    rw [show ((sched.released sched.running).gone point).running = sched.running from chosen.symm]
    exact Function.update_self ..
  | queried passive =>
    rw [passive.destroys] at destroys
    cases destroys
  | consumed on | blocked on =>
    rw [Call.waitsOn_of_destroys destroys] at on
    cases on
  | ignored on | raised on | handedOver on =>
    rw [Call.signalsOn_of_destroys destroys] at on
    cases on
  | peeked | argued | exhausted | spawned | initialised | yielded => cases destroys

/-- What is promised about a handle that was destroyed. -/
structure DestroyedForGood (config : Config) (history : List (Transition World (Call × Answer)))
    (final : World) : Prop where
  /-- It does not run before a spawn answers it again. -/
  silent : ∀ first destroying between rest h,
    history = first ++ destroying :: (between ++ rest) →
      destroying.label.1.destroys destroying.before.coController.running = some h →
        (∀ transition ∈ between, ¬ Spawns transition h) →
          ∀ transition ∈ destroying :: between, transition.after.coController.running ≠ h
  /-- Its first dispatch after a spawn starts the context that this spawn derived. -/
  fresh : ∀ first spawning between dispatching rest h,
    history = first ++ spawning :: (between ++ dispatching :: rest) →
      Spawns spawning h →
        (∀ transition ∈ between,
          ¬ Spawns transition h ∧ transition.after.coController.running ≠ h) →
            dispatching.after.coController.running = h →
              spawning.after.libco.derivations = spawning.before.libco.derivations + 1 ∧
                dispatching.after.libco.resumed = .derived spawning.after.libco.derivations
  /-- No switch resumes a self-destruction. -/
  unreturned : ∀ transition ∈ history, ∀ incarnation,
    transition.after.libco.resumed ≠ .suspended incarnation .selfDestroy ∧
      transition.after.libco.resumed ≠ .suspended incarnation .entryReturn
  unreachable : ∀ call, Sparing config final call →
    step config final call ≠ .error (.panic .cannotDestroySelfAfterReturn)

/-- A sound world in which `h` is inactive. -/
def World.Without (config : Config) (world : World) (h : Int) : Prop :=
  World.Sound config world ∧ world.view.state h = .notActive

/-- A sound world in which `h` waits for its first dispatch in the incarnation. -/
def World.Awaiting (config : Config) (world : World) (incarnation : Nat) (h : Int) : Prop :=
  World.Sound config world ∧ world.view.Awaits incarnation h

theorem World.Without.running_ne (without : World.Without config world h) :
    world.coController.running ≠ h := by
  obtain ⟨sound, inactive⟩ := without
  rintro rfl
  have running : world.view.state world.coController.running = .running :=
    sound.sound.executingRunning
  rw [running] at inactive
  cases inactive

theorem World.Without.step (without : World.Without config world h)
    (sparing : Sparing config world call)
    (success : Libmicrokitco.step config world call = .ok (answer, next))
    (unspawned : ¬ Spawns ⟨world, (call, answer), next⟩ h) : World.Without config next h := by
  obtain ⟨sound, inactive⟩ := without
  obtain ⟨effect, -⟩ := sound.effect sparing.wellPosed success
  exact ⟨sound.step sparing success, effect.inactive sound.sound inactive unspawned⟩

theorem World.Awaiting.step (awaiting : World.Awaiting config world incarnation h)
    (sparing : Sparing config world call)
    (success : Libmicrokitco.step config world call = .ok (answer, next))
    (unspawned : ¬ Spawns ⟨world, (call, answer), next⟩ h)
    (undispatched : next.coController.running ≠ h) : World.Awaiting config next incarnation h := by
  obtain ⟨sound, awaits⟩ := awaiting
  obtain ⟨effect, -⟩ := sound.effect sparing.wellPosed success
  exact ⟨sound.step sparing success,
    effect.awaits sound.sound sound.contexts awaits undispatched unspawned⟩

/-- The call that dispatches a waiting thread starts its derived context. -/
theorem World.Awaiting.dispatched (awaiting : World.Awaiting config world incarnation h)
    (sparing : Sparing config world call)
    (success : Libmicrokitco.step config world call = .ok (answer, next))
    (chosen : next.coController.running = h) : next.libco.resumed = .derived incarnation := by
  obtain ⟨sound, awaits⟩ := awaiting
  obtain ⟨effect, -⟩ := sound.effect sparing.wellPosed success
  rcases awaits with inactive | ⟨ready, notRunning, derived⟩
  · rw [← chosen] at inactive
    exact absurd inactive (sound.sound.running_active effect)
  · have active : world.view.state h ≠ .notActive := by
      rw [ready]
      simp
    exact (sound.contexts.resumed_eq sound.sound effect active notRunning chosen).trans derived

/-- A destroyed handle stays out of a run that does not spawn it. -/
theorem Run.without (run : Run config (Sparing config) start history final)
    (without : World.Without config start h)
    (unspawned : ∀ transition ∈ history, ¬ Spawns transition h) :
    ∀ transition ∈ history, World.Without config transition.after h := by
  have preserved : ∀ transition ∈ history,
      World.Without config transition.before h → World.Without config transition.after h := by
    intro transition member without
    obtain ⟨sparing, success⟩ := run.valid_of_mem member
    exact without.step sparing success (unspawned transition member)
  intro transition member
  exact (run.invariant_around (World.Without config · h) without preserved transition member).2

/-- A spawned handle goes on waiting in a run that neither dispatches nor spawns it. -/
theorem Run.awaiting (run : Run config (Sparing config) start history final)
    (awaiting : World.Awaiting config start incarnation h)
    (undispatched : ∀ transition ∈ history,
      ¬ Spawns transition h ∧ transition.after.coController.running ≠ h) :
    World.Awaiting config final incarnation h := by
  have preserved : ∀ transition ∈ history, World.Awaiting config transition.before incarnation h →
      World.Awaiting config transition.after incarnation h := by
    intro transition member awaiting
    obtain ⟨sparing, success⟩ := run.valid_of_mem member
    obtain ⟨unspawned, other⟩ := undispatched transition member
    exact awaiting.step sparing success unspawned other
  exact run.invariant (World.Awaiting config · incarnation h) awaiting preserved

/-- No switch of a run resumes a self-destruction. -/
theorem Run.unreturned (run : Run config (Sparing config) start history final)
    (started : Started config start) :
    final.libco.resumed = .unset ∨ final.libco.resumed.Awaiting := by
  induction run with
  | nil => exact .inl (congrArg Libco.resumed started.initial.2.libco)
  | @snoc history state next label prior valid ih =>
    obtain ⟨sparing, success⟩ := valid
    have before : World.Sound config state := Run.sound prior started fun _ _ => id
    obtain ⟨effect, -⟩ := before.effect sparing.wellPosed success
    rcases before.contexts.resumed_awaiting before.sound effect with kept | awaiting
    · rw [show next.libco.resumed = state.libco.resumed from kept]
      exact ih
    · exact .inr awaiting

/-- A destroyed cothread never runs again. -/
theorem destroyed_for_good (started : Started config start)
    (run : Run config (Sparing config) start history final) :
    DestroyedForGood config history final := by
  constructor
  case silent =>
    rintro first destroying between rest h rfl destroys unspawned transition member
    obtain ⟨prior, ⟨sparing, success⟩, later⟩ := run.split_at
    obtain ⟨middle, during, -⟩ := later.split
    have before : World.Sound config destroying.before :=
      Run.sound prior started fun _ _ => id
    obtain ⟨effect, -⟩ := before.effect sparing.wellPosed success
    have without : World.Without config destroying.after h :=
      ⟨before.step sparing success, effect.destroyed_inactive before.sound destroys⟩
    rcases List.mem_cons.mp member with rfl | isLater
    · exact without.running_ne
    · exact (Run.without during without unspawned transition isLater).running_ne
  case fresh =>
    rintro first spawning between dispatching rest h rfl spawns undispatched chosen
    obtain ⟨prior, ⟨sparing, success⟩, later⟩ := run.split_at
    obtain ⟨during, ⟨sparingAt, successAt⟩, -⟩ := later.split_at
    have before : World.Sound config spawning.before := Run.sound prior started fun _ _ => id
    obtain ⟨effect, -⟩ := before.effect sparing.wellPosed success
    obtain ⟨counted, awaits⟩ := effect.spawn_awaits before.sound spawns
    have awaiting : World.Awaiting config spawning.after spawning.after.libco.derivations h :=
      ⟨before.step sparing success, awaits⟩
    refine ⟨counted, ?_⟩
    exact (Run.awaiting during awaiting undispatched).dispatched sparingAt successAt chosen
  case unreturned =>
    intro transition member incarnation
    obtain ⟨first, second, rfl⟩ := List.append_of_mem member
    obtain ⟨prior, valid, -⟩ := run.split_at
    rcases Run.unreturned (prior.snoc valid) started with unset | awaiting
    · rw [unset]
      simp
    · constructor
      · rintro same
        rw [same] at awaiting
        exact awaiting
      · rintro same
        rw [same] at awaiting
        exact awaiting
  case unreachable =>
    intro call sparing failure
    have sound : World.Sound config final := Run.sound run started fun _ _ => id
    cases sound.refusal sparing.wellPosed failure

/-- Cothread 1 destroys the ready cothread 2; its stale entry is skipped, and
the third derivation is what the next user of the handle starts from. -/
theorem destroyed_for_good_sample : ∃ history final,
    history.map (fun transition => transition.label.1) =
      [.someSpawn, .someSpawn, .yield, .destroy 2, .yield, .someSpawn, .yield, .yield] ∧
    final.coController.running = 2 ∧ final.libco.resumed = .derived 3 ∧
      DestroyedForGood threeHandles history final := by
  have replayed : (replayFromInit threeHandles (Sparing threeHandles) 0x1000#64 sampleStacks
      [.someSpawn, .someSpawn, .yield, .destroy 2, .yield, .someSpawn, .yield, .yield]).map
        (fun world => (world.coController.running, world.libco.resumed)) =
      some (2, .derived 3) := by
    decide
  obtain ⟨start, history, final, started, run, calls, seen⟩ := exists_run_of_replay replayed
  rw [Prod.mk.injEq] at seen
  exact ⟨history, final, calls, seen.1, seen.2, destroyed_for_good started run⟩

end Libmicrokitco
