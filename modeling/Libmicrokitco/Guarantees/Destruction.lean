import Libmicrokitco.Guarantees.Replay

/-!
# Destroying cothreads

The guard of `microkit_cothread_destroy` that is meant to protect the root asks
whether the root is the caller, not whether it is the subject. A request is
treated as documented exactly when the two agree.
-/

namespace Libmicrokitco

open Sched

/-- What the documentation says of destroying `h`: an invalid handle, an
inactive one and the root are refused, anything else is released. -/
structure DestroyedAsDocumented (config : Config) (world : World) (h : Int) : Prop where
  refuses : (∃ err, step config world (.destroy h) = .error (.panic err)) ↔
    h < 0 ∨ config.maxCothreads ≤ h ∨ (world.coController.tcbs h).state = .notActive ∨ h = rootThread
  releases : ∀ answer next, step config world (.destroy h) = .ok (answer, next) →
    next.freeEntries = world.freeEntries ++ [h] ∧
      next.coController.tcbs h = { world.coController.tcbs h with state := .notActive } ∧
      ∀ g, g ≠ h → next.coController.tcbs g =
        if h = world.coController.running ∧ g = next.coController.running then
          { world.coController.tcbs g with state := .running }
        else world.coController.tcbs g

/-- A call that destroys no blocked cothread; it may destroy the root. -/
structure Permitted (config : Config) (world : World) (call : Call) : Prop where
  wellPosed : WellPosed config world call
  sparesBlocked : SparesBlocked world call

instance (config : Config) (world : World) (call : Call) : Decidable (Permitted config world call) :=
  decidable_of_iff (WellPosed config world call ∧ SparesBlocked world call)
    ⟨fun both => ⟨both.1, both.2⟩, fun permitted => ⟨permitted.wellPosed, permitted.sparesBlocked⟩⟩

variable {config : Config} {start world next final : World} {call : Call} {answer : Answer}
  {history : List (Transition World (Call × Answer))} {sched after : Sched} {h g : Int}

/-- The TCB of a handle, put together from the list reading. -/
def Sched.tcb (sched : Sched) (h : Int) : CoTcb where
  localStorage := sched.localStorage h
  coHandle := sched.coHandle h
  clientEntry := sched.clientEntry h
  privateArg := sched.privateArg h
  state := sched.state h
  nextBlockedOnSameEvent := sched.link h

theorem Sched.tcb_of_state {value : CoState} (state : after.state h = value)
    (link : after.link = sched.link) (coHandle : after.coHandle = sched.coHandle)
    (localStorage : after.localStorage = sched.localStorage)
    (clientEntry : after.clientEntry = sched.clientEntry)
    (privateArg : after.privateArg = sched.privateArg) :
    after.tcb h = { sched.tcb h with state := value } := by
  simp only [tcb, state, link, coHandle, localStorage, clientEntry, privateArg]

/-- What a cothread's destruction of a cothread does to the lists. -/
theorem Sched.Effect.releases (effect : Effect config sched (.destroy h) answer after)
    (sound : Sched.Sound config (some sched.running) sched) (nonRoot : h ≠ 0) :
    after.free = sched.free ++ [h] ∧ after.tcb h = { sched.tcb h with state := .notActive } ∧
      ∀ g, g ≠ h → after.tcb g =
        if h = sched.running ∧ g = after.running then { sched.tcb g with state := .running }
        else sched.tcb g := by
  have released : ∀ g, g ≠ h → (sched.released h).tcb g = sched.tcb g := by
    intro g different
    have kept : (sched.released h).state g = sched.state g := Function.update_of_ne different ..
    exact tcb_of_state kept rfl rfl rfl rfl rfl
  cases effect with
  | queried passive => exact passive.elim
  | consumed on | blocked on | ignored on | raised on | handedOver on => cases on
  | destroyed _ _ _ _ other =>
    refine ⟨rfl, tcb_of_state (Function.update_self ..) rfl rfl rfl rfl rfl, fun g different => ?_⟩
    rw [if_neg fun both => other both.1]
    exact released g different
  | @exited _ point self =>
    have isSelf : h = sched.running := Option.some.inj self
    subst isSelf
    have between := sound.releasedSelf nonRoot
    obtain ⟨-, dispatchable⟩ := between.queue.chosen between.queue.picks
    have other : ((sched.released sched.running).gone point).running ≠ sched.running := by
      intro same
      change orRoot (pick (sched.released sched.running).state
        (sched.released sched.running).queue).1 = sched.running at same
      rw [same] at dispatchable
      rcases dispatchable with isRoot | ready
      · exact nonRoot isRoot
      · simp [Sched.released] at ready
    refine ⟨rfl, tcb_of_state ?_ rfl rfl rfl rfl rfl, fun g different => ?_⟩
    · exact (Function.update_of_ne other.symm ..).trans (Function.update_self ..)
    · by_cases chosen : g = ((sched.released sched.running).gone point).running
      · rw [if_pos ⟨rfl, chosen⟩]
        refine tcb_of_state ?_ rfl rfl rfl rfl rfl
        rw [chosen]
        exact Function.update_self ..
      · rw [if_neg fun both => chosen both.2, ← released g different]
        exact tcb_of_state (Function.update_of_ne chosen ..) rfl rfl rfl rfl rfl

theorem Sched.Effect.accepts (effect : Effect config sched (.destroy h) answer after) :
    InRange config h ∧ sched.state h ≠ .notActive ∧ sched.running ≠ 0 := by
  cases effect with
  | queried passive => exact passive.elim
  | consumed on | blocked on | ignored on | raised on | handedOver on => cases on
  | destroyed nonneg below active fromCothread => exact ⟨⟨nonneg, below⟩, active, fromCothread⟩
  | exited self nonneg below active fromCothread =>
    have isSelf : h = sched.running := Option.some.inj self
    subst isSelf
    exact ⟨⟨nonneg, below⟩, active, fromCothread⟩

/-- The requests that the code accepts. -/
theorem World.Sound.destroy_panics_iff (sound : World.Sound config world) :
    (∃ err, Libmicrokitco.step config world (.destroy h) = .error (.panic err)) ↔
      ¬ (InRange config h ∧ (world.coController.tcbs h).state ≠ .notActive ∧
        world.coController.running ≠ rootThread) := by
  have posed : WellPosed config world (.destroy h) := ⟨by simp [Call.semaphore], by simp⟩
  have agreement := (show Represents config world world.view from ⟨rfl, sound.rings⟩).step
    (.destroy h)
  constructor
  · rintro ⟨err, failure⟩ ⟨bounds, active, cothread⟩
    have failed := (agreement.error_iff (.panic err)).mp failure
    change Sched.returning (world.view.destroy config .selfDestroy h) = _ at failed
    rw [destroy_ok sound.sound sound.contexts bounds active cothread] at failed
    cases failed
  · intro refused
    cases outcome : Libmicrokitco.step config world (.destroy h) with
    | ok answered =>
      obtain ⟨effect, -⟩ := sound.effect posed outcome
      exact absurd effect.accepts refused
    | error fault =>
      cases sound.refusal posed outcome with
      | destroyInvalid | destroyInactive | destroyFromRoot => exact ⟨_, rfl⟩
      | signalFull on => cases on

theorem World.Sound.destroyed_as_documented_iff (sound : World.Sound config world) :
    DestroyedAsDocumented config world h ↔
      ¬ (InRange config h ∧ (world.coController.tcbs h).state ≠ .notActive ∧
        ¬ (world.coController.running = rootThread ↔ h = rootThread)) := by
  have posed : WellPosed config world (.destroy h) := ⟨by simp [Call.semaphore], by simp⟩
  have refuses : (∃ err, Libmicrokitco.step config world (.destroy h) = .error (.panic err)) ↔
      ¬ (InRange config h ∧ (world.coController.tcbs h).state ≠ .notActive ∧
        world.coController.running ≠ rootThread) := sound.destroy_panics_iff
  constructor
  · rintro documented ⟨bounds, active, mixedUp⟩
    have both := refuses.symm.trans documented.refuses
    have valid : ¬ (h < 0 ∨ config.maxCothreads ≤ h) := by
      obtain ⟨nonneg, below⟩ := bounds
      omega
    by_cases isRoot : h = rootThread <;> by_cases fromRoot : world.coController.running = rootThread
      <;> simp_all
  · intro clear
    refine ⟨?_, ?_⟩
    · rw [refuses]
      by_cases bounds : InRange config h
      · obtain ⟨nonneg, below⟩ := id bounds
        rw [or_iff_right (by omega), or_iff_right (by omega)]
        by_cases isRoot : h = rootThread <;>
          by_cases fromRoot : world.coController.running = rootThread <;> simp_all
      · have invalid : h < 0 ∨ config.maxCothreads ≤ h := by
          unfold InRange at bounds
          omega
        simp only [bounds, false_and, not_false_iff, true_iff]
        rw [← or_assoc]
        exact .inl invalid
    · intro answer next success
      have accepted := refuses.not.mp (by
        rintro ⟨err, failure⟩
        rw [success] at failure
        cases failure)
      rw [not_not] at accepted
      obtain ⟨bounds, active, cothread⟩ := accepted
      have nonRoot : h ≠ rootThread := fun isRoot =>
        clear ⟨bounds, active, fun same => cothread (same.mpr isRoot)⟩
      obtain ⟨effect, -⟩ := sound.effect posed success
      exact effect.releases sound.sound nonRoot

theorem Sched.Effect.spawn_ne_root {clientEntry privateArg : Address}
    (sound : Sched.Sound config (some sched.running) sched)
    (effect : Effect config sched (.spawn clientEntry privateArg) (.handle h) after) : h ≠ 0 := by
  rintro rfl
  cases effect with
  | queried passive => exact passive.elim
  | spawned _ free =>
    have positive := ((sound.free.exact 0).mp (by rw [free]; exact List.mem_cons_self)).1
    omega

end Libmicrokitco
