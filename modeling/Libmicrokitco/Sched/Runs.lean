import Libmicrokitco.Sched.Faults
import Libmicrokitco.Sched.Waiting

/-!
# Runs of the implementation

The invariants of the lists, carried along runs of the implementation through
the refinement. `World.Sound` holds whoever waits; `World.Listed` adds the wait
lists, for runs in which no thread stops while none is ready; `World.Orderly`
is what runs of disciplined clients keep, whose root is never blocked and so
is always there to be dispatched.
-/

namespace Libmicrokitco

open Sched

/-- The waiters of every semaphore after the calls of a history. -/
def waitersAfter (history : List (Transition World (Call × Answer))) : SemRef → List Int :=
  history.foldl (fun waiters transition =>
    transition.before.view.nextWaiters waiters transition.label.1) fun _ => []

@[simp] theorem waitersAfter_snoc (history : List (Transition World (Call × Answer)))
    (transition : Transition World (Call × Answer)) :
    waitersAfter (history ++ [transition]) =
      transition.before.view.nextWaiters (waitersAfter history) transition.label.1 := by
  simp [waitersAfter]

namespace World

structure Sound (config : Config) (world : World) : Prop where
  rings : world.coController.RingsWellFormed config
  sound : world.view.Sound config (some world.view.running)
  contexts : world.view.ContextsSound config

/-- The wait lists are the lists that `waiters` gives. -/
structure Listed (config : Config) (waiters : SemRef → List Int) (world : World) : Prop
    extends World.Sound config world where
  waiting : world.view.Waiting config waiters

structure Orderly (config : Config) (waiters : SemRef → List Int) (world : World) : Prop
    extends World.Listed config waiters world where
  rootAwake : world.view.state 0 ≠ .blocked

/-- Following the links from the head of `sem` visits exactly `waiters`. -/
def WaitList (world : World) (sem : SemRef) (waiters : List Int) : Prop :=
  LinkedChain.Chain nullHandle (fun h => (world.coController.tcbs h).nextBlockedOnSameEvent)
    (world.sem sem).head waiters

end World

variable {config : Config} {Allowed : World → Call → Prop} {start world next final : World}
  {call : Call} {answer : Answer} {waiters : SemRef → List Int}
  {history : List (Transition World (Call × Answer))}

theorem World.live_view (sem : SemRef) : world.view.live config sem ↔ world.live config sem := by
  cases sem <;> rfl

theorem World.Listed.waitList (listed : World.Listed config waiters world) {sem : SemRef}
    (live : world.live config sem) : world.WaitList sem (waiters sem) :=
  listed.waiting.chain sem ((World.live_view sem).mpr live)

/-- A step of the implementation has an effect on the lists. -/
theorem World.Sound.effect (sound : World.Sound config world)
    (wellPosed : WellPosed config world call)
    (success : step config world call = .ok (answer, next)) :
    Effect config world.view call answer next.view ∧
      next.coController.RingsWellFormed config := by
  have represents : Represents config world world.view := ⟨rfl, sound.rings⟩
  have agreement := represents.step call
  rw [success] at agreement
  obtain ⟨⟨sameAnswer, sched⟩, listed, rfl, related⟩ := agreement.ok_left
  obtain ⟨rfl, rings⟩ := related
  refine ⟨step_effect (fun sem uses => ?_) listed, rings⟩
  exact (World.live_view sem).mpr (wellPosed.semaphoreLive sem uses)

theorem World.Sound.step (sound : World.Sound config world) (sparing : Sparing config world call)
    (success : Libmicrokitco.step config world call = .ok (answer, next)) :
    World.Sound config next := by
  obtain ⟨effect, rings⟩ := sound.effect sparing.wellPosed success
  exact ⟨rings, sound.sound.effect sparing.sparesRoot sparing.sparesBlocked effect,
    sound.contexts.effect sound.sound effect⟩

/-- The implementation can do what the lists can. -/
theorem World.Sound.realise {sched : Sched} (sound : World.Sound config world)
    (sparing : Sparing config world call)
    (success : world.view.step config call = .ok (answer, sched)) :
    ∃ next, Libmicrokitco.step config world call = .ok (answer, next) ∧ next.view = sched ∧
      World.Sound config next := by
  have represents : Represents config world world.view := ⟨rfl, sound.rings⟩
  have agreement := (represents.step call).symm
  rw [success] at agreement
  obtain ⟨⟨sameAnswer, next⟩, returned, rfl, related⟩ := agreement.ok_left
  exact ⟨next, returned, related.view, sound.step sparing returned⟩

/-- So can a function that answers nothing. -/
theorem World.Sound.realise_returning {computation : Except Fault World} {sched : Sched}
    (sound : World.Sound config world) (sparing : Sparing config world call)
    (isCall : Libmicrokitco.step config world call = Libmicrokitco.returning computation)
    (success : world.view.step config call = .ok (answer, sched)) :
    ∃ next, computation = .ok next ∧ next.view = sched ∧ World.Sound config next := by
  obtain ⟨next, stepped, view, after⟩ := sound.realise sparing success
  rw [isCall] at stepped
  obtain ⟨_, returned, same⟩ := map_eq_ok.mp stepped
  cases same
  exact ⟨next, returned, view, after⟩

/-- A fault of the implementation ran into a guard. -/
theorem World.Sound.refusal {fault : Fault} (sound : World.Sound config world)
    (wellPosed : WellPosed config world call)
    (failure : Libmicrokitco.step config world call = .error fault) :
    Refusal config world.view call fault := by
  have represents : Represents config world world.view := ⟨rfl, sound.rings⟩
  refine step_refusal sound.sound sound.contexts (fun sem uses => ?_)
    ((represents.step call).error_iff fault |>.mp failure)
  exact (World.live_view sem).mpr (wellPosed.semaphoreLive sem uses)

theorem World.Listed.step (listed : World.Listed config waiters world)
    (sparing : Sparing config world call) (supplied : world.view.Supplied call)
    (success : Libmicrokitco.step config world call = .ok (answer, next)) :
    World.Listed config (world.view.nextWaiters waiters call) next := by
  obtain ⟨effect, -⟩ := listed.effect sparing.wellPosed success
  exact ⟨listed.toSound.step sparing success, listed.waiting.effect listed.sound sparing.sparesRoot
    sparing.sparesBlocked supplied effect⟩

/-- While a cothread runs a root that is not blocked is ready. -/
theorem World.Orderly.root_ready (orderly : World.Orderly config waiters world)
    (cothread : world.view.running ≠ 0) : world.view.state 0 = .ready := by
  have notRunning : world.view.state 0 ≠ .running := by
    rw [ne_eq, orderly.sound.threads.executing]
    simpa using cothread
  have active := orderly.sound.threads.rootActive
  have awake := orderly.rootAwake
  cases known : world.view.state 0 <;> simp_all

/-- Only cothreads destroy themselves. -/
theorem Sparing.exits_cothread (sparing : Sparing config world call)
    (exits : call.destroys world.view.running = some world.view.running) :
    world.view.running ≠ 0 := by
  cases call with
  | destroy cothread =>
    have same : cothread = world.view.running := Option.some.inj exits
    rintro isRoot
    exact sparing.sparesRoot (by rw [same, isRoot])
  | entryReturn => exact sparing.wellPosed.entered rfl
  | _ => cases exits

/-- When a disciplined thread stops, the root is ready. -/
theorem World.Orderly.supplied (orderly : World.Orderly config waiters world)
    (disciplined : Disciplined config world call) : world.view.Supplied call := by
  rintro (⟨sem, on, -⟩ | exits)
  · have cothread := disciplined.rootNeverWaits (by rw [on]; simp)
    exact ⟨0, orderly.root_ready cothread⟩
  · exact ⟨0, orderly.root_ready (disciplined.toSparing.exits_cothread exits)⟩

theorem World.Orderly.step (orderly : World.Orderly config waiters world)
    (disciplined : Disciplined config world call)
    (success : Libmicrokitco.step config world call = .ok (answer, next)) :
    World.Orderly config (world.view.nextWaiters waiters call) next := by
  have sparing := disciplined.toSparing
  obtain ⟨effect, -⟩ := orderly.effect disciplined.wellPosed success
  refine ⟨orderly.toListed.step sparing (orderly.supplied disciplined) success, ?_⟩
  intro blocked
  rcases effect.blocks blocked with before | ⟨isRoot, sem, on, -⟩
  · exact orderly.rootAwake before
  · exact disciplined.rootNeverWaits (by rw [on]; simp) isRoot.symm

theorem Started.sound (started : Started config world) : World.Sound config world := by
  obtain ⟨represents, initial⟩ := started.initial
  exact ⟨represents.rings, initial.sound, initial.contexts⟩

theorem Started.orderly (started : Started config world) :
    World.Orderly config (fun _ => []) world := by
  obtain ⟨-, initial⟩ := started.initial
  refine ⟨⟨started.sound, initial.waiting⟩, ?_⟩
  rw [initial.state]
  simp

/-- What a run of sparing calls keeps. -/
theorem Run.sound (run : Run config Allowed start history final) (started : Started config start)
    (sparing : ∀ world call, Allowed world call → Sparing config world call) :
    World.Sound config final :=
  run.invariant_of_step started.sound fun sound valid => sound.step (sparing _ _ valid.1) valid.2

/-- What a run keeps of the wait lists, as long as no thread stops while none is ready. -/
theorem Run.listed (run : Run config Allowed start history final) (started : Started config start)
    (sparing : ∀ world call, Allowed world call → Sparing config world call)
    (supplied : ∀ transition ∈ history, transition.before.view.Supplied transition.label.1) :
    World.Listed config (waitersAfter history) final := by
  induction run with
  | nil => exact started.orderly.toListed
  | snoc prior valid ih =>
    have before := ih fun transition member => supplied transition (List.mem_append_left _ member)
    rw [waitersAfter_snoc]
    exact before.step (sparing _ _ valid.1)
      (supplied _ (List.mem_append_right _ (List.mem_singleton_self _))) valid.2

/-- Blocked threads stay on wait lists in runs that initialise no semaphore twice. -/
theorem Run.covered (run : Run config Allowed start history final) (started : Started config start)
    (sparing : ∀ world call, Allowed world call → Sparing config world call)
    (supplied : ∀ transition ∈ history, transition.before.view.Supplied transition.label.1)
    (once : ∀ transition ∈ history, InitialisesOnce transition.before transition.label.1) :
    final.view.Covered config (waitersAfter history) := by
  induction run with
  | nil =>
    obtain ⟨-, initial⟩ := started.initial
    intro h blocked
    rw [initial.state] at blocked
    split at blocked <;> cases blocked
  | @snoc history state next label prior valid ih =>
    obtain ⟨allowed, success⟩ := valid
    have suppliedBefore : ∀ transition ∈ history,
        transition.before.view.Supplied transition.label.1 :=
      fun transition member => supplied transition (List.mem_append_left _ member)
    have before : World.Listed config (waitersAfter history) state :=
      Run.listed prior started sparing suppliedBefore
    have covered := ih suppliedBefore fun transition member =>
      once transition (List.mem_append_left _ member)
    have after := before.toSound.step (sparing _ _ allowed) success
    obtain ⟨effect, -⟩ := before.effect (sparing _ _ allowed).wellPosed success
    rw [waitersAfter_snoc]
    exact covered.effect before.waiting after.sound
      (once _ (List.mem_append_right _ (List.mem_singleton_self _))) effect

/-- What a run of disciplined clients keeps. -/
theorem Run.orderly (run : Run config Allowed start history final) (started : Started config start)
    (disciplined : ∀ world call, Allowed world call → Disciplined config world call) :
    World.Orderly config (waitersAfter history) final := by
  induction run with
  | nil => exact started.orderly
  | snoc prior valid ih =>
    rw [waitersAfter_snoc]
    exact ih.step (disciplined _ _ valid.1) valid.2

/-- In a run of disciplined clients no thread stops while none is ready. -/
theorem Run.supplied (run : Run config Allowed start history final) (started : Started config start)
    (disciplined : ∀ world call, Allowed world call → Disciplined config world call) :
    ∀ transition ∈ history, transition.before.view.Supplied transition.label.1 := by
  intro transition member
  obtain ⟨first, second, rfl⟩ := List.append_of_mem member
  obtain ⟨prior, ⟨allowed, -⟩, -⟩ := run.split_at
  have before : World.Orderly config (waitersAfter first) transition.before :=
    Run.orderly prior started disciplined
  exact before.supplied (disciplined _ _ allowed)

end Libmicrokitco
