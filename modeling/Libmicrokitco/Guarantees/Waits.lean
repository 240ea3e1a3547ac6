import Libmicrokitco.Guarantees.Replay

/-!
# When a wait returns

A scheduler that finds no ready thread falls back to the root, even when the
root is itself waiting. Then the root's wait returns without its event and the
root stays on the wait list. As long as no thread stops while none is ready,
only a signal on the semaphore ends a wait.
-/

namespace Libmicrokitco

open Sched LinkedChain

/-- A thread is reached from the head of an initialised semaphore. -/
def World.OnWaitList (config : Config) (world : World) (h : Int) : Prop :=
  ∃ sem, world.live config sem ∧
    Visits nullHandle (fun g => (world.coController.tcbs g).nextBlockedOnSameEvent)
      (world.sem sem).head h

/-- The call blocks its caller on `sem`. -/
def World.BlocksOn (world : World) (call : Call) (sem : SemRef) : Prop :=
  call.waitsOn = some sem ∧ (world.sem sem).set = false

/-- A thread that blocks or destroys itself leaves a ready one behind. -/
def LeavesReady (world : World) (call : Call) : Prop :=
  ((∃ sem, world.BlocksOn call sem) ∨
    call.destroys world.coController.running = some world.coController.running) →
      ∃ h, (world.coController.tcbs h).state = .ready

variable {config : Config} {start world next final : World} {call : Call} {answer : Answer}
  {waiters : SemRef → List Int} {history : List (Transition World (Call × Answer))}
  {sched after : Sched} {point : SwitchPoint} {sem : SemRef} {h : Int}

theorem World.Listed.onWaitList_iff (listed : World.Listed config waiters world) :
    world.OnWaitList config h ↔ ∃ sem, world.live config sem ∧ h ∈ waiters sem := by
  constructor
  · rintro ⟨sem, live, visits⟩
    exact ⟨sem, live, (listed.waiting.chain sem ((World.live_view sem).mpr live)).visits_iff.mp visits⟩
  · rintro ⟨sem, live, member⟩
    exact ⟨sem, live, (listed.waiting.chain sem ((World.live_view sem).mpr live)).visits_iff.mpr member⟩

/-- While the wait lists are lists, the running thread is on none. -/
theorem World.Listed.running_notOnWaitList (listed : World.Listed config waiters world) :
    ¬ world.OnWaitList config world.coController.running := by
  rw [listed.onWaitList_iff]
  rintro ⟨sem, live, member⟩
  have blocked := listed.waiting.blocked sem ((World.live_view sem).mpr live) _ member
  exact listed.sound.blocked_ne_running blocked rfl

/-- With no thread ready the scheduler goes to the root, and leaves the lists. -/
theorem Sched.gone_root (sound : Sched.Sound config none sched)
    (noneReady : ∀ h, sched.state h ≠ .ready) : (sched.gone point).running = 0 := by
  obtain ⟨-, dispatchable⟩ := sound.queue.chosen sound.queue.picks
  exact dispatchable.resolve_right (noneReady _)

/-- A thread that stops while none is ready hands over to a root that is on a
wait list. -/
theorem Sched.Waiting.root_listed {waiters : SemRef → List Int}
    (waiting : Waiting config waiters sched) (covered : Covered config waiters sched)
    (sound : Sched.Sound config (some sched.running) sched) (stops : sched.Stops call)
    (noneReady : ∀ h, sched.state h ≠ .ready)
    (effect : Effect config sched call answer after) :
    after.running = 0 ∧ ∃ sem, after.live config sem ∧
      Visits nullHandle after.link (after.sem sem).head 0 := by
  have rootBlocked : sched.running ≠ 0 → sched.state 0 = .blocked := by
    intro cothread
    have notRunning : sched.state 0 ≠ .running := by
      rw [ne_eq, sound.threads.executing]
      simpa using cothread
    have active := sound.threads.rootActive
    have notReady := noneReady 0
    cases known : sched.state 0 <;> simp_all
  rcases stops with ⟨sem, on, clear⟩ | self
  · obtain ⟨live, done⟩ := effect.of_wait on
    rcases done with ⟨set, -⟩ | ⟨-, rfl⟩
    · rw [clear] at set
      cases set
    have moved := waiting.blockedOn sound live clear
    refine ⟨gone_root (sound.blockedOn live) fun h ready => ?_, ?_⟩
    · by_cases caller : h = sched.running
      · subst caller
        simp [Sched.blockedOn] at ready
      · simp only [Sched.blockedOn, Function.update_of_ne caller] at ready
        exact noneReady h ready
    by_cases root : sched.running = 0
    · refine ⟨sem, live, (moved.chain sem live).visits_iff.mpr ?_⟩
      rw [Function.update_self, root]
      exact List.mem_append_right _ (List.mem_singleton_self 0)
    · obtain ⟨other, otherLive, member⟩ := covered 0 (rootBlocked root)
      refine ⟨other, otherLive, (moved.chain other otherLive).visits_iff.mpr ?_⟩
      by_cases same : other = sem
      · subst same
        rw [Function.update_self]
        exact List.mem_append_left _ member
      · rwa [Function.update_of_ne same]
  · obtain ⟨cothread, point, rfl⟩ := effect.of_exit self
    refine ⟨gone_root (sound.releasedSelf cothread) fun h ready => ?_, ?_⟩
    · by_cases caller : h = sched.running
      · subst caller
        simp [Sched.released] at ready
      · simp only [Sched.released, Function.update_of_ne caller] at ready
        exact noneReady h ready
    · obtain ⟨sem, live, member⟩ := covered 0 (rootBlocked cothread)
      exact ⟨sem, live, (waiting.chain sem live).visits_iff.mpr member⟩

/-- Every wait of a history returns at once, having consumed the flag, or when a
signal on its semaphore finds its caller first. -/
def WaitsHonoured (history : List (Transition World (Call × Answer))) : Prop :=
  ∀ first waiting later sem, history = first ++ waiting :: later →
    waiting.label.1.waitsOn = some sem →
      (waiting.after.coController.running = waiting.before.coController.running →
        (waiting.before.sem sem).set = true ∧ (waiting.after.sem sem).set = false) ∧
      ∀ between resuming rest, later = between ++ resuming :: rest →
        (∀ transition ∈ waiting :: between,
          transition.after.coController.running ≠ waiting.before.coController.running) →
        resuming.after.coController.running = waiting.before.coController.running →
          resuming.label.1.signalsOn = some sem ∧
            (resuming.before.sem sem).head = waiting.before.coController.running

/-- A blocked thread that is on no other wait list. -/
structure Sched.WaitsFor (config : Config) (waiters : SemRef → List Int) (sched : Sched)
    (sem : SemRef) (h : Int) : Prop where
  blocked : sched.state h = .blocked
  only : ∀ other, sched.live config other → h ∈ waiters other → other = sem

/-- A blocked thread stays blocked, on its semaphore, until it is resumed. -/
theorem Sched.WaitsFor.effect {waiters : SemRef → List Int} (waitsFor : WaitsFor config waiters sched sem h)
    (sound : Sched.Sound config (some sched.running) sched) (sparesRoot : call ≠ .destroy 0)
    (sparesBlocked : ∀ cothread, cothread ≠ 0 → call = .destroy cothread →
      sched.state cothread ≠ .blocked)
    (effect : Effect config sched call answer after) (notResumed : after.running ≠ h) :
    WaitsFor config (sched.nextWaiters waiters call) after sem h := by
  have other := sound.blocked_ne_running waitsFor.blocked
  constructor
  · cases effect.stateChange h with
    | kept same => exact same.trans waitsFor.blocked
    | dispatched chosen => exact absurd chosen.symm notResumed
    | queued caller | blocked caller => exact absurd caller other
    | destroyed destroys =>
      have explicit : call = .destroy h := by
        cases call with
        | destroy cothread => rw [Option.some.inj destroys]
        | entryReturn => exact absurd (Option.some.inj destroys).symm other
        | _ => cases destroys
      by_cases root : h = 0
      · exact absurd (root ▸ explicit) sparesRoot
      · exact absurd waitsFor.blocked (sparesBlocked h root explicit)
    | spawned _ free =>
      have inactive := ((sound.free.exact h).mp free).2.2
      rw [waitsFor.blocked] at inactive
      cases inactive
  · intro semaphore live member
    rcases effect.of_live live with before | ⟨id, rfl, rfl⟩
    · rcases of_mem_nextWaiters member with already | ⟨caller, -⟩
      · exact waitsFor.only semaphore before already
      · exact absurd caller other
    · rw [nextWaiters_of_init, Function.update_self] at member
      cases member

/-- A call that blocks its caller leaves it waiting. -/
theorem Sched.Waiting.waitsFor {waiters : SemRef → List Int}
    (waiting : Waiting config waiters sched) (sound : Sched.Sound config (some sched.running) sched)
    (on : call.waitsOn = some sem) (clear : (sched.sem sem).set = false)
    (effect : Effect config sched call answer after) (switched : after.running ≠ sched.running) :
    WaitsFor config (sched.nextWaiters waiters call) after sem sched.running := by
  obtain ⟨live, done⟩ := effect.of_wait on
  constructor
  · rcases done with ⟨set, -⟩ | ⟨-, rfl⟩
    · rw [clear] at set
      cases set
    · exact (Function.update_of_ne switched.symm ..).trans (Function.update_self ..)
  · intro other otherLive member
    by_contra different
    rw [nextWaiters_of_wait on, clear, if_neg (by simp), Function.update_of_ne different] at member
    rcases effect.of_live otherLive with before | ⟨id, rfl, -⟩
    · exact waiting.notMem before (by rw [sound.executingRunning]; simp) member
    · cases on

variable {first between rest : List (Transition World (Call × Answer))}

/-- A thread blocked by the last call before `between` waits until it is resumed. -/
theorem Run.waitsFor {waiting : Transition World (Call × Answer)}
    (run : Run config (Sparing config) start (first ++ waiting :: between) final)
    (started : Started config start)
    (supplied : ∀ transition ∈ first ++ waiting :: between,
      transition.before.view.Supplied transition.label.1)
    (blocks : waiting.before.BlocksOn waiting.label.1 sem)
    (notResumed : ∀ transition ∈ waiting :: between,
      transition.after.coController.running ≠ waiting.before.coController.running) :
    WaitsFor config (waitersAfter (first ++ waiting :: between)) final.view sem
      waiting.before.coController.running := by
  induction between using List.reverseRecOn generalizing final with
  | nil =>
    obtain ⟨prior, ⟨allowed, success⟩, rfl⟩ := run.snoc_inv
    have before : World.Listed config (waitersAfter first) waiting.before :=
      Run.listed prior started (fun _ _ => id) fun transition member =>
        supplied transition (List.mem_append_left _ member)
    obtain ⟨effect, -⟩ := before.effect allowed.wellPosed success
    rw [waitersAfter_snoc]
    exact before.waiting.waitsFor before.sound blocks.1 blocks.2 effect
      (notResumed waiting List.mem_cons_self)
  | append_singleton between last ih =>
    rw [← List.cons_append, ← List.append_assoc] at run supplied ⊢
    obtain ⟨prior, ⟨allowed, success⟩, rfl⟩ := run.snoc_inv
    have earlier := ih prior (fun transition member =>
      supplied transition (List.mem_append_left _ member)) fun transition member =>
        notResumed transition (by simp only [List.mem_cons, List.mem_append] at member ⊢; tauto)
    have before : World.Sound config last.before := Run.sound prior started fun _ _ => id
    obtain ⟨effect, -⟩ := before.effect allowed.wellPosed success
    rw [waitersAfter_snoc]
    exact earlier.effect before.sound allowed.sparesRoot allowed.sparesBlocked effect
      (notResumed last (by simp))

/-- With ready threads left behind, every wait is honoured. -/
theorem Run.waits_honoured (run : Run config (Sparing config) start history final)
    (started : Started config start)
    (supplied : ∀ transition ∈ history, transition.before.view.Supplied transition.label.1) :
    WaitsHonoured history := by
  rintro first waiting later sem rfl on
  obtain ⟨prior, ⟨allowed, success⟩, -⟩ := run.split_at
  have before : World.Listed config (waitersAfter first) waiting.before :=
    Run.listed prior started (fun _ _ => id) fun transition member =>
      supplied transition (List.mem_append_left _ member)
  obtain ⟨effect, -⟩ := before.effect allowed.wellPosed success
  obtain ⟨live, done⟩ := effect.of_wait on
  have consumed : (waiting.before.sem sem).set = true →
      waiting.after.coController.running = waiting.before.coController.running ∧
        (waiting.after.sem sem).set = false := by
    intro set
    rcases done with ⟨-, same⟩ | ⟨clear, -⟩
    · refine ⟨congrArg Sched.running same, ?_⟩
      have read := congrArg (fun sched => (sched.sem sem).set) same
      simp only [Sched.flagged, Sched.setSem, Function.update_self] at read
      exact read
    · rw [show (waiting.before.sem sem).set = false from clear] at set
      cases set
  constructor
  · intro stays
    rcases done with ⟨set, -⟩ | ⟨clear, went⟩
    · exact ⟨set, (consumed set).2⟩
    · have mid := before.waiting.blockedOn before.sound live clear
      have ready := before.sound.ready_of_stop .blocked
        (supplied waiting (by simp) (.inl ⟨sem, on, clear⟩))
      have blocked : (waiting.before.view.blockedOn sem).state waiting.before.view.running =
        .blocked := Function.update_self ..
      refine absurd stays ?_
      change waiting.after.view.running ≠ _
      rw [went]
      exact mid.gone_running_ne (before.sound.blockedOn live) ready blocked
  · rintro between resuming rest rfl notResumed resumed
    have blocks : waiting.before.BlocksOn waiting.label.1 sem := by
      refine ⟨on, ?_⟩
      by_contra set
      exact notResumed waiting List.mem_cons_self (consumed (by simpa using set)).1
    rw [← List.cons_append, ← List.append_assoc] at run supplied
    obtain ⟨upTo, ⟨resumingAllowed, resumingSuccess⟩, -⟩ := run.split_at
    have suppliedUpTo : ∀ transition ∈ first ++ waiting :: between,
        transition.before.view.Supplied transition.label.1 :=
      fun transition member => supplied transition (List.mem_append_left _ member)
    have waitsFor := Run.waitsFor upTo started suppliedUpTo blocks notResumed
    have listed : World.Listed config (waitersAfter (first ++ waiting :: between)) resuming.before :=
      Run.listed upTo started (fun _ _ => id) suppliedUpTo
    obtain ⟨resumes, -⟩ := listed.effect resumingAllowed.wellPosed resumingSuccess
    obtain ⟨other, signals, otherLive, isHead, member⟩ := listed.waiting.resumed listed.sound
      (supplied resuming (by simp)) resumes waitsFor.blocked resumed
    rw [waitsFor.only other otherLive member] at signals isHead
    exact ⟨signals, isHead⟩

/-- A thread that stops while none is ready puts a listed root in control. -/
theorem Run.leavesReady (run : Run config (Sparing config) start history final)
    (started : Started config start)
    (once : ∀ transition ∈ history, InitialisesOnce transition.before transition.label.1)
    (notListed : ∀ transition ∈ history,
      ¬ transition.after.OnWaitList config transition.after.coController.running) :
    ∀ transition ∈ history, LeavesReady transition.before transition.label.1 := by
  induction run with
  | nil => simp
  | @snoc history state next label prior valid ih =>
    obtain ⟨allowed, success⟩ := valid
    have onceBefore : ∀ transition ∈ history,
        InitialisesOnce transition.before transition.label.1 :=
      fun transition member => once transition (List.mem_append_left _ member)
    have supplied := ih onceBefore fun transition member =>
      notListed transition (List.mem_append_left _ member)
    have before : World.Listed config (waitersAfter history) state :=
      Run.listed prior started (fun _ _ => id) supplied
    have covered : state.view.Covered config (waitersAfter history) :=
      Run.covered prior started (fun _ _ => id) supplied onceBefore
    obtain ⟨effect, -⟩ := before.effect allowed.wellPosed success
    intro transition member
    rcases List.mem_append.mp member with earlier | isLast
    · exact supplied transition earlier
    rw [List.mem_singleton] at isLast
    subst isLast
    intro stops
    by_contra noneReady
    rw [not_exists] at noneReady
    obtain ⟨isRoot, sem, live, visits⟩ :=
      before.waiting.root_listed covered before.sound stops noneReady effect
    refine notListed _ (List.mem_append_right _ (List.mem_singleton_self _))
      ⟨sem, (World.live_view sem).mp live, ?_⟩
    rw [show next.coController.running = 0 from isRoot]
    exact visits

/-- Between calls the running thread is on no wait list, and every wait returns
for its own event, as long as no thread stops while none is ready. In runs that
initialise no semaphore twice, a thread that does so puts a listed root back in
control. -/
theorem waits_return_for_their_event (started : Started config start)
    (run : Run config (Sparing config) start history final) :
    ((∀ transition ∈ history, LeavesReady transition.before transition.label.1) →
      (∀ transition ∈ history,
        ¬ transition.after.OnWaitList config transition.after.coController.running) ∧
      WaitsHonoured history) ∧
    ((∀ transition ∈ history, InitialisesOnce transition.before transition.label.1) →
      (∀ transition ∈ history,
        ¬ transition.after.OnWaitList config transition.after.coController.running) →
      ∀ transition ∈ history, LeavesReady transition.before transition.label.1) := by
  refine ⟨fun leavesReady => ⟨?_, run.waits_honoured started leavesReady⟩,
    run.leavesReady started⟩
  intro transition member
  obtain ⟨first, second, rfl⟩ := List.append_of_mem member
  obtain ⟨prior, ⟨allowed, success⟩, -⟩ := run.split_at
  have before : World.Listed config (waitersAfter first) transition.before :=
    Run.listed prior started (fun _ _ => id) fun earlier member =>
      leavesReady earlier (List.mem_append_left _ member)
  exact (before.step allowed (leavesReady transition member) success).running_notOnWaitList

/-- The root waits while a cothread is ready, and is resumed by its signal. -/
theorem waits_return_for_their_event_sample : ∃ start history final,
    Started threeHandles start ∧ Run threeHandles (Sparing threeHandles) start history final ∧
      history.map (fun transition => transition.label.1) =
        [.someSpawn, .waitOnChannel 0, .semaphoreSignal (.channel 0)] ∧
      final.glance = (0, [1], [2]) ∧
      ((∀ transition ∈ history, LeavesReady transition.before transition.label.1) →
        (∀ transition ∈ history,
          ¬ transition.after.OnWaitList threeHandles transition.after.coController.running) ∧
        WaitsHonoured history) ∧
      ((∀ transition ∈ history, InitialisesOnce transition.before transition.label.1) →
        (∀ transition ∈ history,
          ¬ transition.after.OnWaitList threeHandles transition.after.coController.running) →
        ∀ transition ∈ history, LeavesReady transition.before transition.label.1) := by
  have replayed : (replayFromInit threeHandles (Sparing threeHandles) 0x1000#64 sampleStacks
      [.someSpawn, .waitOnChannel 0, .semaphoreSignal (.channel 0)]).map World.glance =
        some (0, [1], [2]) := by
    decide
  obtain ⟨start, history, final, started, run, calls, seen⟩ := exists_run_of_replay replayed
  exact ⟨start, history, final, started, run, calls, seen, waits_return_for_their_event started run⟩

/-- The root waits with no cothread spawned: its wait returns at once, without a
signal, and the root stays on the wait list. -/
theorem root_wait_returns_unsignalled : ∃ start history final,
    Started threeHandles start ∧ Run threeHandles (Sparing threeHandles) start history final ∧
      history.map (fun transition => transition.label.1) = [.waitOnChannel 0] ∧
      final.coController.running = 0 ∧
        final.OnWaitList threeHandles final.coController.running := by
  have replayed : (replayFromInit threeHandles (Sparing threeHandles) 0x1000#64 sampleStacks
      [.waitOnChannel 0]).map (fun world =>
        (world.coController.running, (world.sem (.channel 0)).head)) = some (0, 0) := by
    decide
  obtain ⟨start, history, final, started, run, calls, seen⟩ := exists_run_of_replay replayed
  rw [Prod.mk.injEq] at seen
  refine ⟨start, history, final, started, run, calls, seen.1, .channel 0, ?_, ?_⟩
  · exact Nat.zero_lt_one
  · rw [seen.1, seen.2]
    exact .here (by decide)

end Libmicrokitco
