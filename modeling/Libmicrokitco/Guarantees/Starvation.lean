import Libmicrokitco.Guarantees.Turns
import Libmicrokitco.Sched.Asking

/-!
# No ready thread is starved

Two measures. The position of a ready thread in the scheduling queue never
grows, since entries are added behind it, and falls with every call of
`internal_go_next` that chooses another thread. The number of blocked
cothreads bounds the hand-overs that signals make between two such calls.
-/

namespace Libmicrokitco

open Sched

/-- The call of the transition enters `internal_go_next`. -/
def asks (config : Config) (transition : Transition World (Call × Answer)) : Bool :=
  (transition.before.asksNext config transition.label.1).isSome

/-- The call of the transition is a signal that switches directly to a waiter. -/
def handsOver (transition : Transition World (Call × Answer)) : Bool :=
  match transition.label.1.signalsOn with
  | some sem =>
    !(transition.before.sem sem).set && (transition.before.sem sem).head != nullHandle
  | none => false

namespace Sched

variable {config : Config} {sched next after : Sched} {executing : Option Int} {call : Call}
  {answer : Answer} {point : SwitchPoint} {h : Int}

/-- The scheduler drops at least one entry in front of a ready thread that it
does not choose. -/
theorem Sound.idxOf_gone_lt (sound : Sound config executing sched) (ready : sched.state h = .ready)
    (unchosen : (sched.gone point).running ≠ h) :
    (sched.gone point).queue.idxOf h < sched.queue.idxOf h := by
  have queued := sound.queue.readyQueued h ready
  have picks := sound.queue.picks
  change orRoot (pick sched.state sched.queue).1 ≠ h at unchosen
  change (pick sched.state sched.queue).2.idxOf h < _
  generalize orRoot (pick sched.state sched.queue).1 = chosen at picks unchosen
  generalize (pick sched.state sched.queue).2 = rest at picks
  generalize sched.queue = whole at picks queued
  cases picks with
  | @entry skipped rest chosen stale =>
    have absent : h ∉ skipped := fun member => (stale h member).2 ready
    rw [List.idxOf_append_of_notMem absent, List.idxOf_cons_ne rest unchosen]
    omega
  | fallback stale => exact absurd ready (stale h queued).2

theorem Stopped.queue (halted : sched.Stopped call after) :
    ∃ pushed, after.queue = sched.queue ++ pushed := by
  cases halted with
  | yields => exact ⟨[sched.running], rfl⟩
  | waits | ends => exact ⟨[], (List.append_nil _).symm⟩

/-- A call that does not dispatch at most adds entries to the queue. -/
theorem Effect.queue_of_not_dispatches (effect : Effect config sched call answer next)
    (undispatched : ¬ sched.Dispatches call) : ∃ pushed, next.queue = sched.queue ++ pushed := by
  cases effect with
  | queried | peeked | argued | exhausted | initialised | consumed | ignored | raised | destroyed =>
    exact ⟨[], (List.append_nil _).symm⟩
  | spawned => exact ⟨_, rfl⟩
  | handedOver => exact ⟨_, rfl⟩
  | yielded => exact absurd (.inl rfl) undispatched
  | blocked on _ clear => exact absurd (.inr (.inl ⟨_, on, clear⟩)) undispatched
  | exited self => exact absurd (.inr (.inr self)) undispatched

end Sched

variable {config : Config} {start middle final : World} {h : Int}
  {history first second : List (Transition World (Call × Answer))}
  {transition : Transition World (Call × Answer)} {waiters : SemRef → List Int}

/-- A call that does not give control to a ready thread does not move it back in
the queue, and moves it forward if the scheduler was asked. -/
theorem World.Sound.idxOf_le (sound : World.Sound config transition.before)
    (wellPosed : WellPosed config transition.before transition.label.1)
    (success : Libmicrokitco.step config transition.before transition.label.1 =
      .ok (transition.label.2, transition.after))
    (ready : transition.before.view.state h = .ready)
    (undispatched : transition.after.view.running ≠ h) :
    transition.after.schedulingEntries.idxOf h + (if asks config transition then 1 else 0) ≤
      transition.before.schedulingEntries.idxOf h := by
  have queued : h ∈ transition.before.view.queue := sound.sound.queue.readyQueued h ready
  change transition.after.view.queue.idxOf h + _ ≤ transition.before.view.queue.idxOf h
  cases asked : transition.before.asksNext config transition.label.1 with
  | none =>
    obtain ⟨effect, -⟩ := sound.effect wellPosed success
    have undispatching : ¬ transition.before.view.Dispatches transition.label.1 := by
      intro dispatches
      have some := asksNext_of_dispatches success dispatches
      rw [asked] at some
      cases some
    obtain ⟨pushed, grown⟩ := effect.queue_of_not_dispatches undispatching
    rw [grown, List.idxOf_append_of_mem queued, asks, asked]
    simp
  | some entered =>
    obtain ⟨point, stopped⟩ := entered
    obtain ⟨after, halted, represents, afterSound⟩ := sound.whenAsked wellPosed asked
    have gone := represents.gone_of_asks asked success
    have other : h ≠ transition.before.view.running := by
      rintro rfl
      rw [sound.sound.executingRunning] at ready
      cases ready
    have stillReady : after.state h = .ready := (halted.state_of_ne other).trans ready
    obtain ⟨pushed, grown⟩ := halted.queue
    rw [gone] at undispatched ⊢
    have fell := afterSound.idxOf_gone_lt stillReady undispatched
    rw [grown, List.idxOf_append_of_mem queued] at fell
    rw [asks, asked]
    exact fell

/-- The blocked cothreads. -/
def World.blockedCothreads (config : Config) (world : World) : Finset Int :=
  (spawnableHandles config).toFinset.filter fun h => (world.coController.tcbs h).state = .blocked

theorem World.card_blockedCothreads (world : World) :
    (world.blockedCothreads config).card ≤ config.maxCothreads - 1 := by
  refine (Finset.card_filter_le _ _).trans ((List.toFinset_card_le _).trans_eq ?_)
  rw [spawnableHandles, List.length_map, List.length_range']

/-- A call that does not enter `internal_go_next` blocks no thread, and one that
hands over to a waiter unblocks it. -/
theorem World.Orderly.card_blockedCothreads (orderly : World.Orderly config waiters transition.before)
    (disciplined : Disciplined config transition.before transition.label.1)
    (success : Libmicrokitco.step config transition.before transition.label.1 =
      .ok (transition.label.2, transition.after))
    (unasked : asks config transition = false) :
    (transition.after.blockedCothreads config).card + (if handsOver transition then 1 else 0) ≤
      (transition.before.blockedCothreads config).card := by
  obtain ⟨effect, -⟩ := orderly.effect disciplined.wellPosed success
  have fewer : transition.after.blockedCothreads config ⊆ transition.before.blockedCothreads config := by
    intro h member
    rw [World.blockedCothreads, Finset.mem_filter] at member ⊢
    refine ⟨member.1, (effect.blocks member.2).resolve_right ?_⟩
    rintro ⟨-, sem, on, clear⟩
    have some := asksNext_of_dispatches success (.inr (.inl ⟨sem, on, clear⟩))
    exact absurd some (by rw [← asks, unasked]; simp)
  cases direct : handsOver transition with
  | false => exact Finset.card_le_card fewer
  | true =>
    unfold handsOver at direct
    split at direct
    case h_2 => cases direct
    case h_1 sem on =>
      simp only [Bool.and_eq_true, Bool.not_eq_true', bne_iff_ne] at direct
      obtain ⟨live, ⟨set, -⟩ | ⟨-, empty, -⟩ | ⟨-, nonempty, -, handed⟩⟩ := effect.of_signal on
      · cases set.symm.trans direct.1
      · exact absurd empty direct.2
      have blocked := orderly.waiting.head_blocked live nonempty
      have inRange := orderly.sound.threads.inRange _ (by rw [blocked]; simp)
      have notRoot : (transition.before.view.sem sem).head ≠ 0 := by
        intro isRoot
        rw [isRoot] at blocked
        exact orderly.rootAwake blocked
      have running : transition.after.view.state (transition.before.view.sem sem).head = .running := by
        rw [handed]
        exact Function.update_self ..
      refine Finset.card_lt_card ((Finset.ssubset_iff_of_subset fewer).mpr
        ⟨(transition.before.view.sem sem).head, ?_, ?_⟩)
      · rw [World.blockedCothreads, Finset.mem_filter, List.mem_toFinset, mem_spawnableHandles]
        exact ⟨⟨by have := inRange.1; omega, inRange.2⟩, blocked⟩
      · rw [World.blockedCothreads, Finset.mem_filter]
        rintro ⟨-, stillBlocked⟩
        rw [show transition.after.view.state _ = _ from stillBlocked] at running
        cases running

/-- A ready thread that is neither destroyed nor dispatched stays ready, at a
position that falls with every call of `internal_go_next`. -/
theorem Run.countP_asks (run : Run config (Disciplined config) middle second final)
    (sound : World.Sound config middle) (ready : middle.view.state h = .ready)
    (spared : ∀ transition ∈ second,
      transition.label.1.destroys transition.before.coController.running ≠ some h)
    (undispatched : ∀ transition ∈ second, transition.after.coController.running ≠ h) :
    second.countP (asks config) + final.schedulingEntries.idxOf h ≤
      middle.schedulingEntries.idxOf h := by
  have around := run.invariant_around (fun world => World.Sound config world ∧ world.view.state h = .ready)
    ⟨sound, ready⟩ fun transition member before => by
      obtain ⟨disciplined, success⟩ := run.valid_of_mem member
      obtain ⟨effect, -⟩ := before.1.effect disciplined.wellPosed success
      refine ⟨before.1.step disciplined.toSparing success, ?_⟩
      refine (effect.ready_kept before.1.sound before.2 (undispatched transition member)).resolve_right ?_
      exact fun destroyed => spared transition member destroyed.1
  refine Trace.countP_add_le (fun world => world.schedulingEntries.idxOf h) (asks config) run ?_
  intro transition member
  obtain ⟨⟨before, stillReady⟩, -⟩ := around transition member
  obtain ⟨disciplined, success⟩ := run.valid_of_mem member
  exact before.idxOf_le disciplined.wellPosed success stillReady (undispatched transition member)

/-- Between two calls of `internal_go_next` signals unblock one cothread each. -/
theorem Run.countP_handsOver (run : Run config (Disciplined config) middle second final)
    (started : Started config start) (prior : Run config (Disciplined config) start first middle)
    (unasked : ∀ transition ∈ second, asks config transition = false) :
    second.countP handsOver + (final.blockedCothreads config).card ≤
      (middle.blockedCothreads config).card := by
  refine Trace.countP_add_le (fun world => (world.blockedCothreads config).card) handsOver run ?_
  intro transition member
  obtain ⟨early, late, rfl⟩ := List.append_of_mem member
  obtain ⟨reached, ⟨disciplined, success⟩, -⟩ := run.split_at
  have before : World.Orderly config (waitersAfter (first ++ early)) transition.before :=
    Run.orderly (prior.append reached) started fun _ _ => id
  exact before.card_blockedCothreads disciplined success (unasked transition member)

/-- A ready thread with `p` entries before its first one is dispatched by the end
of the next `p + 1` calls of `internal_go_next`, unless it is destroyed; and
between two of these at most `maxCothreads - 1` signals hand over to a waiter. -/
theorem ready_thread_not_starved (started : Started config start)
    (prior : Run config (Disciplined config) start first middle)
    (continuation : Run config (Disciplined config) middle second final) :
    (∀ h, (middle.coController.tcbs h).state = .ready → h ∈ middle.schedulingEntries ∧
      ((∀ transition ∈ second,
          transition.label.1.destroys transition.before.coController.running ≠ some h) →
        middle.schedulingEntries.idxOf h < second.countP (asks config) →
          ∃ transition ∈ second, transition.after.coController.running = h)) ∧
      ((∀ transition ∈ second, asks config transition = false) →
        second.countP handsOver ≤ config.maxCothreads - 1) := by
  have orderly : World.Orderly config (waitersAfter first) middle :=
    Run.orderly prior started fun _ _ => id
  constructor
  · intro h ready
    refine ⟨orderly.sound.queue.readyQueued h ready, fun spared enough => ?_⟩
    by_contra undispatched
    have missed : ∀ transition ∈ second, transition.after.coController.running ≠ h :=
      fun transition member runs => undispatched ⟨transition, member, runs⟩
    have bound := Run.countP_asks continuation orderly.toSound ready spared missed
    omega
  · intro unasked
    have bound := Run.countP_handsOver continuation started prior unasked
    have few : (middle.blockedCothreads config).card ≤ config.maxCothreads - 1 :=
      middle.card_blockedCothreads
    omega

/-- Cothread 2 waits behind cothread 1 and runs after two yields. -/
theorem ready_thread_not_starved_sample :
    ∃ (first second : List (Transition World (Call × Answer))) (middle final : World),
    first.map (fun transition => transition.label.1) = [.someSpawn, .someSpawn] ∧
    middle.glance = (0, [1, 2], []) ∧
    second.map (fun transition => transition.label.1) = [.yield, .yield] ∧
    Run threeHandles (Disciplined threeHandles) middle second final ∧
    (∃ transition ∈ second, transition.after.coController.running = 2) ∧
    ((∀ transition ∈ second, asks threeHandles transition = false) →
      second.countP handsOver ≤ 2) := by
  have replayed : (replayFromInit threeHandles (Disciplined threeHandles) 0x1000#64 sampleStacks
      [.someSpawn, .someSpawn]).map (fun world => (world.glance, (world.coController.tcbs 2).state,
        (replay threeHandles (Disciplined threeHandles) world [.yield, .yield]).isSome)) =
      some ((0, [1, 2], []), .ready, true) := by
    decide
  obtain ⟨start, first, middle, started, run, calls, seen⟩ := exists_run_of_replay replayed
  simp only [Prod.mk.injEq] at seen
  obtain ⟨glanced, ready, continues⟩ := seen
  obtain ⟨final, continued⟩ := Option.isSome_iff_exists.mp continues
  obtain ⟨second, later, labels⟩ := replay_run continued
  obtain ⟨dispatched, between⟩ := ready_thread_not_starved started run later
  have isYield : ∀ transition ∈ second, transition.label.1 = .yield := by
    intro transition member
    have label := List.mem_map_of_mem (f := fun transition => transition.label.1) member
    rw [labels] at label
    simpa using label
  refine ⟨first, second, middle, final, calls, glanced, labels, later, ?_, between⟩
  apply (dispatched 2 ready).2
  · intro transition member
    rw [isYield transition member]
    simp [Call.destroys]
  · have all : second.countP (asks threeHandles) = second.length := by
      rw [List.countP_eq_length]
      intro transition member
      exact asksNext_of_dispatches (later.valid_of_mem member).2 (.inl (isYield transition member))
    have two : second.length = 2 := by
      rw [← List.length_map (f := fun transition => transition.label.1), labels]
      rfl
    have queue : middle.schedulingEntries = [1, 2] := congrArg (fun glance => glance.2.1) glanced
    rw [all, two, queue]
    decide

end Libmicrokitco
