import Libmicrokitco.Guarantees.Replay

/-!
# Who owns a handle

In every state that disciplined clients reach, each handle has one owner: it is
running, free, on one wait list or ready and queued.
-/

namespace Libmicrokitco

open Sched LinkedChain

/-- Disciplined clients that initialise no semaphore twice. -/
structure DisciplinedOnce (config : Config) (world : World) (call : Call) : Prop
    extends Disciplined config world call where
  once : InitialisesOnce world call

instance (config : Config) (world : World) (call : Call) :
    Decidable (DisciplinedOnce config world call) :=
  decidable_of_iff (Disciplined config world call ∧ InitialisesOnce world call)
    ⟨fun both => ⟨both.1, both.2⟩, fun once => ⟨once.toDisciplined, once.once⟩⟩

/-- The handles, their states, the wait lists and the two rings agree. -/
structure HandleOwnership (config : Config) (world : World) : Prop where
  runningInRange : InRange config world.coController.running
  running : ∀ h, InRange config h →
    ((world.coController.tcbs h).state = .running ↔ h = world.coController.running)
  waitList : ∀ sem, world.live config sem → ∃ waiters, world.WaitList sem waiters ∧
    waiters.Nodup ∧ (waiters ≠ [] → waiters.getLast? = some (world.sem sem).tail) ∧
      ((world.sem sem).head = nullHandle ↔ waiters = [])
  blocked : ∀ h, InRange config h → ((world.coController.tcbs h).state = .blocked ↔
    ∃! sem, world.live config sem ∧ ∃ waiters, world.WaitList sem waiters ∧ waiters.count h = 1)
  lastLink : ∀ sem waiters h, world.live config sem → world.WaitList sem waiters →
    waiters.getLast? = some h → (world.coController.tcbs h).nextBlockedOnSameEvent = nullHandle
  idleLink : ∀ h, InRange config h → (world.coController.tcbs h).state = .running ∨
    (world.coController.tcbs h).state = .ready →
      (world.coController.tcbs h).nextBlockedOnSameEvent = nullHandle
  free : ∀ h, InRange config h → world.freeEntries.count h =
    if (world.coController.tcbs h).state = .notActive then 1 else 0
  freeInRange : ∀ h ∈ world.freeEntries, InRange config h ∧ h ≠ rootThread
  ready : ∀ h, InRange config h → (world.coController.tcbs h).state = .ready →
    h ∈ world.schedulingEntries
  queuedInRange : ∀ entry ∈ world.schedulingEntries, InRange config entry
  root : world.schedulingEntries.count rootThread =
    if (world.coController.tcbs rootThread).state = .ready then 1 else 0

variable {config : Config} {start world next final : World} {call : Call} {answer : Answer}
  {waiters : SemRef → List Int} {history : List (Transition World (Call × Answer))}

theorem World.Listed.ownership (listed : World.Listed config waiters world)
    (covered : world.view.Covered config waiters) : HandleOwnership config world := by
  have waiting := listed.waiting
  have sound := listed.sound
  have isLive : ∀ sem, world.live config sem → world.view.live config sem :=
    fun sem => (World.live_view sem).mpr
  have onlyList : ∀ sem nodes, world.live config sem → world.WaitList sem nodes →
      nodes = waiters sem := fun sem nodes live chain =>
    chain.unique (waiting.chain sem (isLive sem live))
  constructor
  case runningInRange => exact sound.running
  case running =>
    intro h _
    refine (sound.threads.executing h).trans ?_
    rw [Option.some.injEq, eq_comm]
    rfl
  case waitList =>
    intro sem live
    have chain := waiting.chain sem (isLive sem live)
    refine ⟨waiters sem, chain, chain.nodup, fun nonempty => ?_, (waiting.nil_iff (isLive sem live)).symm⟩
    rw [getLast?_eq_lastNode nullHandle nonempty, ← waiting.tail sem (isLive sem live)]
    rfl
  case blocked =>
    intro h _
    constructor
    · intro blocked
      obtain ⟨sem, live, member⟩ := covered h blocked
      have chain := waiting.chain sem live
      refine ⟨sem, ⟨(World.live_view sem).mp live, waiters sem, chain,
        List.count_eq_one_of_mem chain.nodup member⟩, ?_⟩
      rintro other ⟨otherLive, nodes, otherChain, once⟩
      have again : h ∈ waiters other := by
        rw [← onlyList other nodes otherLive otherChain]
        exact List.count_pos_iff.mp (by omega)
      by_contra different
      exact waiting.disjoint other sem (isLive other otherLive) live different h again member
    · rintro ⟨sem, ⟨live, nodes, chain, once⟩, -⟩
      have member : h ∈ waiters sem := by
        rw [← onlyList sem nodes live chain]
        exact List.count_pos_iff.mp (by omega)
      exact waiting.blocked sem (isLive sem live) h member
  case lastLink =>
    intro sem nodes h live chain last
    have nonempty : nodes ≠ [] := by
      rintro rfl
      cases last
    rw [getLast?_eq_lastNode nullHandle nonempty] at last
    cases last
    exact chain.next_last nonempty
  case idleLink =>
    rintro h _ (running | ready)
    · have state : world.view.state h = .running := running
      exact waiting.unlinked h (by rw [state]; simp) (by rw [state]; simp)
    · have state : world.view.state h = .ready := ready
      exact waiting.unlinked h (by rw [state]; simp) (by rw [state]; simp)
  case free =>
    rintro h ⟨nonneg, below⟩
    have exact := sound.free.exact h
    split
    · rename_i inactive
      have state : world.view.state h = .notActive := inactive
      have nonRoot : h ≠ 0 := by
        rintro rfl
        exact sound.threads.rootActive state
      exact List.count_eq_one_of_mem sound.free.nodup (exact.mpr ⟨by omega, below, state⟩)
    · rename_i active
      exact List.count_eq_zero_of_not_mem fun member => active (exact.mp member).2.2
  case freeInRange =>
    intro h member
    obtain ⟨positive, below, -⟩ := (sound.free.exact h).mp member
    exact ⟨⟨positive.le, below⟩, positive.ne'⟩
  case ready => exact fun h _ ready => sound.queue.readyQueued h ready
  case queuedInRange => exact sound.queue.inRange
  case root =>
    have once := waiting.rootOnce
    split
    · rename_i ready
      have positive : 0 < world.view.queue.count 0 :=
        List.count_pos_iff.mpr (sound.queue.readyQueued 0 ready)
      change world.view.queue.count 0 = 1
      omega
    · rename_i notReady
      exact List.count_eq_zero_of_not_mem fun queued => notReady (waiting.rootReady queued)

/-- Handle ownership holds in every state that disciplined clients reach. -/
theorem handle_ownership (started : Started config start)
    (run : Run config (DisciplinedOnce config) start history final) :
    HandleOwnership config final := by
  have orderly : World.Orderly config (waitersAfter history) final :=
    Run.orderly run started fun _ _ once => once.toDisciplined
  have supplied := Run.supplied run started fun _ _ once => once.toDisciplined
  have covered := Run.covered run started (fun _ _ once => once.toSparing) supplied
    fun transition member => (run.valid_of_mem member).1.once
  exact orderly.toListed.ownership covered

/-- Both cothreads have waited, and the root has resumed the first. -/
theorem handle_ownership_sample : ∃ final : World, final.glance = (1, [0], []) ∧
    HandleOwnership threeHandles final := by
  have replayed : (replayFromInit threeHandles (DisciplinedOnce threeHandles) 0x1000#64 sampleStacks
      [.semaphoreInit 0, .someSpawn, .someSpawn, .yield, .semaphoreWait (.client 0),
        .semaphoreWait (.client 0), .semaphoreSignal (.client 0)]).map World.glance =
      some (1, [0], []) := by
    decide
  obtain ⟨start, history, final, started, run, -, seen⟩ := exists_run_of_replay replayed
  exact ⟨final, seen, handle_ownership started run⟩

end Libmicrokitco
