import Libmicrokitco.Sched.Sound
import Libmicrokitco.Data.LinkedChain

/-!
# The wait lists

`Waiting waiters` says that the intrusive wait list of every initialised
semaphore is the list `waiters` gives for it. It is kept as long as no thread
stops executing while none is ready, for then the scheduler never falls back to
a root that may itself be waiting.
-/

namespace Libmicrokitco.Sched

open LinkedChain

structure Waiting (config : Config) (waiters : SemRef → List Int) (sched : Sched) : Prop where
  chain : ∀ sem, sched.live config sem →
    Chain nullHandle sched.link (sched.sem sem).head (waiters sem)
  tail : ∀ sem, sched.live config sem →
    (sched.sem sem).tail = lastNode nullHandle (waiters sem)
  blocked : ∀ sem, sched.live config sem → ∀ h ∈ waiters sem, sched.state h = .blocked
  disjoint : ∀ sem other, sched.live config sem → sched.live config other → sem ≠ other →
    ∀ h ∈ waiters sem, h ∉ waiters other
  flag : ∀ sem, sched.live config sem → (sched.sem sem).set = true → waiters sem = []
  unlinked : ∀ h, sched.state h ≠ .notActive → sched.state h ≠ .blocked →
    sched.link h = nullHandle
  /-- The root is queued exactly while it is ready, and once. -/
  rootReady : 0 ∈ sched.queue → sched.state 0 = .ready
  rootOnce : sched.queue.count 0 ≤ 1

/-- Every blocked thread is on the wait list of an initialised semaphore. -/
def Covered (config : Config) (waiters : SemRef → List Int) (sched : Sched) : Prop :=
  ∀ h, sched.state h = .blocked → ∃ sem, sched.live config sem ∧ h ∈ waiters sem

/-- The calls with which the running thread stops executing without queueing itself. -/
def Stops (sched : Sched) (call : Call) : Prop :=
  (∃ sem, call.waitsOn = some sem ∧ (sched.sem sem).set = false) ∨
    call.destroys sched.running = some sched.running

/-- A thread that stops leaves a ready one behind. -/
def Supplied (sched : Sched) (call : Call) : Prop :=
  sched.Stops call → ∃ h, sched.state h = .ready

/-- The waiters after a call. -/
def nextWaiters (sched : Sched) (waiters : SemRef → List Int) (call : Call) :
    SemRef → List Int :=
  match call.waitsOn with
  | some sem =>
    if (sched.sem sem).set then waiters
    else Function.update waiters sem (waiters sem ++ [sched.running])
  | none =>
    match call.signalsOn with
    | some sem => Function.update waiters sem (waiters sem).tail
    | none =>
      match call with
      | .semaphoreInit id => Function.update waiters (.client id) []
      | _ => waiters

variable {config : Config} {sched next : Sched} {executing : Option Int} {call : Call}
  {answer : Answer} {point : SwitchPoint} {sem : SemRef} {g h : Int}
  {waiters : SemRef → List Int}

/-- Who is on which list after `g` has joined that of `sem`. -/
theorem mem_enlisted {other : SemRef} :
    h ∈ Function.update waiters sem (waiters sem ++ [g]) other ↔
      h ∈ waiters other ∨ other = sem ∧ h = g := by
  by_cases same : other = sem
  · rw [same, Function.update_self, List.mem_append, List.mem_singleton]
    simp
  · rw [Function.update_of_ne same]
    simp [same]

/-- Shortening one list adds nobody to any. -/
theorem mem_of_shortened {other : SemRef} {rest : List Int} (shorter : ∀ g ∈ rest, g ∈ waiters sem)
    (member : h ∈ Function.update waiters sem rest other) : h ∈ waiters other := by
  by_cases same : other = sem
  · rw [same, Function.update_self] at member
    exact same ▸ shorter h member
  · rwa [Function.update_of_ne same] at member

namespace Waiting

theorem nil_iff (waiting : Waiting config waiters sched) (live : sched.live config sem) :
    waiters sem = [] ↔ (sched.sem sem).head = nullHandle :=
  (waiting.chain sem live).nil_iff

theorem notMem (waiting : Waiting config waiters sched) (live : sched.live config sem)
    (unblocked : sched.state h ≠ .blocked) : h ∉ waiters sem :=
  fun member => unblocked (waiting.blocked sem live h member)

theorem head_mem (waiting : Waiting config waiters sched) (live : sched.live config sem)
    (nonempty : (sched.sem sem).head ≠ nullHandle) : (sched.sem sem).head ∈ waiters sem := by
  obtain ⟨rest, shape, -⟩ := (waiting.chain sem live).exists_cons nonempty
  rw [shape]
  exact List.mem_cons_self

/-- The first waiter is blocked. -/
theorem head_blocked (waiting : Waiting config waiters sched) (live : sched.live config sem)
    (nonempty : (sched.sem sem).head ≠ nullHandle) : sched.state (sched.sem sem).head = .blocked :=
  waiting.blocked sem live _ (waiting.head_mem live nonempty)

/-- The caller, executing and linked to nothing, becomes ready behind the queue. -/
theorem requeued (waiting : Waiting config waiters sched)
    (sound : Sound config (some sched.running) sched) : Waiting config waiters sched.requeued := by
  have executing := sound.executingRunning
  constructor
  case chain => exact waiting.chain
  case tail => exact waiting.tail
  case blocked =>
    intro sem live h member
    have blocked := waiting.blocked sem live h member
    change Function.update sched.state sched.running .ready h = _
    rw [Function.update_of_ne (sound.blocked_ne_running blocked)]
    exact blocked
  case disjoint => exact waiting.disjoint
  case flag => exact waiting.flag
  case unlinked =>
    intro h active unblocked
    by_cases caller : h = sched.running
    · rw [caller]
      exact waiting.unlinked sched.running (by rw [executing]; simp) (by rw [executing]; simp)
    · simp only [Sched.requeued, Function.update_of_ne caller] at active unblocked
      exact waiting.unlinked h active unblocked
  case rootReady =>
    intro queued
    change Function.update sched.state sched.running .ready 0 = _
    by_cases caller : 0 = sched.running
    · rw [caller, Function.update_self]
    · rw [Function.update_of_ne caller]
      refine waiting.rootReady ((List.mem_append.mp queued).resolve_right ?_)
      simpa using caller
  case rootOnce =>
    change (sched.queue ++ [sched.running]).count 0 ≤ 1
    rw [List.count_append]
    by_cases caller : sched.running = 0
    · have absent : 0 ∉ sched.queue := by
        intro queued
        have ready := waiting.rootReady queued
        rw [← caller, executing] at ready
        cases ready
      rw [List.count_eq_zero_of_not_mem absent, caller]
      simp
    · have once := waiting.rootOnce
      simpa [caller] using once

/-- The caller goes to the end of the wait list of a semaphore whose flag is clear. -/
theorem blockedOn (waiting : Waiting config waiters sched)
    (sound : Sound config (some sched.running) sched) (live : sched.live config sem)
    (clear : (sched.sem sem).set = false) :
    Waiting config (Function.update waiters sem (waiters sem ++ [sched.running]))
      (sched.blockedOn sem) := by
  have executing := sound.executingRunning
  have nonNull : sched.running ≠ nullHandle := by
    have := sound.running.1
    unfold nullHandle
    omega
  have absent : ∀ other, sched.live config other → sched.running ∉ waiters other :=
    fun other otherLive => waiting.notMem otherLive (by rw [executing]; simp)
  have callerLink : sched.link sched.running = nullHandle :=
    waiting.unlinked sched.running (by rw [executing]; simp) (by rw [executing]; simp)
  have tail := waiting.tail sem live
  have lastBlocked : (sched.sem sem).head ≠ nullHandle →
      (sched.sem sem).tail ∈ waiters sem := by
    intro nonempty
    rw [tail]
    exact lastNode_mem nullHandle ((waiting.nil_iff live).not.mpr nonempty)
  constructor
  case chain =>
    intro other otherLive
    have before := waiting.chain other otherLive
    by_cases same : other = sem
    · subst same
      simp only [Sched.blockedOn, Function.update_self]
      by_cases empty : (sched.sem other).head = nullHandle
      · rw [if_pos empty, if_pos empty, (waiting.nil_iff live).mpr empty]
        exact .singleton nonNull callerLink
      · rw [if_neg empty, if_neg empty, tail]
        exact before.snoc ((waiting.nil_iff live).not.mpr empty) (absent other live) nonNull
          callerLink
    · simp only [Sched.blockedOn, Function.update_of_ne same]
      split
      · exact before
      · rename_i nonempty
        exact before.update_of_notMem
          (waiting.disjoint sem other live otherLive (Ne.symm same) _ (lastBlocked nonempty))
  case tail =>
    intro other otherLive
    by_cases same : other = sem
    · subst same
      simp [Sched.blockedOn]
    · simp only [Sched.blockedOn, Function.update_of_ne same]
      exact waiting.tail other otherLive
  case blocked =>
    intro other otherLive h member
    change Function.update sched.state sched.running .blocked h = _
    by_cases caller : h = sched.running
    · rw [caller, Function.update_self]
    rw [Function.update_of_ne caller]
    have earlier := (mem_enlisted.mp member).resolve_right fun joined => caller joined.2
    exact waiting.blocked other otherLive h earlier
  case disjoint =>
    intro first second firstLive secondLive different h member again
    rcases mem_enlisted.mp member with earlier | ⟨isSem, rfl⟩
    · rcases mem_enlisted.mp again with alsoEarlier | ⟨-, rfl⟩
      · exact waiting.disjoint first second firstLive secondLive different h earlier alsoEarlier
      · exact absent first firstLive earlier
    · rcases mem_enlisted.mp again with earlier | ⟨alsoSem, -⟩
      · exact absent second secondLive earlier
      · exact different (isSem.trans alsoSem.symm)
  case flag =>
    intro other otherLive set
    by_cases same : other = sem
    · subst same
      simp [Sched.blockedOn, clear] at set
    · simp only [Sched.blockedOn, Function.update_of_ne same] at set
      rw [Function.update_of_ne same]
      exact waiting.flag other otherLive set
  case unlinked =>
    intro h active unblocked
    have other : h ≠ sched.running := by
      rintro rfl
      simp [Sched.blockedOn] at unblocked
    simp only [Sched.blockedOn, Function.update_of_ne other] at active unblocked ⊢
    split
    · exact waiting.unlinked h active unblocked
    · rename_i nonempty
      have notTail : h ≠ (sched.sem sem).tail := by
        rintro rfl
        exact waiting.notMem live unblocked (lastBlocked nonempty)
      rw [Function.update_of_ne notTail]
      exact waiting.unlinked h active unblocked
  case rootReady =>
    intro queued
    have ready := waiting.rootReady queued
    change Function.update sched.state sched.running .blocked 0 = _
    have other : 0 ≠ sched.running := by
      intro isCaller
      rw [isCaller, executing] at ready
      cases ready
    rw [Function.update_of_ne other]
    exact ready
  case rootOnce => exact waiting.rootOnce

/-- The first waiter leaves the wait list. -/
theorem takeFirst {rest : List Int} (waiting : Waiting config waiters sched)
    (live : sched.live config sem) (shape : waiters sem = h :: rest) :
    Waiting config (Function.update waiters sem rest) (sched.unlinked sem) := by
  have whole := waiting.chain sem live
  rw [shape] at whole
  have distinct := List.nodup_cons.mp whole.nodup
  obtain ⟨isHead, -, tailChain⟩ := whole
  have member : h ∈ waiters sem := by rw [shape]; exact List.mem_cons_self
  have shorter : ∀ g ∈ rest, g ∈ waiters sem := by
    intro g later
    rw [shape]
    exact List.mem_cons_of_mem _ later
  have restEmpty := tailChain.nil_iff
  constructor
  case chain =>
    intro other otherLive
    by_cases same : other = sem
    · subst same
      simp only [Sched.unlinked, Function.update_self, isHead]
      split
      · rename_i last
        rw [restEmpty.mpr last]
        rfl
      · exact tailChain.update_of_notMem distinct.1
    · simp only [Sched.unlinked, Function.update_of_ne same, isHead]
      exact (waiting.chain other otherLive).update_of_notMem
        (waiting.disjoint sem other live otherLive (Ne.symm same) h member)
  case tail =>
    intro other otherLive
    by_cases same : other = sem
    · subst same
      simp only [Sched.unlinked, Function.update_self, isHead]
      split
      · rename_i last
        rw [restEmpty.mpr last]
        rfl
      · rename_i more
        have nonempty : rest ≠ [] := restEmpty.not.mpr more
        rw [← lastNode_cons_of_ne_nil nullHandle h nonempty, ← shape]
        exact waiting.tail other live
    · simp only [Sched.unlinked, Function.update_of_ne same]
      exact waiting.tail other otherLive
  case blocked =>
    intro other otherLive g isWaiter
    exact waiting.blocked other otherLive g (mem_of_shortened shorter isWaiter)
  case disjoint =>
    intro first second firstLive secondLive different g isWaiter again
    exact waiting.disjoint first second firstLive secondLive different g
      (mem_of_shortened shorter isWaiter) (mem_of_shortened shorter again)
  case flag =>
    intro other otherLive set
    by_cases same : other = sem
    · subst same
      simp only [Sched.unlinked, Function.update_self] at set
      split at set
      · cases set
      · have empty := waiting.flag other live set
        rw [shape] at empty
        cases empty
    · simp only [Sched.unlinked, Function.update_of_ne same] at set
      rw [Function.update_of_ne same]
      exact waiting.flag other otherLive set
  case unlinked =>
    intro g active unblocked
    change Function.update sched.link (sched.sem sem).head nullHandle g = _
    by_cases same : g = (sched.sem sem).head
    · rw [same, Function.update_self]
    · rw [Function.update_of_ne same]
      exact waiting.unlinked g active unblocked
  case rootReady => exact waiting.rootReady
  case rootOnce => exact waiting.rootOnce

/-- A thread on no wait list starts executing; the root only if it is not queued. -/
theorem switched (waiting : Waiting config waiters sched)
    (absent : ∀ sem, sched.live config sem → h ∉ waiters sem)
    (linked : sched.link h = nullHandle) (root : h = 0 → 0 ∉ sched.queue) :
    Waiting config waiters (sched.switched point h) := by
  constructor
  case chain => exact waiting.chain
  case tail => exact waiting.tail
  case blocked =>
    intro sem live g member
    change Function.update sched.state h .running g = _
    have other : g ≠ h := by
      rintro rfl
      exact absent sem live member
    rw [Function.update_of_ne other]
    exact waiting.blocked sem live g member
  case disjoint => exact waiting.disjoint
  case flag => exact waiting.flag
  case unlinked =>
    intro g active unblocked
    by_cases same : g = h
    · rw [same]
      exact linked
    · simp only [Sched.switched, Function.update_of_ne same] at active unblocked
      exact waiting.unlinked g active unblocked
  case rootReady =>
    intro queued
    have other : 0 ≠ h := fun isRoot => root isRoot.symm queued
    change Function.update sched.state h .running 0 = _
    rw [Function.update_of_ne other]
    exact waiting.rootReady queued
  case rootOnce => exact waiting.rootOnce

/-- With a thread ready, the scheduler takes the first ready entry and never falls back. -/
theorem picks_ready (waiting : Waiting config waiters sched) (sound : Sound config executing sched)
    (supplied : ∃ h, sched.state h = .ready) {chosen : Int} {rest : List Int}
    (picks : Picks sched.state sched.queue chosen rest) :
    sched.state chosen = .ready ∧ ∃ skipped, sched.queue = skipped ++ chosen :: rest ∧
      ∀ entry ∈ skipped, entry ≠ 0 ∧ sched.state entry ≠ .ready := by
  generalize queued : sched.queue = queue at picks
  cases picks with
  | @entry skipped _ _ stale dispatchable =>
    refine ⟨?_, skipped, rfl, stale⟩
    rcases dispatchable with rfl | ready
    · exact waiting.rootReady (by rw [queued]; simp)
    · exact ready
  | fallback stale =>
    obtain ⟨h, ready⟩ := supplied
    have member := sound.queue.readyQueued h ready
    rw [queued] at member
    exact absurd ready (stale h member).2

theorem gone (waiting : Waiting config waiters sched) (sound : Sound config none sched)
    (supplied : ∃ h, sched.state h = .ready) : Waiting config waiters (sched.gone point) := by
  obtain ⟨ready, skipped, queued, -⟩ := waiting.picks_ready sound supplied sound.queue.picks
  have once := waiting.rootOnce
  rw [queued, List.count_append] at once
  have shorter : Waiting config waiters
      { sched with queue := (pick sched.state sched.queue).2 } := by
    refine ⟨waiting.chain, waiting.tail, waiting.blocked, waiting.disjoint, waiting.flag,
      waiting.unlinked, fun later => waiting.rootReady ?_, ?_⟩
    · rw [queued]
      exact List.mem_append_right _ (List.mem_cons_of_mem _ later)
    · change (pick sched.state sched.queue).2.count 0 ≤ 1
      rw [List.count_cons] at once
      omega
  refine shorter.switched (fun sem live => ?_) ?_ ?_
  · exact waiting.notMem live (by rw [ready]; simp)
  · exact waiting.unlinked _ (by rw [ready]; simp) (by rw [ready]; simp)
  · intro isRoot later
    have positive : 0 < (pick sched.state sched.queue).2.count 0 := List.count_pos_iff.mpr later
    rw [isRoot, List.count_cons_self] at once
    omega

theorem handed (waiting : Waiting config waiters sched)
    (sound : Sound config (some sched.running) sched) (live : sched.live config sem)
    (nonempty : (sched.sem sem).head ≠ nullHandle) :
    Waiting config (Function.update waiters sem (waiters sem).tail) (sched.handed sem) := by
  have queuedLive : sched.requeued.live config sem := live
  obtain ⟨rest, shape, -⟩ := (waiting.chain sem live).exists_cons nonempty
  have isWaiter := waiting.head_mem live nonempty
  have blocked := waiting.head_blocked live nonempty
  have distinct := List.nodup_cons.mp (shape ▸ (waiting.chain sem live).nodup)
  have taken : Waiting config (Function.update waiters sem (waiters sem).tail)
      (sched.requeued.unlinked sem) := by
    rw [shape, List.tail_cons]
    exact (waiting.requeued sound).takeFirst queuedLive shape
  refine taken.switched ?_ (Function.update_self ..) ?_
  · intro other otherLive
    by_cases same : other = sem
    · subst same
      rw [Function.update_self, shape]
      exact distinct.1
    · rw [Function.update_of_ne same]
      exact waiting.disjoint sem other live otherLive (Ne.symm same) _ isWaiter
  · intro isRoot queued
    have ready := (waiting.requeued sound).rootReady queued
    rw [isRoot] at blocked
    have other : 0 ≠ sched.running := sound.blocked_ne_running blocked
    have same : Function.update sched.state sched.running .ready 0 = .ready := ready
    rw [Function.update_of_ne other, blocked] at same
    cases same

theorem released (waiting : Waiting config waiters sched) (unblocked : sched.state h ≠ .blocked)
    (nonRoot : h ≠ 0) : Waiting config waiters (sched.released h) := by
  refine ⟨waiting.chain, waiting.tail, fun sem live g member => ?_, waiting.disjoint, waiting.flag,
    fun g active notBlocked => ?_, fun queued => ?_, waiting.rootOnce⟩
  · have blocked := waiting.blocked sem live g member
    have other : g ≠ h := by
      rintro rfl
      exact unblocked blocked
    change Function.update sched.state h .notActive g = _
    rw [Function.update_of_ne other]
    exact blocked
  · have other : g ≠ h := by
      rintro rfl
      simp [Sched.released] at active
    simp only [Sched.released, Function.update_of_ne other] at active notBlocked
    exact waiting.unlinked g active notBlocked
  · change Function.update sched.state h .notActive 0 = _
    rw [Function.update_of_ne (Ne.symm nonRoot)]
    exact waiting.rootReady queued

theorem spawned {clientEntry privateArg : Address} {rest : List Int}
    (waiting : Waiting config waiters sched) (inactive : sched.state h = .notActive)
    (nonRoot : h ≠ 0) :
    Waiting config waiters (sched.spawned config clientEntry privateArg h rest) := by
  have absent : ∀ sem, sched.live config sem → h ∉ waiters sem :=
    fun sem live => waiting.notMem live (by rw [inactive]; simp)
  refine ⟨fun sem live => (waiting.chain sem live).update_of_notMem (absent sem live), waiting.tail,
    fun sem live g member => ?_, waiting.disjoint, waiting.flag, fun g active unblocked => ?_,
    fun queued => ?_, ?_⟩
  · have other : g ≠ h := by
      rintro rfl
      exact absent sem live member
    change Function.update sched.state h .ready g = _
    rw [Function.update_of_ne other]
    exact waiting.blocked sem live g member
  · change Function.update sched.link h nullHandle g = _
    by_cases same : g = h
    · rw [same, Function.update_self]
    · simp only [Sched.spawned, Function.update_of_ne same] at active unblocked
      rw [Function.update_of_ne same]
      exact waiting.unlinked g active unblocked
  · change Function.update sched.state h .ready 0 = _
    rw [Function.update_of_ne (Ne.symm nonRoot)]
    refine waiting.rootReady ((List.mem_append.mp queued).resolve_right ?_)
    simpa using Ne.symm nonRoot
  · change (sched.queue ++ [h]).count 0 ≤ 1
    have once := waiting.rootOnce
    simpa [List.count_append, nonRoot] using once

theorem flagged {set : Bool} (waiting : Waiting config waiters sched)
    (empty : sched.live config sem → set = true → waiters sem = []) :
    Waiting config waiters (sched.flagged sem set) := by
  have head : ∀ other, ((sched.flagged sem set).sem other).head = (sched.sem other).head := by
    intro other
    by_cases same : other = sem
    · simp [Sched.flagged, setSem, same]
    · simp [Sched.flagged, setSem, same]
  have tail : ∀ other, ((sched.flagged sem set).sem other).tail = (sched.sem other).tail := by
    intro other
    by_cases same : other = sem
    · simp [Sched.flagged, setSem, same]
    · simp [Sched.flagged, setSem, same]
  have live : ∀ other, (sched.flagged sem set).live config other → sched.live config other := by
    intro other otherLive
    cases other <;> exact otherLive
  refine ⟨fun other otherLive => ?_, fun other otherLive => ?_,
    fun other otherLive => waiting.blocked other (live other otherLive),
    fun first second firstLive secondLive => waiting.disjoint first second (live first firstLive)
      (live second secondLive), fun other otherLive isSet => ?_,
    waiting.unlinked, waiting.rootReady, waiting.rootOnce⟩
  · rw [head]
    exact waiting.chain other (live other otherLive)
  · rw [tail]
    exact waiting.tail other (live other otherLive)
  · by_cases same : other = sem
    · subst same
      simp only [Sched.flagged, setSem, Function.update_self] at isSet
      exact empty (live other otherLive) isSet
    · simp only [Sched.flagged, setSem, Function.update_of_ne same] at isSet
      exact waiting.flag other (live other otherLive) isSet

theorem semaphoreInitialised {id : Nat} (waiting : Waiting config waiters sched) :
    Waiting config (Function.update waiters (.client id) []) (sched.semaphoreInitialised id) := by
  have before : ∀ sem, sem ≠ .client id → (sched.semaphoreInitialised id).live config sem →
      sched.live config sem := fun _ => live_before
  refine ⟨fun sem live => ?_, fun sem live => ?_, fun sem live h member => ?_,
    fun first second firstLive secondLive different h member again => ?_, fun sem live set => ?_,
    waiting.unlinked, waiting.rootReady, waiting.rootOnce⟩
  · by_cases same : sem = .client id
    · subst same
      simp [Sched.semaphoreInitialised, setSem, microkitCothreadSemaphoreInit, Chain]
    · simp only [Sched.semaphoreInitialised, setSem, Function.update_of_ne same]
      exact waiting.chain sem (before sem same live)
  · by_cases same : sem = .client id
    · subst same
      simp [Sched.semaphoreInitialised, setSem, microkitCothreadSemaphoreInit]
    · simp only [Sched.semaphoreInitialised, setSem, Function.update_of_ne same]
      exact waiting.tail sem (before sem same live)
  · by_cases same : sem = .client id
    · subst same
      simp at member
    · rw [Function.update_of_ne same] at member
      exact waiting.blocked sem (before sem same live) h member
  · by_cases isFirst : first = .client id
    · subst isFirst
      simp at member
    by_cases isSecond : second = .client id
    · subst isSecond
      simp at again
    rw [Function.update_of_ne isFirst] at member
    rw [Function.update_of_ne isSecond] at again
    exact waiting.disjoint first second (before first isFirst firstLive)
      (before second isSecond secondLive) different h member again
  · by_cases same : sem = .client id
    · subst same
      simp
    · simp only [Sched.semaphoreInitialised, setSem, Function.update_of_ne same] at set
      rw [Function.update_of_ne same]
      exact waiting.flag sem (before sem same live) set

end Waiting

section NextWaiters

theorem nextWaiters_of_wait (on : call.waitsOn = some sem) :
    sched.nextWaiters waiters call =
      if (sched.sem sem).set then waiters
      else Function.update waiters sem (waiters sem ++ [sched.running]) := by
  unfold nextWaiters
  rw [on]

theorem nextWaiters_of_signal (on : call.signalsOn = some sem) :
    sched.nextWaiters waiters call = Function.update waiters sem (waiters sem).tail := by
  have noWait : call.waitsOn = none := by
    cases call <;> simp [Call.signalsOn] at on <;> rfl
  unfold nextWaiters
  rw [noWait, on]

/-- A signal that finds no waiter changes none. -/
theorem nextWaiters_of_signal_nil (on : call.signalsOn = some sem) (empty : waiters sem = []) :
    sched.nextWaiters waiters call = waiters := by
  rw [nextWaiters_of_signal on, empty]
  exact (congrArg (Function.update waiters sem) empty.symm).trans (Function.update_eq_self sem waiters)

theorem nextWaiters_of_init {id : Nat} :
    sched.nextWaiters waiters (.semaphoreInit id) = Function.update waiters (.client id) [] := rfl

/-- Calls that neither wait, signal nor initialise leave every wait list. -/
theorem nextWaiters_of_other (waits : call.waitsOn = none) (signals : call.signalsOn = none)
    (inits : ∀ id, call ≠ .semaphoreInit id) : sched.nextWaiters waiters call = waiters := by
  cases call with
  | semaphoreInit id => exact absurd rfl (inits id)
  | semaphoreWait | waitOnChannel => cases waits
  | semaphoreSignal | recvNtfn => cases signals
  | _ => rfl

theorem nextWaiters_of_destroys (destroys : call.destroys sched.running = some h) :
    sched.nextWaiters waiters call = waiters := by
  refine nextWaiters_of_other (Call.waitsOn_of_destroys destroys)
    (Call.signalsOn_of_destroys destroys) ?_
  rintro id rfl
  cases destroys

theorem nextWaiters_of_passive (passive : call.Passive) :
    sched.nextWaiters waiters call = waiters := by
  refine nextWaiters_of_other passive.waitsOn passive.signalsOn ?_
  rintro id rfl
  exact passive

end NextWaiters

/-- Every call that spares the root and the blocked cothreads, and does not
stop the last executable thread, keeps the wait lists. -/
theorem Waiting.effect (waiting : Waiting config waiters sched)
    (sound : Sound config (some sched.running) sched) (sparesRoot : call ≠ .destroy 0)
    (sparesBlocked : ∀ cothread, cothread ≠ 0 → call = .destroy cothread →
      sched.state cothread ≠ .blocked)
    (supplied : sched.Supplied call) (effect : Effect config sched call answer next) :
    Waiting config (sched.nextWaiters waiters call) next := by
  cases effect with
  | queried passive =>
    rw [nextWaiters_of_passive passive]
    exact waiting
  | peeked | exhausted => exact waiting
  | argued => exact ⟨waiting.chain, waiting.tail, waiting.blocked, waiting.disjoint, waiting.flag,
      waiting.unlinked, waiting.rootReady, waiting.rootOnce⟩
  | @spawned _ _ new rest _ taken =>
    have member : new ∈ sched.free := by
      rw [taken]
      exact List.mem_cons_self
    obtain ⟨positive, -, inactive⟩ := (sound.free.exact new).mp member
    exact waiting.spawned inactive (by omega)
  | initialised => exact waiting.semaphoreInitialised
  | consumed on _ set =>
    rw [nextWaiters_of_wait on, if_pos set]
    exact waiting.flagged fun _ impossible => by cases impossible
  | @blocked _ sem on live clear =>
    rw [nextWaiters_of_wait on, clear, if_neg (by simp)]
    exact (waiting.blockedOn sound live clear).gone (sound.blockedOn live)
      (sound.ready_of_stop .blocked (supplied (.inl ⟨sem, on, clear⟩)))
  | ignored on live set =>
    rw [nextWaiters_of_signal_nil on (waiting.flag _ live set)]
    exact waiting
  | raised on live _ empty =>
    have noWaiter := (waiting.nil_iff live).mpr empty
    rw [nextWaiters_of_signal_nil on noWaiter]
    exact waiting.flagged fun _ _ => noWaiter
  | handedOver on live _ nonempty =>
    rw [nextWaiters_of_signal on]
    exact waiting.handed sound live nonempty
  | yielded =>
    exact (waiting.requeued sound).gone sound.requeued ⟨sched.running, Function.update_self ..⟩
  | @destroyed cothread _ _ _ _ _ =>
    have nonRoot : cothread ≠ 0 := fun isRoot => sparesRoot (isRoot ▸ rfl)
    exact waiting.released (sparesBlocked cothread nonRoot rfl) nonRoot
  | exited self _ _ _ fromCothread =>
    rw [nextWaiters_of_destroys self]
    exact (waiting.released (by rw [sound.executingRunning]; simp) fromCothread).gone
      (sound.releasedSelf fromCothread) (sound.ready_of_stop .notActive (supplied (.inr self)))

/-- A waiter stays on its list until a signal takes it from the front or the
semaphore is initialised again. -/
theorem mem_nextWaiters (sched : Sched) (call : Call) (member : h ∈ waiters sem) :
    h ∈ sched.nextWaiters waiters call sem ∨
      call.signalsOn = some sem ∧ (waiters sem).head? = some h ∨
      ∃ id, call = .semaphoreInit id ∧ sem = .client id := by
  cases waits : call.waitsOn with
  | some other =>
    refine .inl ?_
    rw [nextWaiters_of_wait waits]
    split
    · exact member
    · exact mem_enlisted.mpr (.inl member)
  | none =>
    cases signals : call.signalsOn with
    | some other =>
      rw [nextWaiters_of_signal signals]
      by_cases same : sem = other
      · subst same
        rw [Function.update_self]
        cases shape : waiters sem with
        | nil => rw [shape] at member; cases member
        | cons first rest =>
          rw [shape] at member
          rcases List.mem_cons.mp member with rfl | later
          · exact .inr (.inl ⟨rfl, rfl⟩)
          · exact .inl later
      · rw [Function.update_of_ne same]
        exact .inl member
    | none =>
      by_cases inits : ∃ id, call = .semaphoreInit id ∧ sem = .client id
      · exact .inr (.inr inits)
      refine .inl ?_
      by_cases other : ∃ id, call = .semaphoreInit id
      · obtain ⟨id, rfl⟩ := other
        have different : sem ≠ .client id := fun same => inits ⟨id, rfl, same⟩
        rwa [nextWaiters_of_init, Function.update_of_ne different]
      · rwa [nextWaiters_of_other waits signals fun id same => other ⟨id, same⟩]

/-- Only a blocking wait adds a waiter, its caller. -/
theorem of_mem_nextWaiters (member : h ∈ sched.nextWaiters waiters call sem) :
    h ∈ waiters sem ∨
      h = sched.running ∧ call.waitsOn = some sem ∧ (sched.sem sem).set = false := by
  cases waits : call.waitsOn with
  | some other =>
    rw [nextWaiters_of_wait waits] at member
    split at member
    · exact .inl member
    · rename_i clear
      refine (mem_enlisted.mp member).imp_right ?_
      rintro ⟨rfl, caller⟩
      exact ⟨caller, rfl, by simpa using clear⟩
  | none =>
    refine .inl ?_
    cases signals : call.signalsOn with
    | some other =>
      rw [nextWaiters_of_signal signals] at member
      exact mem_of_shortened (fun _ => List.mem_of_mem_tail) member
    | none =>
      by_cases inits : ∃ id, call = .semaphoreInit id
      · obtain ⟨id, rfl⟩ := inits
        rw [nextWaiters_of_init] at member
        exact mem_of_shortened (by simp) member
      · rwa [nextWaiters_of_other waits signals fun id same => inits ⟨id, same⟩] at member

/-- The first waiter is the head of the list. -/
theorem Waiting.head_eq (waiting : Waiting config waiters sched) (live : sched.live config sem)
    (first : (waiters sem).head? = some h) :
    (sched.sem sem).head = h ∧ (sched.sem sem).head ≠ nullHandle := by
  have chain := waiting.chain sem live
  cases shape : waiters sem with
  | nil =>
    rw [shape] at first
    cases first
  | cons node rest =>
    rw [shape] at first chain
    obtain ⟨isHead, nonNull, -⟩ := chain
    cases first
    exact ⟨isHead, isHead ▸ nonNull⟩

/-- A signal that finds a waiter resumes the first one. -/
theorem Waiting.signalled (waiting : Waiting config waiters sched)
    (on : call.signalsOn = some sem) (first : (waiters sem).head? = some h)
    (effect : Effect config sched call answer next) :
    sched.queue.length ≠ config.maxCothreads ∧ next = sched.handed sem ∧ next.running = h := by
  obtain ⟨live, done⟩ := effect.of_signal on
  obtain ⟨isHead, nonNull⟩ := waiting.head_eq live first
  rcases done with ⟨set, -⟩ | ⟨-, empty, -⟩ | ⟨-, -, room, handed⟩
  · rw [waiting.flag sem live set] at first
    cases first
  · exact absurd empty nonNull
  · refine ⟨room, handed, ?_⟩
    rw [handed]
    exact isHead

/-- The scheduler does not resume a blocked thread. -/
theorem Waiting.gone_running_ne (waiting : Waiting config waiters sched)
    (sound : Sound config none sched) (supplied : ∃ h, sched.state h = .ready)
    (blocked : sched.state h = .blocked) : (sched.gone point).running ≠ h := by
  have ready := (waiting.picks_ready sound supplied sound.queue.picks).1
  intro chosen
  change orRoot (pick sched.state sched.queue).1 = h at chosen
  rw [chosen, blocked] at ready
  cases ready

/-- A blocked thread is resumed by a signal that finds it first, and by nothing else. -/
theorem Waiting.resumed (waiting : Waiting config waiters sched)
    (sound : Sound config (some sched.running) sched) (supplied : sched.Supplied call)
    (effect : Effect config sched call answer next) (blocked : sched.state h = .blocked)
    (isRunning : next.running = h) :
    ∃ sem, call.signalsOn = some sem ∧ sched.live config sem ∧ (sched.sem sem).head = h ∧
      h ∈ waiters sem := by
  have other := sound.blocked_ne_running blocked
  have stopping : ∀ value, Function.update sched.state sched.running value h = .blocked := by
    intro value
    rw [Function.update_of_ne other]
    exact blocked
  cases effect with
  | queried | peeked | exhausted | ignored | argued | spawned | initialised | consumed | raised
  | destroyed => exact absurd isRunning.symm other
  | blocked on live clear =>
    have ready := sound.ready_of_stop .blocked (supplied (.inl ⟨_, on, clear⟩))
    exact absurd isRunning ((waiting.blockedOn sound live clear).gone_running_ne
      (sound.blockedOn live) ready (stopping .blocked))
  | @handedOver _ sem on live _ nonempty =>
    have isHead : (sched.sem sem).head = h := isRunning
    refine ⟨sem, on, live, isHead, ?_⟩
    rw [← isHead]
    exact waiting.head_mem live nonempty
  | yielded =>
    exact absurd isRunning ((waiting.requeued sound).gone_running_ne sound.requeued
      ⟨sched.running, Function.update_self ..⟩ (stopping .ready))
  | exited self _ _ _ fromCothread =>
    have ready := sound.ready_of_stop .notActive (supplied (.inr self))
    exact absurd isRunning ((waiting.released (by rw [sound.executingRunning]; simp)
      fromCothread).gone_running_ne (sound.releasedSelf fromCothread) ready (stopping .notActive))

/-- Blocked threads stay on wait lists as long as no semaphore is initialised twice. -/
theorem Covered.effect (covered : Covered config waiters sched)
    (waiting : Waiting config waiters sched) (sound : Sound config (some next.running) next)
    (once : ∀ id, call = .semaphoreInit id → sched.initialised id = false)
    (effect : Effect config sched call answer next) :
    Covered config (sched.nextWaiters waiters call) next := by
  intro h blocked
  rcases effect.blocks blocked with before | ⟨caller, sem, on, clear⟩
  · obtain ⟨sem, live, member⟩ := covered h before
    refine ⟨sem, effect.live live, ?_⟩
    rcases mem_nextWaiters sched call member with kept | ⟨on, first⟩ | ⟨id, rfl, rfl⟩
    · exact kept
    · obtain ⟨-, -, dispatched⟩ := waiting.signalled on first effect
      exact absurd dispatched.symm (sound.blocked_ne_running blocked)
    · have dead := once id rfl
      rw [show sched.initialised id = true from live] at dead
      cases dead
  · refine ⟨sem, effect.live (effect.of_wait on).1, ?_⟩
    rw [nextWaiters_of_wait on, clear, if_neg (by simp), Function.update_self]
    exact List.mem_append_right _ (List.mem_singleton.mpr caller)

/-- What initialisation establishes. -/
theorem Initial.waiting (initial : sched.Initial config) : Waiting config (fun _ => []) sched := by
  constructor
  case chain =>
    intro sem live
    rw [initial.sem_of_live live]
    rfl
  case tail =>
    intro sem live
    rw [initial.sem_of_live live]
    rfl
  case blocked => simp
  case disjoint => simp
  case flag => simp
  case unlinked =>
    intro h active _
    rw [initial.state] at active
    rw [initial.link]
    by_contra other
    split at other
    · exact other rfl
    · rename_i notRoot
      simp [notRoot] at active
  case rootReady => simp [initial.queue]
  case rootOnce => simp [initial.queue]

end Libmicrokitco.Sched
