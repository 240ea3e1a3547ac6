import Libmicrokitco.Sched.Faults

/-!
# What scheduling depends on

Two builds of the same shape, in states that agree on threads, queues and
semaphores, answer resembling calls alike and end in such states again. Where
the stacks lie, what the client's memory holds and which back end libco has
makes no difference. Entries and arguments are only passed on: whatever relation
holds between those that go in holds between those that come out.
-/

namespace Libmicrokitco

/-- The same numbers of cothreads and of channels. -/
structure Config.SameShape (config other : Config) : Prop where
  maxCothreads : config.maxCothreads = other.maxCothreads
  maxChannels : config.maxChannels = other.maxChannels

/-- How the entries and the arguments of one build relate to those of another. -/
structure Correspondence where
  Entry : Address → Address → Prop
  Arg : Address → Address → Prop
  null : ∀ {clientEntry otherEntry}, Entry clientEntry otherEntry →
    (clientEntry = 0#64 ↔ otherEntry = 0#64)

/-- The same entries and arguments. -/
def Correspondence.equal : Correspondence where
  Entry := Eq
  Arg := Eq
  null same := by rw [same]

/-- The same call but for the entry and the argument that it gives a cothread. -/
def Call.Resembles (ties : Correspondence) : Call → Call → Prop
  | .spawn clientEntry privateArg, .spawn otherEntry otherArg =>
    ties.Entry clientEntry otherEntry ∧ ties.Arg privateArg otherArg
  | .setArg cothread privateArg, .setArg otherCothread otherArg =>
    cothread = otherCothread ∧ ties.Arg privateArg otherArg
  | call, asked => call = asked

/-- The same answer but for the argument of a cothread. -/
def Answer.Resembles (ties : Correspondence) : Answer → Answer → Prop
  | .arg privateArg, .arg otherArg => ties.Arg privateArg otherArg
  | answer, other => answer = other

theorem Call.Resembles.refl (call : Call) : call.Resembles .equal call := by
  cases call with
  | spawn | setArg => exact ⟨rfl, rfl⟩
  | _ => rfl

/-- Resembling calls are equal unless they spawn or set an argument. -/
theorem Call.Resembles.eq_or {ties : Correspondence} {call asked : Call}
    (asks : call.Resembles ties asked) : call = asked ∨
      (∃ clientEntry privateArg otherEntry otherArg, call = .spawn clientEntry privateArg ∧
        asked = .spawn otherEntry otherArg) ∨
      ∃ cothread privateArg otherArg, call = .setArg cothread privateArg ∧
        asked = .setArg cothread otherArg := by
  cases call with
  | spawn clientEntry privateArg =>
    cases asked with
    | spawn otherEntry otherArg => exact .inr (.inl ⟨_, _, _, _, rfl, rfl⟩)
    | _ => cases asks
  | setArg cothread privateArg =>
    cases asked with
    | setArg otherCothread otherArg =>
      obtain ⟨rfl, -⟩ := asks
      exact .inr (.inr ⟨_, _, _, rfl, rfl⟩)
    | _ => cases asks
  | _ => exact .inl asks

theorem Answer.Resembles.eq {answer answerToo : Answer}
    (resembles : answer.Resembles .equal answerToo) : answer = answerToo := by
  cases answer with
  | arg privateArg =>
    cases answerToo with
    | arg otherArg => exact congrArg Answer.arg resembles
    | _ => exact resembles
  | _ => exact resembles

namespace Sched

/-- The same threads, queues and live semaphores, and corresponding cothreads. -/
structure Resembles (config : Config) (ties : Correspondence) (left right : Sched) : Prop where
  running : left.running = right.running
  state : left.state = right.state
  link : left.link = right.link
  queue : left.queue = right.queue
  free : left.free = right.free
  initialised : left.initialised = right.initialised
  sem : ∀ sem, left.live config sem → left.sem sem = right.sem sem
  given : ∀ h : Int, 0 < h → h < config.maxCothreads → h ∉ left.free →
    ties.Entry (left.clientEntry h) (right.clientEntry h) ∧
      ties.Arg (left.privateArg h) (right.privateArg h)

/-- Resembling answers and resembling states. -/
def ResemblingOutcomes (config : Config) (ties : Correspondence) (left right : Answer × Sched) : Prop :=
  left.1.Resembles ties right.1 ∧ Resembles config ties left.2 right.2

variable {config other : Config} {ties : Correspondence} {left right : Sched} {sem : SemRef}
  {call asked : Call} {point : SwitchPoint} {cothread : Int}

namespace Resembles

theorem live_iff (resembles : Resembles config ties left right) (shape : config.SameShape other) :
    left.live config sem ↔ right.live other sem := by
  cases sem with
  | channel ch =>
    unfold live
    rw [shape.maxChannels]
  | client id =>
    unfold live
    rw [resembles.initialised]

/-- Writing the same value to a semaphore. -/
theorem setSem {value otherValue : CothreadSem} (resembles : Resembles config ties left right)
    (same : left.live config sem → value = otherValue) :
    Resembles config ties (left.setSem sem value) (right.setSem sem otherValue) where
  running := resembles.running
  state := resembles.state
  link := resembles.link
  queue := resembles.queue
  free := resembles.free
  initialised := resembles.initialised
  sem another live := by
    by_cases written : another = sem
    · subst written
      simpa [Sched.setSem] using same live
    · simpa [Sched.setSem, written] using resembles.sem another live
  given := resembles.given

theorem flagged (resembles : Resembles config ties left right) (live : left.live config sem)
    (set : Bool) : Resembles config ties (left.flagged sem set) (right.flagged sem set) := by
  apply resembles.setSem
  rw [resembles.sem sem live]
  exact fun _ => rfl

theorem requeued (resembles : Resembles config ties left right) :
    Resembles config ties left.requeued right.requeued where
  running := resembles.running
  state := by simp only [Sched.requeued, resembles.state, resembles.running]
  link := resembles.link
  queue := by simp only [Sched.requeued, resembles.queue, resembles.running]
  free := resembles.free
  initialised := resembles.initialised
  sem := resembles.sem
  given := resembles.given

theorem released (resembles : Resembles config ties left right) (cothread : Int) :
    Resembles config ties (left.released cothread) (right.released cothread) where
  running := resembles.running
  state := by simp only [Sched.released, resembles.state]
  link := resembles.link
  queue := resembles.queue
  free := by simp only [Sched.released, resembles.free]
  initialised := resembles.initialised
  sem := resembles.sem
  given h positive below taken :=
    resembles.given h positive below fun free => taken (List.mem_append_left _ free)

theorem switched (resembles : Resembles config ties left right) (point : SwitchPoint) (next : Int) :
    Resembles config ties (left.switched point next) (right.switched point next) where
  running := rfl
  state := by simp only [Sched.switched, resembles.state]
  link := resembles.link
  queue := resembles.queue
  free := resembles.free
  initialised := resembles.initialised
  sem := resembles.sem
  given := resembles.given

/-- The scheduler makes the same choice. -/
theorem gone (resembles : Resembles config ties left right) (point : SwitchPoint) :
    Resembles config ties (left.gone point) (right.gone point) := by
  have chosen : pick left.state left.queue = pick right.state right.queue := by
    rw [resembles.state, resembles.queue]
  unfold Sched.gone
  rw [chosen]
  apply switched
  exact ⟨resembles.running, resembles.state, resembles.link, rfl, resembles.free,
    resembles.initialised, resembles.sem, resembles.given⟩

theorem blockedOn (resembles : Resembles config ties left right) (live : left.live config sem) :
    Resembles config ties (left.blockedOn sem) (right.blockedOn sem) where
  running := resembles.running
  state := by simp only [Sched.blockedOn, resembles.state, resembles.running]
  link := by
    simp only [Sched.blockedOn, resembles.link, resembles.running, resembles.sem sem live]
  queue := resembles.queue
  free := resembles.free
  initialised := resembles.initialised
  sem := by
    simp only [Sched.blockedOn, resembles.running, resembles.sem sem live]
    exact (resembles.setSem fun _ => rfl).sem
  given := resembles.given

theorem unlinked (resembles : Resembles config ties left right) (live : left.live config sem) :
    Resembles config ties (left.unlinked sem) (right.unlinked sem) where
  running := resembles.running
  state := resembles.state
  link := by simp only [Sched.unlinked, resembles.link, resembles.sem sem live]
  queue := resembles.queue
  free := resembles.free
  initialised := resembles.initialised
  sem := by
    simp only [Sched.unlinked, resembles.link, resembles.sem sem live]
    exact (resembles.setSem fun _ => rfl).sem
  given := resembles.given

theorem handed (resembles : Resembles config ties left right) (live : left.live config sem) :
    Resembles config ties (left.handed sem) (right.handed sem) := by
  unfold Sched.handed
  rw [resembles.sem sem live]
  exact (resembles.requeued.unlinked live).switched ..

/-- The same handle is spawned, whatever it is to run and on whatever stack. -/
theorem spawned {clientEntry otherEntry privateArg otherArg : Address} {new : Int} {rest : List Int}
    (resembles : Resembles config ties left right) (free : left.free = new :: rest)
    (entry : ties.Entry clientEntry otherEntry) (arg : ties.Arg privateArg otherArg) :
    Resembles config ties (left.spawned config clientEntry privateArg new rest)
      (right.spawned other otherEntry otherArg new rest) where
  running := resembles.running
  state := by simp only [Sched.spawned, resembles.state]
  link := by simp only [Sched.spawned, resembles.link]
  queue := by simp only [Sched.spawned, resembles.queue]
  free := rfl
  initialised := resembles.initialised
  sem := resembles.sem
  given h positive below taken := by
    by_cases isNew : h = new
    · simpa [Sched.spawned, isNew] using ⟨entry, arg⟩
    · have takenBefore : h ∉ left.free := by
        rw [free, List.mem_cons, not_or]
        exact ⟨isNew, taken⟩
      simpa [Sched.spawned, isNew] using resembles.given h positive below takenBefore

theorem semaphoreInitialised (resembles : Resembles config ties left right) (id : Nat) :
    Resembles config ties (left.semaphoreInitialised id) (right.semaphoreInitialised id) where
  running := resembles.running
  state := resembles.state
  link := resembles.link
  queue := resembles.queue
  free := resembles.free
  initialised := by simp only [Sched.semaphoreInitialised, resembles.initialised]
  sem another live := by
    by_cases written : another = .client id
    · subst written
      simp [Sched.semaphoreInitialised, Sched.setSem, microkitCothreadSemaphoreInit]
    · have before : left.live config another := by
        cases another with
        | channel ch => exact live
        | client id' =>
          have different : id' ≠ id := fun same => written (same ▸ rfl)
          have set : Function.update left.initialised id true id' = true := live
          rwa [Function.update_of_ne different] at set
      simpa [Sched.semaphoreInitialised, Sched.setSem, written] using resembles.sem another before
  given := resembles.given

theorem argued {privateArg otherArg : Address} (resembles : Resembles config ties left right)
    (arg : ties.Arg privateArg otherArg) :
    Resembles config ties (left.argued cothread privateArg) (right.argued cothread otherArg) where
  running := resembles.running
  state := resembles.state
  link := resembles.link
  queue := resembles.queue
  free := resembles.free
  initialised := resembles.initialised
  sem := resembles.sem
  given h positive below taken := by
    obtain ⟨entry, before⟩ := resembles.given h positive below taken
    by_cases isTarget : h = cothread
    · simpa [Sched.argued, isTarget] using ⟨isTarget ▸ entry, arg⟩
    · simpa [Sched.argued, isTarget] using ⟨entry, before⟩

section Outcomes

variable (resembles : Resembles config ties left right) (shape : config.SameShape other)
  (leftSound : Sound config (some left.running) left)
  (rightSound : Sound other (some right.running) right)
  (leftContexts : ContextsSound config left) (rightContexts : ContextsSound other right)

include resembles shape leftSound rightSound leftContexts rightContexts

theorem wait (live : left.live config sem) :
    Agrees (Resembles config ties) (left.wait sem) (right.wait sem) := by
  rw [wait_ok leftSound leftContexts live,
    wait_ok rightSound rightContexts ((resembles.live_iff shape).mp live), resembles.sem sem live]
  refine .ok ?_
  split
  · exact resembles.flagged live false
  · exact (resembles.blockedOn live).gone _

theorem yield : Agrees (Resembles config ties) (left.yield config) (right.yield other) := by
  by_cases room : left.queue.length ≠ config.maxCothreads
  · have roomToo := room
    rw [resembles.queue, shape.maxCothreads] at roomToo
    rw [yield_ok leftSound leftContexts room, yield_ok rightSound rightContexts roomToo]
    exact .ok (resembles.requeued.gone _)
  · rw [not_not] at room
    have fullToo := room
    rw [resembles.queue, shape.maxCothreads] at fullToo
    rw [Sched.yield, Sched.yield, requeue, requeue, if_pos room, if_pos fullToo]
    exact .error _

theorem signal (live : left.live config sem) :
    Agrees (Resembles config ties) (left.signal config sem) (right.signal other sem) := by
  have liveToo := (resembles.live_iff shape).mp live
  have same := resembles.sem sem live
  by_cases room : (left.sem sem).set = false → (left.sem sem).head ≠ nullHandle →
      left.queue.length ≠ config.maxCothreads
  · have roomToo := room
    rw [same, resembles.queue, shape.maxCothreads] at roomToo
    rw [signal_ok leftSound leftContexts live room, signal_ok rightSound rightContexts liveToo roomToo,
      same]
    refine .ok ?_
    split
    · exact resembles
    split
    · exact resembles.flagged live true
    · exact resembles.handed live
  · push Not at room
    obtain ⟨clear, nonempty, full⟩ := room
    have fullToo := full
    rw [resembles.queue, shape.maxCothreads] at fullToo
    rw [Sched.signal, Sched.signal, ← same, clear, if_neg (by simp), if_neg nonempty,
      if_neg (by simp), if_neg nonempty, requeue, requeue, if_pos full, if_pos fullToo]
    exact .error _

theorem destroy (point : SwitchPoint) (cothread : Int) :
    Agrees (Resembles config ties) (left.destroy config point cothread)
      (right.destroy other point cothread) := by
  by_cases valid : InRange config cothread ∧ left.state cothread ≠ .notActive ∧ left.running ≠ 0
  · obtain ⟨bounds, active, fromCothread⟩ := valid
    have boundsToo : InRange other cothread := by
      unfold InRange at bounds ⊢
      rwa [← shape.maxCothreads]
    rw [destroy_ok leftSound leftContexts bounds active fromCothread,
      destroy_ok rightSound rightContexts boundsToo (resembles.state ▸ active)
        (resembles.running ▸ fromCothread), ← resembles.running]
    refine .ok ?_
    split
    · exact (resembles.released cothread).gone point
    · exact resembles.released cothread
  · unfold Sched.destroy
    rw [← shape.maxCothreads, ← resembles.state, ← resembles.running]
    by_cases outside : cothread ≥ config.maxCothreads ∨ cothread < 0
    · rw [if_pos outside, if_pos outside]
      exact .error _
    rw [if_neg outside, if_neg outside]
    by_cases inactive : left.state cothread = .notActive
    · rw [if_pos inactive, if_pos inactive]
      exact .error _
    rw [if_neg inactive, if_neg inactive]
    by_cases root : left.running = 0
    · rw [if_pos root, if_pos root]
      exact .error _
    refine absurd ⟨?_, inactive, root⟩ valid
    unfold InRange
    omega

omit leftSound rightSound leftContexts rightContexts in
theorem spawn {clientEntry otherEntry privateArg otherArg : Address}
    (entry : ties.Entry clientEntry otherEntry) (arg : ties.Arg privateArg otherArg) :
    Agrees (fun made madeToo => made.1 = madeToo.1 ∧ Resembles config ties made.2 madeToo.2)
      (left.spawn config clientEntry privateArg) (right.spawn other otherEntry otherArg) := by
  unfold Sched.spawn
  rw [← resembles.free, ← resembles.queue, ← shape.maxCothreads]
  by_cases isNull : clientEntry = 0#64
  · rw [if_pos isNull, if_pos ((ties.null entry).mp isNull)]
    exact .error _
  rw [if_neg isNull, if_neg (fun otherNull => isNull ((ties.null entry).mpr otherNull))]
  cases free : left.free with
  | nil => exact .ok ⟨rfl, resembles⟩
  | cons new rest =>
    by_cases full : left.queue.length = config.maxCothreads
    · simp only [if_pos full]
      exact .error _
    · simp only [if_neg full]
      exact .ok ⟨rfl, resembles.spawned free entry arg⟩

omit leftSound rightSound leftContexts rightContexts in
theorem setArg {privateArg otherArg : Address} (cothread : Int) (arg : ties.Arg privateArg otherArg) :
    Agrees (Resembles config ties) (left.setArg config cothread privateArg)
      (right.setArg other cothread otherArg) := by
  unfold Sched.setArg
  by_cases invalid : cothread ≥ config.maxCothreads ∨ cothread < 0 ∨ left.state cothread = .notActive
  · have invalidToo := invalid
    rw [shape.maxCothreads, resembles.state] at invalidToo
    rw [if_pos invalid, if_pos invalidToo]
    exact .error _
  · have validToo := invalid
    rw [shape.maxCothreads, resembles.state] at validToo
    rw [if_neg invalid, if_neg validToo]
    exact .ok (resembles.argued arg)

omit shape rightSound leftContexts rightContexts in
theorem myArg : Agrees (ResemblingOutcomes config ties) (left.step config .myArg)
    (right.step other .myArg) := by
  simp only [Sched.step, ← resembles.running]
  by_cases root : left.running = 0
  · rw [if_pos root, if_pos root]
    exact .error _
  · rw [if_neg root, if_neg root]
    obtain ⟨nonneg, below⟩ := leftSound.running
    have positive : 0 < left.running := lt_of_le_of_ne nonneg (Ne.symm root)
    have taken : left.running ∉ left.free := by
      intro free
      obtain ⟨-, -, inactive⟩ := (leftSound.free.exact _).mp free
      rw [leftSound.executingRunning] at inactive
      cases inactive
    exact .ok ⟨(resembles.given _ positive below taken).2, resembles⟩

/-- Resembling calls have resembling outcomes, the same fault included. -/
theorem step (semaphoreLive : ∀ sem, call.semaphore = some sem → left.live config sem)
    (asks : call.Resembles ties asked) :
    Agrees (ResemblingOutcomes config ties) (left.step config call) (right.step other asked) := by
  have returns : ∀ {result resultToo : Except Fault Sched},
      Agrees (Resembles config ties) result resultToo →
        Agrees (ResemblingOutcomes config ties) (returning result) (returning resultToo) :=
    fun agreement => agreement.map fun related => ⟨rfl, related⟩
  have waits : ∀ {sem}, left.live config sem →
      Agrees (ResemblingOutcomes config ties) (returning (left.wait sem)) (returning (right.wait sem)) :=
    fun live => returns
      (resembles.wait shape leftSound rightSound leftContexts rightContexts live)
  have signals : ∀ {sem}, left.live config sem →
      Agrees (ResemblingOutcomes config ties) (returning (left.signal config sem))
        (returning (right.signal other sem)) :=
    fun live => returns
      (resembles.signal shape leftSound rightSound leftContexts rightContexts live)
  cases call with
  | spawn clientEntry privateArg =>
    cases asked with
    | spawn otherEntry otherArg =>
      obtain ⟨entry, arg⟩ := asks
      apply (resembles.spawn shape entry arg).map
      rintro ⟨new, next⟩ ⟨_, nextToo⟩ ⟨rfl, related⟩
      exact ⟨rfl, related⟩
    | _ => cases asks
  | setArg cothread privateArg =>
    cases asked with
    | setArg otherCothread otherArg =>
      obtain ⟨rfl, arg⟩ := asks
      exact returns (resembles.setArg shape cothread arg)
    | _ => cases asks
  | freeHandleAvailable =>
    cases asks
    refine .ok ⟨?_, resembles⟩
    simp only [resembles.free]
    rfl
  | queryState cothread =>
    cases asks
    simp only [Sched.step, ← shape.maxCothreads, ← resembles.state]
    split
    · exact .error _
    · exact .ok ⟨rfl, resembles⟩
  | myHandle =>
    cases asks
    exact .ok ⟨congrArg Answer.handle resembles.running, resembles⟩
  | myArg =>
    cases asks
    exact resembles.myArg leftSound
  | yield =>
    cases asks
    exact returns (resembles.yield shape leftSound rightSound leftContexts rightContexts)
  | destroy cothread =>
    cases asks
    exact returns (resembles.destroy shape leftSound rightSound leftContexts rightContexts ..)
  | semaphoreInit id =>
    cases asks
    exact .ok ⟨rfl, resembles.semaphoreInitialised id⟩
  | semaphoreWait sem =>
    cases asks
    exact waits (semaphoreLive sem rfl)
  | semaphoreSignal sem =>
    cases asks
    exact signals (semaphoreLive sem rfl)
  | semaphoreIsQueueEmpty sem | semaphoreIsSet sem =>
    cases asks
    refine .ok ⟨?_, resembles⟩
    simp only [resembles.sem sem (semaphoreLive sem rfl)]
    rfl
  | waitOnChannel wakeOn =>
    cases asks
    simp only [Sched.step, ← shape.maxChannels]
    split
    · exact .error _
    · rename_i valid
      exact waits (Nat.lt_of_not_le valid)
  | recvNtfn ch =>
    cases asks
    simp only [Sched.step, ← shape.maxChannels, ← resembles.running]
    split
    · exact .error _
    split
    · exact .error _
    · rename_i valid
      exact signals (Nat.lt_of_not_le valid)
  | entryReturn =>
    cases asks
    simp only [Sched.step, ← resembles.running]
    exact returns (resembles.destroy shape leftSound rightSound leftContexts rightContexts ..)

end Outcomes

end Resembles

/-- Initialisation establishes resembling states in builds of the same shape. -/
theorem Initial.resembles (initial : left.Initial config) (initialToo : right.Initial other)
    (shape : config.SameShape other) : Resembles config ties left right where
  running := initial.running.trans initialToo.running.symm
  state := by
    funext h
    rw [initial.state, initialToo.state]
  link := by
    funext h
    rw [initial.link, initialToo.link]
  queue := initial.queue.trans initialToo.queue.symm
  free := by rw [initial.free, initialToo.free, spawnableHandles, spawnableHandles, shape.maxCothreads]
  initialised := by
    funext id
    rw [initial.initialised, initialToo.initialised]
  sem sem live := by
    rw [initial.sem_of_live live]
    refine (initialToo.sem_of_live ?_).symm
    cases sem with
    | channel ch =>
      have below : ch < config.maxChannels := live
      rw [shape.maxChannels] at below
      exact below
    | client id =>
      have dead : left.initialised id = true := live
      rw [initial.initialised] at dead
      cases dead
  given h positive below taken := by
    rw [initial.free, mem_spawnableHandles] at taken
    exact absurd ⟨positive, below⟩ taken

end Sched

end Libmicrokitco
