import Libmicrokitco.Sched.DistinctQueue
import Libmicrokitco.Semantics.Fifo

/-!
# The scheduler is first in, first out

While cothreads are destroyed by themselves only, the scheduling queue holds no
stale entry, and the lists are those of the abstract FIFO scheduler.
-/

namespace Libmicrokitco

/-- What a call asks of the abstract scheduler. -/
def Call.action : Call → FifoAction SemRef
  | .spawn _ _ => .spawn
  | .yield => .yield
  | .semaphoreWait sem => .wait sem
  | .waitOnChannel wakeOn => .wait (.channel wakeOn)
  | .semaphoreSignal sem => .signal sem
  | .recvNtfn ch => .signal (.channel ch)
  | .destroy _ | .entryReturn => .exit
  | .semaphoreInit id => .initialise (.client id)
  | .freeHandleAvailable | .setArg _ _ | .queryState _ | .myHandle | .myArg => .observe
  | .semaphoreIsQueueEmpty _ | .semaphoreIsSet _ => .observe

section

variable {call : Call} {sem : SemRef} {running cothread : Int}

theorem Call.action_of_waitsOn (on : call.waitsOn = some sem) : call.action = .wait sem := by
  cases call <;> cases on <;> rfl

theorem Call.action_of_signalsOn (on : call.signalsOn = some sem) : call.action = .signal sem := by
  cases call <;> cases on <;> rfl

theorem Call.action_of_destroys (destroys : call.destroys running = some cothread) :
    call.action = .exit := by
  cases call <;> cases destroys <;> rfl

theorem Call.Passive.action (passive : call.Passive) : call.action = .observe := by
  cases call <;> first | rfl | exact passive.elim

end

namespace Sched

/-- The queue, the free handles and the flags are those of the abstract
scheduler, and every entry of the queue is ready. -/
structure Tracks (config : Config) (fifo : Fifo Int SemRef) (sched : Sched) : Prop where
  queue : sched.queue = fifo.ready
  free : sched.free = fifo.free
  flag : ∀ sem, sched.live config sem → (sched.sem sem).set = fifo.flag sem
  nodup : sched.queue.Nodup
  entries : ∀ entry ∈ sched.queue, sched.state entry = .ready

structure Follows (config : Config) (fifo : Fifo Int SemRef) (sched : Sched) : Prop
    extends Tracks config fifo sched where
  running : sched.running = fifo.running

/-- The cothread a call destroys is its caller. -/
def DestroysOwn (sched : Sched) (call : Call) : Prop :=
  ∀ cothread, call = .destroy cothread → cothread = sched.running

variable {config : Config} {sched next : Sched} {executing : Option Int} {call : Call}
  {answer : Answer} {point : SwitchPoint} {sem : SemRef} {h : Int} {fifo : Fifo Int SemRef}

namespace Tracks

theorem toDistinct (tracks : Tracks config fifo sched) : Distinct sched :=
  ⟨tracks.nodup, fun entry member => .inl (tracks.entries entry member)⟩

theorem notMem (tracks : Tracks config fifo sched) (notReady : sched.state h ≠ .ready) :
    h ∉ sched.queue :=
  fun member => notReady (tracks.entries h member)

/-- A state change of a thread that is not queued. -/
theorem of_update {value : CoState} {changedFifo : Fifo Int SemRef}
    (tracks : Tracks config fifo sched) (absent : h ∉ sched.queue)
    (queue : next.queue = sched.queue) (ready : changedFifo.ready = fifo.ready)
    (changed : next.state = Function.update sched.state h value)
    (free : next.free = changedFifo.free)
    (flag : ∀ sem, next.live config sem → (next.sem sem).set = changedFifo.flag sem) :
    Tracks config changedFifo next := by
  refine ⟨by rw [queue, ready, tracks.queue], free, flag, queue ▸ tracks.nodup, ?_⟩
  intro entry member
  rw [queue] at member
  have other : entry ≠ h := fun same => absent (same ▸ member)
  rw [changed, Function.update_of_ne other]
  exact tracks.entries entry member

/-- A thread that is not queued goes to the back of the queue. -/
theorem push {changedFifo : Fifo Int SemRef} (tracks : Tracks config fifo sched)
    (absent : h ∉ sched.queue) (queue : next.queue = sched.queue ++ [h])
    (ready : changedFifo.ready = fifo.ready ++ [h])
    (changed : next.state = Function.update sched.state h .ready)
    (free : next.free = changedFifo.free)
    (flag : ∀ sem, next.live config sem → (next.sem sem).set = changedFifo.flag sem) :
    Tracks config changedFifo next := by
  refine ⟨by rw [queue, ready, tracks.queue], free, flag,
    (tracks.toDistinct.push absent queue changed).nodup, ?_⟩
  intro entry member
  rw [queue, List.mem_append, List.mem_singleton] at member
  rw [changed]
  by_cases same : entry = h
  · rw [same, Function.update_self]
  · rw [Function.update_of_ne same]
    exact tracks.entries entry (member.resolve_right same)

/-- The scheduler dispatches the head of the queue. -/
theorem gone (tracks : Tracks config fifo sched) (sound : Sound config executing sched)
    (supplied : ∃ h, sched.state h = .ready) :
    ∃ after, fifo.dispatch = some after ∧ Follows config after (sched.gone point) ∧
      after.waiters = fifo.waiters := by
  obtain ⟨waiting, isReady⟩ := supplied
  have queued := sound.queue.readyQueued waiting isReady
  cases shape : sched.queue with
  | nil =>
    rw [shape] at queued
    cases queued
  | cons head rest =>
    have headReady : sched.state head = .ready :=
      tracks.entries head (by rw [shape]; exact List.mem_cons_self)
    have ready : fifo.ready = head :: rest := tracks.queue.symm.trans shape
    have picked : orRoot (pick sched.state sched.queue).1 = head ∧
        (pick sched.state sched.queue).2 = rest := by
      have nonneg := (sound.queue.inRange head (by rw [shape]; exact List.mem_cons_self)).1
      have isEntry : head ≠ schedulerNullChoice := by
        unfold schedulerNullChoice nullHandle
        omega
      rw [shape, pick, if_pos (.inr headReady), orRoot, if_neg isEntry]
      exact ⟨rfl, rfl⟩
    have nodup := tracks.nodup
    rw [shape, List.nodup_cons] at nodup
    refine ⟨_, Fifo.dispatch_of_ready ready, ⟨⟨picked.2, tracks.free, tracks.flag, ?_, ?_⟩, picked.1⟩,
      rfl⟩
    · change (pick sched.state sched.queue).2.Nodup
      rw [picked.2]
      exact nodup.2
    · intro entry member
      change entry ∈ (pick sched.state sched.queue).2 at member
      change Function.update sched.state (orRoot (pick sched.state sched.queue).1) .running entry = _
      rw [picked.2] at member
      have other : entry ≠ head := fun same => nodup.1 (same ▸ member)
      rw [picked.1, Function.update_of_ne other]
      exact tracks.entries entry (by rw [shape]; exact List.mem_cons_of_mem _ member)

end Tracks

namespace Follows

theorem running_notMem (follows : Follows config fifo sched)
    (sound : Sound config (some sched.running) sched) : sched.running ∉ sched.queue :=
  follows.toTracks.notMem (by rw [sound.executingRunning]; simp)

theorem requeued (follows : Follows config fifo sched)
    (sound : Sound config (some sched.running) sched) :
    Tracks config fifo.queueCaller sched.requeued := by
  refine follows.toTracks.push (follows.running_notMem sound) rfl ?_ rfl follows.free follows.flag
  rw [Fifo.queueCaller, follows.running]

theorem blockedOn (follows : Follows config fifo sched)
    (sound : Sound config (some sched.running) sched) :
    Tracks config (fifo.blockCaller sem) (sched.blockedOn sem) := by
  refine follows.toTracks.of_update (follows.running_notMem sound) rfl rfl rfl follows.free ?_
  intro other live
  change (Function.update sched.sem sem _ other).set = fifo.flag other
  rw [← follows.flag other live]
  by_cases same : other = sem
  · rw [same, Function.update_self]
  · rw [Function.update_of_ne same]

theorem released (follows : Follows config fifo sched)
    (sound : Sound config (some sched.running) sched) :
    Tracks config fifo.freeCaller (sched.released sched.running) := by
  refine follows.toTracks.of_update (follows.running_notMem sound) rfl rfl rfl ?_ follows.flag
  change sched.free ++ [sched.running] = fifo.free ++ [fifo.running]
  rw [follows.free, follows.running]

theorem flagged {value : Bool} (follows : Follows config fifo sched) :
    Follows config (fifo.setFlag sem value) (sched.flagged sem value) := by
  refine ⟨⟨follows.queue, follows.free, ?_, follows.nodup, follows.entries⟩, follows.running⟩
  intro other live
  change (Function.update sched.sem sem _ other).set = Function.update fifo.flag sem value other
  by_cases same : other = sem
  · rw [same, Function.update_self, Function.update_self]
  · rw [Function.update_of_ne same, Function.update_of_ne same]
    exact follows.flag other live

theorem semaphoreInitialised {id : Nat} (follows : Follows config fifo sched) :
    Follows config (fifo.initialise (.client id)) (sched.semaphoreInitialised id) := by
  refine ⟨⟨follows.queue, follows.free, ?_, follows.nodup, follows.entries⟩, follows.running⟩
  intro sem live
  change (Function.update sched.sem (.client id) _ sem).set =
    Function.update fifo.flag (.client id) false sem
  by_cases same : sem = .client id
  · rw [same, Function.update_self, Function.update_self]
    rfl
  · rw [Function.update_of_ne same, Function.update_of_ne same]
    exact follows.flag sem (live_before same live)

theorem spawned {clientEntry privateArg : Address} {rest : List Int}
    (follows : Follows config fifo sched) (sound : Sound config (some sched.running) sched)
    (taken : sched.free = h :: rest) :
    Follows config fifo.spawn (sched.spawned config clientEntry privateArg h rest) := by
  have inactive : sched.state h = .notActive :=
    ((sound.free.exact h).mp (by rw [taken]; exact List.mem_cons_self)).2.2
  rw [Fifo.spawn_of_free (follows.free.symm.trans taken)]
  refine ⟨follows.toTracks.push (follows.toTracks.notMem (by rw [inactive]; simp)) rfl rfl rfl rfl
    follows.flag, follows.running⟩

/-- A signal that finds a waiter hands over to the first one. -/
theorem handed (follows : Follows config fifo sched)
    (sound : Sound config (some sched.running) sched) (waiting : Waiting config fifo.waiters sched)
    (live : sched.live config sem) (clear : (sched.sem sem).set = false)
    (nonempty : (sched.sem sem).head ≠ nullHandle) :
    Follows config (fifo.signal sem) (sched.handed sem) ∧
      (fifo.signal sem).waiters = Function.update fifo.waiters sem (fifo.waiters sem).tail := by
  obtain ⟨rest, shape, -⟩ := (waiting.chain sem live).exists_cons nonempty
  have blocked := waiting.head_blocked live nonempty
  have absent : (sched.sem sem).head ∉ sched.requeued.queue := by
    intro queued
    rcases List.mem_append.mp queued with earlier | isCaller
    · exact follows.toTracks.notMem (by rw [blocked]; simp) earlier
    · exact sound.blocked_ne_running blocked (List.mem_singleton.mp isCaller)
  rw [Fifo.signal_of_cons ((follows.flag sem live).symm.trans clear) shape]
  refine ⟨⟨(follows.requeued sound).of_update absent rfl rfl rfl follows.free ?_, rfl⟩, ?_⟩
  · intro other otherLive
    change (Function.update sched.sem sem _ other).set = fifo.flag other
    rw [← follows.flag other otherLive]
    by_cases same : other = sem
    · rw [same, Function.update_self]
      split
      · exact clear.symm
      · rfl
    · rw [Function.update_of_ne same]
  · rw [shape]
    rfl

/-- Each call does what the abstract scheduler does. -/
theorem effect (follows : Follows config fifo sched)
    (sound : Sound config (some sched.running) sched) (waiting : Waiting config fifo.waiters sched)
    (supplied : sched.Supplied call) (own : sched.DestroysOwn call)
    (effect : Effect config sched call answer next) :
    ∃ after, fifo.step call.action = some after ∧ Follows config after next ∧
      after.waiters = sched.nextWaiters fifo.waiters call := by
  cases effect with
  | queried passive =>
    rw [passive.action, nextWaiters_of_passive passive]
    exact ⟨fifo, rfl, follows, rfl⟩
  | peeked => exact ⟨fifo, rfl, follows, rfl⟩
  | argued =>
    exact ⟨fifo, rfl, ⟨⟨follows.queue, follows.free, follows.flag, follows.nodup, follows.entries⟩,
      follows.running⟩, rfl⟩
  | exhausted _ none =>
    have same := Fifo.spawn_of_exhausted (follows.free.symm.trans none)
    refine ⟨fifo.spawn, rfl, ?_, ?_⟩
    · rwa [same]
    · rw [same]
      rfl
  | spawned _ taken =>
    refine ⟨fifo.spawn, rfl, follows.spawned sound taken, ?_⟩
    rw [Fifo.spawn_of_free (follows.free.symm.trans taken)]
    rfl
  | initialised => exact ⟨_, rfl, follows.semaphoreInitialised, rfl⟩
  | @consumed _ sem on live set =>
    rw [Call.action_of_waitsOn on, nextWaiters_of_wait on, if_pos set]
    exact ⟨_, Fifo.wait_of_set ((follows.flag sem live).symm.trans set), follows.flagged, rfl⟩
  | @blocked _ sem on live clear =>
    obtain ⟨after, dispatched, followed, kept⟩ := (follows.blockedOn sound).gone
      (sound.blockedOn live) (sound.ready_of_stop .blocked (supplied (.inl ⟨sem, on, clear⟩)))
    rw [Call.action_of_waitsOn on, nextWaiters_of_wait on, clear, if_neg (by simp), follows.running]
    refine ⟨after, ?_, followed, kept⟩
    exact (Fifo.wait_of_clear ((follows.flag sem live).symm.trans clear)).trans dispatched
  | @ignored _ sem on live set =>
    have same := Fifo.signal_of_set ((follows.flag sem live).symm.trans set)
    rw [Call.action_of_signalsOn on, nextWaiters_of_signal_nil on (waiting.flag sem live set)]
    exact ⟨fifo, congrArg some same, follows, rfl⟩
  | @raised _ sem on live clear empty =>
    have noWaiter := (waiting.nil_iff live).mpr empty
    have same := Fifo.signal_of_nil ((follows.flag sem live).symm.trans clear) noWaiter
    rw [Call.action_of_signalsOn on, nextWaiters_of_signal_nil on noWaiter]
    exact ⟨_, congrArg some same, follows.flagged, rfl⟩
  | @handedOver _ sem on live clear nonempty =>
    rw [Call.action_of_signalsOn on, nextWaiters_of_signal on]
    exact ⟨_, rfl, follows.handed sound waiting live clear nonempty⟩
  | yielded =>
    obtain ⟨after, dispatched, followed, kept⟩ := (follows.requeued sound).gone sound.requeued
      ⟨sched.running, Function.update_self ..⟩
    exact ⟨after, dispatched, followed, kept⟩
  | destroyed _ _ _ _ other => exact absurd (own _ rfl) other
  | exited self _ _ _ fromCothread =>
    obtain ⟨after, dispatched, followed, kept⟩ := (follows.released sound).gone
      (sound.releasedSelf fromCothread) (sound.ready_of_stop .notActive (supplied (.inr self)))
    rw [Call.action_of_destroys self, nextWaiters_of_destroys self]
    exact ⟨after, dispatched, followed, kept⟩

end Follows

/-- The abstract scheduler at the start: the root runs and all other handles are free. -/
def fifoAtStart (config : Config) : Fifo Int SemRef where
  running := 0
  ready := []
  free := spawnableHandles config
  flag := fun _ => false
  waiters := fun _ => []

theorem Initial.follows (initial : sched.Initial config) :
    Follows config (fifoAtStart config) sched := by
  refine ⟨⟨initial.queue, initial.free, ?_, ?_, ?_⟩, initial.running⟩
  · intro sem live
    rw [initial.sem_of_live live]
    rfl
  · rw [initial.queue]
    exact List.nodup_nil
  · simp [initial.queue]

end Sched
end Libmicrokitco
