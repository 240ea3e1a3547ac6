import Libmicrokitco.Sched.DistinctQueue

/-!
# The order of turns

The live part of the scheduling queue, without stale entries. While no handle
has two entries, a call keeps the order of the threads that stay ready, puts
those that become ready behind them, and the scheduler takes the first.
-/

namespace Libmicrokitco.Sched

/-- The ready threads in the order of the queue. -/
def readyQueue (sched : Sched) : List Int :=
  sched.queue.filter fun h => sched.state h = .ready

/-- The scheduler is asked for the next thread. -/
def Dispatches (sched : Sched) (call : Call) : Prop :=
  call = .yield ∨ sched.Stops call

/-- The caller, if it queues itself before the scheduler is asked. -/
def requeuedBy (sched : Sched) (call : Call) : List Int :=
  if call = .yield then [sched.running] else []

variable {config : Config} {sched next : Sched} {executing : Option Int} {call : Call}
  {answer : Answer} {point : SwitchPoint} {sem : SemRef} {h : Int}
  {waiters : SemRef → List Int}

/-- A thread that is not ready when the scheduler is asked is not ready afterwards. -/
theorem gone_not_ready (notReady : sched.state h ≠ .ready) : (sched.gone point).state h ≠ .ready := by
  change Function.update sched.state (orRoot (pick sched.state sched.queue).1) .running h ≠ _
  by_cases chosen : h = orRoot (pick sched.state sched.queue).1
  · rw [chosen, Function.update_self]
    simp
  · rwa [Function.update_of_ne chosen]

/-- The entries that the scheduler drops are not ready afterwards. -/
theorem gone_dropped (queue : QueueSound config sched.state sched.queue) :
    ∃ dropped, sched.queue = dropped ++ (sched.gone point).queue ∧
      ∀ entry ∈ dropped, (sched.gone point).state entry ≠ .ready := by
  have picks := queue.picks
  have chosenRuns : (sched.gone point).state (orRoot (pick sched.state sched.queue).1) ≠ .ready := by
    change Function.update sched.state _ .running _ ≠ _
    rw [Function.update_self]
    simp
  have left : (sched.gone point).queue = (pick sched.state sched.queue).2 := rfl
  have stays : ∀ entry, sched.state entry ≠ .ready → (sched.gone point).state entry ≠ .ready :=
    fun _ => gone_not_ready
  rw [left]
  generalize orRoot (pick sched.state sched.queue).1 = chosen at picks chosenRuns
  generalize (pick sched.state sched.queue).2 = rest at picks
  generalize sched.queue = whole at picks
  cases picks with
  | @entry skipped _ _ stale =>
    refine ⟨skipped ++ [chosen], by simp, fun entry member => ?_⟩
    rcases List.mem_append.mp member with isSkipped | isChosen
    · exact stays entry (stale entry isSkipped).2
    · rw [List.mem_singleton.mp isChosen]
      exact chosenRuns
  | fallback stale =>
    exact ⟨whole, (List.append_nil _).symm, fun entry member => stays entry (stale entry member).2⟩

/-- What a call does to the queue: it pushes some threads and drops entries from
the front that are not ready afterwards; whoever becomes ready has been pushed. -/
def QueueChange (sched : Sched) (call : Call) (answer : Answer) (next : Sched) : Prop :=
  ∃ pushed dropped, sched.queue ++ pushed = dropped ++ next.queue ∧
    (∀ entry ∈ dropped, next.state entry ≠ .ready) ∧
      pushed.filter (fun h => next.state h = .ready) =
        ((call.spawns answer).toList ++ [sched.running]).filter fun h => next.state h = .ready

theorem Effect.queueChange (effect : Effect config sched call answer next)
    (sound : Sound config (some sched.running) sched) : QueueChange sched call answer next := by
  -- calls that push nothing: only the caller could have become ready, and it has not
  have still : ∀ {after : Sched}, (∃ dropped, sched.queue = dropped ++ after.queue ∧
      ∀ entry ∈ dropped, after.state entry ≠ .ready) → call.spawns answer = none →
      after.state sched.running ≠ .ready → QueueChange sched call answer after := by
    rintro after ⟨dropped, queue, stale⟩ spawns notReady
    refine ⟨[], dropped, by rw [List.append_nil, queue], stale, ?_⟩
    simp [spawns, notReady]
  have executing : sched.state sched.running ≠ .ready := by
    rw [sound.executingRunning]
    simp
  have whole : ∃ dropped, sched.queue = dropped ++ sched.queue ∧
      ∀ entry ∈ dropped, sched.state entry ≠ .ready := ⟨[], rfl, by simp⟩
  cases effect with
  | queried passive => exact still whole passive.spawns executing
  | peeked | argued | exhausted | initialised => exact still ⟨[], rfl, by simp⟩ rfl executing
  | ignored on => exact still whole (Call.spawns_of_signalsOn on) executing
  | raised on => exact still ⟨[], rfl, by simp⟩ (Call.spawns_of_signalsOn on) executing
  | consumed on => exact still ⟨[], rfl, by simp⟩ (Call.spawns_of_waitsOn on) executing
  | @spawned _ _ new rest _ taken =>
    have inactive := (sound.free.exact new).mp (by rw [taken]; exact List.mem_cons_self)
    have other : sched.running ≠ new := by
      rintro rfl
      rw [sound.executingRunning] at inactive
      cases inactive.2.2
    have runs : Function.update sched.state new .ready sched.running ≠ .ready := by
      rwa [Function.update_of_ne other]
    have isHandle : new ≠ nullHandle := positive_ne_nullHandle inactive.1
    refine ⟨[new], [], rfl, by simp, ?_⟩
    rw [Call.spawns, if_neg isHandle, Option.toList_some, List.filter_append]
    change _ = _ ++ List.filter (fun h => Function.update sched.state new .ready h = .ready) _
    simp [runs]
  | blocked on live =>
    refine still (gone_dropped (sound.blockedOn live).queue) (Call.spawns_of_waitsOn on)
      (gone_not_ready ?_)
    simp [blockedOn]
  | handedOver on =>
    refine ⟨[sched.running], [], rfl, by simp, ?_⟩
    rw [Call.spawns_of_signalsOn on]
    rfl
  | yielded =>
    obtain ⟨dropped, queue, stale⟩ := gone_dropped sound.requeued.queue
    exact ⟨[sched.running], dropped, queue, stale, rfl⟩
  | destroyed _ _ _ _ other =>
    refine still ⟨[], rfl, by simp⟩ rfl ?_
    change Function.update sched.state _ .notActive sched.running ≠ _
    rwa [Function.update_of_ne other.symm]
  | exited self _ _ _ fromCothread =>
    refine still (gone_dropped (sound.releasedSelf fromCothread).queue)
      (Call.spawns_of_destroys self) (gone_not_ready ?_)
    simp [released]

namespace Distinct

/-- No queued thread becomes ready, since spawns are fresh. -/
theorem ready_before (distinct : Distinct sched)
    (sound : Sound config (some sched.running) sched) (fresh : sched.Fresh call)
    (effect : Effect config sched call answer next) (queued : h ∈ sched.queue)
    (ready : next.state h = .ready) : sched.state h = .ready := by
  cases effect.stateChange h with
  | kept same => exact same.symm.trans ready
  | queued caller => exact absurd (caller ▸ queued) (distinct.running_notMem sound)
  | @spawned clientEntry privateArg isSpawn free answered =>
    subst isSpawn
    rcases effect.of_spawn with ⟨none, -⟩ | ⟨new, rest, taken, -, also, -⟩
    · rw [none] at free
      cases free
    · cases answered.symm.trans also
      exact absurd queued (fresh clientEntry privateArg h rfl (by rw [taken]; rfl))
  | dispatched _ now | blocked _ _ _ now | destroyed _ now =>
    rw [now] at ready
    cases ready

/-- The ready threads after a call: those that stay ready, in their order, and
behind them the one that becomes ready. -/
theorem readyQueue_next (distinct : Distinct sched)
    (sound : Sound config (some sched.running) sched) (fresh : sched.Fresh call)
    (effect : Effect config sched call answer next) :
    next.readyQueue = (sched.readyQueue ++ (call.spawns answer).toList ++ [sched.running]).filter
      fun h => next.state h = .ready := by
  obtain ⟨pushed, dropped, moved, stale, became⟩ := effect.queueChange sound
  have staying : sched.readyQueue.filter (fun h => next.state h = .ready) =
      sched.queue.filter fun h => next.state h = .ready := by
    rw [readyQueue, List.filter_filter]
    refine List.filter_congr fun entry queued => ?_
    by_cases ready : next.state entry = .ready
    · simp [ready, distinct.ready_before sound fresh effect queued ready]
    · simp [ready]
  have noneDropped : dropped.filter (fun h => next.state h = .ready) = [] := by
    rw [List.filter_eq_nil_iff]
    intro entry member ready
    exact stale entry member (by simpa using ready)
  calc next.readyQueue
      = (dropped ++ next.queue).filter fun h => next.state h = .ready := by
        rw [List.filter_append, noneDropped, List.nil_append, readyQueue]
    _ = sched.readyQueue.filter (fun h => next.state h = .ready) ++
          ((call.spawns answer).toList ++ [sched.running]).filter fun h => next.state h = .ready := by
        rw [← moved, List.filter_append, staying, became]
    _ = _ := by simp only [List.append_assoc, List.filter_append]

/-- A change of the caller's state leaves the ready threads of the queue. -/
theorem readyQueue_of_caller (distinct : Distinct sched)
    (sound : Sound config (some sched.running) sched) (value : CoState) :
    sched.queue.filter (fun h => Function.update sched.state sched.running value h = .ready) =
      sched.readyQueue := by
  refine List.filter_congr fun entry queued => ?_
  have other : entry ≠ sched.running := fun same => distinct.running_notMem sound (same ▸ queued)
  rw [Function.update_of_ne other]

theorem readyQueue_requeued (distinct : Distinct sched)
    (sound : Sound config (some sched.running) sched) :
    sched.requeued.readyQueue = sched.readyQueue ++ [sched.running] := by
  change List.filter (fun h => Function.update sched.state sched.running .ready h = .ready)
    (sched.queue ++ [sched.running]) = _
  rw [List.filter_append, distinct.readyQueue_of_caller sound]
  simp

end Distinct

/-- The scheduler takes the first ready thread. -/
theorem Waiting.gone_first (waiting : Waiting config waiters sched) (sound : Sound config none sched)
    (supplied : ∃ h, sched.state h = .ready) :
    sched.readyQueue.head? = some (sched.gone point).running := by
  obtain ⟨ready, skipped, queued, stale⟩ := waiting.picks_ready sound supplied sound.queue.picks
  have noneSkipped : skipped.filter (fun h => sched.state h = .ready) = [] := by
    rw [List.filter_eq_nil_iff]
    intro entry member isReady
    exact (stale entry member).2 (by simpa using isReady)
  rw [readyQueue, queued, List.filter_append, noneSkipped, List.nil_append, List.filter_cons,
    if_pos (by simpa using ready), List.head?_cons]
  rfl

/-- A dispatch goes to the first thread that is ready, the caller of a yield last. -/
theorem Distinct.dispatched (distinct : Distinct sched) (waiting : Waiting config waiters sched)
    (sound : Sound config (some sched.running) sched) (supplied : sched.Supplied call)
    (effect : Effect config sched call answer next) (dispatches : sched.Dispatches call) :
    (sched.readyQueue ++ sched.requeuedBy call).head? = some next.running := by
  rcases dispatches with rfl | ⟨sem, on, clear⟩ | self
  · have yields : next = sched.requeued.gone .yield := by
      cases effect with
      | yielded => rfl
      | queried passive => exact passive.elim
      | consumed on | blocked on | ignored on | raised on | handedOver on => cases on
      | exited self => cases self
    rw [requeuedBy, if_pos rfl, ← distinct.readyQueue_requeued sound, yields]
    exact (waiting.requeued sound).gone_first sound.requeued
      ⟨sched.running, Function.update_self ..⟩
  · have notYield : call ≠ .yield := by
      rintro rfl
      cases on
    obtain ⟨live, ⟨set, -⟩ | ⟨-, rfl⟩⟩ := effect.of_wait on
    · rw [clear] at set
      cases set
    have kept : (sched.blockedOn sem).readyQueue = sched.readyQueue :=
      distinct.readyQueue_of_caller sound .blocked
    rw [requeuedBy, if_neg notYield, List.append_nil, ← kept]
    exact (waiting.blockedOn sound live clear).gone_first (sound.blockedOn live)
      (sound.ready_of_stop .blocked (supplied (.inl ⟨sem, on, clear⟩)))
  · have notYield : call ≠ .yield := by
      rintro rfl
      cases self
    obtain ⟨cothread, point, rfl⟩ := effect.of_exit self
    have kept : (sched.released sched.running).readyQueue = sched.readyQueue :=
      distinct.readyQueue_of_caller sound .notActive
    rw [requeuedBy, if_neg notYield, List.append_nil, ← kept]
    exact (waiting.released (by rw [sound.executingRunning]; simp) cothread).gone_first
      (sound.releasedSelf cothread) (sound.ready_of_stop .notActive (supplied (.inr self)))

/-- A ready thread starts to run only when the scheduler is asked. -/
theorem Waiting.dispatches_of_ready (waiting : Waiting config waiters sched)
    (sound : Sound config (some sched.running) sched)
    (effect : Effect config sched call answer next) (ready : sched.state next.running = .ready) :
    sched.Dispatches call := by
  have executing := sound.executingRunning
  cases effect with
  | yielded => exact .inl rfl
  | @blocked _ sem on _ clear => exact .inr (.inl ⟨sem, on, clear⟩)
  | exited self => exact .inr (.inr self)
  | @handedOver _ sem _ live _ nonempty =>
    have blocked := waiting.head_blocked live nonempty
    rw [show sched.state (sched.sem sem).head = _ from ready] at blocked
    cases blocked
  | queried | peeked | argued | exhausted | spawned | initialised | consumed | ignored | raised
  | destroyed =>
    rw [show sched.state sched.running = _ from ready] at executing
    cases executing

end Libmicrokitco.Sched
