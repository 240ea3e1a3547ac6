import Libmicrokitco.Sched.Waiting

/-!
# Queues without leftovers

As long as no spawn takes a handle that a destroyed cothread left in the
scheduling queue, the queue holds each handle at most once and has room for
every thread that may be pushed.
-/

namespace Libmicrokitco.Sched

/-- Each entry stands alone for a thread that is ready, or was when destroyed. -/
structure Distinct (sched : Sched) : Prop where
  nodup : sched.queue.Nodup
  entries : ∀ entry ∈ sched.queue, sched.state entry = .ready ∨ sched.state entry = .notActive

/-- A spawn takes a handle that is not in the scheduling queue. -/
def Fresh (sched : Sched) (call : Call) : Prop :=
  ∀ clientEntry privateArg h, call = .spawn clientEntry privateArg → sched.free.head? = some h →
    h ∉ sched.queue

variable {config : Config} {sched next : Sched} {executing : Option Int} {call : Call}
  {answer : Answer} {point : SwitchPoint} {sem : SemRef} {h : Int}
  {waiters : SemRef → List Int}

namespace Distinct

theorem notMem (distinct : Distinct sched) (notReady : sched.state h ≠ .ready)
    (active : sched.state h ≠ .notActive) : h ∉ sched.queue := by
  intro queued
  rcases distinct.entries h queued with ready | inactive
  · exact notReady ready
  · exact active inactive

theorem running_notMem (distinct : Distinct sched)
    (sound : Sound config (some sched.running) sched) : sched.running ∉ sched.queue :=
  distinct.notMem (by rw [sound.executingRunning]; simp) (by rw [sound.executingRunning]; simp)

/-- The queue has room: the running thread is not in it. -/
theorem length_lt (distinct : Distinct sched) (sound : Sound config (some sched.running) sched) :
    sched.queue.length < config.maxCothreads :=
  length_lt_of_missing distinct.nodup sound.queue.inRange sound.running
    (distinct.running_notMem sound)

/-- A state change of a thread that has no entry, or to ready or inactive. -/
theorem of_update {value : CoState} (distinct : Distinct sched) (queue : next.queue = sched.queue)
    (changed : next.state = Function.update sched.state h value)
    (allowed : h ∈ sched.queue → value = .ready ∨ value = .notActive) : Distinct next := by
  refine ⟨queue ▸ distinct.nodup, fun entry member => ?_⟩
  rw [queue] at member
  rw [changed]
  by_cases same : entry = h
  · subst same
    rw [Function.update_self]
    exact allowed member
  · rw [Function.update_of_ne same]
    exact distinct.entries entry member

/-- A thread without an entry is pushed. -/
theorem push (distinct : Distinct sched) (absent : h ∉ sched.queue)
    (queue : next.queue = sched.queue ++ [h])
    (changed : next.state = Function.update sched.state h .ready) : Distinct next := by
  constructor
  · rw [queue, List.nodup_append]
    refine ⟨distinct.nodup, List.nodup_singleton h, ?_⟩
    rintro entry member other isOther rfl
    exact absent (List.mem_singleton.mp isOther ▸ member)
  · intro entry member
    rw [queue, List.mem_append, List.mem_singleton] at member
    rw [changed]
    by_cases same : entry = h
    · rw [same, Function.update_self]
      exact .inl rfl
    · rw [Function.update_of_ne same]
      exact distinct.entries entry (member.resolve_right same)

theorem requeued (distinct : Distinct sched) (sound : Sound config (some sched.running) sched) :
    Distinct sched.requeued :=
  distinct.push (distinct.running_notMem sound) rfl rfl

theorem gone (distinct : Distinct sched) (sound : Sound config none sched) :
    Distinct (sched.gone point) := by
  have picks := sound.queue.picks
  have state : (sched.gone point).state =
    Function.update sched.state (orRoot (pick sched.state sched.queue).1) .running := rfl
  have queue : (sched.gone point).queue = (pick sched.state sched.queue).2 := rfl
  have nodup := distinct.nodup
  have entries := distinct.entries
  generalize orRoot (pick sched.state sched.queue).1 = chosen at picks state
  generalize (pick sched.state sched.queue).2 = rest at picks queue
  generalize sched.queue = whole at picks nodup entries
  cases picks with
  | @entry skipped =>
    have later := (List.nodup_append.mp nodup).2.1
    refine ⟨queue ▸ (List.nodup_cons.mp later).2, fun entry member => ?_⟩
    rw [queue] at member
    have other : entry ≠ chosen := by
      rintro rfl
      exact (List.nodup_cons.mp later).1 member
    rw [state, Function.update_of_ne other]
    exact entries entry (List.mem_append_right _ (List.mem_cons_of_mem _ member))
  | fallback => exact ⟨by rw [queue]; exact List.nodup_nil, by rw [queue]; simp⟩

theorem handed (distinct : Distinct sched) (sound : Sound config (some sched.running) sched)
    (waiting : Waiting config waiters sched) (live : sched.live config sem)
    (nonempty : (sched.sem sem).head ≠ nullHandle) : Distinct (sched.handed sem) := by
  have blocked := waiting.head_blocked live nonempty
  refine (distinct.requeued sound).of_update rfl rfl fun queued => ?_
  rcases List.mem_append.mp queued with earlier | isCaller
  · exact absurd earlier (distinct.notMem (by rw [blocked]; simp) (by rw [blocked]; simp))
  · exact absurd (List.mem_singleton.mp isCaller) (sound.blocked_ne_running blocked)

/-- Calls whose spawns are fresh keep the entries distinct. -/
theorem effect (distinct : Distinct sched) (sound : Sound config (some sched.running) sched)
    (waiting : Waiting config waiters sched) (fresh : sched.Fresh call)
    (effect : Effect config sched call answer next) : Distinct next := by
  cases effect with
  | queried | peeked | exhausted | ignored => exact distinct
  | argued | initialised | consumed | raised => exact ⟨distinct.nodup, distinct.entries⟩
  | spawned _ taken =>
    exact distinct.push (fresh _ _ _ rfl (by rw [taken]; rfl)) rfl rfl
  | @blocked _ sem _ live =>
    have stopped : Distinct (sched.blockedOn sem) := distinct.of_update rfl rfl fun queued =>
      absurd queued (distinct.running_notMem sound)
    exact stopped.gone (sound.blockedOn live)
  | handedOver _ live _ nonempty => exact distinct.handed sound waiting live nonempty
  | yielded => exact (distinct.requeued sound).gone sound.requeued
  | destroyed => exact distinct.of_update rfl rfl fun _ => .inr rfl
  | exited _ _ _ _ fromCothread =>
    have stopped : Distinct (sched.released sched.running) :=
      distinct.of_update rfl rfl fun _ => .inr rfl
    exact stopped.gone (sound.releasedSelf fromCothread)

end Distinct

theorem Initial.distinct (initial : sched.Initial config) : Distinct sched := by
  constructor <;> simp [initial.queue]

end Libmicrokitco.Sched
