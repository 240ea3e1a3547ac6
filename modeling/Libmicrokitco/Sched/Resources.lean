import Libmicrokitco.Sched.Effect
import Mathlib.Data.List.Nodup
import Mathlib.Data.Int.Interval

/-!
# Threads, the scheduling queue and the free handles

What every run keeps of the states of the threads and of the two rings, field
by field, with one lemma for each way a state changes.
-/

namespace Libmicrokitco.Sched

/-- An index into the TCB array. -/
def InRange (config : Config) (h : Int) : Prop := 0 ≤ h ∧ h < config.maxCothreads

instance (config : Config) (h : Int) : Decidable (InRange config h) :=
  inferInstanceAs (Decidable (_ ∧ _))

/-- At most one thread is executing, and the root is always active. -/
structure ThreadsSound (config : Config) (executing : Option Int) (state : Int → CoState) :
    Prop where
  executing : ∀ h, state h = .running ↔ executing = some h
  inRange : ∀ h, state h ≠ .notActive → InRange config h
  rootActive : state 0 ≠ .notActive

/-- Every ready thread is queued; entries of other threads may remain. -/
structure QueueSound (config : Config) (state : Int → CoState) (queue : List Int) : Prop where
  inRange : ∀ entry ∈ queue, InRange config entry
  readyQueued : ∀ h, state h = .ready → h ∈ queue

/-- The free handles are the inactive ones, each once. -/
structure FreeSound (config : Config) (state : Int → CoState) (free : List Int) : Prop where
  nodup : free.Nodup
  exact : ∀ h, h ∈ free ↔ 0 < h ∧ h < config.maxCothreads ∧ state h = .notActive

variable {config : Config} {state : Int → CoState} {executing : Option Int}
  {queue free : List Int} {h : Int} {value : CoState}

/-- Distinct handles that leave one out are fewer than all handles. -/
theorem length_lt_of_missing {handles : List Int} {missing : Int} (nodup : handles.Nodup)
    (bounds : ∀ h ∈ handles, InRange config h) (missingInRange : InRange config missing)
    (absent : missing ∉ handles) : handles.length < config.maxCothreads := by
  have distinct : (missing :: handles).Nodup := List.nodup_cons.mpr ⟨absent, nodup⟩
  have within : (missing :: handles).toFinset ⊆ Finset.Ico (0 : Int) config.maxCothreads := by
    intro h member
    rw [List.mem_toFinset, List.mem_cons] at member
    rw [Finset.mem_Ico]
    rcases member with rfl | member
    · exact missingInRange
    · exact bounds h member
  have small := Finset.card_le_card within
  rw [List.toFinset_card_of_nodup distinct, Int.card_Ico, List.length_cons] at small
  omega

section Threads

/-- The executing thread stops. -/
theorem ThreadsSound.stop (threads : ThreadsSound config (some h) state)
    (stopped : value ≠ .running) (root : h = 0 → value ≠ .notActive) :
    ThreadsSound config none (Function.update state h value) := by
  have bounds : InRange config h := by
    refine threads.inRange h ?_
    rw [(threads.executing h).mpr rfl]
    simp
  constructor
  · intro g
    by_cases same : g = h
    · subst same
      simp [stopped]
    · rw [Function.update_of_ne same, threads.executing g]
      simp [Ne.symm same]
  · intro g active
    by_cases same : g = h
    · exact same ▸ bounds
    · rw [Function.update_of_ne same] at active
      exact threads.inRange g active
  · by_cases same : 0 = h
    · rw [← same, Function.update_self]
      exact root same.symm
    · rw [Function.update_of_ne same]
      exact threads.rootActive

/-- A thread starts executing when none is. -/
theorem ThreadsSound.start (threads : ThreadsSound config none state) (bounds : InRange config h) :
    ThreadsSound config (some h) (Function.update state h .running) := by
  constructor
  · intro g
    by_cases same : g = h
    · subst same
      simp
    · rw [Function.update_of_ne same, threads.executing g]
      simp [Ne.symm same]
  · intro g active
    by_cases same : g = h
    · exact same ▸ bounds
    · rw [Function.update_of_ne same] at active
      exact threads.inRange g active
  · by_cases same : 0 = h
    · rw [← same, Function.update_self]
      simp
    · rw [Function.update_of_ne same]
      exact threads.rootActive

/-- A cothread that is not executing changes its state. -/
theorem ThreadsSound.set (threads : ThreadsSound config executing state)
    (idle : state h ≠ .running) (stopped : value ≠ .running) (bounds : InRange config h)
    (nonRoot : h ≠ 0) : ThreadsSound config executing (Function.update state h value) := by
  constructor
  · intro g
    by_cases same : g = h
    · subst same
      rw [Function.update_self, ← threads.executing g]
      simp [stopped, idle]
    · rw [Function.update_of_ne same, threads.executing g]
  · intro g active
    by_cases same : g = h
    · exact same ▸ bounds
    · rw [Function.update_of_ne same] at active
      exact threads.inRange g active
  · rw [Function.update_of_ne (Ne.symm nonRoot)]
    exact threads.rootActive

end Threads

section Queue

theorem QueueSound.push (queued : QueueSound config state queue) (bounds : InRange config h) :
    QueueSound config (Function.update state h .ready) (queue ++ [h]) := by
  constructor
  · intro entry member
    rcases List.mem_append.mp member with earlier | isLast
    · exact queued.inRange entry earlier
    · exact List.mem_singleton.mp isLast ▸ bounds
  · intro g ready
    by_cases same : g = h
    · exact List.mem_append_right _ (List.mem_singleton.mpr same)
    · rw [Function.update_of_ne same] at ready
      exact List.mem_append_left _ (queued.readyQueued g ready)

/-- A thread that does not become ready needs no entry. -/
theorem QueueSound.set (queued : QueueSound config state queue) (notReady : value ≠ .ready) :
    QueueSound config (Function.update state h value) queue := by
  refine ⟨queued.inRange, fun g ready => ?_⟩
  by_cases same : g = h
  · rw [same, Function.update_self] at ready
    exact absurd ready notReady
  · rw [Function.update_of_ne same] at ready
    exact queued.readyQueued g ready

/-- The entries the scheduler drops are those of threads that are not ready. -/
theorem QueueSound.picked (queued : QueueSound config state queue) {chosen : Int} {rest : List Int}
    (picks : Picks state queue chosen rest) :
    QueueSound config (Function.update state chosen .running) rest := by
  cases picks with
  | @entry skipped _ _ stale _ =>
    refine ⟨fun entry member => queued.inRange entry (by simp [member]), fun g ready => ?_⟩
    by_cases same : g = chosen
    · rw [same, Function.update_self] at ready
      cases ready
    rw [Function.update_of_ne same] at ready
    rcases List.mem_append.mp (queued.readyQueued g ready) with dropped | later
    · exact absurd ready (stale g dropped).2
    · exact (List.mem_cons.mp later).resolve_left same
  | fallback stale =>
    refine ⟨by simp, fun g ready => ?_⟩
    by_cases same : g = 0
    · rw [same, Function.update_self] at ready
      cases ready
    · rw [Function.update_of_ne same] at ready
      exact absurd ready (stale g (queued.readyQueued g ready)).2

/-- What the scheduler chooses is an index, and the root or ready. -/
theorem QueueSound.chosen (queued : QueueSound config state queue) {chosen : Int}
    {rest : List Int} (picks : Picks state queue chosen rest) :
    InRange config chosen ∧ (chosen = 0 ∨ state chosen = .ready) := by
  cases picks with
  | entry _ dispatchable => exact ⟨queued.inRange chosen (by simp), dispatchable⟩
  | fallback =>
    have := config.atLeastTwo
    exact ⟨⟨by omega, by omega⟩, .inl rfl⟩

theorem QueueSound.picks (queued : QueueSound config state queue) :
    Picks state queue (orRoot (pick state queue).1) (pick state queue).2 :=
  picks_pick state fun entry member => (queued.inRange entry member).1

end Queue

section Free

/-- A state change between active states. -/
theorem FreeSound.set (freed : FreeSound config state free) (active : state h ≠ .notActive)
    (kept : value ≠ .notActive) : FreeSound config (Function.update state h value) free := by
  refine ⟨freed.nodup, fun g => ?_⟩
  rw [freed.exact g]
  by_cases same : g = h
  · subst same
    simp [active, kept]
  · rw [Function.update_of_ne same]

theorem FreeSound.release (freed : FreeSound config state free) (active : state h ≠ .notActive)
    (positive : 0 < h) (below : h < config.maxCothreads) :
    FreeSound config (Function.update state h .notActive) (free ++ [h]) := by
  constructor
  · have absent : h ∉ free := fun member => active ((freed.exact h).mp member).2.2
    exact List.nodup_append.mpr ⟨freed.nodup, List.nodup_singleton h,
      fun g member other isOther same => absent (List.mem_singleton.mp isOther ▸ same ▸ member)⟩
  · intro g
    rw [List.mem_append, List.mem_singleton, freed.exact g]
    by_cases same : g = h
    · subst same
      simp [positive, below]
    · simp [same]

theorem FreeSound.take {rest : List Int} (freed : FreeSound config state (h :: rest))
    (kept : value ≠ .notActive) : FreeSound config (Function.update state h value) rest := by
  obtain ⟨absent, distinct⟩ := List.nodup_cons.mp freed.nodup
  refine ⟨distinct, fun g => ?_⟩
  by_cases same : g = h
  · subst same
    simp [absent, kept]
  · have exact := freed.exact g
    rw [List.mem_cons, or_iff_right same] at exact
    rw [exact, Function.update_of_ne same]

/-- The free handles never fill the ring: the root is not among them. -/
theorem FreeSound.length_lt (freed : FreeSound config state free) :
    free.length < config.maxCothreads := by
  have := config.atLeastTwo
  have root : InRange config 0 := ⟨by omega, by omega⟩
  refine length_lt_of_missing freed.nodup (fun h member => ?_) root fun member => ?_
  · obtain ⟨positive, below, -⟩ := (freed.exact h).mp member
    exact ⟨positive.le, below⟩
  · have positive := ((freed.exact 0).mp member).1
    omega

end Free

end Libmicrokitco.Sched
