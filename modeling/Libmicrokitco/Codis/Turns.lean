import Libmicrokitco.Sched.Runs

/-!
# Cothreads that serve a channel each

Cothread `c + 1` does nothing but wait on channel `c`. Read off the scheduling
lists, the threads that are not waiting take turns in the order of the queue; a
wait passes the turn on, and a signal takes a waiter off its list and back.
-/

namespace Libmicrokitco.Codis

open Sched

/-- The cothread that serves channel `c`. -/
def servant (c : Fin 3) : Int := (c : Nat) + 1

/-- The threads in `turns` run in this order, and the other cothreads in
`waiting` wait for their channels. -/
structure Manned (turns : List Int) (waiting : Fin 3 → Bool) (sched : Sched) : Prop where
  order : sched.running :: sched.queue = turns
  nodup : turns.Nodup
  dispatchable : ∀ h ∈ sched.queue, h = 0 ∨ sched.state h = .ready
  sems : ∀ c : Fin 3, sched.sem (.channel c) =
    if waiting c then ⟨false, servant c, servant c⟩ else ⟨false, nullHandle, nullHandle⟩
  asleep : ∀ c, waiting c = true → sched.state (servant c) = .blocked
  unlinked : ∀ c, waiting c = true ∨ servant c ∈ turns → sched.link (servant c) = nullHandle

/-- The same while no thread executes, with `turns` still queued. -/
structure Paused (turns : List Int) (waiting : Fin 3 → Bool) (sched : Sched) : Prop where
  order : sched.queue = turns
  nodup : turns.Nodup
  dispatchable : ∀ h ∈ turns, h = 0 ∨ sched.state h = .ready
  sems : ∀ c : Fin 3, sched.sem (.channel c) =
    if waiting c then ⟨false, servant c, servant c⟩ else ⟨false, nullHandle, nullHandle⟩
  asleep : ∀ c, waiting c = true → sched.state (servant c) = .blocked
  unlinked : ∀ c, waiting c = true ∨ servant c ∈ turns → sched.link (servant c) = nullHandle

variable {config : Config} {sched : Sched} {turns rest : List Int} {waiting : Fin 3 → Bool}
  {c d : Fin 3} {g h : Int}

theorem servant_pos (c : Fin 3) : 0 < servant c := by
  unfold servant
  omega

theorem servant_injective : Function.Injective servant := by
  intro c d same
  apply Fin.ext
  unfold servant at same
  omega

theorem channel_ne (different : d ≠ c) : SemRef.channel d ≠ .channel c :=
  fun same => different (Fin.ext (SemRef.channel.inj same))

theorem orRoot_of_nonneg (nonneg : 0 ≤ h) : orRoot h = h :=
  if_neg (by
    change ¬ h = -1
    omega)

/-- The scheduler takes the first entry of the queue if it can. -/
theorem gone_of_dispatchable {point : SwitchPoint} (queued : sched.queue = g :: rest)
    (dispatchable : g = 0 ∨ sched.state g = .ready) (nonneg : 0 ≤ g) :
    sched.gone point = switched point g { sched with queue := rest } := by
  rw [Sched.gone, queued, pick, if_pos dispatchable, orRoot_of_nonneg nonneg]

/-- The scheduler gives the turn to the first thread. -/
theorem Paused.gone {point : SwitchPoint} (paused : Paused (g :: rest) waiting sched)
    (nonneg : 0 ≤ g) : Manned (g :: rest) waiting (sched.gone point) := by
  have choice := paused.dispatchable g List.mem_cons_self
  rw [gone_of_dispatchable paused.order choice nonneg]
  refine ⟨rfl, paused.nodup, fun h member => ?_, paused.sems, fun d sleeps => ?_, paused.unlinked⟩
  · have notNext : h ≠ g := fun same => (List.nodup_cons.mp paused.nodup).1 (same ▸ member)
    change h = 0 ∨ Function.update sched.state g .running h = .ready
    rw [Function.update_of_ne notNext]
    exact paused.dispatchable h (List.mem_cons_of_mem _ member)
  · have asleep := paused.asleep d sleeps
    have notNext : servant d ≠ g := by
      rintro rfl
      rcases choice with isRoot | ready
      · exact (servant_pos d).ne' isRoot
      · rw [ready] at asleep
        cases asleep
    change Function.update sched.state g .running (servant d) = .blocked
    rw [Function.update_of_ne notNext]
    exact asleep

namespace Manned

theorem running (manned : Manned (h :: rest) waiting sched) : sched.running = h :=
  (List.cons.inj manned.order).1

theorem queue (manned : Manned (h :: rest) waiting sched) : sched.queue = rest :=
  (List.cons.inj manned.order).2

/-- A servant that waits passes its turn on. -/
theorem wait (manned : Manned (servant c :: g :: rest) waiting sched)
    (sound : Sound config (some sched.running) sched) (contexts : ContextsSound config sched)
    (live : c < config.maxChannels) (away : waiting c = false) :
    ∃ next, sched.wait (.channel c) = .ok next ∧
      Manned (g :: rest) (Function.update waiting c true) next ∧ next.memory = sched.memory ∧
      next.privateArg = sched.privateArg := by
  have running := manned.running
  have queued := manned.queue
  have sem : sched.sem (.channel c) = ⟨false, nullHandle, nullHandle⟩ := by
    rw [manned.sems, if_neg (by simp [away])]
  obtain ⟨fresh, distinct⟩ := List.nodup_cons.mp manned.nodup
  have nonneg : 0 ≤ g := (sound.queue.inRange g (queued ▸ List.mem_cons_self)).1
  have state : (sched.blockedOn (.channel c)).state =
      Function.update sched.state (servant c) .blocked := by
    rw [← running]
    rfl
  have paused : Paused (g :: rest) (Function.update waiting c true)
      (sched.blockedOn (.channel c)) := by
    refine ⟨queued, distinct, fun h member => ?_, fun d => ?_, fun d sleeps => ?_,
      fun d present => ?_⟩
    · have notCaller : h ≠ servant c := fun same => fresh (same ▸ member)
      rw [state, Function.update_of_ne notCaller]
      exact manned.dispatchable h (queued ▸ member)
    · by_cases same : d = c
      · subst same
        simp [Sched.blockedOn, sem, running]
      · simp only [Sched.blockedOn, Function.update_of_ne (channel_ne same), Function.update_of_ne same]
        exact manned.sems d
    · by_cases same : d = c
      · subst same
        rw [state, Function.update_self]
      · rw [Function.update_of_ne same] at sleeps
        rw [state, Function.update_of_ne (servant_injective.ne same)]
        exact manned.asleep d sleeps
    · have links : (sched.blockedOn (.channel c)).link = sched.link := if_pos (by rw [sem])
      rw [links]
      apply manned.unlinked
      by_cases same : d = c
      · exact .inr (same ▸ List.mem_cons_self)
      · rw [Function.update_of_ne same] at present
        exact present.imp id (List.mem_cons_of_mem _)
  refine ⟨_, wait_ok sound contexts live, ?_⟩
  rw [if_neg (by rw [sem]; simp)]
  exact ⟨paused.gone nonneg, rfl, rfl⟩

/-- A signal of the root gives the turn to the servant and queues the root. -/
theorem signal (manned : Manned [0] waiting sched)
    (sound : Sound config (some sched.running) sched) (contexts : ContextsSound config sched)
    (live : c < config.maxChannels) (asleep : waiting c = true) :
    ∃ next, sched.signal config (.channel c) = .ok next ∧
      Manned [servant c, 0] (Function.update waiting c false) next ∧ next.memory = sched.memory ∧
      next.privateArg = sched.privateArg := by
  have running := manned.running
  have queued := manned.queue
  have positive := servant_pos c
  have sem : sched.sem (.channel c) = ⟨false, servant c, servant c⟩ := by
    rw [manned.sems, if_pos asleep]
  have link := manned.unlinked c (.inl asleep)
  have several := config.atLeastTwo
  have nonNull : servant c ≠ nullHandle := positive_ne_nullHandle positive
  have isLive : sched.live config (.channel c) := live
  have signalled := signal_ok sound contexts isLive fun _ _ => by
    rw [queued, List.length_nil]
    omega
  rw [if_neg (by rw [sem]; simp), if_neg (by rw [sem]; exact nonNull)] at signalled
  have state : (sched.handed (.channel c)).state =
      Function.update (Function.update sched.state 0 .ready) (servant c) .running := by
    simp [Sched.handed, Sched.switched, Sched.unlinked, Sched.requeued, sem, running]
  have links : (sched.handed (.channel c)).link =
      Function.update sched.link (servant c) nullHandle := by
    simp [Sched.handed, Sched.switched, Sched.unlinked, Sched.requeued, sem]
  have sems : (sched.handed (.channel c)).sem =
      Function.update sched.sem (.channel c) ⟨false, nullHandle, nullHandle⟩ := by
    simp [Sched.handed, Sched.switched, Sched.unlinked, Sched.requeued, sem, link,
      microkitCothreadSemaphoreInit]
  refine ⟨_, signalled, ?_, rfl, rfl⟩
  refine ⟨?_, by simp [positive.ne'], fun h member => .inl ?_, fun d => ?_, fun d sleeps => ?_,
    fun d present => ?_⟩
  · simp [Sched.handed, Sched.switched, Sched.unlinked, Sched.requeued, sem, running, queued]
  · simpa [Sched.handed, Sched.switched, Sched.unlinked, Sched.requeued, running, queued] using member
  · rw [sems]
    by_cases same : d = c
    · subst same
      simp
    · rw [Function.update_of_ne (channel_ne same), Function.update_of_ne same]
      exact manned.sems d
  · have different : d ≠ c := by
      rintro rfl
      rw [Function.update_self] at sleeps
      cases sleeps
    rw [Function.update_of_ne different] at sleeps
    rw [state, Function.update_of_ne (servant_injective.ne different),
      Function.update_of_ne (servant_pos d).ne']
    exact manned.asleep d sleeps
  · rw [links]
    by_cases same : d = c
    · rw [same, Function.update_self]
    · rw [Function.update_of_ne (servant_injective.ne same)]
      apply manned.unlinked
      rw [Function.update_of_ne same] at present
      refine present.imp id fun member => ?_
      have either := List.mem_pair.mp member
      exact absurd either (not_or.mpr ⟨servant_injective.ne same, (servant_pos d).ne'⟩)

/-- Before the first turns: the root spawns a servant. -/
theorem spawn (manned : Manned (0 :: rest) (fun _ => false) sched)
    (sound : Sound config (some sched.running) sched) {clientEntry : Address} {new : Int}
    {free : List Int} (nonNull : clientEntry ≠ 0#64) (privateArg : Address)
    (isFree : sched.free = new :: free) (room : rest.length ≠ config.maxCothreads) :
    ∃ next, sched.spawn config clientEntry privateArg = .ok (new, next) ∧
      Manned (0 :: (rest ++ [new])) (fun _ => false) next ∧ next.free = free ∧
      next.privateArg = Function.update sched.privateArg new privateArg := by
  have running := manned.running
  have queued := manned.queue
  have inactive := (sound.free.exact new).mp (isFree ▸ List.mem_cons_self)
  have absent : new ∉ rest := by
    intro member
    rcases manned.dispatchable new (queued ▸ member) with isRoot | ready
    · omega
    · rw [inactive.2.2] at ready
      cases ready
  refine ⟨sched.spawned config clientEntry privateArg new free, ?_, ?_, rfl, rfl⟩
  · rw [Sched.spawn, if_neg nonNull, isFree]
    simp only
    rw [if_neg (by rw [queued]; exact room)]
  · obtain ⟨fresh, distinct⟩ := List.nodup_cons.mp manned.nodup
    refine ⟨?_, ?_, fun h member => ?_, manned.sems, fun d sleeps => ?_, fun d present => ?_⟩
    · simp [Sched.spawned, running, queued]
    · refine List.nodup_cons.mpr ⟨fun member => ?_, ?_⟩
      · rcases List.mem_append.mp member with before | isNew
        · exact fresh before
        · exact inactive.1.ne (List.mem_singleton.mp isNew)
      · apply distinct.append (List.nodup_singleton new)
        rintro h before isNew
        exact absent (List.mem_singleton.mp isNew ▸ before)
    · change h ∈ sched.queue ++ [new] at member
      change h = 0 ∨ Function.update sched.state new .ready h = .ready
      by_cases same : h = new
      · exact .inr (by rw [same, Function.update_self])
      · rw [Function.update_of_ne same]
        exact manned.dispatchable h ((List.mem_append.mp member).resolve_right (by simpa using same))
    · cases sleeps
    · change Function.update sched.link new nullHandle (servant d) = nullHandle
      by_cases same : servant d = new
      · rw [same, Function.update_self]
      · rw [Function.update_of_ne same]
        apply manned.unlinked
        refine present.imp id fun member => ?_
        rw [List.mem_cons, List.mem_append, List.mem_singleton, or_comm (a := servant d ∈ rest)] at member
        exact List.mem_cons.mpr (member.imp id fun either => either.resolve_left same)

/-- The root yields to the first servant. -/
theorem yield (manned : Manned (0 :: g :: rest) waiting sched)
    (sound : Sound config (some sched.running) sched) (contexts : ContextsSound config sched)
    (room : rest.length + 1 ≠ config.maxCothreads) :
    ∃ next, sched.yield config = .ok next ∧ Manned (g :: (rest ++ [0])) waiting next ∧
      next.memory = sched.memory ∧ next.privateArg = sched.privateArg := by
  have running := manned.running
  have queued := manned.queue
  obtain ⟨fresh, distinct⟩ := List.nodup_cons.mp manned.nodup
  have nonneg : 0 ≤ g := (sound.queue.inRange g (queued ▸ List.mem_cons_self)).1
  have state : sched.requeued.state = Function.update sched.state 0 .ready := by
    rw [← running]
    rfl
  have paused : Paused (g :: (rest ++ [0])) waiting sched.requeued := by
    refine ⟨by simp [Sched.requeued, queued, running], ?_, fun h member => ?_, manned.sems,
      fun d sleeps => ?_, fun d present => ?_⟩
    · rw [← List.cons_append, List.nodup_append_comm]
      exact List.nodup_cons.mpr ⟨fresh, distinct⟩
    · by_cases isRoot : h = 0
      · exact .inl isRoot
      · rw [state, Function.update_of_ne isRoot]
        rw [← List.cons_append, List.mem_append] at member
        exact manned.dispatchable h (queued ▸ member.resolve_right (by simpa using isRoot))
    · rw [state, Function.update_of_ne (servant_pos d).ne']
      exact manned.asleep d sleeps
    · apply manned.unlinked
      refine present.imp id fun member => ?_
      rw [← List.cons_append, List.mem_append] at member
      refine List.mem_cons_of_mem _ (member.resolve_right ?_)
      simpa using (servant_pos d).ne'
  refine ⟨_, yield_ok sound contexts (by rwa [queued]), ?_⟩
  exact ⟨paused.gone nonneg, rfl, rfl⟩

end Manned

end Libmicrokitco.Codis
