import Libmicrokitco.Sched.Slots

/-!
# What every run keeps

`Sound` holds in every run that destroys neither the root nor a blocked
cothread. It survives even a root that waits; the stronger invariant of runs in
which the wait lists stay lists is in `Sched.Waiting`.
-/

namespace Libmicrokitco.Sched

/-- `executing` is the thread whose state is running; a thread that has just
blocked, queued or released itself is still `running` and no longer executing. -/
structure Sound (config : Config) (executing : Option Int) (sched : Sched) : Prop where
  running : InRange config sched.running
  threads : ThreadsSound config executing sched.state
  queue : QueueSound config sched.state sched.queue
  free : FreeSound config sched.state sched.free
  slots : SlotsSound config sched

variable {config : Config} {sched next : Sched} {executing : Option Int} {call : Call}
  {answer : Answer} {point : SwitchPoint} {sem : SemRef} {h : Int}

namespace Sound

theorem executingRunning (sound : Sound config (some sched.running) sched) :
    sched.state sched.running = .running :=
  (sound.threads.executing sched.running).mpr rfl

/-- A thread that is ready stays ready when the caller stops. -/
theorem ready_of_stop (sound : Sound config (some sched.running) sched) (value : CoState)
    (supplied : ∃ h, sched.state h = .ready) :
    ∃ h, Function.update sched.state sched.running value h = .ready := by
  obtain ⟨h, ready⟩ := supplied
  have other : h ≠ sched.running := by
    rintro rfl
    rw [sound.executingRunning] at ready
    cases ready
  exact ⟨h, by rw [Function.update_of_ne other]; exact ready⟩

theorem blocked_ne_running (sound : Sound config (some sched.running) sched)
    (blocked : sched.state h = .blocked) : h ≠ sched.running := by
  rintro rfl
  rw [sound.executingRunning] at blocked
  cases blocked

theorem unnamed (sound : Sound config executing sched) (unblocked : sched.state h ≠ .blocked)
    (slot : Slot) (used : sched.Used config slot) (positive : 0 < sched.slot slot) :
    sched.slot slot ≠ h := by
  intro names
  exact sound.slots.slot_ne used (names ▸ positive) unblocked names

theorem requeued (sound : Sound config (some sched.running) sched) :
    Sound config none sched.requeued where
  running := sound.running
  threads := sound.threads.stop (by simp) (by simp)
  queue := sound.queue.push sound.running
  free := sound.free.set (by rw [sound.executingRunning]; simp) (by simp)
  slots := sound.slots.of_state rfl rfl rfl rfl
    (sound.unnamed (by rw [sound.executingRunning]; simp))

theorem blockedOn (sound : Sound config (some sched.running) sched)
    (live : sched.live config sem) : Sound config none (sched.blockedOn sem) where
  running := sound.running
  threads := sound.threads.stop (by simp) (by simp)
  queue := sound.queue.set (by simp)
  free := sound.free.set (by rw [sound.executingRunning]; simp) (by simp)
  slots := sound.slots.blockedOn live sound.executingRunning sound.running

theorem releasedSelf (sound : Sound config (some sched.running) sched)
    (nonRoot : sched.running ≠ 0) : Sound config none (sched.released sched.running) where
  running := sound.running
  threads := sound.threads.stop (by simp) (by simp [nonRoot])
  queue := sound.queue.set (by simp)
  free := sound.free.release (by rw [sound.executingRunning]; simp)
    (by have := sound.running.1; omega) sound.running.2
  slots := sound.slots.of_state rfl rfl rfl rfl
    (sound.unnamed (by rw [sound.executingRunning]; simp))

theorem releasedOther (sound : Sound config (some sched.running) sched)
    (bounds : InRange config h) (active : sched.state h ≠ .notActive)
    (unblocked : sched.state h ≠ .blocked) (other : h ≠ sched.running) (nonRoot : h ≠ 0) :
    Sound config (some sched.running) (sched.released h) where
  running := sound.running
  threads := by
    refine sound.threads.set ?_ (by simp) bounds nonRoot
    rw [ne_eq, sound.threads.executing]
    simpa using other.symm
  queue := sound.queue.set (by simp)
  free := sound.free.release active (by have := bounds.1; omega) bounds.2
  slots := sound.slots.of_state rfl rfl rfl rfl (sound.unnamed unblocked)

theorem unlinked (sound : Sound config executing sched) (live : sched.live config sem)
    (nonempty : (sched.sem sem).head ≠ nullHandle) :
    Sound config executing (sched.unlinked sem) ∧
      ∀ slot, sched.Used config slot → 0 < (sched.unlinked sem).slot slot →
        (sched.unlinked sem).slot slot ≠ (sched.sem sem).head := by
  have bounds := sound.slots.head_inRange sound.threads live nonempty
  obtain ⟨slots, unnamed⟩ := sound.slots.unlinked live nonempty bounds
  exact ⟨⟨sound.running, sound.threads, sound.queue, sound.free, slots⟩, unnamed⟩

/-- An active thread that no slot names starts executing. -/
theorem switched (sound : Sound config none sched) (active : sched.state h ≠ .notActive)
    (unnamed : ∀ slot, sched.Used config slot → 0 < sched.slot slot → sched.slot slot ≠ h) :
    Sound config (some h) (sched.switched point h) where
  running := sound.threads.inRange h active
  threads := sound.threads.start (sound.threads.inRange h active)
  queue := sound.queue.set (by simp)
  free := sound.free.set active (by simp)
  slots := sound.slots.of_state rfl rfl rfl rfl unnamed

/-- The scheduler chooses an active thread. -/
theorem gone_active (sound : Sound config executing sched) :
    sched.state (sched.gone point).running ≠ .notActive := by
  obtain ⟨-, dispatchable⟩ := sound.queue.chosen sound.queue.picks
  rcases dispatchable with isRoot | ready
  · change sched.state (orRoot (pick sched.state sched.queue).1) ≠ _
    rw [isRoot]
    exact sound.threads.rootActive
  · change sched.state (orRoot (pick sched.state sched.queue).1) ≠ _
    rw [ready]
    simp

/-- The scheduler leaves its choice executing. -/
theorem gone (sound : Sound config none sched) :
    Sound config (some (sched.gone point).running) (sched.gone point) := by
  have picks := sound.queue.picks
  obtain ⟨bounds, dispatchable⟩ := sound.queue.chosen picks
  have active : sched.state (sched.gone point).running ≠ .notActive := sound.gone_active
  refine ⟨bounds, sound.threads.start bounds, sound.queue.picked picks,
    sound.free.set active (by simp), sound.slots.of_state rfl rfl rfl rfl ?_⟩
  intro slot used positive
  rcases dispatchable with isRoot | ready
  · rw [isRoot]
    omega
  · exact sound.unnamed (by rw [ready]; simp) slot used positive

/-- The first waiter of a nonempty wait list is active. -/
theorem head_active (sound : Sound config (some sched.running) sched)
    (live : sched.live config sem) (nonempty : (sched.sem sem).head ≠ nullHandle) :
    sched.requeued.state (sched.sem sem).head ≠ .notActive := by
  change Function.update sched.state sched.running .ready (sched.sem sem).head ≠ .notActive
  by_cases caller : (sched.sem sem).head = sched.running
  · rw [caller, Function.update_self]
    simp
  rw [Function.update_of_ne caller]
  rcases sound.slots.target (.head sem) live with isNull | isRoot | ⟨-, blocked⟩
  · exact absurd isNull nonempty
  · rw [show (sched.sem sem).head = 0 from isRoot]
    exact sound.threads.rootActive
  · rw [show sched.state (sched.sem sem).head = _ from blocked]
    simp

theorem handed (sound : Sound config (some sched.running) sched) (live : sched.live config sem)
    (nonempty : (sched.sem sem).head ≠ nullHandle) :
    Sound config (some (sched.handed sem).running) (sched.handed sem) := by
  have queuedLive : sched.requeued.live config sem := live
  obtain ⟨between, unnamed⟩ := sound.requeued.unlinked queuedLive nonempty
  exact between.switched (sound.head_active live nonempty) unnamed

theorem spawned {clientEntry privateArg : Address} {rest : List Int}
    (sound : Sound config (some sched.running) sched) (taken : sched.free = h :: rest) :
    Sound config (some sched.running) (sched.spawned config clientEntry privateArg h rest) := by
  have freed := sound.free
  rw [taken] at freed
  obtain ⟨positive, below, inactive⟩ := (freed.exact h).mp List.mem_cons_self
  have bounds : InRange config h := ⟨positive.le, below⟩
  refine ⟨sound.running, sound.threads.set (by rw [inactive]; simp) (by simp) bounds (by omega),
    sound.queue.push bounds, freed.take (by simp), sound.slots.shrink ?_ ?_ sound.slots.tail⟩
  · intro slot used
    cases slot with
    | head sem => exact .inr ⟨used, rfl⟩
    | link g =>
      by_cases same : g = h
      · subst same
        exact .inl (Function.update_self ..)
      · exact .inr ⟨used, Function.update_of_ne same ..⟩
  · intro slot used namedPositive blocked
    have different := sound.unnamed (by rw [inactive]; simp) slot used namedPositive
    change Function.update sched.state h .ready _ = _
    rw [Function.update_of_ne different]
    exact blocked

theorem flagged {set : Bool} (sound : Sound config executing sched) :
    Sound config executing (sched.flagged sem set) := by
  refine ⟨sound.running, sound.threads, sound.queue, sound.free, sound.slots.shrink ?_ ?_ ?_⟩
  · intro slot used
    refine .inr ⟨by cases slot <;> exact used, ?_⟩
    rw [Sched.flagged, slot_setSem]
    split
    · rename_i same
      rw [same]
      rfl
    · rfl
  · intro slot _ _ blocked
    exact blocked
  · intro other live nonempty
    by_cases same : other = sem
    · subst same
      simp only [Sched.flagged, setSem, Function.update_self] at nonempty ⊢
      exact sound.slots.tail other (by cases other <;> exact live) nonempty
    · simp only [Sched.flagged, setSem, Function.update_of_ne same] at nonempty ⊢
      exact sound.slots.tail other (by cases other <;> exact live) nonempty

theorem semaphoreInitialised {id : Nat} (sound : Sound config executing sched) :
    Sound config executing (sched.semaphoreInitialised id) := by
  refine ⟨sound.running, sound.threads, sound.queue, sound.free, sound.slots.shrink ?_ ?_ ?_⟩
  · intro slot used
    cases slot with
    | link h => exact .inr ⟨used, rfl⟩
    | head sem =>
      by_cases same : sem = .client id
      · subst same
        exact .inl (by simp [Sched.slot, Sched.semaphoreInitialised, setSem,
          microkitCothreadSemaphoreInit])
      · refine .inr ⟨live_before same used, ?_⟩
        simp [Sched.slot, Sched.semaphoreInitialised, setSem, same]
  · intro slot _ _ blocked
    exact blocked
  · intro sem live nonempty
    by_cases same : sem = .client id
    · subst same
      simp [Sched.semaphoreInitialised, setSem, microkitCothreadSemaphoreInit] at nonempty
    · simp only [Sched.semaphoreInitialised, setSem, Function.update_of_ne same] at nonempty ⊢
      exact sound.slots.tail sem (live_before same live) nonempty

theorem argued {privateArg : Address} (sound : Sound config executing sched) :
    Sound config executing (sched.argued h privateArg) :=
  ⟨sound.running, sound.threads, sound.queue, sound.free,
    ⟨sound.slots.target, sound.slots.unique, sound.slots.tail⟩⟩

/-- Every call that destroys neither the root nor a blocked cothread keeps `Sound`. -/
theorem effect (sound : Sound config (some sched.running) sched)
    (sparesRoot : call ≠ .destroy 0)
    (sparesBlocked : ∀ cothread, cothread ≠ 0 → call = .destroy cothread →
      sched.state cothread ≠ .blocked)
    (effect : Effect config sched call answer next) :
    Sound config (some next.running) next := by
  cases effect with
  | queried | peeked | exhausted | ignored => exact sound
  | argued => exact sound.argued
  | spawned _ taken => exact sound.spawned taken
  | initialised => exact sound.semaphoreInitialised
  | consumed | raised => exact sound.flagged
  | blocked _ live => exact (sound.blockedOn live).gone
  | handedOver _ live _ nonempty => exact sound.handed live nonempty
  | yielded => exact sound.requeued.gone
  | @destroyed cothread nonneg below active _ other =>
    have nonRoot : cothread ≠ 0 := fun isRoot => sparesRoot (isRoot ▸ rfl)
    exact sound.releasedOther ⟨nonneg, below⟩ active (sparesBlocked cothread nonRoot rfl) other
      nonRoot
  | exited _ _ _ _ fromCothread => exact (sound.releasedSelf fromCothread).gone

/-- The thread that runs after a call was active before it. -/
theorem running_active (sound : Sound config (some sched.running) sched)
    (effect : Effect config sched call answer next) : sched.state next.running ≠ .notActive := by
  have running : sched.state sched.running ≠ .notActive := by
    rw [sound.executingRunning]
    simp
  have stopped : ∀ {value : CoState} {h : Int},
      Function.update sched.state sched.running value h ≠ .notActive →
        sched.state h ≠ .notActive := by
    intro value h active
    by_cases caller : h = sched.running
    · exact caller ▸ running
    · rwa [Function.update_of_ne caller] at active
  cases effect with
  | queried | peeked | argued | exhausted | spawned | initialised | consumed | ignored | raised
  | destroyed => exact running
  | blocked _ live => exact stopped (sound.blockedOn live).gone_active
  | handedOver _ live _ nonempty => exact stopped (sound.head_active live nonempty)
  | yielded => exact stopped sound.requeued.gone_active
  | exited _ _ _ _ fromCothread => exact stopped (sound.releasedSelf fromCothread).gone_active

end Sound

/-- An inactive handle stays inactive until a spawn answers it. -/
theorem Effect.inactive (effect : Effect config sched call answer next)
    (sound : Sound config (some sched.running) sched) (inactive : sched.state h = .notActive)
    (unspawned : call.spawns answer ≠ some h) :
    next.state h = .notActive := by
  have notRunning : h ≠ sched.running := by
    rintro rfl
    rw [sound.executingRunning] at inactive
    cases inactive
  cases effect.stateChange h with
  | kept same => exact same.trans inactive
  | dispatched chosen => exact absurd (chosen ▸ inactive) (sound.running_active effect)
  | queued caller | blocked caller => exact absurd caller notRunning
  | destroyed _ now => exact now
  | spawned isSpawn free answered =>
    have isHandle := positive_ne_nullHandle ((sound.free.exact h).mp free).1
    exact absurd (Call.spawns_eq_some.mpr ⟨⟨_, _, isSpawn⟩, answered, isHandle⟩) unspawned

/-- Only a spawn makes a handle active. -/
theorem Effect.active_before (effect : Effect config sched call answer next)
    (sound : Sound config (some sched.running) sched) (active : next.state h ≠ .notActive) :
    sched.state h ≠ .notActive ∨ call.spawns answer = some h := by
  by_contra neither
  rw [not_or, not_not] at neither
  exact active (effect.inactive sound neither.1 neither.2)

/-- What initialisation establishes. -/
theorem Initial.sound (initial : sched.Initial config) :
    Sound config (some sched.running) sched := by
  have := config.atLeastTwo
  have root : InRange config 0 := ⟨by omega, by omega⟩
  constructor
  case running =>
    rw [initial.running]
    exact root
  case threads =>
    refine ⟨fun h => ?_, fun h active => ?_, ?_⟩
    · rw [initial.state, initial.running]
      split
      · rename_i isRoot
        simp [isRoot]
      · rename_i other
        simp [Ne.symm other]
    · rw [initial.state] at active
      split at active
      · rename_i isRoot
        rw [isRoot]
        exact root
      · simp at active
    · rw [initial.state]
      simp
  case queue =>
    rw [initial.queue]
    refine ⟨by simp, fun h ready => ?_⟩
    rw [initial.state] at ready
    split at ready <;> simp at ready
  case free =>
    rw [initial.free]
    constructor
    · exact List.Nodup.map (fun i j same => by exact_mod_cast same) List.nodup_range'
    · intro h
      rw [initial.state, mem_spawnableHandles]
      constructor
      · rintro ⟨positive, below⟩
        exact ⟨positive, below, if_neg (by omega)⟩
      · rintro ⟨positive, below, -⟩
        exact ⟨positive, below⟩
  case slots =>
    have target : ∀ slot, sched.Used config slot →
        sched.slot slot = nullHandle ∨ sched.slot slot = 0 := by
      intro slot used
      cases slot with
      | head sem =>
        refine .inl ?_
        change (sched.sem sem).head = _
        rw [initial.sem_of_live used]
      | link h =>
        change sched.link h = _ ∨ sched.link h = _
        rw [initial.link]
        split
        · exact .inl rfl
        · exact .inr rfl
    refine ⟨fun slot used => (target slot used).elim .inl (.inr ∘ .inl), ?_, ?_⟩
    · intro slot _ used _ positive
      rcases target slot used with isNull | isRoot
      · exact absurd isNull (positive_ne_nullHandle positive)
      · omega
    · intro sem live nonempty
      rw [initial.sem_of_live live] at nonempty
      exact absurd rfl nonempty
end Libmicrokitco.Sched
