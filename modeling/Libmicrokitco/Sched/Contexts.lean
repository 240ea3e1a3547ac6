import Libmicrokitco.Sched.Sound

/-!
# What a switch resumes

libco knows threads by their handles only. `ContextsSound` ties the handles in
the TCBs to disjoint stacks, and the contexts behind them to calls which return
to their client, so that no dispatch ends in the panic behind a self-destruction.
-/

namespace Libmicrokitco

/-- A suspended call that returns to its client. -/
def SwitchPoint.Returns : SwitchPoint → Prop
  | .yield | .semaphoreWait | .semaphoreSignal => True
  | .selfDestroy | .entryReturn => False

/-- The context of a thread that may be dispatched. -/
def Context.Awaiting : Context → Prop
  | .unset => False
  | .derived _ => True
  | .suspended _ point => point.Returns

theorem Context.Awaiting.resumable {context : Context} (awaiting : context.Awaiting) :
    context.Resumable := by
  rintro incarnation rfl
  exact awaiting

namespace Sched

/-- The handle `co_derive` makes for the stack of `h`. -/
def stackHandle (config : Config) (sched : Sched) (h : Int) : CothreadT :=
  .stack (sched.localStorage h + config.backend.handleOffset sched.coStackSize)

structure ContextsSound (config : Config) (sched : Sched) : Prop where
  active : sched.libco.coActiveHandle = sched.coHandle sched.running
  root : sched.coHandle 0 = .rootBuffer
  sited : ∀ h, 0 < h → sched.state h ≠ .notActive ∨ h = sched.running →
    sched.coHandle h = sched.stackHandle config h
  storage : ∀ g h : Int, 0 < g → g < config.maxCothreads → 0 < h → h < config.maxCothreads →
    sched.localStorage g = sched.localStorage h → g = h
  awaiting : ∀ h, sched.state h ≠ .notActive → h ≠ sched.running →
    (sched.libco.contexts (sched.coHandle h)).Awaiting

variable {config : Config} {sched next : Sched} {executing : Option Int} {call : Call}
  {answer : Answer} {point : SwitchPoint} {sem : SemRef} {g h : Int}

section Derive

variable {clientEntry privateArg : Address} {rest : List Int}

/-- A spawn derives a context for the handle of its stack. -/
theorem spawned_libco : (sched.spawned config clientEntry privateArg h rest).libco =
    sched.libco.coDerive (sched.stackHandle config h) := by
  change sched.libco.coDerive (.stack _) = _
  rw [config.backend.handleEq, stackHandle]

theorem spawned_coHandle : (sched.spawned config clientEntry privateArg h rest).coHandle =
    Function.update sched.coHandle h (sched.stackHandle config h) := by
  change Function.update sched.coHandle h (.stack _) = _
  rw [config.backend.handleEq, stackHandle]

end Derive

namespace ContextsSound

theorem stackHandle_ne (contexts : ContextsSound config sched) (gPositive : 0 < g)
    (gBelow : g < config.maxCothreads) (hPositive : 0 < h) (hBelow : h < config.maxCothreads)
    (different : g ≠ h) : sched.stackHandle config g ≠ sched.stackHandle config h := by
  intro same
  refine different (contexts.storage g h gPositive gBelow hPositive hBelow ?_)
  rw [stackHandle, stackHandle, CothreadT.stack.injEq] at same
  exact (BitVec.add_left_inj _).mp same

/-- A thread with a context has another handle than the stack of another cothread. -/
theorem coHandle_ne_stackHandle (contexts : ContextsSound config sched) (gRange : InRange config g)
    (gHas : sched.state g ≠ .notActive ∨ g = sched.running) (hPositive : 0 < h)
    (hBelow : h < config.maxCothreads) (different : g ≠ h) :
    sched.coHandle g ≠ sched.stackHandle config h := by
  obtain ⟨gNonneg, gBelow⟩ := gRange
  by_cases gRoot : g = 0
  · rw [gRoot, contexts.root, stackHandle]
    simp
  · rw [contexts.sited g (by omega) gHas]
    exact contexts.stackHandle_ne (by omega) gBelow hPositive hBelow different

/-- Threads with a context have different handles. -/
theorem coHandle_ne (contexts : ContextsSound config sched) (gRange : InRange config g)
    (hRange : InRange config h) (gHas : sched.state g ≠ .notActive ∨ g = sched.running)
    (hHas : sched.state h ≠ .notActive ∨ h = sched.running) (different : g ≠ h) :
    sched.coHandle g ≠ sched.coHandle h := by
  obtain ⟨hNonneg, hBelow⟩ := hRange
  by_cases hRoot : h = 0
  · rw [hRoot] at different
    have gNonneg := gRange.1
    rw [hRoot, contexts.root, contexts.sited g (by omega) gHas, stackHandle]
    simp
  · rw [contexts.sited h (by omega) hHas]
    exact contexts.coHandle_ne_stackHandle gRange gHas (by omega) hBelow different

/-- A derivation for the stack of `h` changes neither the handle nor the context
of another active thread. -/
theorem derive_kept (contexts : ContextsSound config sched)
    (sound : Sound config executing sched) (active : sched.state g ≠ .notActive) (positive : 0 < h)
    (below : h < config.maxCothreads) (different : g ≠ h) :
    Function.update sched.coHandle h (sched.stackHandle config h) g = sched.coHandle g ∧
      (sched.libco.coDerive (sched.stackHandle config h)).contexts (sched.coHandle g) =
        sched.libco.contexts (sched.coHandle g) := by
  refine ⟨Function.update_of_ne different .., ?_⟩
  rw [Libco.contexts_coDerive]
  exact Function.update_of_ne (contexts.coHandle_ne_stackHandle (sound.threads.inRange g active)
    (.inl active) positive below different) ..

/-- Changes that touch neither libco nor the handles and make no thread active. -/
theorem of_state (contexts : ContextsSound config sched) (running : next.running = sched.running)
    (libco : next.libco = sched.libco) (coHandle : next.coHandle = sched.coHandle)
    (storage : next.localStorage = sched.localStorage)
    (size : next.coStackSize = sched.coStackSize)
    (active : ∀ h, next.state h ≠ .notActive → sched.state h ≠ .notActive ∨ h = sched.running) :
    ContextsSound config next := by
  constructor
  · rw [libco, coHandle, running]
    exact contexts.active
  · rw [coHandle]
    exact contexts.root
  · intro h positive has
    have had : sched.state h ≠ .notActive ∨ h = sched.running := by
      rcases has with isActive | isRunning
      · exact active h isActive
      · exact .inr (isRunning.trans running)
    rw [coHandle, stackHandle, storage, size]
    exact contexts.sited h positive had
  · rw [storage]
    exact contexts.storage
  · intro h isActive notRunning
    rw [running] at notRunning
    rw [libco, coHandle]
    exact contexts.awaiting h ((active h isActive).resolve_right notRunning) notRunning

/-- A state change of one thread that was active or running. -/
theorem of_update {value : CoState} (contexts : ContextsSound config sched)
    (running : next.running = sched.running) (libco : next.libco = sched.libco)
    (coHandle : next.coHandle = sched.coHandle) (storage : next.localStorage = sched.localStorage)
    (size : next.coStackSize = sched.coStackSize)
    (changed : next.state = Function.update sched.state h value)
    (had : sched.state h ≠ .notActive ∨ h = sched.running) : ContextsSound config next := by
  refine contexts.of_state running libco coHandle storage size fun g isActive => ?_
  by_cases same : g = h
  · exact same ▸ had
  · rw [changed, Function.update_of_ne same] at isActive
    exact .inl isActive

/-- What a switch to an active thread resumes. -/
theorem switched (contexts : ContextsSound config sched)
    (inRange : ∀ g, sched.state g ≠ .notActive → InRange config g)
    (running : InRange config sched.running) (active : sched.state h ≠ .notActive)
    (returns : sched.state sched.running ≠ .notActive → point.Returns) :
    ContextsSound config (sched.switched point h) ∧
      (sched.switched point h).libco.resumed.Awaiting := by
  have saved : ∀ g, sched.state g ≠ .notActive →
      ((sched.switched point h).libco.contexts (sched.coHandle g)).Awaiting := by
    intro g isActive
    change ((sched.libco.coSwitch point (sched.coHandle h)).contexts _).Awaiting
    rw [Libco.contexts_coSwitch, contexts.active]
    by_cases caller : g = sched.running
    · rw [caller, Function.update_self]
      exact returns (caller ▸ isActive)
    · rw [Function.update_of_ne (contexts.coHandle_ne (inRange g isActive) running (.inl isActive)
        (.inr rfl) caller)]
      exact contexts.awaiting g isActive caller
  have stillActive : ∀ g, (sched.switched point h).state g ≠ .notActive →
      sched.state g ≠ .notActive := by
    intro g isActive
    by_cases same : g = h
    · exact same ▸ active
    · have before : Function.update sched.state h .running g ≠ .notActive := isActive
      rwa [Function.update_of_ne same] at before
  refine ⟨⟨rfl, contexts.root, ?_, contexts.storage, ?_⟩, saved h active⟩
  · rintro g positive (isActive | isChosen)
    · exact contexts.sited g positive (.inl (stillActive g isActive))
    · have chosen : g = h := isChosen
      exact contexts.sited g positive (.inl (chosen ▸ active))
  · intro g isActive _
    exact saved g (stillActive g isActive)

/-- What the scheduler resumes. -/
theorem gone (contexts : ContextsSound config sched) (sound : Sound config none sched)
    (returns : sched.state sched.running ≠ .notActive → point.Returns) :
    ContextsSound config (sched.gone point) ∧ (sched.gone point).libco.resumed.Awaiting := by
  have shorter : ContextsSound config
      { sched with queue := (pick sched.state sched.queue).2 } :=
    contexts.of_state rfl rfl rfl rfl rfl fun _ => .inl
  have active : sched.state (sched.gone point).running ≠ .notActive := sound.gone_active
  exact shorter.switched sound.threads.inRange sound.running active returns

theorem requeued (contexts : ContextsSound config sched) : ContextsSound config sched.requeued :=
  contexts.of_update rfl rfl rfl rfl rfl rfl (.inr rfl)

theorem blockedOn (contexts : ContextsSound config sched) :
    ContextsSound config (sched.blockedOn sem) :=
  contexts.of_update rfl rfl rfl rfl rfl rfl (.inr rfl)

theorem released (contexts : ContextsSound config sched)
    (had : sched.state h ≠ .notActive ∨ h = sched.running) :
    ContextsSound config (sched.released h) :=
  contexts.of_update rfl rfl rfl rfl rfl rfl had

theorem unlinked (contexts : ContextsSound config sched) :
    ContextsSound config (sched.unlinked sem) :=
  contexts.of_state rfl rfl rfl rfl rfl fun _ => .inl

theorem requeuedGone (contexts : ContextsSound config sched)
    (sound : Sound config (some sched.running) sched) :
    ContextsSound config (sched.requeued.gone .yield) ∧
      (sched.requeued.gone .yield).libco.resumed.Awaiting :=
  contexts.requeued.gone sound.requeued fun _ => trivial

theorem blockedGone (contexts : ContextsSound config sched)
    (sound : Sound config (some sched.running) sched) (live : sched.live config sem) :
    ContextsSound config ((sched.blockedOn sem).gone .semaphoreWait) ∧
      ((sched.blockedOn sem).gone .semaphoreWait).libco.resumed.Awaiting :=
  contexts.blockedOn.gone (sound.blockedOn live) fun _ => trivial

/-- The scheduler chooses another thread than one that has just released itself. -/
theorem releasedGone (contexts : ContextsSound config sched)
    (sound : Sound config (some sched.running) sched) (nonRoot : sched.running ≠ 0) :
    ContextsSound config ((sched.released sched.running).gone point) ∧
      ((sched.released sched.running).gone point).libco.resumed.Awaiting := by
  refine (contexts.released (.inr rfl)).gone (sound.releasedSelf nonRoot) ?_
  intro active
  simp [Sched.released] at active

/-- A hand-over resumes a thread that was blocked, or the root. -/
theorem handed (contexts : ContextsSound config sched)
    (sound : Sound config (some sched.running) sched) (live : sched.live config sem)
    (nonempty : (sched.sem sem).head ≠ nullHandle) :
    ContextsSound config (sched.handed sem) ∧ (sched.handed sem).libco.resumed.Awaiting := by
  have queuedLive : sched.requeued.live config sem := live
  have between := (sound.requeued.unlinked queuedLive nonempty).1
  have moved : ContextsSound config (sched.requeued.unlinked sem) := contexts.requeued.unlinked
  exact moved.switched between.threads.inRange between.running (sound.head_active live nonempty)
    fun _ => trivial

theorem spawned {clientEntry privateArg : Address} {rest : List Int}
    (contexts : ContextsSound config sched) (sound : Sound config (some sched.running) sched)
    (taken : sched.free = h :: rest) :
    ContextsSound config (sched.spawned config clientEntry privateArg h rest) := by
  have freed := sound.free
  rw [taken] at freed
  obtain ⟨positive, below, inactive⟩ := (freed.exact h).mp List.mem_cons_self
  have idle : h ≠ sched.running := by
    rintro rfl
    rw [sound.executingRunning] at inactive
    cases inactive
  constructor
  case active =>
    rw [spawned_libco, spawned_coHandle]
    change sched.libco.coActiveHandle = Function.update sched.coHandle h _ sched.running
    rw [Function.update_of_ne idle.symm]
    exact contexts.active
  case root =>
    rw [spawned_coHandle, Function.update_of_ne (by omega)]
    exact contexts.root
  case sited =>
    intro g gPositive has
    rw [spawned_coHandle]
    by_cases same : g = h
    · rw [same, Function.update_self]
      rfl
    · rw [Function.update_of_ne same]
      refine contexts.sited g gPositive (has.imp_left fun isActive => ?_)
      have before : Function.update sched.state h .ready g ≠ .notActive := isActive
      rwa [Function.update_of_ne same] at before
  case storage => exact contexts.storage
  case awaiting =>
    intro g isActive notRunning
    rw [spawned_libco, spawned_coHandle]
    by_cases same : g = h
    · rw [same, Function.update_self, Libco.contexts_coDerive, Function.update_self]
      trivial
    · have before : Function.update sched.state h .ready g ≠ .notActive := isActive
      rw [Function.update_of_ne same] at before
      obtain ⟨handle, context⟩ := contexts.derive_kept sound before positive below same
      rw [handle, context]
      exact contexts.awaiting g before notRunning

/-- Every call that destroys neither the root nor a blocked cothread keeps `ContextsSound`. -/
theorem effect (contexts : ContextsSound config sched)
    (sound : Sound config (some sched.running) sched)
    (effect : Effect config sched call answer next) : ContextsSound config next := by
  cases effect with
  | queried | peeked | exhausted | ignored => exact contexts
  | argued => exact contexts.of_state rfl rfl rfl rfl rfl fun _ => .inl
  | spawned _ taken => exact contexts.spawned sound taken
  | initialised => exact contexts.of_state rfl rfl rfl rfl rfl fun _ => .inl
  | consumed | raised => exact contexts.of_state rfl rfl rfl rfl rfl fun _ => .inl
  | blocked _ live => exact (contexts.blockedGone sound live).1
  | handedOver _ live _ nonempty => exact (contexts.handed sound live nonempty).1
  | yielded => exact (contexts.requeuedGone sound).1
  | destroyed _ _ active => exact contexts.released (.inl active)
  | exited _ _ _ _ fromCothread => exact (contexts.releasedGone sound fromCothread).1

/-- A call that switches resumes a context which returns to its client. -/
theorem resumed_awaiting (contexts : ContextsSound config sched)
    (sound : Sound config (some sched.running) sched)
    (effect : Effect config sched call answer next) :
    next.libco.resumed = sched.libco.resumed ∨ next.libco.resumed.Awaiting := by
  cases effect with
  | queried | peeked | exhausted | ignored => exact .inl rfl
  | argued | spawned | initialised | consumed | raised | destroyed => exact .inl rfl
  | blocked _ live => exact .inr (contexts.blockedGone sound live).2
  | handedOver _ live _ nonempty => exact .inr (contexts.handed sound live nonempty).2
  | yielded => exact .inr (contexts.requeuedGone sound).2
  | exited _ _ _ _ fromCothread => exact .inr (contexts.releasedGone sound fromCothread).2

end ContextsSound

/-- What a call does to libco: nothing, one switch to the thread that runs next,
or one derivation for a thread that spawn answers. -/
inductive LibcoChange (config : Config) (sched : Sched) (call : Call) (answer : Answer)
    (next : Sched) : Prop where
  | kept (libco : next.libco = sched.libco) (coHandle : next.coHandle = sched.coHandle)
      (running : next.running = sched.running)
  | switched {point : SwitchPoint}
      (libco : next.libco = sched.libco.coSwitch point (sched.coHandle next.running))
      (coHandle : next.coHandle = sched.coHandle)
  | derived {clientEntry privateArg : Address} {new : Int} {rest : List Int}
      (isSpawn : call = .spawn clientEntry privateArg) (answered : answer = .handle new)
      (free : sched.free = new :: rest)
      (libco : next.libco = sched.libco.coDerive (sched.stackHandle config new))
      (coHandle : next.coHandle =
        Function.update sched.coHandle new (sched.stackHandle config new))
      (running : next.running = sched.running)

theorem Effect.libcoChange (effect : Effect config sched call answer next) :
    LibcoChange config sched call answer next := by
  cases effect with
  | queried | peeked | exhausted | ignored => exact .kept rfl rfl rfl
  | argued | initialised | consumed | raised | destroyed => exact .kept rfl rfl rfl
  | blocked | handedOver | yielded | exited => exact .switched rfl rfl
  | spawned _ free => exact .derived rfl rfl free spawned_libco spawned_coHandle rfl

/-- The context of an active thread that is not running stays as it is. -/
theorem ContextsSound.context_kept (contexts : ContextsSound config sched)
    (sound : Sound config (some sched.running) sched)
    (effect : Effect config sched call answer next) (active : sched.state h ≠ .notActive)
    (other : h ≠ sched.running) :
    next.coHandle h = sched.coHandle h ∧
      next.libco.contexts (sched.coHandle h) = sched.libco.contexts (sched.coHandle h) := by
  cases effect.libcoChange with
  | kept libco coHandle => exact ⟨congrFun coHandle h, by rw [libco]⟩
  | switched libco coHandle =>
    refine ⟨congrFun coHandle h, ?_⟩
    rw [libco, Libco.contexts_coSwitch, contexts.active]
    exact Function.update_of_ne (contexts.coHandle_ne (sound.threads.inRange h active)
      sound.running (.inl active) (.inr rfl) other) ..
  | @derived _ _ new rest _ _ free libco coHandle =>
    obtain ⟨positive, below, inactive⟩ :=
      (sound.free.exact new).mp (by rw [free]; exact List.mem_cons_self)
    have different : h ≠ new := by
      rintro rfl
      exact active inactive
    rw [libco, coHandle]
    exact contexts.derive_kept sound active positive below different

/-- A dispatch resumes the context of the thread it makes running. -/
theorem ContextsSound.resumed_eq (contexts : ContextsSound config sched)
    (sound : Sound config (some sched.running) sched)
    (effect : Effect config sched call answer next) (active : sched.state h ≠ .notActive)
    (other : h ≠ sched.running) (chosen : next.running = h) :
    next.libco.resumed = sched.libco.contexts (sched.coHandle h) := by
  cases effect.libcoChange with
  | kept _ _ running => exact absurd (chosen.symm.trans running) other
  | derived _ _ _ _ _ running => exact absurd (chosen.symm.trans running) other
  | switched libco coHandle =>
    rw [libco, chosen]
    refine Libco.resumed_coSwitch_of_ne _ _ _ ?_
    rw [contexts.active]
    exact contexts.coHandle_ne (sound.threads.inRange h active) sound.running (.inl active)
      (.inr rfl) other

/-- What initialisation establishes. -/
theorem Initial.contexts (initial : sched.Initial config) : ContextsSound config sched := by
  have rootOnly : ∀ h, sched.state h ≠ .notActive → h = 0 := by
    intro h active
    rw [initial.state] at active
    by_contra other
    simp [other] at active
  constructor
  case active => rw [initial.libco, initial.coHandle, if_pos initial.running, Libco.atStart]
  case root => rw [initial.coHandle, if_pos rfl]
  case sited =>
    rintro h positive (active | running)
    · have := rootOnly h active
      omega
    · rw [initial.running] at running
      omega
  case storage => exact initial.storage
  case awaiting =>
    intro h active other
    rw [initial.running] at other
    exact absurd (rootOnly h active) other

end Sched
end Libmicrokitco
