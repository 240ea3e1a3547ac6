import Libmicrokitco.Sched.Initial

/-!
# What one call can do

`Effect` is the inversion of `Sched.step`: one constructor for each thing a
returning call can do to the lists, with the guards it passed. The invariants
are proved from it, so that none of them unfolds the operations again.
-/

namespace Libmicrokitco

/-- A context whose resumption returns to its client. -/
def Context.Resumable (context : Context) : Prop :=
  ∀ incarnation, context ≠ .suspended incarnation .entryReturn

/-- The calls that only read. -/
def Call.Passive : Call → Prop
  | .queryState _ | .myHandle | .myArg => True
  | .semaphoreIsQueueEmpty _ | .semaphoreIsSet _ => True
  | _ => False

/-- The handle a spawn answered. -/
def Call.spawns : Call → Answer → Option Int
  | .spawn _ _, .handle h => if h = nullHandle then none else some h
  | _, _ => none

section

variable {call : Call} {answer : Answer} {sem : SemRef} {running cothread : Int}

theorem Call.Passive.waitsOn (passive : call.Passive) : call.waitsOn = none := by
  cases call <;> first | rfl | exact passive.elim

theorem Call.Passive.signalsOn (passive : call.Passive) : call.signalsOn = none := by
  cases call <;> first | rfl | exact passive.elim

theorem Call.Passive.destroys (passive : call.Passive) : call.destroys running = none := by
  cases call <;> first | rfl | exact passive.elim

theorem Call.signalsOn_of_waitsOn (on : call.waitsOn = some sem) : call.signalsOn = none := by
  cases call <;> simp [waitsOn] at on <;> rfl

theorem Call.signalsOn_of_destroys (destroys : call.destroys running = some cothread) :
    call.signalsOn = none := by
  cases call <;> simp [Call.destroys] at destroys <;> rfl

theorem Call.waitsOn_of_destroys (destroys : call.destroys running = some cothread) :
    call.waitsOn = none := by
  cases call <;> simp [Call.destroys] at destroys <;> rfl

theorem Call.spawns_eq_some {h : Int} : call.spawns answer = some h ↔
    (∃ clientEntry privateArg, call = .spawn clientEntry privateArg) ∧ answer = .handle h ∧
      h ≠ nullHandle := by
  constructor
  · intro answered
    unfold Call.spawns at answered
    split at answered
    · split at answered
      · cases answered
      · rename_i isHandle
        cases answered
        exact ⟨⟨_, _, rfl⟩, rfl, isHandle⟩
    · cases answered
  · rintro ⟨⟨clientEntry, privateArg, rfl⟩, rfl, isHandle⟩
    exact if_neg isHandle

theorem Call.spawns_of_signalsOn (on : call.signalsOn = some sem) :
    call.spawns answer = none := by
  cases call <;> cases on <;> rfl

theorem Call.spawns_of_waitsOn (on : call.waitsOn = some sem) :
    call.spawns answer = none := by
  cases call <;> cases on <;> rfl

theorem Call.spawns_of_destroys (destroys : call.destroys running = some cothread) :
    call.spawns answer = none := by
  cases call <;> cases destroys <;> rfl

theorem Call.Passive.spawns (passive : call.Passive) : call.spawns answer = none := by
  cases call <;> first | rfl | exact passive.elim

theorem Call.destroys_of_signalsOn (on : call.signalsOn = some sem) :
    call.destroys running = none := by
  cases call <;> cases on <;> rfl

theorem Call.destroys_of_waitsOn (on : call.waitsOn = some sem) :
    call.destroys running = none := by
  cases call <;> cases on <;> rfl

end

namespace Sched

/-- A semaphore that has been initialised. -/
def live (config : Config) (sched : Sched) : SemRef → Prop
  | .channel ch => ch < config.maxChannels
  | .client id => sched.initialised id = true

/-- At first only the channel semaphores are live, clear and without waiters. -/
theorem Initial.sem_of_live {config : Config} {sched : Sched} {sem : SemRef}
    (initial : sched.Initial config) (live : sched.live config sem) :
    sched.sem sem = ⟨false, nullHandle, nullHandle⟩ := by
  cases sem with
  | channel ch => exact initial.channels ch live
  | client id =>
    have dead : sched.initialised id = true := live
    rw [initial.initialised] at dead
    cases dead

/-- The state in which the thread chosen by the scheduler continues. -/
def gone (point : SwitchPoint) (sched : Sched) : Sched :=
  switched point (orRoot (pick sched.state sched.queue).1)
    { sched with queue := (pick sched.state sched.queue).2 }

/-- The semaphore with its flag set or cleared. -/
def flagged (sem : SemRef) (set : Bool) (sched : Sched) : Sched :=
  sched.setSem sem { sched.sem sem with set := set }

def semaphoreInitialised (id : Nat) (sched : Sched) : Sched :=
  { sched.setSem (.client id) (microkitCothreadSemaphoreInit (sched.sem (.client id))) with
    initialised := Function.update sched.initialised id true }

def argued (cothread : Int) (privateArg : Address) (sched : Sched) : Sched :=
  { sched with privateArg := Function.update sched.privateArg cothread privateArg }

/-- The first waiter of `sem` executing, its signaller behind the ready threads. -/
def handed (sem : SemRef) (sched : Sched) : Sched :=
  switched .semaphoreSignal (sched.sem sem).head (sched.requeued.unlinked sem)

variable {config : Config} {sched next : Sched} {call : Call} {answer : Answer}
  {point : SwitchPoint} {sem : SemRef}

/-- The scheduler's choice from a queue and the entries left behind it. -/
inductive Picks (state : Int → CoState) : List Int → Int → List Int → Prop where
  | entry {skipped rest : List Int} {chosen : Int}
      (stale : ∀ entry ∈ skipped, entry ≠ 0 ∧ state entry ≠ .ready)
      (dispatchable : chosen = 0 ∨ state chosen = .ready) :
      Picks state (skipped ++ chosen :: rest) chosen rest
  | fallback {queue : List Int} (stale : ∀ entry ∈ queue, entry ≠ 0 ∧ state entry ≠ .ready) :
      Picks state queue 0 []

theorem picks_pick (state : Int → CoState) {queue : List Int} (nonneg : ∀ entry ∈ queue, 0 ≤ entry) :
    Picks state queue (orRoot (pick state queue).1) (pick state queue).2 := by
  induction queue with
  | nil => exact .fallback (by simp)
  | cons entry rest ih =>
    by_cases dispatchable : entry = 0 ∨ state entry = .ready
    · have bounded := nonneg entry List.mem_cons_self
      have isEntry : entry ≠ schedulerNullChoice := by
        unfold schedulerNullChoice nullHandle
        omega
      rw [pick, if_pos dispatchable, orRoot, if_neg isEntry]
      exact @Picks.entry state [] rest entry (by simp) dispatchable
    · rw [pick, if_neg dispatchable]
      rw [not_or] at dispatchable
      generalize orRoot (pick state rest).1 = chosen at ih ⊢
      generalize (pick state rest).2 = left at ih ⊢
      cases ih fun later member => nonneg later (List.mem_cons_of_mem _ member) with
      | @entry skipped left chosen stale chosenDispatchable =>
        exact @Picks.entry state (entry :: skipped) left chosen
          (List.forall_mem_cons.mpr ⟨dispatchable, stale⟩) chosenDispatchable
      | fallback stale => exact .fallback (List.forall_mem_cons.mpr ⟨dispatchable, stale⟩)

theorem goNext_eq (point : SwitchPoint) (sched : Sched) :
    goNext point sched = resume (sched.gone point) := rfl

theorem resume_of_resumable (resumable : sched.libco.resumed.Resumable) :
    resume sched = .ok sched := by
  rw [resume]
  split
  · rename_i incarnation resumed
    exact absurd resumed (resumable incarnation)
  · rfl

theorem resume_eq_ok : resume sched = .ok next ↔ next = sched ∧ sched.libco.resumed.Resumable := by
  constructor
  · intro success
    unfold resume at success
    split at success
    · cases success
    · rename_i other
      cases success
      exact ⟨rfl, fun incarnation same => other incarnation same⟩
  · rintro ⟨rfl, resumable⟩
    exact resume_of_resumable resumable

/-- What a returning call can do. -/
inductive Effect (config : Config) (sched : Sched) : Call → Answer → Sched → Prop where
  | queried {call : Call} {answer : Answer} (passive : call.Passive) :
      Effect config sched call answer sched
  | peeked :
      Effect config sched .freeHandleAvailable
        (.freeHandle (sched.free ≠ []) (sched.free.headD nullHandle)) sched
  | argued {cothread : Int} {privateArg : Address} (nonneg : 0 ≤ cothread)
      (below : cothread < config.maxCothreads) (active : sched.state cothread ≠ .notActive) :
      Effect config sched (.setArg cothread privateArg) .unit (sched.argued cothread privateArg)
  | exhausted {clientEntry privateArg : Address} (nonNull : clientEntry ≠ 0#64)
      (none : sched.free = []) :
      Effect config sched (.spawn clientEntry privateArg) (.handle nullHandle) sched
  | spawned {clientEntry privateArg : Address} {new : Int} {rest : List Int}
      (nonNull : clientEntry ≠ 0#64) (free : sched.free = new :: rest)
      (room : sched.queue.length ≠ config.maxCothreads) :
      Effect config sched (.spawn clientEntry privateArg) (.handle new)
        (sched.spawned config clientEntry privateArg new rest)
  | initialised {id : Nat} :
      Effect config sched (.semaphoreInit id) .unit (sched.semaphoreInitialised id)
  | consumed {call : Call} {sem : SemRef} (on : call.waitsOn = some sem)
      (live : sched.live config sem) (set : (sched.sem sem).set = true) :
      Effect config sched call .unit (sched.flagged sem false)
  | blocked {call : Call} {sem : SemRef} (on : call.waitsOn = some sem)
      (live : sched.live config sem) (clear : (sched.sem sem).set = false)
      (resumable : ((sched.blockedOn sem).gone .semaphoreWait).libco.resumed.Resumable) :
      Effect config sched call .unit ((sched.blockedOn sem).gone .semaphoreWait)
  | ignored {call : Call} {sem : SemRef} (on : call.signalsOn = some sem)
      (live : sched.live config sem) (set : (sched.sem sem).set = true) :
      Effect config sched call .unit sched
  | raised {call : Call} {sem : SemRef} (on : call.signalsOn = some sem)
      (live : sched.live config sem) (clear : (sched.sem sem).set = false)
      (empty : (sched.sem sem).head = nullHandle) :
      Effect config sched call .unit (sched.flagged sem true)
  | handedOver {call : Call} {sem : SemRef} (on : call.signalsOn = some sem)
      (live : sched.live config sem) (clear : (sched.sem sem).set = false)
      (nonempty : (sched.sem sem).head ≠ nullHandle)
      (room : sched.queue.length ≠ config.maxCothreads)
      (resumable : (sched.handed sem).libco.resumed.Resumable) :
      Effect config sched call .unit (sched.handed sem)
  | yielded (room : sched.queue.length ≠ config.maxCothreads)
      (resumable : (sched.requeued.gone .yield).libco.resumed.Resumable) :
      Effect config sched .yield .unit (sched.requeued.gone .yield)
  | destroyed {cothread : Int} (nonneg : 0 ≤ cothread) (below : cothread < config.maxCothreads)
      (active : sched.state cothread ≠ .notActive) (fromCothread : sched.running ≠ 0)
      (other : cothread ≠ sched.running) :
      Effect config sched (.destroy cothread) .unit (sched.released cothread)
  | exited {call : Call} {point : SwitchPoint} (self : call.destroys sched.running = some sched.running)
      (nonneg : 0 ≤ sched.running) (below : sched.running < config.maxCothreads)
      (active : sched.state sched.running ≠ .notActive) (fromCothread : sched.running ≠ 0)
      (resumable : ((sched.released sched.running).gone point).libco.resumed.Resumable) :
      Effect config sched call .unit ((sched.released sched.running).gone point)

/-- What a returning signal did. -/
theorem Effect.of_signal (effect : Effect config sched call answer next)
    (on : call.signalsOn = some sem) : sched.live config sem ∧
      ((sched.sem sem).set = true ∧ next = sched ∨
        (sched.sem sem).set = false ∧ (sched.sem sem).head = nullHandle ∧
          next = sched.flagged sem true ∨
        (sched.sem sem).set = false ∧ (sched.sem sem).head ≠ nullHandle ∧
          sched.queue.length ≠ config.maxCothreads ∧ next = sched.handed sem) := by
  cases effect with
  | ignored other live set =>
    cases on.symm.trans other
    exact ⟨live, .inl ⟨set, rfl⟩⟩
  | raised other live clear empty =>
    cases on.symm.trans other
    exact ⟨live, .inr (.inl ⟨clear, empty, rfl⟩)⟩
  | handedOver other live clear nonempty room =>
    cases on.symm.trans other
    exact ⟨live, .inr (.inr ⟨clear, nonempty, room, rfl⟩)⟩
  | queried passive =>
    rw [passive.signalsOn] at on
    cases on
  | consumed other | blocked other =>
    rw [Call.signalsOn_of_waitsOn other] at on
    cases on
  | exited self =>
    rw [Call.signalsOn_of_destroys self] at on
    cases on
  | peeked | argued | exhausted | spawned | initialised | yielded | destroyed => cases on

/-- What a returning wait did. -/
theorem Effect.of_wait (effect : Effect config sched call answer next)
    (on : call.waitsOn = some sem) : sched.live config sem ∧
      ((sched.sem sem).set = true ∧ next = sched.flagged sem false ∨
        (sched.sem sem).set = false ∧ next = (sched.blockedOn sem).gone .semaphoreWait) := by
  cases effect with
  | consumed other live set =>
    cases on.symm.trans other
    exact ⟨live, .inl ⟨set, rfl⟩⟩
  | blocked other live clear =>
    cases on.symm.trans other
    exact ⟨live, .inr ⟨clear, rfl⟩⟩
  | queried passive =>
    rw [passive.waitsOn] at on
    cases on
  | ignored other | raised other | handedOver other =>
    rw [Call.signalsOn_of_waitsOn on] at other
    cases other
  | exited self =>
    rw [Call.waitsOn_of_destroys self] at on
    cases on
  | peeked | argued | exhausted | spawned | initialised | yielded | destroyed => cases on

/-- What a thread that destroyed itself did. -/
theorem Effect.of_exit (effect : Effect config sched call answer next)
    (self : call.destroys sched.running = some sched.running) :
    sched.running ≠ 0 ∧ ∃ point, next = (sched.released sched.running).gone point := by
  cases effect with
  | exited _ _ _ _ fromCothread => exact ⟨fromCothread, _, rfl⟩
  | destroyed _ _ _ _ other => exact absurd (Option.some.inj self) other
  | queried passive =>
    rw [passive.destroys] at self
    cases self
  | consumed on | blocked on =>
    rw [Call.waitsOn_of_destroys self] at on
    cases on
  | ignored on | raised on | handedOver on =>
    rw [Call.signalsOn_of_destroys self] at on
    cases on
  | peeked | argued | exhausted | spawned | initialised | yielded => cases self

/-- What a returning spawn did. -/
theorem Effect.of_spawn {clientEntry privateArg : Address}
    (effect : Effect config sched (.spawn clientEntry privateArg) answer next) :
    sched.free = [] ∧ answer = .handle nullHandle ∧ next = sched ∨
      ∃ new rest, sched.free = new :: rest ∧ sched.queue.length ≠ config.maxCothreads ∧
        answer = .handle new ∧ next = sched.spawned config clientEntry privateArg new rest := by
  cases effect with
  | exhausted _ none => exact .inl ⟨none, rfl, rfl⟩
  | spawned _ free room => exact .inr ⟨_, _, free, room, rfl, rfl⟩
  | queried passive => exact passive.elim
  | consumed on | blocked on | ignored on | raised on | handedOver on => cases on
  | exited self => cases self

/-- What a query for a free handle answers. -/
theorem Effect.of_peek (effect : Effect config sched .freeHandleAvailable answer next) :
    answer = .freeHandle (sched.free ≠ []) (sched.free.headD nullHandle) ∧ next = sched := by
  cases effect with
  | peeked => exact ⟨rfl, rfl⟩
  | queried passive => exact passive.elim
  | consumed on | blocked on | ignored on | raised on | handedOver on => cases on
  | exited self => cases self

/-- A semaphore stays initialised. -/
theorem Effect.live (effect : Effect config sched call answer next)
    (live : sched.live config sem) : next.live config sem := by
  cases effect with
  | @initialised id =>
    cases sem with
    | channel ch => exact live
    | client other =>
      change Function.update sched.initialised id true other = true
      by_cases same : other = id
      · rw [same, Function.update_self]
      · rw [Function.update_of_ne same]
        exact live
  | _ => cases sem <;> exact live

/-- Only `microkit_cothread_semaphore_init` initialises a semaphore. -/
theorem Effect.of_live (effect : Effect config sched call answer next)
    (live : next.live config sem) :
    sched.live config sem ∨ ∃ id, call = .semaphoreInit id ∧ sem = .client id := by
  cases effect with
  | @initialised id =>
    cases sem with
    | channel ch => exact .inl live
    | client other =>
      by_cases same : other = id
      · exact .inr ⟨id, rfl, congrArg SemRef.client same⟩
      · refine .inl ?_
        have before : Function.update sched.initialised id true other = true := live
        rwa [Function.update_of_ne same] at before
  | _ => cases sem <;> exact .inl live

/-- The ways a call can change the state of `h`. -/
inductive StateChange (sched : Sched) (call : Call) (answer : Answer) (next : Sched) (h : Int) :
    Prop where
  | kept (same : next.state h = sched.state h)
  | dispatched (chosen : h = next.running) (now : next.state h = .running)
  | queued (caller : h = sched.running) (now : next.state h = .ready)
  | blocked {sem : SemRef} (caller : h = sched.running) (on : call.waitsOn = some sem)
      (clear : (sched.sem sem).set = false) (now : next.state h = .blocked)
  | destroyed (destroys : call.destroys sched.running = some h) (now : next.state h = .notActive)
  | spawned {clientEntry privateArg : Address} (isSpawn : call = .spawn clientEntry privateArg)
      (free : h ∈ sched.free) (answered : answer = .handle h) (now : next.state h = .ready)

theorem Effect.stateChange (effect : Effect config sched call answer next) (h : Int) :
    StateChange sched call answer next h := by
  -- a dispatch changes the state of the thread it resumes and of no other
  have resumed : ∀ (between : Sched) (point : SwitchPoint) (chosen : Int),
      next.state = (between.switched point chosen).state →
      next.running = (between.switched point chosen).running →
      (h ≠ chosen → next.state h = between.state h → StateChange sched call answer next h) →
      StateChange sched call answer next h := by
    intro between point chosen state running other
    by_cases isChosen : h = chosen
    · refine .dispatched (isChosen.trans running.symm) ?_
      rw [state, isChosen]
      exact Function.update_self ..
    · refine other isChosen ?_
      rw [state]
      exact Function.update_of_ne isChosen ..
  cases effect with
  | queried | peeked | exhausted | ignored => exact .kept rfl
  | argued | initialised | consumed | raised => exact .kept rfl
  | @spawned _ _ new rest _ taken =>
    by_cases isNew : h = new
    · subst isNew
      exact .spawned rfl (by rw [taken]; exact List.mem_cons_self) rfl (Function.update_self ..)
    · exact .kept (Function.update_of_ne isNew ..)
  | blocked on _ clear =>
    refine resumed _ _ _ rfl rfl fun _ state => ?_
    by_cases caller : h = sched.running
    · subst caller
      exact .blocked rfl on clear (state.trans (Function.update_self ..))
    · exact .kept (state.trans (Function.update_of_ne caller ..))
  | handedOver =>
    refine resumed _ _ _ rfl rfl fun _ state => ?_
    by_cases caller : h = sched.running
    · subst caller
      exact .queued rfl (state.trans (Function.update_self ..))
    · exact .kept (state.trans (Function.update_of_ne caller ..))
  | yielded =>
    refine resumed _ _ _ rfl rfl fun _ state => ?_
    by_cases caller : h = sched.running
    · subst caller
      exact .queued rfl (state.trans (Function.update_self ..))
    · exact .kept (state.trans (Function.update_of_ne caller ..))
  | @destroyed cothread =>
    by_cases isDestroyed : h = cothread
    · subst isDestroyed
      exact .destroyed rfl (Function.update_self ..)
    · exact .kept (Function.update_of_ne isDestroyed ..)
  | exited self =>
    refine resumed _ _ _ rfl rfl fun _ state => ?_
    by_cases caller : h = sched.running
    · subst caller
      exact .destroyed self (state.trans (Function.update_self ..))
    · exact .kept (state.trans (Function.update_of_ne caller ..))

/-- Only a wait blocks a thread, and only its caller. -/
theorem Effect.blocks {h : Int} (effect : Effect config sched call answer next)
    (blocked : next.state h = .blocked) :
    sched.state h = .blocked ∨
      h = sched.running ∧ ∃ sem, call.waitsOn = some sem ∧ (sched.sem sem).set = false := by
  cases effect.stateChange h with
  | kept same => exact .inl (same ▸ blocked)
  | blocked caller on clear => exact .inr ⟨caller, _, on, clear⟩
  | dispatched _ now | queued _ now | destroyed _ now | spawned _ _ _ now =>
    rw [now] at blocked
    cases blocked

theorem returning_eq_ok {result : Except Fault Sched} :
    returning result = .ok (answer, next) ↔ answer = .unit ∧ result = .ok next := by
  rw [returning, map_eq_ok]
  constructor
  · rintro ⟨value, success, pair⟩
    cases pair
    exact ⟨rfl, success⟩
  · rintro ⟨rfl, success⟩
    exact ⟨next, success, rfl⟩

private theorem wait_effect (on : call.waitsOn = some sem) (live : sched.live config sem)
    (success : sched.wait sem = .ok next) : Effect config sched call .unit next := by
  unfold wait at success
  split at success
  · rename_i set
    cases success
    exact .consumed on live set
  · rename_i clear
    rw [goNext_eq, resume_eq_ok] at success
    obtain ⟨rfl, resumable⟩ := success
    exact .blocked on live (by simpa using clear) resumable

theorem requeue_eq_ok {err : InternalCoFatalErrors} :
    sched.requeue config err = .ok next ↔
      sched.queue.length ≠ config.maxCothreads ∧ next = sched.requeued := by
  unfold requeue
  split
  · rename_i full
    simp [full]
  · rename_i room
    simp [room, eq_comm]

private theorem signal_effect (on : call.signalsOn = some sem) (live : sched.live config sem)
    (success : sched.signal config sem = .ok next) : Effect config sched call .unit next := by
  unfold signal at success
  split at success
  · rename_i set
    cases success
    exact .ignored on live set
  rename_i clear
  have clear : (sched.sem sem).set = false := by simpa using clear
  split at success
  · rename_i empty
    cases success
    exact .raised on live clear empty
  · rename_i nonempty
    obtain ⟨_, pushed, went⟩ := bind_eq_ok.mp success
    obtain ⟨room, rfl⟩ := requeue_eq_ok.mp pushed
    obtain ⟨rfl, resumable⟩ := resume_eq_ok.mp went
    exact .handedOver on live clear nonempty room resumable

private theorem destroy_effect {cothread : Int} (destroys : call.destroys sched.running = some cothread)
    (returns : cothread ≠ sched.running → call = .destroy cothread)
    (success : sched.destroy config point cothread = .ok next) :
    Effect config sched call .unit next := by
  unfold destroy at success
  split at success
  · cases success
  rename_i inRange
  split at success
  · cases success
  rename_i active
  split at success
  · cases success
  rename_i fromCothread
  split at success
  · cases success
  split at success
  · rename_i self
    subst self
    rw [goNext_eq, resume_eq_ok] at success
    obtain ⟨rfl, resumable⟩ := success
    exact .exited destroys (by omega) (by omega) active fromCothread resumable
  · rename_i other
    cases success
    rw [returns other]
    exact .destroyed (by omega) (by omega) active fromCothread other

/-- Every returning call has one of the effects. -/
theorem step_effect (semaphoreLive : ∀ sem, call.semaphore = some sem → sched.live config sem)
    (success : sched.step config call = .ok (answer, next)) :
    Effect config sched call answer next := by
  cases call with
  | freeHandleAvailable =>
    cases success
    exact .peeked
  | spawn clientEntry privateArg =>
    simp only [step, spawn, map_eq_ok] at success
    obtain ⟨⟨h, after⟩, success, pair⟩ := success
    cases pair
    split at success
    · cases success
    rename_i nonNull
    split at success
    · rename_i none
      cases success
      exact .exhausted nonNull none
    · rename_i new rest free
      split at success
      · cases success
      · rename_i room
        cases success
        exact .spawned nonNull free room
  | setArg cothread privateArg =>
    obtain ⟨rfl, returned⟩ := returning_eq_ok.mp success
    unfold setArg at returned
    split at returned
    · cases returned
    · rename_i valid
      rw [not_or, not_or] at valid
      cases returned
      exact .argued (by omega) (by omega) valid.2.2
  | queryState cothread =>
    simp only [step] at success
    split at success
    · cases success
    · cases success
      exact .queried trivial
  | myHandle =>
    cases success
    exact .queried trivial
  | myArg =>
    simp only [step] at success
    split at success
    · cases success
    · cases success
      exact .queried trivial
  | yield =>
    obtain ⟨rfl, returned⟩ := returning_eq_ok.mp success
    obtain ⟨_, pushed, went⟩ := bind_eq_ok.mp returned
    obtain ⟨room, rfl⟩ := requeue_eq_ok.mp pushed
    rw [goNext_eq, resume_eq_ok] at went
    obtain ⟨rfl, resumable⟩ := went
    exact .yielded room resumable
  | destroy cothread =>
    obtain ⟨rfl, returned⟩ := returning_eq_ok.mp success
    exact destroy_effect rfl (fun _ => rfl) returned
  | semaphoreInit id =>
    cases success
    exact .initialised
  | semaphoreWait sem =>
    obtain ⟨rfl, returned⟩ := returning_eq_ok.mp success
    exact wait_effect rfl (semaphoreLive sem rfl) returned
  | semaphoreSignal sem =>
    obtain ⟨rfl, returned⟩ := returning_eq_ok.mp success
    exact signal_effect rfl (semaphoreLive sem rfl) returned
  | semaphoreIsQueueEmpty sem =>
    cases success
    exact .queried trivial
  | semaphoreIsSet sem =>
    cases success
    exact .queried trivial
  | waitOnChannel wakeOn =>
    simp only [step] at success
    split at success
    · cases success
    · rename_i valid
      obtain ⟨rfl, returned⟩ := returning_eq_ok.mp success
      exact wait_effect rfl (Nat.lt_of_not_le valid) returned
  | recvNtfn ch =>
    simp only [step] at success
    split at success
    · cases success
    split at success
    · cases success
    · rename_i valid
      obtain ⟨rfl, returned⟩ := returning_eq_ok.mp success
      exact signal_effect rfl (Nat.lt_of_not_le valid) returned
  | entryReturn =>
    obtain ⟨rfl, returned⟩ := returning_eq_ok.mp success
    exact destroy_effect rfl (fun other => absurd rfl other) returned

end Sched
end Libmicrokitco
