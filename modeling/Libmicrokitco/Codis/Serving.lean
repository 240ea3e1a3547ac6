import Libmicrokitco.Codis.Staff

/-!
# Serving a notification

A notification wakes the cothread of its client, which executes one request,
notifies the client and waits again, so that the root is back in the event loop.
-/

namespace Libmicrokitco.Codis

open CString Sched

variable {deployment : Deployment} {domain : Domain} {service : Service} {turns : List Int}
  {waiting : Fin 3 → Bool} {client : Fin 3} {request : Request}

/-- What the threads do does not depend on the data. -/
theorem Manned.forget {sched : Sched} (manned : Manned turns waiting sched) (contents : Memory) :
    Manned turns waiting { sched with memory := contents } :=
  ⟨manned.order, manned.nodup, manned.dispatchable, manned.sems, manned.asleep, manned.unlinked⟩

theorem Domain.Staffed.answered (staffed : domain.Staffed deployment.toSetup turns waiting)
    (server : Server) (channel : Nat) :
    ((domain.setServer server).notify channel).Staffed deployment.toSetup turns waiting :=
  ⟨staffed.sound.forget _, staffed.manned.forget _, staffed.serving⟩

/-- A notification gives the turn to the cothread of the client. -/
theorem Domain.Staffed.recvNtfn (staffed : domain.Staffed deployment.toSetup [0] fun _ => true)
    (client : Fin 3) :
    ∃ world, microkitCothreadRecvNtfn deployment.config client domain.world = .ok world ∧
      Domain.Staffed deployment.toSetup [servant client, 0]
        (Function.update (fun _ => true) client false) { domain with world := world } ∧
      world.memory = domain.world.memory := by
  have sound := staffed.sound
  have live := channel_live deployment client
  obtain ⟨sched, signals, manned, memory, -⟩ :=
    staffed.manned.signal sound.sound sound.contexts live rfl
  have listed : domain.world.view.step deployment.config (.recvNtfn client) = .ok (.unit, sched) := by
    have running := staffed.manned.running
    rw [Sched.step, if_neg (by simp [running]), if_neg (Nat.not_le_of_lt live), signals]
    rfl
  obtain ⟨world, returned, rfl, soundAfter⟩ :=
    sound.realise_returning (sparing_of_plain ⟨rfl, rfl⟩) rfl listed
  exact ⟨world, returned, ⟨soundAfter, manned, fun other _ => staffed.serving other rfl⟩, memory⟩

/-- The cothread of a client finds the request in its page. -/
theorem Mirrors.request? (mirrors : Mirrors deployment service domain) (client : Fin 3) :
    service.database.request? ((domain.server deployment.toSetup).page (deployment.ipc client)) =
      service.database.request? (service.pages client) := by
  have same := Request.ofPage_congr (mirrors.pages client)
  rw [Database.request?, Database.request?, ← same]
  rfl

/-- The pages after a request. -/
theorem Serves.pages {database : Database} {server next : Server} {pages : Fin 3 → Page}
    (serves : Serves deployment.toLayout client database request server next)
    (before : ∀ other, ∀ i < bucketSize, server.page (deployment.ipc other) i = pages other i)
    (other : Fin 3) {i : Nat} (below : i < bucketSize) :
    next.page (deployment.ipc other) i =
      Function.update pages client ((pages client).replied (database.serve request).2) other i := by
  by_cases same : other = client
  · subst same
    rw [Function.update_self, serves.replied below, Page.replied, Page.replied, before other i below]
  · have within : Within (deployment.ipc other) bucketSize (deployment.ipc other + BitVec.ofNat 64 i) :=
      within_add below (by decide)
    rw [Function.update_of_ne same, ← before other i below, Server.page,
      serves.untouched (Layout.ipcs_apart (Ne.symm same) within) fun bucket _ inBucket =>
        deployment.apart other _ within (Layout.within_db inBucket)]
    rfl

/-- A notification is served if the request in the page can be executed. -/
theorem Mirrors.notified (mirrors : Mirrors deployment service domain) (client : Fin 3) :
    Meets (fun request next => Mirrors deployment (service.served client request) next)
      Mishap.Stray (service.database.request? (service.pages client))
      (notified deployment.toSetup client domain) := by
  obtain ⟨woken, signals, staffed, unchanged⟩ := mirrors.staffed.recvNtfn client
  obtain ⟨fuel, isFuel⟩ : ∃ fuel, everywhere = fuel + 1 + 1 := ⟨2 ^ 64 - 2, rfl⟩
  have turn := staffed.running
  have serving : domain.handlers (servant client) = .waiting (deployment.argOf client) :=
    mirrors.staffed.serving client rfl
  have sameServer : Domain.server deployment.toSetup { domain with world := woken } =
      domain.server deployment.toSetup := by
    rw [Domain.server, Domain.server, unchanged]
  have runs : Codis.notified deployment.toSetup client domain =
      (do
        let server ← handleRequest deployment.db (deployment.ipc client)
          (domain.server deployment.toSetup)
        let next ← ((Domain.setServer server { domain with world := woken }).notify
          client).waitOnChannel deployment.toSetup (deployment.argOf client)
        untilRoot deployment.toSetup (fuel + 1) next) := by
    rw [Codis.notified, library_eq_ok signals, isFuel]
    change untilRoot deployment.toSetup (fuel + 1 + 1) { domain with world := woken } = _
    rw [untilRoot, if_neg (by rw [turn]; exact (servant_pos client).ne'), clientHandler, turn]
    simp only [serving, sameServer]
    rw [bind_assoc]
    rfl
  rw [runs, ← mirrors.request? client, ← bind_pure (Database.request? _ _)]
  refine (handleRequest_meets mirrors.holds client).bind fun {request server} serves => ?_
  obtain ⟨next, waits, staffedAfter, waited⟩ :=
    (staffed.answered server client).waitOnChannel (by rw [Function.update_self])
  have back : untilRoot deployment.toSetup (fuel + 1) next = .ok next :=
    untilRoot_done staffedAfter.running
  refine Meets.of_ok (?_ : _ = Except.ok next) ⟨?_, ?_, fun other i below => ?_, ?_⟩
  · rw [waits]
    exact back
  · rwa [Function.update_idem, Function.update_eq_self_iff.mpr rfl] at staffedAfter
  · exact serves.holds.congr serves.holds.pages.symm waited.dataLen fun place _ =>
      congrFun waited.memory place
  · change next.world.memory _ = _
    rw [waited.memory]
    exact serves.pages mirrors.pages other below
  · rw [waited.notifications, Service.served, List.map_append, ← mirrors.notifications]
    rfl

/-- Neither do writes of clients to their pages disturb the server. -/
theorem Mirrors.written (mirrors : Mirrors deployment service domain) (client : Fin 3) (page : Page) :
    ∃ next, domain.receive deployment.toSetup (.written client page) = .ok next ∧
      Mirrors deployment { service with pages := Function.update service.pages client page } next := by
  refine ⟨_, rfl, ⟨mirrors.staffed.sound.forget _, mirrors.staffed.manned.forget _,
    mirrors.staffed.serving⟩, ?_, fun other i below => ?_, mirrors.notifications⟩
  · refine mirrors.holds.congr rfl rfl fun place inDb => if_neg fun within => ?_
    exact deployment.apart client place within inDb
  · have within : Within (deployment.ipc other) bucketSize (deployment.ipc other + BitVec.ofNat 64 i) :=
      within_add below (by decide)
    change (if Within (deployment.ipc client) bucketSize (deployment.ipc other + BitVec.ofNat 64 i) then
        page (deployment.ipc other + BitVec.ofNat 64 i - deployment.ipc client).toNat
      else domain.world.memory (deployment.ipc other + BitVec.ofNat 64 i)) =
        Function.update service.pages client page other i
    by_cases same : other = client
    · subst same
      rw [Function.update_self, if_pos within, toNat_add_ofNat_sub (below.trans (by decide))]
    · have away : ¬ Within (deployment.ipc client) bucketSize _ :=
        @Layout.ipcs_apart deployment.toLayout other _ client (Ne.symm same) within
      rw [Function.update_of_ne same, if_neg away]
      exact mirrors.pages other i below

/-- The server does on an event what the service does. -/
theorem Mirrors.receive (mirrors : Mirrors deployment service domain) (event : Event) :
    Meets (Mirrors deployment) Mishap.Stray (service.receive event)
      (domain.receive deployment.toSetup event) := by
  cases event with
  | written client page =>
    obtain ⟨next, written, after⟩ := mirrors.written client page
    exact .of_ok written after
  | notified client => exact (mirrors.notified client).map

end Libmicrokitco.Codis
