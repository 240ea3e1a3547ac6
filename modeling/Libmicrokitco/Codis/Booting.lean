import Libmicrokitco.Codis.Staff

/-!
# Initialising the server

`init` clears the database, spawns a cothread for each client and lets them run
until all of them wait. The cothreads read their arguments from the frame of
`init`, and they do so before it returns.
-/

namespace Libmicrokitco.Codis

open CString Sched

/-- A stage of `init` after the database has been cleared, which left `contents`
in the memory. The cothreads in `turns` have not run yet. -/
structure Domain.Booting (deployment : Deployment) (contents : Memory) (turns : List Int)
    (waiting : Fin 3 → Bool) (domain : Domain) : Prop
    extends Domain.Staffed deployment.toSetup turns waiting domain where
  entered : ∀ client, servant client ∈ turns → domain.handlers (servant client) = .entered
  args : ∀ client, servant client ∈ turns →
    domain.world.view.privateArg (servant client) = deployment.arg client
  frame : ∀ client, servant client ∈ turns →
    domain.frame (deployment.arg client) = some (deployment.argOf client)
  memory : ∀ place, (∀ i < 3, ¬ StackBytes 0x2000#64 (deployment.stack i) place) →
    domain.world.memory place = contents place
  dataLen : domain.dataLen = fun _ => 0
  notifications : domain.notifications = []

variable {deployment : Deployment} {domain : Domain} {contents : Memory} {turns rest : List Int}
  {waiting : Fin 3 → Bool} {client : Fin 3} {g : Int} {free : List Int}

namespace Domain.Booting

/-- A cothread reads its argument and waits for its client. -/
theorem turn (booting : domain.Booting deployment contents (servant client :: g :: rest) waiting)
    (away : waiting client = false) :
    ∃ next, clientHandler deployment.toSetup domain = .ok next ∧
      Booting deployment contents (g :: rest) (Function.update waiting client true) next := by
  have first : servant client ∈ servant client :: g :: rest := List.mem_cons_self
  obtain ⟨fresh, -⟩ := List.nodup_cons.mp booting.manned.nodup
  have running := booting.running
  have positive := servant_pos client
  have myArg : microkitCothreadMyArg domain.world = .ok (deployment.arg client) := by
    rw [microkitCothreadMyArg, running, if_neg positive.ne']
    exact congrArg Except.ok (booting.args client first)
  obtain ⟨next, waits, staffed, waited⟩ := booting.waitOnChannel away
  have others : ∀ other, servant other ∈ g :: rest → other ≠ client := by
    rintro other member rfl
    exact fresh member
  refine ⟨next, ?_, staffed, fun other member => ?_, fun other member => ?_, fun other member => ?_,
    fun place outside => ?_, waited.dataLen.trans booting.dataLen,
    waited.notifications.trans booting.notifications⟩
  · rw [clientHandler, running, booting.entered client first]
    simp only [library_eq_ok myArg, bind, Except.bind, Domain.readArg, booting.frame client first]
    exact waits
  · rw [waited.handlers other (others other member)]
    exact booting.entered other (List.mem_cons_of_mem _ member)
  · rw [waited.privateArg]
    exact booting.args other (List.mem_cons_of_mem _ member)
  · rw [waited.frame]
    exact booting.frame other (List.mem_cons_of_mem _ member)
  · rw [waited.memory]
    exact booting.memory place outside

/-- The root starts the cothread for a client. -/
theorem start (booting : domain.Booting deployment contents (0 :: rest) fun _ => false)
    (stacked : World.Stacked deployment.config 0x2000#64 deployment.stack domain.world)
    (isFree : domain.world.view.free = servant client :: free) (room : rest.length < 4) :
    ∃ next, startHandler deployment.toSetup client domain = .ok next ∧
      next.Booting deployment contents (0 :: (rest ++ [servant client])) (fun _ => false) ∧
      World.Stacked deployment.config 0x2000#64 deployment.stack next.world ∧
      next.world.view.free = free := by
  have sound := booting.sound
  have handles := deployment.fourCothreads
  obtain ⟨sched, spawns, manned, freeAfter, privateArg⟩ := booting.manned.spawn sound.sound
    deployment.handlerNonNull (deployment.arg client) isFree (by omega)
  have listed : domain.world.view.step deployment.config
      (.spawn deployment.clientHandler (deployment.arg client)) =
        .ok (.handle (servant client), sched) := by
    rw [Sched.step, spawns]
    rfl
  obtain ⟨world, stepped, rfl, soundAfter⟩ := sound.realise (sparing_of_plain ⟨rfl, rfl⟩) listed
  obtain ⟨⟨handle, spawned⟩, returned, same⟩ := map_eq_ok.mp stepped
  cases same
  have nonNull : servant client ≠ nullHandle := positive_ne_nullHandle (servant_pos client)
  have storage : (domain.world.coController.tcbs (servant client)).localStorage =
      deployment.stack client := stacked.storage client (by omega)
  obtain ⟨-, outside⟩ := stacked.memory_of_spawn deployment.shipped.confined (by decide) (by decide)
    (fun i below => deployment.stackFits i (by omega)) stepped nonNull
  have earlier : ∀ other, servant other ∈ 0 :: (rest ++ [servant client]) → other ≠ client →
      servant other ∈ 0 :: rest := by
    intro other member different
    have notLast : servant other ∉ [servant client] := by
      simpa using servant_injective.ne different
    rw [← List.cons_append] at member
    exact (List.mem_append.mp member).resolve_right notLast
  refine ⟨{ domain.setHandler (servant client) .entered with
      world := world
      frame := Function.update domain.frame (deployment.arg client) (some (deployment.argOf client)) },
    ?_, ⟨⟨soundAfter, manned, fun other sleeps => ?_⟩, fun other member => ?_,
    fun other member => ?_, fun other member => ?_, fun place notInStack => ?_, booting.dataLen,
    booting.notifications⟩, stacked.step stepped, freeAfter⟩
  · rw [startHandler, library_eq_ok returned]
    simp only [bind, Except.bind, if_neg nonNull]
    rfl
  · cases sleeps
  · change Function.update domain.handlers (servant client) _ (servant other) = _
    by_cases same : other = client
    · rw [same, Function.update_self]
    · rw [Function.update_of_ne (servant_injective.ne same)]
      exact booting.entered other (earlier other member same)
  · change world.view.privateArg (servant other) = _
    rw [privateArg]
    by_cases same : other = client
    · rw [same, Function.update_self]
    · rw [Function.update_of_ne (servant_injective.ne same)]
      exact booting.args other (earlier other member same)
  · change Function.update domain.frame (deployment.arg client) _ (deployment.arg other) = _
    by_cases same : other = client
    · rw [same, Function.update_self]
    · rw [Function.update_of_ne (deployment.argDistinct.ne same)]
      exact booting.frame other (earlier other member same)
  · change world.memory place = _
    rw [outside place (by rw [storage]; exact notInStack client client.isLt)]
    exact booting.memory place notInStack

/-- The root lets the first of them run. -/
theorem yield (booting : domain.Booting deployment contents (0 :: g :: rest) waiting)
    (room : rest.length + 1 < 4) :
    ∃ world, microkitCothreadYield domain.world = .ok world ∧
      Booting deployment contents (g :: (rest ++ [0])) waiting { domain with world := world } := by
  have sound := booting.sound
  have handles := deployment.fourCothreads
  obtain ⟨sched, yields, manned, memory, privateArg⟩ :=
    booting.manned.yield sound.sound sound.contexts (by omega)
  have listed : domain.world.view.step deployment.config .yield = .ok (.unit, sched) := by
    rw [Sched.step, yields]
    rfl
  obtain ⟨world, returned, rfl, soundAfter⟩ :=
    sound.realise_returning (sparing_of_plain ⟨rfl, rfl⟩) rfl listed
  have earlier : ∀ client, servant client ∈ g :: (rest ++ [0]) → servant client ∈ 0 :: g :: rest := by
    intro client member
    have notRoot : servant client ∉ [(0 : Int)] := by
      simpa using (servant_pos client).ne'
    rw [← List.cons_append] at member
    exact List.mem_cons_of_mem _ ((List.mem_append.mp member).resolve_right notRoot)
  refine ⟨world, returned, ⟨soundAfter, manned, booting.serving⟩,
    fun client member => booting.entered client (earlier client member), fun client member => ?_,
    fun client member => booting.frame client (earlier client member), fun place outside => ?_,
    booting.dataLen, booting.notifications⟩
  · change world.view.privateArg (servant client) = _
    rw [privateArg]
    exact booting.args client (earlier client member)
  · change world.view.memory place = _
    rw [memory]
    exact booting.memory place outside

end Domain.Booting

/-- The stacks of the deployment are as `microkit_cothread_init` wants them. -/
theorem Deployment.init_returns (deployment : Deployment) (clientSems : Nat → CothreadSem)
    (memory : Memory) :
    ∃ world, microkitCothreadInit deployment.config none clientSems memory 0x2000#64
      deployment.stack = .ok world := by
  have handles := deployment.fourCothreads
  exact Libmicrokitco.init_returns (by decide) (fun i below => deployment.stackFits i (by omega))
    (fun i below => deployment.stackNonNull i (by omega))
    fun i iBelow j jBelow => deployment.stacksDisjoint i (by omega) j (by omega)

/-- What `init` has before it spawns. -/
theorem booting_of_init {clientSems : Nat → CothreadSem} {world : World}
    (success : microkitCothreadInit deployment.config none clientSems contents 0x2000#64
      deployment.stack = .ok world) :
    Domain.Booting deployment contents [0] (fun _ => false)
        { world := world, dataLen := fun _ => 0, handlers := fun _ => .entered
          frame := fun _ => none, notifications := [] } ∧
      World.Stacked deployment.config 0x2000#64 deployment.stack world ∧
      world.view.free = [servant 0, servant 1, servant 2] := by
  have started : Started deployment.config world := ⟨_, _, _, _, success⟩
  obtain ⟨-, initial⟩ := started.initial
  have handles := deployment.fourCothreads
  have notRoot : ∀ {client}, servant client ∉ [(0 : Int)] := by
    intro client
    simpa using (servant_pos client).ne'
  refine ⟨⟨⟨started.sound, ⟨?_, List.nodup_singleton 0, fun h member => ?_, fun client => ?_,
    fun client sleeps => ?_, fun client present => ?_⟩, fun client sleeps => ?_⟩,
    fun client member => absurd member notRoot, fun client member => absurd member notRoot,
    fun client member => absurd member notRoot, fun place outside => ?_, rfl, rfl⟩,
    init_stacked success, ?_⟩
  · change world.view.running :: world.view.queue = [0]
    rw [initial.running, initial.queue]
  · change h ∈ world.view.queue at member
    rw [initial.queue] at member
    cases member
  · exact initial.channels client (Domain.Staffed.channel_live deployment client)
  · cases sleeps
  · rcases present with sleeps | member
    · cases sleeps
    · exact absurd member notRoot
  · cases sleeps
  · exact init_memory_outside success fun i below => outside i (by omega)
  · rw [initial.free, spawnableHandles, handles]
    rfl

section Booted

variable {memory : Memory}

/-- Every cothread has run and waits. -/
theorem Domain.Booting.mirrors
    (booting : domain.Booting deployment
      (cleared deployment.db (BitVec.ofNat 64 (nBuckets * bucketSize)) memory) [0] fun _ => true) :
    Mirrors deployment (.opened (deployment.pagesOf memory)) { domain with frame := fun _ => none } := by
  have size : (BitVec.ofNat 64 (nBuckets * bucketSize)).toNat = nBuckets * bucketSize := rfl
  have zero : ∀ place, Within deployment.db (nBuckets * bucketSize) place →
      domain.world.memory place = 0#8 := by
    intro place within
    rw [booting.memory place fun i below inside =>
      (deployment.stackApart i below place inside).1 within, cleared, size]
    exact if_pos within
  refine ⟨⟨booting.sound, booting.manned, booting.serving⟩, ⟨rfl, fun bucket => ?_, fun bucket => ?_⟩,
    fun client i below => ?_, booting.notifications⟩
  · refine ⟨fun i le => ?_, Text.empty.nonzero, ?_⟩
    · obtain rfl := Nat.le_zero.mp le
      refine zero _ (@Layout.within_db deployment.toLayout bucket _ ?_)
      exact within_add (by decide) (by decide)
    · exact (deployment.bucketAt bucket).isLt
  · exact congrFun booting.dataLen bucket
  · have within : Within (deployment.ipc client) bucketSize (deployment.ipc client + BitVec.ofNat 64 i) :=
      within_add below (by decide)
    change domain.world.memory _ = memory _
    rw [booting.memory _ fun j belowToo inside =>
      (deployment.stackApart j belowToo _ inside).2 client within, cleared, size]
    exact if_neg (deployment.apart client _ within)

/-- `init` returns to the event loop with every cothread waiting for its client. -/
theorem init_mirrors (deployment : Deployment) (clientSems : Nat → CothreadSem) (memory : Memory) :
    ∃ booted, init deployment.toSetup clientSems memory = .ok booted ∧
      Mirrors deployment (.opened (deployment.pagesOf memory)) booted := by
  have maps : AddressSpace.Maps ⟨deployment.pages, memory⟩ deployment.db (nBuckets * bucketSize) :=
    fun place within => deployment.dbMapped place within
  have clears := memzero_mapped (n := BitVec.ofNat 64 (nBuckets * bucketSize)) maps (by decide)
  obtain ⟨world, initialised⟩ := deployment.init_returns clientSems
    (cleared deployment.db (BitVec.ofNat 64 (nBuckets * bucketSize)) memory)
  obtain ⟨booting, stacked, free⟩ := booting_of_init initialised
  obtain ⟨first, starts, booting, stacked, free⟩ := booting.start stacked free (by decide)
  obtain ⟨second, startsSecond, booting, stacked, free⟩ := booting.start stacked free (by decide)
  obtain ⟨third, startsThird, booting, -, -⟩ := booting.start stacked free (by decide)
  obtain ⟨yielded, yields, booting⟩ := booting.yield (by decide)
  have running := booting.running
  obtain ⟨waitsFirst, turn, booting⟩ := booting.turn rfl
  have runningSecond := booting.running
  obtain ⟨waitsSecond, turnSecond, booting⟩ := booting.turn rfl
  have runningThird := booting.running
  obtain ⟨waitsThird, turnThird, booting⟩ := booting.turn rfl
  refine ⟨{ waitsThird with frame := fun _ => none }, ?_, ?_⟩
  · obtain ⟨fuel, isFuel⟩ : ∃ fuel, everywhere = fuel + 1 + 1 + 1 + 1 := ⟨2 ^ 64 - 4, rfl⟩
    rw [init, clears]
    simp only [bind, Except.bind, library_eq_ok initialised, starts, startsSecond, startsThird,
      library_eq_ok yields, isFuel]
    rw [untilRoot_turn (by rw [running]; exact (servant_pos 0).ne') turn,
      untilRoot_turn (by rw [runningSecond]; exact (servant_pos 1).ne') turnSecond,
      untilRoot_turn (by rw [runningThird]; exact (servant_pos 2).ne') turnThird,
      untilRoot_done booting.running]
    rfl
  · apply Domain.Booting.mirrors
    have all : Function.update (Function.update (Function.update (fun _ : Fin 3 => false) 0 true) 1
        true) 2 true = fun _ => true := by
      funext client
      revert client
      decide
    rw [← all]
    exact booting

end Booted

end Libmicrokitco.Codis
