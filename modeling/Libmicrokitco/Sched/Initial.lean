import Libmicrokitco.Sched.Refinement
import Libmicrokitco.Semantics.Loops

/-!
# The state `microkit_cothread_init` establishes

Each loop of the initialisation has its invariant here; `Started.initial` puts
them together into the list reading every run starts from.
-/

namespace Libmicrokitco

/-- The handles `1, 2, ..., LIBMICROKITCO_MAX_COTHREADS - 1`. -/
def spawnableHandles (config : Config) : List Int :=
  (List.range' 1 (config.maxCothreads - 1)).map fun i : Nat => (i : Int)

theorem mem_spawnableHandles {config : Config} {h : Int} :
    h ∈ spawnableHandles config ↔ 0 < h ∧ h < config.maxCothreads := by
  rw [spawnableHandles, List.mem_map]
  constructor
  · rintro ⟨i, member, rfl⟩
    rw [List.mem_range'_1] at member
    omega
  · rintro ⟨positive, below⟩
    refine ⟨h.toNat, ?_, by omega⟩
    rw [List.mem_range'_1]
    omega

/-- The list reading after initialisation: the root runs, every other handle is
free, and nothing is queued or waiting. -/
structure Sched.Initial (config : Config) (sched : Sched) : Prop where
  running : sched.running = 0
  state : ∀ h, sched.state h = if h = 0 then .running else .notActive
  link : ∀ h, sched.link h = if h = 0 then nullHandle else 0
  queue : sched.queue = []
  free : sched.free = spawnableHandles config
  channels : ∀ ch < config.maxChannels, sched.sem (.channel ch) = ⟨false, nullHandle, nullHandle⟩
  initialised : ∀ id, sched.initialised id = false
  coHandle : ∀ h, sched.coHandle h = if h = 0 then .rootBuffer else .null
  libco : sched.libco = Libco.atStart
  storage : ∀ g h : Int, 0 < g → g < config.maxCothreads → 0 < h → h < config.maxCothreads →
    sched.localStorage g = sched.localStorage h → g = h

/-- After `done` iterations of the first loop over the stacks. -/
private structure StacksRecorded (coStackSize : BitVec 64) (coStacks : Nat → Address) (done : Nat)
    (world : World) : Prop where
  tcbs : ∀ h, world.coController.tcbs h =
    if 0 < h ∧ h ≤ done then { CoTcb.zeroed with localStorage := coStacks (h.toNat - 1) }
    else CoTcb.zeroed
  initialised : world.initialised = fun _ => false
  libco : world.libco = Libco.atStart
  coStackSizeEq : world.coController.coStackSize = coStackSize.setWidth 32
  nonNull : ∀ i, 0 < i → i ≤ done → coStacks (i - 1) ≠ 0#64
  fits : ∀ i, 0 < i → i ≤ done →
    (coStacks (i - 1)).toNat + coStackSize.toNat ≤ 2 ^ 64

private theorem initStack_recorded {coStackSize : BitVec 64} {coStacks : Nat → Address} {done : Nat}
    {world next : World} (before : StacksRecorded coStackSize coStacks done world)
    (ended : initStack coStackSize coStacks world (1 + done) = .ok next) :
    StacksRecorded coStackSize coStacks (done + 1) next := by
  unfold initStack at ended
  simp only at ended
  split at ended
  · cases ended
  split at ended
  · cases ended
  rename_i nonNull inside
  cases ended
  refine ⟨?_, before.initialised, before.libco, before.coStackSizeEq, ?_, ?_⟩
  · intro h
    by_cases current : h = ((1 + done : Nat) : Int)
    · have fresh := before.tcbs ((1 + done : Nat) : Int)
      rw [if_neg (by omega)] at fresh
      subst current
      rw [if_pos (by omega)]
      simp only [Function.update_self, fresh, Int.toNat_natCast]
    · have old := before.tcbs h
      simp only [Function.update_of_ne current, old]
      by_cases earlier : 0 < h ∧ h ≤ done
      · rw [if_pos earlier, if_pos (by omega)]
      · rw [if_neg earlier, if_neg (by omega)]
  · intro i positive bounded
    by_cases current : i = 1 + done
    · subst current
      exact nonNull
    · exact before.nonNull i positive (by omega)
  · intro i positive bounded
    by_cases current : i = 1 + done
    · subst current
      omega
    · exact before.fits i positive (by omega)

/-- The first loop starts with nothing recorded. -/
private theorem stacksRecorded_zero (coStackSize : BitVec 64) (coStacks : Nat → Address)
    (clientSems : Nat → CothreadSem) (memory : Memory) :
    StacksRecorded coStackSize coStacks 0
      { coController := { CoControl.zeroed with coStackSize := coStackSize.setWidth 32 }
        clientSems := clientSems
        initialised := fun _ => false
        libco := Libco.atStart
        memory := memory } := by
  refine ⟨fun h => ?_, rfl, rfl, rfl, fun i positive none => ?_, fun i positive none => ?_⟩
  · rw [if_neg (by omega)]
    rfl
  · omega
  · omega

/-- A stack that is not `NULL` and fits into the address space is recorded. -/
private theorem initStack_total {coStackSize : BitVec 64} {coStacks : Nat → Address} {done : Nat}
    {world : World} (before : StacksRecorded coStackSize coStacks done world)
    (nonNull : coStacks done ≠ 0#64) (fits : (coStacks done).toNat + coStackSize.toNat ≤ 2 ^ 64) :
    ∃ next, initStack coStackSize coStacks world (1 + done) = .ok next ∧
      StacksRecorded coStackSize coStacks (done + 1) next := by
  have index : 1 + done - 1 = done := by omega
  have returns : ∃ next, initStack coStackSize coStacks world (1 + done) = .ok next := by
    unfold initStack
    simp only [index]
    rw [if_neg nonNull, if_neg (by omega)]
    exact ⟨_, rfl⟩
  obtain ⟨next, ended⟩ := returns
  exact ⟨next, ended, initStack_recorded before ended⟩

/-- Two stacks of the same size share no byte. -/
def StacksDisjoint (coStackSize : BitVec 64) (left right : Address) : Prop :=
  left.toNat + coStackSize.toNat ≤ right.toNat ∨ right.toNat + coStackSize.toNat ≤ left.toNat

/-- The overlap check passes exactly disjoint stacks, for stacks inside the
address space. -/
theorem initCheckOverlap_ok_iff {coStackSize : BitVec 64} {controller : CoControl} {i j : Nat}
    (large : minimumStackSize ≤ coStackSize)
    (iFits : (controller.tcbs i).localStorage.toNat + coStackSize.toNat ≤ 2 ^ 64)
    (jFits : (controller.tcbs j).localStorage.toNat + coStackSize.toNat ≤ 2 ^ 64) :
    initCheckOverlap coStackSize controller i j = .ok () ↔
      (j ≠ i → StacksDisjoint coStackSize (controller.tcbs i).localStorage
        (controller.tcbs j).localStorage) := by
  unfold initCheckOverlap StacksDisjoint
  generalize (controller.tcbs i).localStorage = this at *
  generalize (controller.tcbs j).localStorage = other at *
  have ends : ∀ start : Address, start.toNat + coStackSize.toNat ≤ 2 ^ 64 →
      (start + coStackSize - 1#64).toNat = start.toNat + coStackSize.toNat - 1 := by
    intro start fits
    simp only [minimumStackSize] at large
    bv_omega
  have positive : 0 < coStackSize.toNat := by
    simp only [minimumStackSize] at large
    bv_omega
  simp only [BitVec.le_def, ends this iFits, ends other jFits]
  split
  case isTrue overlap =>
    simp only [reduceCtorEq, false_iff]
    omega
  case isFalse disjoint =>
    simp only [true_iff]
    omega

/-- After `done` free handles have been queued. -/
private structure HandlesQueued (config : Config) (start : CoControl) (done : Nat)
    (controller : CoControl) : Prop where
  rings : controller.RingsWellFormed config
  free : controller.freeHandleQueue.live controller.freeHandleQueueMem =
    (List.range' 1 done).map fun i : Nat => (i : Int)
  rest : controller = { start with
    freeHandleQueue := controller.freeHandleQueue
    freeHandleQueueMem := controller.freeHandleQueueMem }

private theorem initFreeHandle_queued {config : Config} {start controller : CoControl} {done : Nat}
    (below : done < config.maxCothreads - 1)
    (before : HandlesQueued config start done controller) :
    ∃ next, initFreeHandle controller (1 + done) = .ok next ∧
      HandlesQueued config start (done + 1) next := by
  have room : (controller.freeHandleQueue.live controller.freeHandleQueueMem).length ≠
      controller.freeHandleQueue.capacity.toNat := by
    rw [before.free, before.rings.freeCapacity]
    simp
    omega
  obtain ⟨pushed, cells, success, wellFormed, capacity, appended⟩ :=
    before.rings.free.push_of_room room ((1 + done : Nat) : Int)
  refine ⟨{ controller with freeHandleQueue := pushed, freeHandleQueueMem := cells }, ?_, ?_⟩
  · rw [initFreeHandle, CoControl.pushFreeHandleQueue, success]
  · refine ⟨⟨wellFormed, by rw [capacity, before.rings.freeCapacity], before.rings.scheduling,
      before.rings.schedulingCapacity⟩, ?_, ?_⟩
    · change pushed.live cells = _
      rw [appended, before.free, List.range'_concat, Nat.one_mul, List.map_append]
      rfl
    · conv_lhs => rw [before.rest]

private theorem initQueues_spec (config : Config) (controller : CoControl) :
    ∃ queues, initQueues config controller = .ok queues ∧ HandlesQueued config queues 0 queues ∧
      queues.schedulingQueue.live queues.schedulingQueueMem = [] ∧
      queues = { controller with
        freeHandleQueue := queues.freeHandleQueue
        schedulingQueue := queues.schedulingQueue } := by
  have capacity : (BitVec.ofNat 32 config.maxCothreads).toNat = config.maxCothreads := by
    have := config.fitsInt
    rw [BitVec.toNat_ofNat]
    omega
  have positive : 0 < (BitVec.ofNat 32 config.maxCothreads).toNat := by
    have := config.atLeastTwo
    omega
  obtain ⟨free, freeMade, freeWellFormed, freeCapacity, freeEmpty⟩ :=
    HostedQueue.init_spec (α := Int) controller.freeHandleQueue positive
  obtain ⟨scheduling, schedulingMade, schedulingWellFormed, schedulingCapacity, schedulingEmpty⟩ :=
    HostedQueue.init_spec (α := Int) controller.schedulingQueue positive
  refine ⟨{ controller with freeHandleQueue := free, schedulingQueue := scheduling }, ?_,
    ⟨⟨freeWellFormed, ?_, schedulingWellFormed, ?_⟩, ?_, rfl⟩, ?_, rfl⟩
  · rw [initQueues, freeMade, schedulingMade]
    rfl
  · rw [freeCapacity, capacity]
  · rw [schedulingCapacity, capacity]
  · exact freeEmpty _
  · exact schedulingEmpty _

/-- The last loop initialises every channel semaphore. -/
private theorem initBlockedTable_channel (config : Config) (controller : CoControl) {ch : Nat}
    (below : ch < config.maxChannels) :
    (initBlockedTable config controller).blockedChannelMap ch =
      ⟨false, nullHandle, nullHandle⟩ := by
  have filled : ∀ (count : Nat) (table : Nat → CothreadSem), ch < count →
      (List.range count).foldl
        (fun table i => Function.update table i (microkitCothreadSemaphoreInit (table i))) table
        ch = ⟨false, nullHandle, nullHandle⟩ := by
    intro count
    induction count with
    | zero => intro table impossible; omega
    | succ count ih =>
      intro table bounded
      rw [List.range_succ, List.foldl_append]
      by_cases last : ch = count
      · subst last
        simp [microkitCothreadSemaphoreInit]
      · simp only [List.foldl_cons, List.foldl_nil, Function.update_of_ne last]
        exact ih table (by omega)
  exact filled config.maxChannels _ below

variable {config : Config} {clientSems : Nat → CothreadSem} {memory : Memory}
  {coStackSize : BitVec 64} {coStacks : Nat → Address} {world : World}

/-- The stages of a successful initialisation. -/
private theorem init_stages
    (success : microkitCothreadInit config none clientSems memory coStackSize coStacks = .ok world) :
    minimumStackSize ≤ coStackSize ∧ ∃ probed queues filled,
      StacksRecorded coStackSize coStacks (config.maxCothreads - 1) probed ∧
      (∀ i ∈ List.range' 1 (config.maxCothreads - 1), ∀ j ∈ List.range' 1 (config.maxCothreads - 1),
        initCheckOverlap coStackSize probed.coController i j = .ok ()) ∧
      HandlesQueued config queues (config.maxCothreads - 1) filled ∧
      queues.schedulingQueue.live queues.schedulingQueueMem = [] ∧
      queues = { initRootThread probed.libco.coActive probed.coController with
        freeHandleQueue := queues.freeHandleQueue
        schedulingQueue := queues.schedulingQueue } ∧
      world = { probed with coController := initBlockedTable config filled } := by
  unfold microkitCothreadInit at success
  split at success
  · cases success
  split at success
  · cases success
  rename_i _ large
  rw [BitVec.not_lt] at large
  obtain ⟨probed, recorded, success⟩ := bind_eq_ok.mp success
  obtain ⟨_, checked, success⟩ := bind_eq_ok.mp success
  obtain ⟨queues, made, success⟩ := bind_eq_ok.mp success
  obtain ⟨filled, populated, success⟩ := bind_eq_ok.mp success
  cases success
  have storage : StacksRecorded coStackSize coStacks (config.maxCothreads - 1) probed := by
    exact foldlM_range'_invariant (stacksRecorded_zero _ _ _ _)
      (fun _ before ended => initStack_recorded before ended) recorded
  have overlap : ∀ i ∈ List.range' 1 (config.maxCothreads - 1),
      ∀ j ∈ List.range' 1 (config.maxCothreads - 1),
        initCheckOverlap coStackSize probed.coController i j = .ok () := by
    intro i iMember
    exact forM_ok_iff.mp (forM_ok_iff.mp checked i iMember)
  obtain ⟨queues', made', queued, schedulingEmpty, queuesRest⟩ := initQueues_spec config
    (initRootThread probed.libco.coActive probed.coController)
  cases made.symm.trans made'
  obtain ⟨filled', populated', handles⟩ := foldlM_range'_total queued
    fun below before => initFreeHandle_queued below before
  cases populated.symm.trans populated'
  exact ⟨large, probed, queues, filled, storage, overlap, handles, schedulingEmpty, queuesRest, rfl⟩

/-- Every stage of the initialisation succeeds on stacks that are not `NULL`, fit
and are disjoint. -/
theorem init_returns (large : minimumStackSize ≤ coStackSize)
    (fits : ∀ i < config.maxCothreads - 1, (coStacks i).toNat + coStackSize.toNat ≤ 2 ^ 64)
    (nonNull : ∀ i < config.maxCothreads - 1, coStacks i ≠ 0#64)
    (disjoint : ∀ i < config.maxCothreads - 1, ∀ j < config.maxCothreads - 1, j ≠ i →
      StacksDisjoint coStackSize (coStacks i) (coStacks j)) :
    ∃ world, microkitCothreadInit config none clientSems memory coStackSize coStacks = .ok world := by
  obtain ⟨probed, recorded, storage⟩ := foldlM_range'_total
    (stacksRecorded_zero coStackSize coStacks clientSems memory)
    fun below before => initStack_total before (nonNull _ below) (fits _ below)
  have read : ∀ i ∈ List.range' 1 (config.maxCothreads - 1),
      (probed.coController.tcbs i).localStorage = coStacks (i - 1) ∧ i - 1 < config.maxCothreads - 1 ∧
        0 < i := by
    intro i member
    rw [List.mem_range'_1] at member
    have recordedHere := storage.tcbs i
    rw [if_pos (by omega)] at recordedHere
    refine ⟨?_, by omega, by omega⟩
    rw [recordedHere, Int.toNat_natCast]
  have checked : ((List.range' 1 (config.maxCothreads - 1)).forM fun i =>
      (List.range' 1 (config.maxCothreads - 1)).forM fun j =>
        initCheckOverlap coStackSize probed.coController i j) = .ok () := by
    refine forM_ok_iff.mpr fun i iMember => forM_ok_iff.mpr fun j jMember => ?_
    obtain ⟨iRead, iBelow, iPositive⟩ := read i iMember
    obtain ⟨jRead, jBelow, jPositive⟩ := read j jMember
    rw [initCheckOverlap_ok_iff large (by rw [iRead]; exact fits _ iBelow)
      (by rw [jRead]; exact fits _ jBelow), iRead, jRead]
    exact fun different => disjoint _ iBelow _ jBelow (by omega)
  obtain ⟨queues, made, queued, -, -⟩ := initQueues_spec config
    (initRootThread probed.libco.coActive probed.coController)
  obtain ⟨filled, populated, -⟩ := foldlM_range'_total queued
    fun below before => initFreeHandle_queued below before
  refine ⟨{ probed with coController := initBlockedTable config filled }, ?_⟩
  unfold microkitCothreadInit
  rw [if_neg (by decide), if_neg (by rw [BitVec.not_lt]; exact large)]
  refine bind_eq_ok.mpr ⟨probed, recorded, ?_⟩
  refine bind_eq_ok.mpr ⟨(), checked, ?_⟩
  refine bind_eq_ok.mpr ⟨queues, made, ?_⟩
  exact bind_eq_ok.mpr ⟨filled, populated, rfl⟩

/-- What a successful initialisation knows of the stacks it was given. -/
structure StacksAccepted (config : Config) (coStackSize : BitVec 64) (coStacks : Nat → Address)
    (world : World) : Prop where
  large : minimumStackSize ≤ coStackSize
  nonNull : ∀ i < config.maxCothreads - 1, coStacks i ≠ 0#64
  fits : ∀ i < config.maxCothreads - 1, (coStacks i).toNat + coStackSize.toNat ≤ 2 ^ 64
  disjoint : ∀ i < config.maxCothreads - 1, ∀ j < config.maxCothreads - 1, j ≠ i →
    StacksDisjoint coStackSize (coStacks i) (coStacks j)
  localStorage : ∀ i < config.maxCothreads - 1,
    (world.coController.tcbs ((i + 1 : Nat) : Int)).localStorage = coStacks i
  size : world.coController.coStackSize = coStackSize.setWidth 32

theorem init_accepted
    (success : microkitCothreadInit config none clientSems memory coStackSize coStacks = .ok world) :
    StacksAccepted config coStackSize coStacks world := by
  obtain ⟨large, probed, queues, filled, storage, overlap, handles, -, queuesRest, rfl⟩ :=
    init_stages success
  have read : ∀ i < config.maxCothreads - 1,
      (probed.coController.tcbs ((i + 1 : Nat) : Int)).localStorage = coStacks i := by
    intro i below
    rw [storage.tcbs, if_pos (by omega), Int.toNat_natCast, Nat.add_sub_cancel]
  have fits : ∀ i < config.maxCothreads - 1,
      (coStacks i).toNat + coStackSize.toNat ≤ 2 ^ 64 := by
    intro i below
    exact storage.fits (i + 1) (Nat.succ_pos i) below
  constructor
  case large => exact large
  case nonNull =>
    intro i below
    exact storage.nonNull (i + 1) (Nat.succ_pos i) below
  case fits => exact fits
  case disjoint =>
    intro i iBelow j jBelow different
    have checked := overlap (i + 1) (List.mem_range'_1.mpr (by omega)) (j + 1)
      (List.mem_range'_1.mpr (by omega))
    rw [initCheckOverlap_ok_iff large (by rw [read i iBelow]; exact fits i iBelow)
      (by rw [read j jBelow]; exact fits j jBelow), read i iBelow, read j jBelow] at checked
    exact checked (by omega)
  case localStorage =>
    intro i below
    have sameTcbs : filled.tcbs = (initRootThread probed.libco.coActive probed.coController).tcbs := by
      rw [handles.rest, queuesRest]
    change (filled.tcbs ((i + 1 : Nat) : Int)).localStorage = _
    rw [sameTcbs]
    have notRoot : ((i + 1 : Nat) : Int) ≠ rootThread := by
      change ((i + 1 : Nat) : Int) ≠ 0
      omega
    have untouched : (initRootThread probed.libco.coActive probed.coController).tcbs
        ((i + 1 : Nat) : Int) = probed.coController.tcbs ((i + 1 : Nat) : Int) := by
      simp only [initRootThread, Function.update_of_ne notRoot]
    rw [untouched, read i below]
  case size =>
    change filled.coStackSize = _
    rw [handles.rest, queuesRest]
    exact storage.coStackSizeEq

/-- Different handles have different stacks. -/
theorem StacksAccepted.storage_injective (accepted : StacksAccepted config coStackSize coStacks world)
    {g h : Int} (gPositive : 0 < g) (gBelow : g < config.maxCothreads) (hPositive : 0 < h)
    (hBelow : h < config.maxCothreads)
    (same : (world.coController.tcbs g).localStorage = (world.coController.tcbs h).localStorage) :
    g = h := by
  obtain ⟨i, rfl⟩ : ∃ i : Nat, g = ((i + 1 : Nat) : Int) := ⟨(g - 1).toNat, by omega⟩
  obtain ⟨j, rfl⟩ : ∃ j : Nat, h = ((j + 1 : Nat) : Int) := ⟨(h - 1).toNat, by omega⟩
  rw [accepted.localStorage i (by omega), accepted.localStorage j (by omega)] at same
  by_contra different
  have disjoint := accepted.disjoint i (by omega) j (by omega) (by omega)
  have positive : 0 < coStackSize.toNat :=
    lt_of_lt_of_le (by decide) (BitVec.le_def.mp accepted.large)
  unfold StacksDisjoint at disjoint
  rw [same] at disjoint
  omega

/-- A successful initialisation establishes the initial list reading. -/
theorem Started.initial (started : Started config world) :
    Represents config world world.view ∧ world.view.Initial config := by
  obtain ⟨clientSems, memory, coStackSize, coStacks, success⟩ := started
  have accepted := init_accepted success
  obtain ⟨-, probed, queues, filled, storage, -, handles, schedulingEmpty, queuesRest, rfl⟩ :=
    init_stages success
  have tcbs : filled.tcbs = (initRootThread probed.libco.coActive probed.coController).tcbs := by
    have queuesTcbs : queues.tcbs = _ := congrArg CoControl.tcbs queuesRest
    rw [handles.rest]
    exact queuesTcbs
  have running : filled.running = 0 := by
    have queuesRunning : queues.running = _ := congrArg CoControl.running queuesRest
    rw [handles.rest]
    exact queuesRunning
  have schedulingQueue : filled.schedulingQueue = queues.schedulingQueue := by
    rw [handles.rest]
  have schedulingQueueMem : filled.schedulingQueueMem = queues.schedulingQueueMem := by
    rw [handles.rest]
  have others : ∀ h, h ≠ 0 → filled.tcbs h = probed.coController.tcbs h := by
    intro h different
    rw [tcbs, initRootThread]
    exact Function.update_of_ne different _ _
  have root : filled.tcbs 0 =
      { CoTcb.zeroed with
        coHandle := .rootBuffer, state := .running, nextBlockedOnSameEvent := nullHandle } := by
    have before := storage.tcbs 0
    rw [if_neg (by omega)] at before
    rw [tcbs, initRootThread, before, storage.libco]
    simp [Libco.coActive, Libco.atStart, CoTcb.zeroed]
  have zeroedState : ∀ h, (probed.coController.tcbs h).state = .notActive ∧
      (probed.coController.tcbs h).nextBlockedOnSameEvent = 0 ∧
      (probed.coController.tcbs h).coHandle = .null := by
    intro h
    rw [storage.tcbs h]
    split <;> exact ⟨rfl, rfl, rfl⟩
  refine ⟨⟨rfl, handles.rings.free, handles.rings.freeCapacity, handles.rings.scheduling,
    handles.rings.schedulingCapacity⟩, ?_⟩
  constructor
  case running => exact running
  case state =>
    intro h
    change (filled.tcbs h).state = _
    split
    · rename_i isRoot
      rw [isRoot, root]
    · rename_i different
      rw [others h different, (zeroedState h).1]
  case link =>
    intro h
    change (filled.tcbs h).nextBlockedOnSameEvent = _
    split
    · rename_i isRoot
      rw [isRoot, root]
    · rename_i different
      rw [others h different, (zeroedState h).2.1]
  case queue =>
    change filled.schedulingQueue.live filled.schedulingQueueMem = []
    rw [schedulingQueue, schedulingQueueMem, schedulingEmpty]
  case free => exact handles.free
  case channels => exact fun ch below => initBlockedTable_channel config filled below
  case initialised => exact fun id => congrFun storage.initialised id
  case coHandle =>
    intro h
    change (filled.tcbs h).coHandle = _
    split
    · rename_i isRoot
      rw [isRoot, root]
    · rename_i different
      rw [others h different, (zeroedState h).2.2]
  case libco => exact storage.libco
  case storage =>
    intro g h gPositive gBelow hPositive hBelow same
    exact accepted.storage_injective gPositive gBelow hPositive hBelow same

/-- The root has no stack of its own in the controller. -/
theorem init_rootStorage
    (success : microkitCothreadInit config none clientSems memory coStackSize coStacks = .ok world) :
    (world.coController.tcbs rootThread).localStorage = 0#64 := by
  obtain ⟨-, probed, queues, filled, -, -, handles, -, queuesRest, rfl⟩ := init_stages success
  have sameTcbs : filled.tcbs = (initRootThread probed.libco.coActive probed.coController).tcbs := by
    rw [handles.rest, queuesRest]
  change (filled.tcbs rootThread).localStorage = _
  rw [sameTcbs]
  simp only [initRootThread, Function.update_self]

end Libmicrokitco
