import Libmicrokitco.Sched.State

/-!
# What `internal_schedule` selects

On any well-formed scheduling queue, stale, duplicate and root entries
included. `fuel` counts the iterations of the loop: a run with fuel `n` is one
of at most `n` iterations, and ends in `diverged` when they are not enough.
-/

namespace Libmicrokitco

/-- The entries at which the loop of `internal_schedule` stops. -/
def CoControl.Dispatchable (controller : CoControl) (h : Int) : Prop :=
  h = rootThread ∨ (controller.tcbs h).state = .ready

instance (controller : CoControl) (h : Int) : Decidable (controller.Dispatchable h) :=
  inferInstanceAs (Decidable (_ ∨ _))

/-- The entries of the scheduling queue, front first. -/
def CoControl.schedulingEntries (controller : CoControl) : List Int :=
  controller.schedulingQueue.live controller.schedulingQueueMem

/-- `iterations` rounds of the loop end with `choice`; only the controller of the
scheduling queue has changed. -/
structure CoControl.Selects (controller : CoControl) (choice : Int) (queue : HostedQueue)
    (iterations : Nat) : Prop where
  wellFormed : queue.WellFormed
  capacity : queue.capacity = controller.schedulingQueue.capacity
  loop : ∀ fuel, internalScheduleLoop fuel controller =
    if fuel < iterations then .error .diverged
    else .ok (choice, { controller with schedulingQueue := queue })

variable {controller : CoControl} {choice entry : Int} {queue : HostedQueue} {iterations : Nat}

/-- One iteration of the loop on a non-empty queue. -/
private theorem loop_of_cons {rest : List Int} (wellFormed : controller.schedulingQueue.WellFormed)
    (shape : controller.schedulingEntries = entry :: rest) :
    ∃ popped, popped.WellFormed ∧ popped.capacity = controller.schedulingQueue.capacity ∧
      popped.live controller.schedulingQueueMem = rest ∧
      ∀ fuel, internalScheduleLoop (fuel + 1) controller =
        if entry = rootThread then .ok (entry, { controller with schedulingQueue := popped })
        else if (controller.tcbs entry).state = .ready then
          .ok (entry, { controller with schedulingQueue := popped })
        else internalScheduleLoop fuel { controller with schedulingQueue := popped } := by
  obtain ⟨popped, success, keeps, capacity, -, remaining⟩ :=
    wellFormed.pop_of_cons shape schedulerNullChoice
  refine ⟨popped, keeps, capacity, remaining, fun fuel => ?_⟩
  rw [internalScheduleLoop, CoControl.popSchedulingQueue, success]

private theorem selects_nil (wellFormed : controller.schedulingQueue.WellFormed)
    (empty : controller.schedulingEntries = []) :
    controller.Selects schedulerNullChoice controller.schedulingQueue 1 := by
  refine ⟨wellFormed, rfl, fun fuel => ?_⟩
  cases fuel with
  | zero => rfl
  | succ fuel =>
    have popped := HostedQueue.pop_of_nil empty schedulerNullChoice
    rw [internalScheduleLoop, CoControl.popSchedulingQueue, popped, if_neg (by omega)]

private theorem selects_front {rest : List Int} (wellFormed : controller.schedulingQueue.WellFormed)
    (shape : controller.schedulingEntries = entry :: rest) (stops : controller.Dispatchable entry) :
    ∃ queue, controller.Selects entry queue 1 ∧ queue.live controller.schedulingQueueMem = rest := by
  obtain ⟨popped, keeps, capacity, remaining, loop⟩ := loop_of_cons wellFormed shape
  refine ⟨popped, ⟨keeps, capacity, fun fuel => ?_⟩, remaining⟩
  cases fuel with
  | zero => rfl
  | succ fuel =>
    rw [loop, if_neg (by omega : ¬ fuel + 1 < 1)]
    rcases stops with root | ready
    · rw [if_pos root]
    · rw [if_pos ready, ite_self]

/-- A stale entry costs one more iteration. -/
private theorem selects_behind {rest : List Int} (wellFormed : controller.schedulingQueue.WellFormed)
    (shape : controller.schedulingEntries = entry :: rest) (stale : ¬ controller.Dispatchable entry) :
    ∃ popped, popped.WellFormed ∧ popped.capacity = controller.schedulingQueue.capacity ∧
      popped.live controller.schedulingQueueMem = rest ∧
      ∀ choice queue iterations,
        ({ controller with schedulingQueue := popped } : CoControl).Selects choice queue iterations →
        controller.Selects choice queue (iterations + 1) := by
  obtain ⟨popped, keeps, capacity, remaining, loop⟩ := loop_of_cons wellFormed shape
  refine ⟨popped, keeps, capacity, remaining, fun choice queue iterations selects => ?_⟩
  obtain ⟨selected, sameCapacity, rounds⟩ := selects
  refine ⟨selected, sameCapacity.trans capacity, fun fuel => ?_⟩
  cases fuel with
  | zero => rfl
  | succ fuel =>
    obtain ⟨notRoot, notReady⟩ := not_or.mp stale
    rw [loop, if_neg notRoot, if_neg notReady, rounds]
    simp only [Nat.add_lt_add_iff_right]

/-- The loop passes over the stale entries and stops at the first other one. -/
theorem CoControl.selects_first {skipped rest : List Int}
    (wellFormed : controller.schedulingQueue.WellFormed)
    (shape : controller.schedulingEntries = skipped ++ choice :: rest)
    (stale : ∀ entry ∈ skipped, ¬ controller.Dispatchable entry)
    (stops : controller.Dispatchable choice) :
    ∃ queue, controller.Selects choice queue (skipped.length + 1) ∧
      queue.live controller.schedulingQueueMem = rest := by
  induction skipped generalizing controller with
  | nil => exact selects_front wellFormed shape stops
  | cons first others ih =>
    rw [List.forall_mem_cons] at stale
    obtain ⟨popped, keeps, -, remaining, behind⟩ := selects_behind wellFormed shape stale.1
    obtain ⟨queue, selects, live⟩ := @ih { controller with schedulingQueue := popped } keeps remaining stale.2 stops
    exact ⟨queue, behind _ _ _ selects, live⟩

/-- Without a dispatchable entry the loop empties the queue. -/
theorem CoControl.selects_none (wellFormed : controller.schedulingQueue.WellFormed)
    (stale : ∀ entry ∈ controller.schedulingEntries, ¬ controller.Dispatchable entry) :
    ∃ queue, controller.Selects schedulerNullChoice queue (controller.schedulingEntries.length + 1) ∧
      queue.live controller.schedulingQueueMem = [] := by
  generalize shape : controller.schedulingEntries = entries at stale ⊢
  induction entries generalizing controller with
  | nil => exact ⟨_, selects_nil wellFormed shape, shape⟩
  | cons first others ih =>
    rw [List.forall_mem_cons] at stale
    obtain ⟨popped, keeps, -, remaining, behind⟩ := selects_behind wellFormed shape stale.1
    obtain ⟨queue, selects, live⟩ := @ih { controller with schedulingQueue := popped } keeps remaining stale.2
    exact ⟨queue, behind _ _ _ selects, live⟩

/-- `internal_schedule` answers the first dispatchable entry and leaves the
entries behind it, or answers `SCHEDULER_NULL_CHOICE` and leaves an empty queue.
It changes nothing but the controller of the queue, never panics, and iterates
once for every entry it takes and, if none of them is dispatchable, once more. -/
theorem internalSchedule_selects_first (controller : CoControl)
    (wellFormed : controller.schedulingQueue.WellFormed) :
    ∃ choice queue iterations, controller.Selects choice queue iterations ∧
      internalSchedule controller = .ok (choice, { controller with schedulingQueue := queue }) ∧
      iterations ≤ controller.schedulingEntries.length + 1 ∧
      ((∃ skipped rest, controller.schedulingEntries = skipped ++ choice :: rest ∧
          (∀ entry ∈ skipped, ¬ controller.Dispatchable entry) ∧ controller.Dispatchable choice ∧
          queue.live controller.schedulingQueueMem = rest ∧ iterations = skipped.length + 1) ∨
        (∀ entry ∈ controller.schedulingEntries, ¬ controller.Dispatchable entry) ∧
          choice = schedulerNullChoice ∧ queue.live controller.schedulingQueueMem = [] ∧
          iterations = controller.schedulingEntries.length + 1) := by
  have entries : controller.schedulingEntries.length = controller.schedulingQueue.items.toNat :=
    HostedQueue.length_live _ _
  have enough : ∀ {choice queue iterations}, controller.Selects choice queue iterations →
      iterations ≤ controller.schedulingEntries.length + 1 →
      internalSchedule controller = .ok (choice, { controller with schedulingQueue := queue }) := by
    intro choice queue iterations selects bounded
    rw [internalSchedule, selects.loop, if_neg (by omega)]
  cases found : controller.schedulingEntries.find? (fun entry => controller.Dispatchable entry) with
  | some choice =>
    obtain ⟨stops, skipped, rest, shape, stale⟩ := List.find?_eq_some_iff_append.mp found
    have stops : controller.Dispatchable choice := of_decide_eq_true stops
    have stale : ∀ entry ∈ skipped, ¬ controller.Dispatchable entry := by
      simpa using stale
    obtain ⟨queue, selects, live⟩ := CoControl.selects_first wellFormed shape stale stops
    have bounded : skipped.length + 1 ≤ controller.schedulingEntries.length + 1 := by
      rw [shape, List.length_append]
      omega
    exact ⟨choice, queue, _, selects, enough selects bounded, bounded,
      .inl ⟨skipped, rest, shape, stale, stops, live, rfl⟩⟩
  | none =>
    have stale : ∀ entry ∈ controller.schedulingEntries, ¬ controller.Dispatchable entry := by
      simpa using found
    obtain ⟨queue, selects, live⟩ := CoControl.selects_none wellFormed stale
    exact ⟨_, queue, _, selects, enough selects le_rfl, le_rfl, .inr ⟨stale, rfl, live, rfl⟩⟩

/-- A stale entry in front of the root's, for three handles. -/
def staleBeforeRoot : CoControl :=
  { CoControl.zeroed with
    schedulingQueue := ⟨3#32, 2#32, 2#32, 1#32⟩
    schedulingQueueMem := fun cell => if cell = 2 then 1 else 0 }

theorem internalSchedule_passes_stale :
    ∃ queue, internalSchedule staleBeforeRoot =
      .ok (0, { staleBeforeRoot with schedulingQueue := queue }) := by
  have entries : staleBeforeRoot.schedulingEntries = [1, 0] := by decide
  obtain ⟨choice, queue, iterations, -, ran, -, selected | ⟨stale, -⟩⟩ :=
    internalSchedule_selects_first staleBeforeRoot ⟨by decide, by decide, by decide⟩
  · obtain ⟨skipped, rest, shape, -, stops, -⟩ := selected
    have isEntry : choice ∈ [(1 : Int), 0] := by
      rw [← entries, shape]
      exact List.mem_append_right _ List.mem_cons_self
    have isRoot : choice = 0 := by
      have notStale : ¬ staleBeforeRoot.Dispatchable 1 := by decide
      rcases List.mem_cons.mp isEntry with rfl | isRoot
      · exact absurd stops notStale
      · exact List.mem_singleton.mp isRoot
    rw [isRoot] at ran
    exact ⟨queue, ran⟩
  · rw [entries] at stale
    exact absurd (.inl rfl) (stale 0 (by decide))

/-- A queue with nothing but a stale entry, for two handles. -/
def staleOnly : CoControl :=
  { CoControl.zeroed with
    schedulingQueue := ⟨2#32, 1#32, 0#32, 1#32⟩
    schedulingQueueMem := fun _ => 1 }

/-- One entry can take two iterations: one to pass over it and one to find the
queue empty. -/
theorem stale_entry_takes_two_iterations :
    staleOnly.schedulingQueue.WellFormed ∧ staleOnly.schedulingEntries = [1] ∧
      internalScheduleLoop staleOnly.schedulingEntries.length staleOnly = .error .diverged ∧
      (internalScheduleLoop 2 staleOnly).toOption.map Prod.fst = some schedulerNullChoice :=
  ⟨⟨by decide, by decide, by decide⟩, by decide, by rfl, by rfl⟩

end Libmicrokitco
