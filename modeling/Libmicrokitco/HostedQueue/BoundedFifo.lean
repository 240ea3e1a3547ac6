import Libmicrokitco.HostedQueue.Basic
import Mathlib.Data.List.Induction

/-!
# The hosted ring buffer as a bounded FIFO queue

Any sequence of calls on an initialised ring buffer answers what a list of
bounded length would answer.
-/

namespace Libmicrokitco

variable {α : Type*}

/-- A call on a queue; `ret` is what `*ret` holds when it is made. -/
inductive QueueCall (α : Type*) where
  | push (item : α)
  | pop (ret : α)
  | peek (ret : α)

/-- The return code, and `*ret` after the calls that have one. -/
abbrev QueueReply (α : Type*) := HostedqueueErr × Option α

/-- What the caller had in `*ret`. -/
def QueueCall.given : QueueCall α → Option α
  | .push _ => none
  | .pop ret | .peek ret => some ret

/-- A controller and its item array. -/
structure Ring (α : Type*) where
  queueController : HostedQueue
  queueMemory : Nat → α

namespace Ring

def call (ring : Ring α) : QueueCall α → QueueReply α × Ring α
  | .push item =>
    let (err, queueController, queueMemory) :=
      hostedqueuePush ring.queueController ring.queueMemory item
    ((err, none), ⟨queueController, queueMemory⟩)
  | .pop ret =>
    let (err, queueController, ret) := hostedqueuePop ring.queueController ring.queueMemory ret
    ((err, some ret), ⟨queueController, ring.queueMemory⟩)
  | .peek ret =>
    let (err, ret) := hostedqueuePeek ring.queueController ring.queueMemory ret
    ((err, some ret), ring)

/-- The index at which a call reads or writes the item array. -/
def accesses (ring : Ring α) : QueueCall α → Option Nat
  | .push _ =>
    if ring.queueController.items = ring.queueController.capacity then none
    else some ring.queueController.tail.toNat
  | .pop _ | .peek _ =>
    if ring.queueController.items = 0#32 then none else some ring.queueController.head.toNat

/-- The ring buffer after calls. -/
def after (ring : Ring α) (calls : List (QueueCall α)) : Ring α :=
  calls.foldl (fun ring call => (ring.call call).2) ring

/-- The queued items, front first. -/
def live (ring : Ring α) : List α := ring.queueController.live ring.queueMemory

end Ring

/-- A call on a list of at most `capacity` items. -/
def boundedFifo (capacity : Nat) (items : List α) : QueueCall α → QueueReply α × List α
  | .push item =>
    if items.length = capacity then ((.full, none), items) else ((.noerr, none), items ++ [item])
  | .pop ret =>
    match items with
    | [] => ((.empty, some ret), [])
    | front :: rest => ((.noerr, some front), rest)
  | .peek ret =>
    match items with
    | [] => ((.empty, some ret), [])
    | front :: rest => ((.noerr, some front), front :: rest)

/-- The list after calls on an empty queue. -/
def boundedFifoAfter (capacity : Nat) (calls : List (QueueCall α)) : List α :=
  calls.foldl (fun items call => (boundedFifo capacity items call).2) []

namespace Ring

variable {ring : Ring α} {capacity : Nat} {items : List α} {front : α} {rest : List α}

/-- A ring buffer that holds a list. -/
structure Holds (capacity : Nat) (ring : Ring α) (items : List α) : Prop where
  wellFormed : ring.queueController.WellFormed
  capacityEq : ring.queueController.capacity.toNat = capacity
  contents : ring.live = items

/-- A call on a ring buffer that holds `items` does what the list does. -/
structure Answers (capacity : Nat) (ring : Ring α) (items : List α) (call : QueueCall α) :
    Prop where
  reply : (ring.call call).1 = (boundedFifo capacity items call).1
  inside : ∀ index ∈ ring.accesses call, index < capacity
  failing : (ring.call call).1.1 ≠ .noerr →
    (ring.call call).2 = ring ∧ (ring.call call).1.2 = call.given
  full : ∀ item, call = .push item → ((ring.call call).1.1 = .full ↔ items.length = capacity)
  empty : ∀ ret, call = .pop ret ∨ call = .peek ret →
    ((ring.call call).1.1 = .empty ↔ items = [])

theorem Holds.length_le (holds : ring.Holds capacity items) : items.length ≤ capacity := by
  rw [← holds.contents, ← holds.capacityEq]
  exact holds.wellFormed.length_le

/-- `accesses` names all that a call reads or writes of the item array. -/
theorem call_confined (ring : Ring α) (call : QueueCall α) {cells : Nat → α}
    (agree : ∀ index ∈ ring.accesses call, cells index = ring.queueMemory index) :
    ((Ring.mk ring.queueController cells).call call).1 = (ring.call call).1 ∧
      ((Ring.mk ring.queueController cells).call call).2.queueController =
        (ring.call call).2.queueController ∧
      ∀ index ∉ ring.accesses call, (ring.call call).2.queueMemory index = ring.queueMemory index := by
  cases call with
  | push item =>
    unfold accesses Ring.call hostedqueuePush
    by_cases full : ring.queueController.items = ring.queueController.capacity
    · simp [full]
    · refine ⟨by simp [full], by simp [full], fun index other => ?_⟩
      have elsewhere : index ≠ ring.queueController.tail.toNat := by
        simpa [full, eq_comm] using other
      simp [full, elsewhere]
  | pop ret =>
    unfold accesses at agree
    unfold Ring.call hostedqueuePop hostedqueuePeek
    by_cases empty : ring.queueController.items = 0#32
    · simp [empty]
    · simp [empty, agree]
  | peek ret =>
    unfold accesses at agree
    unfold Ring.call hostedqueuePeek
    by_cases empty : ring.queueController.items = 0#32
    · simp [empty]
    · simp [empty, agree]

/-- A call that touches the item array does so inside it. -/
theorem Holds.inside (holds : ring.Holds capacity items) (call : QueueCall α) :
    ∀ index ∈ ring.accesses call, index < capacity := by
  intro index accessed
  have headBounded := holds.wellFormed.headBounded
  have tailBounded := holds.wellFormed.tailBounded
  rw [holds.capacityEq] at headBounded tailBounded
  cases call with
  | push item =>
    obtain ⟨-, touched⟩ := Option.ite_none_left_eq_some.mp accessed
    cases touched
    exact tailBounded
  | pop ret =>
    obtain ⟨-, touched⟩ := Option.ite_none_left_eq_some.mp accessed
    cases touched
    exact headBounded
  | peek ret =>
    obtain ⟨-, touched⟩ := Option.ite_none_left_eq_some.mp accessed
    cases touched
    exact headBounded

theorem boundedFifo_full_iff (item : α) :
    (boundedFifo capacity items (.push item)).1.1 = .full ↔ items.length = capacity := by
  rw [boundedFifo]
  split <;> simp_all

theorem boundedFifo_empty_iff {call : QueueCall α} {ret : α} (reads : call = .pop ret ∨ call = .peek ret) :
    (boundedFifo capacity items call).1.1 = .empty ↔ items = [] := by
  rcases reads with rfl | rfl <;> cases items <;> simp [boundedFifo]

/-- From what the ring buffer and the list do separately. -/
private theorem Holds.answers (holds : ring.Holds capacity items) {call : QueueCall α}
    {reply : QueueReply α} {next : Ring α} {list : List α} (computed : ring.call call = (reply, next))
    (listed : boundedFifo capacity items call = (reply, list))
    (failing : reply.1 ≠ .noerr → next = ring ∧ reply.2 = call.given)
    (nextHolds : next.Holds capacity list) :
    ring.Answers capacity items call ∧
      (ring.call call).2.Holds capacity (boundedFifo capacity items call).2 := by
  have same : (ring.call call).1 = (boundedFifo capacity items call).1 := by
    rw [computed, listed]
  refine ⟨⟨same, holds.inside call, ?_, ?_, ?_⟩, ?_⟩
  · rw [computed]
    exact failing
  · rintro item rfl
    rw [same, boundedFifo_full_iff]
  · intro ret reads
    rw [same, boundedFifo_empty_iff reads]
  · rw [computed, listed]
    exact nextHolds

/-- One call on the ring buffer is one call on the list. -/
theorem Holds.call (holds : ring.Holds capacity items) (call : QueueCall α) :
    ring.Answers capacity items call ∧
      (ring.call call).2.Holds capacity (boundedFifo capacity items call).2 := by
  obtain ⟨wellFormed, capacityEq, contents⟩ := id holds
  cases call with
  | push item =>
    by_cases filled : items.length = capacity
    · have full : (ring.queueController.live ring.queueMemory).length =
          ring.queueController.capacity.toNat := by
        rw [capacityEq, ← filled, ← contents]
        rfl
      have refused := HostedQueue.push_of_full full item
      have computed : ring.call (.push item) = ((.full, none), ring) := by
        rw [Ring.call, refused]
      exact holds.answers computed (if_pos filled) (fun _ => ⟨rfl, rfl⟩) holds
    · have room : (ring.queueController.live ring.queueMemory).length ≠
          ring.queueController.capacity.toNat := by
        rw [capacityEq]
        intro full
        apply filled
        rw [← contents]
        exact full
      obtain ⟨pushed, cells, success, keeps, sameCapacity, appended⟩ :=
        wellFormed.push_of_room room item
      have computed : ring.call (.push item) = ((.noerr, none), ⟨pushed, cells⟩) := by
        rw [Ring.call, success]
      refine holds.answers computed (if_neg filled) (fun failed => absurd rfl failed) ⟨keeps, ?_, ?_⟩
      · rw [sameCapacity, capacityEq]
      · rw [← contents]
        exact appended
  | pop ret =>
    cases shape : items with
    | nil =>
      have refused := HostedQueue.pop_of_nil (contents.trans shape) ret
      have computed : ring.call (.pop ret) = ((.empty, some ret), ring) := by
        rw [Ring.call, refused]
      exact (shape ▸ holds).answers computed rfl (fun _ => ⟨rfl, rfl⟩) (shape ▸ holds)
    | cons front rest =>
      obtain ⟨popped, success, keeps, sameCapacity, -, remaining⟩ :=
        wellFormed.pop_of_cons (contents.trans shape) ret
      have computed : ring.call (.pop ret) =
          ((.noerr, some front), ⟨popped, ring.queueMemory⟩) := by
        rw [Ring.call, success]
      refine (shape ▸ holds).answers computed rfl (fun failed => absurd rfl failed)
        ⟨keeps, ?_, remaining⟩
      rw [sameCapacity, capacityEq]
  | peek ret =>
    cases shape : items with
    | nil =>
      have refused := HostedQueue.peek_of_nil (contents.trans shape) ret
      have computed : ring.call (.peek ret) = ((.empty, some ret), ring) := by
        rw [Ring.call, refused]
      exact (shape ▸ holds).answers computed rfl (fun _ => ⟨rfl, rfl⟩) (shape ▸ holds)
    | cons front rest =>
      have success := wellFormed.peek_of_cons (contents.trans shape) ret
      have computed : ring.call (.peek ret) = ((.noerr, some front), ring) := by
        rw [Ring.call, success]
      exact (shape ▸ holds).answers computed rfl (fun failed => absurd rfl failed) (shape ▸ holds)

/-- Calls on the ring buffer are calls on the list. -/
theorem Holds.after (holds : ring.Holds capacity []) (calls : List (QueueCall α)) :
    (ring.after calls).Holds capacity (boundedFifoAfter capacity calls) := by
  induction calls using List.reverseRecOn with
  | nil => exact holds
  | append_singleton calls last ih =>
    rw [Ring.after, boundedFifoAfter, List.foldl_append, List.foldl_append]
    exact (ih.call last).2

end Ring

/-- An initialised ring buffer is a bounded FIFO queue for its whole life: after
any calls it holds the items of the list, in a window of the array, and any next
call answers as on the list. -/
theorem hostedqueue_is_bounded_fifo (capacity : BitVec 32) (positive : 1 ≤ capacity.toNat)
    (queueController : HostedQueue) (queueMemory : Nat → α) :
    ∃ fresh, hostedqueueInit queueController capacity = (.noerr, fresh) ∧
      ∀ calls : List (QueueCall α),
        let ring := (Ring.mk fresh queueMemory).after calls
        let items := boundedFifoAfter capacity.toNat calls
        items.length ≤ capacity.toNat ∧
          ring.queueController.capacity = capacity ∧
          ring.queueController.head.toNat < capacity.toNat ∧
          ring.queueController.tail.toNat < capacity.toNat ∧
          ring.queueController.items.toNat = items.length ∧
          ring.queueController.tail.toNat =
            (ring.queueController.head.toNat + items.length) % capacity.toNat ∧
          ring.live = items ∧
          ∀ call, ring.Answers capacity.toNat items call := by
  obtain ⟨fresh, success, wellFormed, sameCapacity, empty⟩ :=
    HostedQueue.init_spec queueController positive
  refine ⟨fresh, success, fun calls => ?_⟩
  intro ring items
  have initially : (Ring.mk fresh queueMemory).Holds capacity.toNat [] :=
    ⟨wellFormed, congrArg BitVec.toNat sameCapacity, empty queueMemory⟩
  have holds : ring.Holds capacity.toNat items := initially.after calls
  have count : ring.queueController.items.toNat = items.length := by
    rw [← holds.contents]
    exact (HostedQueue.length_live _ _).symm
  have headBounded := holds.wellFormed.headBounded
  have tailBounded := holds.wellFormed.tailBounded
  have tailBehind := holds.wellFormed.tailBehind
  rw [holds.capacityEq] at headBounded tailBounded tailBehind
  rw [count] at tailBehind
  exact ⟨holds.length_le, BitVec.eq_of_toNat_eq holds.capacityEq, headBounded, tailBounded, count,
    tailBehind, holds.contents, fun call => (holds.call call).1⟩

/-- A queue of three cells that has wrapped round. -/
theorem hostedqueue_of_three :
    ∃ fresh, hostedqueueInit ⟨0#32, 0#32, 0#32, 0#32⟩ 3#32 = (.noerr, fresh) ∧
      ((Ring.mk fresh fun _ => (0 : Int)).after
        [.push 5, .push 6, .pop 0, .push 7, .push 8, .push 9]).live = [6, 7, 8] := by
  obtain ⟨fresh, success, holds⟩ :=
    hostedqueue_is_bounded_fifo 3#32 (by decide) ⟨0#32, 0#32, 0#32, 0#32⟩
      fun _ => (0 : Int)
  obtain ⟨-, -, -, -, -, -, contents, -⟩ :=
    holds [.push 5, .push 6, .pop 0, .push 7, .push 8, .push 9]
  exact ⟨fresh, success, contents⟩

end Libmicrokitco
