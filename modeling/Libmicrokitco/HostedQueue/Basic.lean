import Mathlib.Logic.Function.Basic
import Libmicrokitco.Data.CircularWindow

/-!
# The hosted ring buffer

`libhostedqueue.h`: a circular queue of fixed capacity whose controller and
item array both belong to the caller. Indices and counters are C `unsigned`,
so the arithmetic is that of 32-bit words. A call answers a return code next to
the controller, array or `*ret` it may have written.
-/

namespace Libmicrokitco

/-- The `LIBHOSTEDQUEUE_*` return codes. -/
inductive HostedqueueErr where
  | noerr
  | invalidArgs
  | full
  | empty
deriving DecidableEq, Repr

/-- `hosted_queue_t`: `head` is the item at the front, `tail` the next index to
insert at. -/
structure HostedQueue where
  capacity : BitVec 32
  items : BitVec 32
  head : BitVec 32
  tail : BitVec 32
deriving DecidableEq, Repr

variable {α : Type*}

def hostedqueueInit (queueController : HostedQueue) (capacity : BitVec 32) :
    HostedqueueErr × HostedQueue :=
  if capacity < 1#32 then
    (.invalidArgs, queueController)
  else
    (.noerr, { capacity := capacity, items := 0#32, head := 0#32, tail := 0#32 })

/-- `hostedqueue_peek`; `ret` is what `*ret` holds at the call. -/
def hostedqueuePeek (queueController : HostedQueue) (queueMemory : Nat → α) (ret : α) :
    HostedqueueErr × α :=
  if queueController.items = 0#32 then
    (.empty, ret)
  else
    (.noerr, queueMemory queueController.head.toNat)

def hostedqueuePop (queueController : HostedQueue) (queueMemory : Nat → α) (ret : α) :
    HostedqueueErr × HostedQueue × α :=
  let (err, ret) := hostedqueuePeek queueController queueMemory ret
  if err = .noerr then
    (err, { queueController with
              head := (queueController.head + 1#32) % queueController.capacity
              items := queueController.items - 1#32 }, ret)
  else
    (err, queueController, ret)

def hostedqueuePush (queueController : HostedQueue) (queueMemory : Nat → α) (item : α) :
    HostedqueueErr × HostedQueue × (Nat → α) :=
  if queueController.items = queueController.capacity then
    (.full, queueController, queueMemory)
  else
    (.noerr, { queueController with
                items := queueController.items + 1#32
                tail := (queueController.tail + 1#32) % queueController.capacity },
      Function.update queueMemory queueController.tail.toNat item)

namespace HostedQueue

open CircularWindow

/-- The controller describes a window of the item array. -/
structure WellFormed (queue : HostedQueue) : Prop where
  headBounded : queue.head.toNat < queue.capacity.toNat
  itemsBounded : queue.items.toNat ≤ queue.capacity.toNat
  tailBehind :
    queue.tail.toNat = (queue.head.toNat + queue.items.toNat) % queue.capacity.toNat

/-- The queued items, front first. -/
def live (queue : HostedQueue) (queueMemory : Nat → α) : List α :=
  window queueMemory queue.capacity.toNat queue.head.toNat queue.items.toNat

@[simp] theorem length_live (queue : HostedQueue) (queueMemory : Nat → α) :
    (queue.live queueMemory).length = queue.items.toNat := by
  simp [live]

variable {queue : HostedQueue} {queueMemory : Nat → α}

theorem WellFormed.length_le (wellFormed : queue.WellFormed) :
    (queue.live queueMemory).length ≤ queue.capacity.toNat := by
  simpa using wellFormed.itemsBounded

theorem WellFormed.tailBounded (wellFormed : queue.WellFormed) :
    queue.tail.toNat < queue.capacity.toNat := by
  rw [wellFormed.tailBehind]
  exact Nat.mod_lt _ (Nat.zero_lt_of_lt wellFormed.headBounded)

/-- A successful initialisation gives an empty queue of the requested capacity. -/
theorem init_spec (queue : HostedQueue) {capacity : BitVec 32} (positive : 0 < capacity.toNat) :
    ∃ fresh, hostedqueueInit queue capacity = (.noerr, fresh) ∧ fresh.WellFormed ∧
      fresh.capacity = capacity ∧ ∀ queueMemory : Nat → α, fresh.live queueMemory = [] := by
  have accepted : ¬ capacity < 1#32 := by
    simp only [BitVec.lt_def, BitVec.toNat_ofNat]
    omega
  refine ⟨⟨capacity, 0#32, 0#32, 0#32⟩, by simp only [hostedqueueInit, if_neg accepted], ?_, rfl, ?_⟩
  · exact ⟨by simpa using positive, by simp, by simp⟩
  · intro queueMemory
    rfl

/-- Incrementing an index below the capacity and wrapping it never leaves 32 bits. -/
theorem toNat_succ_mod {index capacity : BitVec 32} (bounded : index.toNat < capacity.toNat) :
    ((index + 1#32) % capacity).toNat = (index.toNat + 1) % capacity.toNat := by
  have small := capacity.isLt
  rw [BitVec.toNat_umod, BitVec.toNat_add, BitVec.toNat_ofNat]
  rw [Nat.mod_eq_of_lt (by omega : (1 : Nat) < 2 ^ 32),
    Nat.mod_eq_of_lt (by omega : index.toNat + 1 < 2 ^ 32)]

theorem items_eq_zero_iff (queueMemory : Nat → α) : queue.items = 0#32 ↔ queue.live queueMemory = [] := by
  rw [← List.length_eq_zero_iff, length_live, ← BitVec.toNat_inj]
  simp

theorem peek_of_nil (wasEmpty : queue.live queueMemory = []) (ret : α) :
    hostedqueuePeek queue queueMemory ret = (.empty, ret) := by
  rw [hostedqueuePeek, if_pos ((items_eq_zero_iff queueMemory).mpr wasEmpty)]

theorem pop_of_nil (wasEmpty : queue.live queueMemory = []) (ret : α) :
    hostedqueuePop queue queueMemory ret = (.empty, queue, ret) := by
  simp [hostedqueuePop, peek_of_nil wasEmpty]

/-- A non-empty well-formed queue keeps its front item at `head`. -/
theorem WellFormed.live_split (wellFormed : queue.WellFormed) {front : α} {rest : List α}
    (shape : queue.live queueMemory = front :: rest) :
    queue.items ≠ 0#32 ∧ queueMemory queue.head.toNat = front ∧
      window queueMemory queue.capacity.toNat ((queue.head.toNat + 1) % queue.capacity.toNat)
        (queue.items.toNat - 1) = rest := by
  have nonempty : queue.items ≠ 0#32 := by
    intro zero
    rw [items_eq_zero_iff queueMemory, shape] at zero
    cases zero
  have positive : queue.items.toNat = (queue.items.toNat - 1) + 1 := by
    have : queue.items.toNat ≠ 0 := fun zero => nonempty (BitVec.toNat_inj.mp (by simpa using zero))
    omega
  rw [live, positive, window_succ wellFormed.headBounded] at shape
  exact ⟨nonempty, List.cons_eq_cons.mp shape⟩

theorem WellFormed.peek_of_cons (wellFormed : queue.WellFormed) {front : α} {rest : List α}
    (shape : queue.live queueMemory = front :: rest) (ret : α) :
    hostedqueuePeek queue queueMemory ret = (.noerr, front) := by
  obtain ⟨nonempty, atHead, _⟩ := wellFormed.live_split shape
  rw [hostedqueuePeek, if_neg nonempty, atHead]

/-- Popping a non-empty queue answers its front and leaves the rest. -/
theorem WellFormed.pop_of_cons (wellFormed : queue.WellFormed) {front : α} {rest : List α}
    (shape : queue.live queueMemory = front :: rest) (ret : α) :
    ∃ popped, hostedqueuePop queue queueMemory ret = (.noerr, popped, front) ∧
      popped.WellFormed ∧ popped.capacity = queue.capacity ∧
      popped.items.toNat + 1 = queue.items.toNat ∧ popped.live queueMemory = rest := by
  obtain ⟨nonempty, _, tailRead⟩ := wellFormed.live_split shape
  have positive : queue.items.toNat ≠ 0 := fun zero =>
    nonempty (BitVec.toNat_inj.mp (by simpa using zero))
  have itemsAfter : (queue.items - 1#32).toNat = queue.items.toNat - 1 := by
    rw [BitVec.toNat_sub_of_le]
    · rfl
    · rw [BitVec.le_def, BitVec.toNat_ofNat]
      omega
  have headAfter := toNat_succ_mod wellFormed.headBounded
  refine ⟨{ queue with head := (queue.head + 1#32) % queue.capacity, items := queue.items - 1#32 },
    ?_, ⟨?_, ?_, ?_⟩, rfl, ?_, ?_⟩
  · simp [hostedqueuePop, wellFormed.peek_of_cons shape]
  · rw [headAfter]
    exact Nat.mod_lt _ (Nat.zero_lt_of_lt wellFormed.headBounded)
  · change (queue.items - 1#32).toNat ≤ queue.capacity.toNat
    have := wellFormed.itemsBounded
    omega
  · change queue.tail.toNat = _
    rw [itemsAfter, headAfter, Nat.mod_add_mod, wellFormed.tailBehind]
    congr 1
    omega
  · rw [itemsAfter]
    omega
  · rw [live, itemsAfter, headAfter]
    exact tailRead

theorem push_of_full (filled : (queue.live queueMemory).length = queue.capacity.toNat)
    (item : α) : hostedqueuePush queue queueMemory item = (.full, queue, queueMemory) := by
  rw [length_live, BitVec.toNat_inj] at filled
  rw [hostedqueuePush, if_pos filled]

/-- Pushing onto a queue with room appends the item. -/
theorem WellFormed.push_of_room (wellFormed : queue.WellFormed)
    (room : (queue.live queueMemory).length ≠ queue.capacity.toNat) (item : α) :
    ∃ pushed cells, hostedqueuePush queue queueMemory item = (.noerr, pushed, cells) ∧
      pushed.WellFormed ∧ pushed.capacity = queue.capacity ∧
      pushed.live cells = queue.live queueMemory ++ [item] := by
  rw [length_live] at room
  have notFull : queue.items ≠ queue.capacity := fun same => room (BitVec.toNat_inj.mpr same)
  have below : queue.items.toNat < queue.capacity.toNat :=
    lt_of_le_of_ne wellFormed.itemsBounded room
  have itemsAfter : (queue.items + 1#32).toNat = queue.items.toNat + 1 := by
    have small := queue.capacity.isLt
    rw [BitVec.toNat_add, BitVec.toNat_ofNat]
    omega
  refine ⟨{ queue with items := queue.items + 1#32, tail := (queue.tail + 1#32) % queue.capacity },
    Function.update queueMemory queue.tail.toNat item, by rw [hostedqueuePush, if_neg notFull],
    ⟨wellFormed.headBounded, ?_, ?_⟩, rfl, ?_⟩
  · rw [itemsAfter]
    exact below
  · rw [itemsAfter, toNat_succ_mod wellFormed.tailBounded, wellFormed.tailBehind,
      Nat.mod_add_mod]
    rfl
  · rw [live, itemsAfter, wellFormed.tailBehind]
    exact window_store below

end HostedQueue
end Libmicrokitco
