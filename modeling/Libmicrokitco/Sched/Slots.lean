import Libmicrokitco.Sched.Resources

/-!
# The places where waiters are kept

A wait list is spread over the heads of the semaphores and the links of the
TCBs. Read one by one these slots stay sound even when a root that waits has
left a list in disorder: a cothread is named at most once, and only while it is
blocked.
-/

namespace Libmicrokitco

/-- Where the code keeps the handle of a waiter. -/
inductive Slot where
  | head (sem : SemRef)
  | link (h : Int)
deriving DecidableEq

namespace Sched

def slot (sched : Sched) : Slot → Int
  | .head sem => (sched.sem sem).head
  | .link h => sched.link h

/-- The slots of initialised semaphores and of the TCB array. -/
def Used (config : Config) (sched : Sched) : Slot → Prop
  | .head sem => sched.live config sem
  | .link h => InRange config h

/-- Slots name the root or blocked cothreads, and no cothread twice. -/
structure SlotsSound (config : Config) (sched : Sched) : Prop where
  target : ∀ slot, sched.Used config slot →
    sched.slot slot = nullHandle ∨ sched.slot slot = 0 ∨
      0 < sched.slot slot ∧ sched.state (sched.slot slot) = .blocked
  unique : ∀ slot other, sched.Used config slot → sched.Used config other →
    0 < sched.slot slot → sched.slot slot = sched.slot other → slot = other
  tail : ∀ sem, sched.live config sem → (sched.sem sem).head ≠ nullHandle →
    InRange config (sched.sem sem).tail

variable {config : Config} {sched next : Sched} {executing : Option Int} {sem : SemRef}
  {h : Int} {value : CoState}

theorem positive_ne_nullHandle (positive : 0 < h) : h ≠ nullHandle := by
  unfold nullHandle
  omega

theorem live_of_initialised (same : next.initialised = sched.initialised) :
    next.live config = sched.live config := by
  funext sem
  cases sem <;> simp only [Sched.live, same]

/-- A semaphore other than the one initialised just now was live before. -/
theorem live_before {id : Nat} (other : sem ≠ .client id)
    (live : (sched.semaphoreInitialised id).live config sem) : sched.live config sem := by
  cases sem with
  | channel ch => exact live
  | client otherId =>
    have different : otherId ≠ id := fun same => other (same ▸ rfl)
    simpa [Sched.live, Sched.semaphoreInitialised, different] using live

theorem used_of_initialised (same : next.initialised = sched.initialised) :
    next.Used config = sched.Used config := by
  funext slot
  cases slot <;> simp only [Used, live_of_initialised same]

/-- Slots stay sound when some are cleared and their targets stay blocked. -/
theorem SlotsSound.shrink (slots : SlotsSound config sched)
    (fewer : ∀ slot, next.Used config slot → next.slot slot = nullHandle ∨
      sched.Used config slot ∧ next.slot slot = sched.slot slot)
    (blocked : ∀ slot, sched.Used config slot → 0 < sched.slot slot →
      sched.state (sched.slot slot) = .blocked → next.state (sched.slot slot) = .blocked)
    (tail : ∀ sem, next.live config sem → (next.sem sem).head ≠ nullHandle →
      InRange config (next.sem sem).tail) :
    SlotsSound config next := by
  constructor
  · intro slot used
    rcases fewer slot used with isNull | ⟨before, same⟩
    · exact .inl isNull
    rw [same]
    rcases slots.target slot before with isNull | isRoot | ⟨positive, isBlocked⟩
    · exact .inl isNull
    · exact .inr (.inl isRoot)
    · exact .inr (.inr ⟨positive, blocked slot before positive isBlocked⟩)
  · intro slot other used otherUsed positive equal
    rcases fewer slot used with isNull | ⟨before, same⟩
    · exact absurd isNull (positive_ne_nullHandle positive)
    rcases fewer other otherUsed with isNull | ⟨otherBefore, otherSame⟩
    · exact absurd isNull (positive_ne_nullHandle (equal ▸ positive))
    rw [same] at positive equal
    rw [otherSame] at equal
    exact slots.unique slot other before otherBefore positive equal
  · exact tail

/-- A used slot names no cothread that is not blocked. -/
theorem SlotsSound.slot_ne (slots : SlotsSound config sched) {slot : Slot}
    (used : sched.Used config slot) (positive : 0 < h) (unblocked : sched.state h ≠ .blocked) :
    sched.slot slot ≠ h := by
  intro names
  rcases slots.target slot used with isNull | isRoot | ⟨-, blocked⟩
  · exact positive_ne_nullHandle positive (names ▸ isNull)
  · omega
  · exact unblocked (names ▸ blocked)

/-- Changes of state outside the slots, with the slots as they were. -/
theorem SlotsSound.of_state (slots : SlotsSound config sched)
    (sem : next.sem = sched.sem) (initialised : next.initialised = sched.initialised)
    (link : next.link = sched.link) (changed : next.state = Function.update sched.state h value)
    (unnamed : ∀ slot, sched.Used config slot → 0 < sched.slot slot → sched.slot slot ≠ h) :
    SlotsSound config next := by
  have live : next.live config = sched.live config := live_of_initialised initialised
  have used : next.Used config = sched.Used config := used_of_initialised initialised
  have read : next.slot = sched.slot := by
    funext slot
    cases slot <;> simp only [Sched.slot, sem, link]
  refine slots.shrink (fun slot before => .inr ⟨used ▸ before, by rw [read]⟩) ?_ ?_
  · intro slot before positive blocked
    rw [changed, Function.update_of_ne (unnamed slot before positive)]
    exact blocked
  · rw [sem, live]
    exact slots.tail

/-- Updating a semaphore and the head slot read afterwards. -/
theorem slot_setSem (sem : SemRef) (value : CothreadSem) (slot : Slot) :
    (sched.setSem sem value).slot slot =
      if slot = .head sem then value.head else sched.slot slot := by
  cases slot with
  | head other =>
    by_cases same : other = sem
    · subst same
      simp [Sched.slot, setSem]
    · simp [Sched.slot, setSem, same]
  | link h => simp [Sched.slot, setSem]

/-- The slot into which a waiter is written. -/
def appendSlot (sem : SemRef) (sched : Sched) : Slot :=
  if (sched.sem sem).head = nullHandle then .head sem else .link (sched.sem sem).tail

theorem slot_blockedOn (sem : SemRef) (slot : Slot) :
    (sched.blockedOn sem).slot slot =
      if slot = sched.appendSlot sem then sched.running else sched.slot slot := by
  unfold appendSlot
  cases slot with
  | head other =>
    by_cases empty : (sched.sem sem).head = nullHandle
    · by_cases same : other = sem
      · subst same
        simp [Sched.slot, blockedOn, empty]
      · simp [Sched.slot, blockedOn, empty, same]
    · by_cases same : other = sem
      · subst same
        simp [Sched.slot, blockedOn, empty]
      · simp [Sched.slot, blockedOn, empty, same]
  | link h =>
    by_cases empty : (sched.sem sem).head = nullHandle
    · simp [Sched.slot, blockedOn, empty]
    · by_cases same : h = (sched.sem sem).tail
      · simp [Sched.slot, blockedOn, empty, same]
      · simp [Sched.slot, blockedOn, empty, same]

/-- A waiter is taken out of the head slot, whose place its successor takes. -/
theorem slot_unlinked (sem : SemRef) (slot : Slot) :
    (sched.unlinked sem).slot slot =
      if slot = .head sem then sched.link (sched.sem sem).head
      else if slot = .link (sched.sem sem).head then nullHandle else sched.slot slot := by
  cases slot with
  | head other =>
    by_cases same : other = sem
    · subst same
      by_cases last : sched.link (sched.sem other).head = nullHandle
      · simp [Sched.slot, unlinked, last, microkitCothreadSemaphoreInit]
      · simp [Sched.slot, unlinked, last]
    · simp [Sched.slot, unlinked, same]
  | link h =>
    by_cases same : h = (sched.sem sem).head
    · subst same
      simp [Sched.slot, unlinked]
    · simp [Sched.slot, unlinked, same]

/-- A waiter is written over one slot; nothing named it before. -/
theorem SlotsSound.blockedOn (slots : SlotsSound config sched) (live : sched.live config sem)
    (executing : sched.state sched.running = .running) (bounds : InRange config sched.running) :
    SlotsSound config (sched.blockedOn sem) := by
  have unnamed : ∀ slot, sched.Used config slot → 0 < sched.running →
      sched.slot slot ≠ sched.running := fun slot used positive =>
    slots.slot_ne used positive (by rw [executing]; simp)
  have appendUsed : sched.Used config (sched.appendSlot sem) := by
    unfold appendSlot
    split
    · exact live
    · rename_i nonempty
      exact slots.tail sem live nonempty
  constructor
  · intro slot used
    rw [slot_blockedOn]
    split
    · by_cases isRoot : sched.running = 0
      · exact .inr (.inl isRoot)
      · refine .inr (.inr ⟨by have := bounds.1; omega, ?_⟩)
        simp [Sched.blockedOn]
    · rcases slots.target slot used with isNull | isRoot | ⟨positive, blocked⟩
      · exact .inl isNull
      · exact .inr (.inl isRoot)
      · refine .inr (.inr ⟨positive, ?_⟩)
        by_cases same : sched.slot slot = sched.running
        · simp [Sched.blockedOn, same]
        · simp [Sched.blockedOn, same, blocked]
  · intro slot other used otherUsed positive equal
    rw [slot_blockedOn] at positive equal
    rw [slot_blockedOn] at equal
    by_cases first : slot = sched.appendSlot sem
    · by_cases second : other = sched.appendSlot sem
      · rw [first, second]
      · rw [if_pos first, if_neg second] at equal
        rw [if_pos first] at positive
        exact absurd equal.symm (unnamed other otherUsed positive)
    · rw [if_neg first] at positive equal
      by_cases second : other = sched.appendSlot sem
      · rw [if_pos second] at equal
        exact absurd equal (unnamed slot used (equal ▸ positive))
      · rw [if_neg second] at equal
        exact slots.unique slot other used otherUsed positive equal
  · intro other otherLive nonempty
    by_cases same : other = sem
    · subst same
      simpa [Sched.blockedOn] using bounds
    · simp only [Sched.blockedOn, Function.update_of_ne same] at nonempty ⊢
      exact slots.tail other otherLive nonempty

/-- The head of a nonempty wait list is an index. -/
theorem SlotsSound.head_inRange (slots : SlotsSound config sched)
    (threads : ThreadsSound config executing sched.state) (live : sched.live config sem)
    (nonempty : (sched.sem sem).head ≠ nullHandle) : InRange config (sched.sem sem).head := by
  rcases slots.target (.head sem) live with isNull | isRoot | ⟨-, blocked⟩
  · exact absurd isNull nonempty
  · exact threads.inRange _ (by rw [show (sched.sem sem).head = 0 from isRoot]; exact threads.rootActive)
  · exact threads.inRange _ (by rw [show sched.state (sched.sem sem).head = _ from blocked]; simp)

/-- Taking the first waiter moves its link into the head slot and clears the link. -/
theorem SlotsSound.unlinked (slots : SlotsSound config sched) (live : sched.live config sem)
    (nonempty : (sched.sem sem).head ≠ nullHandle) (bounds : InRange config (sched.sem sem).head) :
    SlotsSound config (sched.unlinked sem) ∧
      ∀ slot, sched.Used config slot → 0 < (sched.unlinked sem).slot slot →
        (sched.unlinked sem).slot slot ≠ (sched.sem sem).head := by
  have headUsed : sched.Used config (.head sem) := live
  have linkUsed : sched.Used config (.link (sched.sem sem).head) := bounds
  -- whatever names the new head is the old link of the first waiter
  have moved : ∀ slot, sched.Used config slot → slot ≠ .head sem →
      slot ≠ .link (sched.sem sem).head → 0 < sched.link (sched.sem sem).head →
      sched.slot slot ≠ sched.link (sched.sem sem).head := by
    intro slot used _ notLink positive names
    exact notLink (slots.unique _ _ linkUsed used positive names.symm).symm
  refine ⟨⟨?_, ?_, ?_⟩, ?_⟩
  · intro slot used
    rw [slot_unlinked]
    split
    · exact slots.target _ linkUsed
    split
    · exact .inl rfl
    · exact slots.target slot used
  · intro slot other used otherUsed positive equal
    rw [slot_unlinked] at positive equal
    rw [slot_unlinked] at equal
    by_cases firstHead : slot = .head sem
    · rw [if_pos firstHead] at positive equal
      by_cases secondHead : other = .head sem
      · rw [firstHead, secondHead]
      rw [if_neg secondHead] at equal
      by_cases secondLink : other = .link (sched.sem sem).head
      · rw [if_pos secondLink] at equal
        exact absurd equal (positive_ne_nullHandle positive)
      · rw [if_neg secondLink] at equal
        exact absurd equal.symm (moved other otherUsed secondHead secondLink positive)
    rw [if_neg firstHead] at positive equal
    by_cases firstLink : slot = .link (sched.sem sem).head
    · rw [if_pos firstLink] at positive
      exact absurd rfl (positive_ne_nullHandle positive)
    rw [if_neg firstLink] at positive equal
    by_cases secondHead : other = .head sem
    · rw [if_pos secondHead] at equal
      exact absurd equal (moved slot used firstHead firstLink (equal ▸ positive))
    rw [if_neg secondHead] at equal
    by_cases secondLink : other = .link (sched.sem sem).head
    · rw [if_pos secondLink] at equal
      exact absurd equal (positive_ne_nullHandle positive)
    · rw [if_neg secondLink] at equal
      exact slots.unique slot other used otherUsed positive equal
  · intro other otherLive otherNonempty
    by_cases same : other = sem
    · subst same
      by_cases last : sched.link (sched.sem other).head = nullHandle
      · simp [Sched.unlinked, last, microkitCothreadSemaphoreInit] at otherNonempty
      · simpa [Sched.unlinked, last] using slots.tail other live nonempty
    · simp only [Sched.unlinked, Function.update_of_ne same] at otherNonempty ⊢
      exact slots.tail other otherLive otherNonempty
  · intro slot used positive names
    have headPositive : 0 < (sched.sem sem).head := names ▸ positive
    rw [slot_unlinked] at names
    split at names
    · have linkPositive : 0 < sched.slot (.link (sched.sem sem).head) := by
        change 0 < sched.link _
        rw [names]
        exact headPositive
      cases slots.unique _ _ linkUsed headUsed linkPositive names
    split at names
    · exact absurd names.symm nonempty
    · rename_i notHead _
      exact notHead (slots.unique _ _ used headUsed (names ▸ headPositive) names)

end Sched
end Libmicrokitco
