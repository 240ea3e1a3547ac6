import Libmicrokitco.Isa.Spill

/-!
# The contract of a context switch

A switch saves the registers of the thread it leaves in an area that ends at
the thread's handle, loads those of the thread it goes to and jumps through a
slot of the latter's area. `Switched` is that for one call. What makes a switch
transparent follows from it: a thread that is switched back to, with its area
untouched, goes on at its return address with the registers it had.
-/

namespace Libmicrokitco.Isa

/-- Where a switch keeps the registers of a context, as offsets from its handle. -/
structure SaveLayout (ρ : Type) where
  /-- The length of a save area. -/
  words : Nat
  saved : Plan ρ
  /-- The register that holds the return address of a call. -/
  link : ρ
  /-- The slot that a switch jumps through. -/
  linkOffset : BitVec 64
  /-- Where a jump to an address goes. -/
  target : BitVec 64 → BitVec 64

/-- A switch, its two arguments and where it keeps contexts. -/
structure Switch (ρ : Type) where
  run : Cpu ρ → Option (Cpu ρ)
  handleReg : ρ
  previousReg : ρ
  layout : SaveLayout ρ

variable {ρ : Type} {layout : SaveLayout ρ} {handle previous other offset place : BitVec 64}

/-- The bytes of the save area of a handle. -/
def SaveLayout.InArea (layout : SaveLayout ρ) (handle place : BitVec 64) : Prop :=
  (handle + 7#64 - place).toNat < 8 * layout.words

/-- Save areas that share no byte. -/
def SaveLayout.Apart (layout : SaveLayout ρ) (left right : BitVec 64) : Prop :=
  ∀ place, layout.InArea left place → ¬ layout.InArea right place

/-- Every slot lies in the save area. -/
def SaveLayout.Enclosed (layout : SaveLayout ρ) : Prop :=
  ∀ offset ∈ layout.linkOffset :: layout.saved.map Prod.snd,
    7 ≤ (7#64 - offset).toNat ∧ (7#64 - offset).toNat < 8 * layout.words

instance (layout : SaveLayout ρ) : Decidable layout.Enclosed :=
  List.decidableBAll _ _

theorem SaveLayout.Apart.symm (apart : layout.Apart handle previous) : layout.Apart previous handle :=
  fun place inPrevious inHandle => apart place inHandle inPrevious

/-- Handles that are an area's length from each other, both ways round. -/
theorem SaveLayout.apart_of_distance (above : 8 * layout.words ≤ (handle - previous).toNat)
    (below : 8 * layout.words ≤ (previous - handle).toNat) : layout.Apart handle previous := by
  intro place inHandle inPrevious
  unfold InArea at inHandle inPrevious
  bv_omega

/-- The bytes of a slot are in the area. -/
theorem SaveLayout.Enclosed.inArea (enclosed : layout.Enclosed)
    (member : offset ∈ layout.linkOffset :: layout.saved.map Prod.snd) (handle : BitVec 64)
    {index : Nat} (bounded : index < 8) :
    layout.InArea handle (handle + offset + BitVec.ofNat 64 index) := by
  obtain ⟨low, high⟩ := enclosed offset member
  have shift : handle + 7#64 - (handle + offset + BitVec.ofNat 64 index) =
      7#64 - offset - BitVec.ofNat 64 index := by
    bv_omega
  rw [InArea, shift]
  have small : (BitVec.ofNat 64 index).toNat = index := by
    rw [BitVec.toNat_ofNat]
    omega
  rw [BitVec.toNat_sub_of_le (by rw [BitVec.le_def, small]; omega), small]
  omega

/-- Outside the area there is no byte of a slot. -/
theorem SaveLayout.Enclosed.outside (enclosed : layout.Enclosed)
    (member : offset ∈ layout.linkOffset :: layout.saved.map Prod.snd)
    (outside : ¬ layout.InArea handle place) : 8 ≤ (place - (handle + offset)).toNat := by
  by_contra inside
  apply outside
  have byte : handle + offset + BitVec.ofNat 64 (place - (handle + offset)).toNat = place := by
    rw [BitVec.ofNat_toNat, BitVec.setWidth_eq]
    bv_omega
  rw [← byte]
  exact enclosed.inArea member handle (Nat.lt_of_not_le inside)

variable [DecidableEq ρ] [Registers ρ]

/-- What a switch from `previous` to `handle` does. The registers are loaded after
the others have been saved. -/
structure Switched (layout : SaveLayout ρ) (handle previous : BitVec 64) (before after : Cpu ρ) :
    Prop where
  outside : ∀ place, ¬ layout.InArea previous place → after.memory place = before.memory place
  saved : ∀ entry ∈ layout.saved,
    loadDouble (previous + entry.2) after.memory = before.get entry.1
  savedLink : loadDouble (previous + layout.linkOffset) after.memory = before.get layout.link
  loaded : ∀ entry ∈ layout.saved, after.get entry.1 = loadDouble (handle + entry.2) after.memory
  jumped : after.pc = layout.target (loadDouble (handle + layout.linkOffset) after.memory)

namespace Switch

/-- `before` is about to make the call that ends in `after`. -/
structure Calls (switch : Switch ρ) (handle previous : BitVec 64) (before after : Cpu ρ) : Prop where
  handleArg : before.get switch.handleReg = handle
  previousArg : before.get switch.previousReg = previous
  ran : switch.run before = some after

/-- Every call with these handles returns, and does what a switch does. -/
def Swaps (switch : Switch ρ) (handle previous : BitVec 64) : Prop :=
  ∀ before, before.get switch.handleReg = handle → before.get switch.previousReg = previous →
    ∃ after, switch.run before = some after ∧ Switched switch.layout handle previous before after

/-- `previous` is left for `handle` and later resumed from `other`. -/
structure Transparent (switch : Switch ρ) (handle previous other : BitVec 64) : Prop where
  leaves : switch.Swaps handle previous
  returns : switch.Swaps previous other
  resumes : ∀ first second third fourth, switch.Calls handle previous first second →
    switch.Calls previous other third fourth →
    (∀ place, switch.layout.InArea previous place → third.memory place = second.memory place) →
    (∀ entry ∈ switch.layout.saved, fourth.get entry.1 = first.get entry.1) ∧
      fourth.pc = switch.layout.target (first.get switch.layout.link)

end Switch

variable {first second third fourth : Cpu ρ}

/-- A switch that spills the right values into the right slots and fills from
the other handle. The registers it spills need not be the saved ones, as long as
they hold their values. -/
theorem Switched.of_spilled {plan : Plan ρ} {value : ρ → BitVec 64} (enclosed : layout.Enclosed)
    (memory : second.memory = spilled value previous plan first.memory) (spread : plan.Spread)
    (slots : ∀ entry ∈ plan, entry.2 ∈ layout.linkOffset :: layout.saved.map Prod.snd)
    (values : ∀ entry ∈ (layout.link, layout.linkOffset) :: layout.saved,
      ∃ reg, (reg, entry.2) ∈ plan ∧ value reg = first.get entry.1)
    (loaded : ∀ entry ∈ layout.saved, second.get entry.1 = loadDouble (handle + entry.2) second.memory)
    (jumped : second.pc = layout.target (loadDouble (handle + layout.linkOffset) second.memory)) :
    Switched layout handle previous first second := by
  have stored : ∀ entry ∈ (layout.link, layout.linkOffset) :: layout.saved,
      loadDouble (previous + entry.2) second.memory = first.get entry.1 := by
    intro entry member
    obtain ⟨reg, planned, holds⟩ := values entry member
    rw [memory, ← holds]
    exact loadDouble_spilled _ _ _ spread planned
  constructor
  case outside =>
    intro place outside
    rw [memory]
    exact spilled_of_outside fun entry member => enclosed.outside (slots entry member) outside
  case saved =>
    exact fun entry member => stored entry (List.mem_cons_of_mem _ member)
  case savedLink =>
    exact stored (layout.link, layout.linkOffset) List.mem_cons_self
  case loaded => exact loaded
  case jumped => exact jumped

/-- A thread switched away from resumes as if the call had returned. -/
theorem Switched.resumes (enclosed : layout.Enclosed) (left : Switched layout handle previous first second)
    (kept : ∀ place, layout.InArea previous place → third.memory place = second.memory place)
    (back : Switched layout previous other third fourth) (apart : layout.Apart previous other) :
    (∀ entry ∈ layout.saved, fourth.get entry.1 = first.get entry.1) ∧
      fourth.pc = layout.target (first.get layout.link) := by
  have slot : ∀ offset ∈ layout.linkOffset :: layout.saved.map Prod.snd,
      loadDouble (previous + offset) fourth.memory = loadDouble (previous + offset) second.memory := by
    intro offset member
    apply loadDouble_congr
    intro index bounded
    have inside := enclosed.inArea member previous bounded
    exact (back.outside _ (apart _ inside)).trans (kept _ inside)
  constructor
  · intro entry member
    have offsetMember := List.mem_cons_of_mem layout.linkOffset (List.mem_map_of_mem (f := Prod.snd) member)
    rw [back.loaded entry member, slot entry.2 offsetMember, left.saved entry member]
  · rw [back.jumped, slot _ List.mem_cons_self, left.savedLink]

/-- A switch that does its job on both ways is transparent. -/
theorem Switch.Swaps.transparent {switch : Switch ρ} (enclosed : switch.layout.Enclosed)
    (leaves : switch.Swaps handle previous) (returns : switch.Swaps previous other)
    (apart : switch.layout.Apart previous other) : switch.Transparent handle previous other := by
  refine ⟨leaves, returns, ?_⟩
  intro first second third fourth leaving coming kept
  obtain ⟨reached, ran, left⟩ := leaves first leaving.handleArg leaving.previousArg
  obtain ⟨resumed, ranBack, back⟩ := returns third coming.handleArg coming.previousArg
  obtain rfl := Option.some.inj (ran.symm.trans leaving.ran)
  obtain rfl := Option.some.inj (ranBack.symm.trans coming.ran)
  exact left.resumes enclosed kept back apart

end Libmicrokitco.Isa
