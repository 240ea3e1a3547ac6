import Mathlib.Data.BitVec
import Mathlib.Data.List.GetD

/-!
# Strings in byte-addressed memory

A text stands in memory with a terminator behind it. Texts have no zero byte, so
that the terminator is where a search for it ends.
-/

namespace Libmicrokitco.CString

/-- The places of `count` bytes from `start` on. -/
def Within (start : BitVec 64) (count : Nat) (place : BitVec 64) : Prop :=
  (place - start).toNat < count

instance (start : BitVec 64) (count : Nat) (place : BitVec 64) :
    Decidable (Within start count place) := inferInstanceAs (Decidable (_ < _))

/-- `text` and its terminator, from `start` on. -/
structure StringAt (memory : BitVec 64 → BitVec 8) (start : BitVec 64) (text : List (BitVec 8)) :
    Prop where
  chars : ∀ i ≤ text.length, memory (start + BitVec.ofNat 64 i) = text.getD i 0#8
  nonzero : 0#8 ∉ text
  noWrap : start.toNat + text.length < 2 ^ 64

/-- Memory with `bytes` written from `start` on. -/
def storeBytes (start : BitVec 64) (bytes : List (BitVec 8)) (memory : BitVec 64 → BitVec 8) :
    BitVec 64 → BitVec 8 :=
  fun place => bytes.getD (place - start).toNat (memory place)

variable {memory changed : BitVec 64 → BitVec 8} {start place : BitVec 64}
  {text bytes rest : List (BitVec 8)} {byte : BitVec 8} {count i : Nat}

theorem add_ofNat_succ (start : BitVec 64) (i : Nat) :
    start + 1#64 + BitVec.ofNat 64 i = start + BitVec.ofNat 64 (i + 1) := by
  rw [BitVec.add_assoc, ← BitVec.ofNat_add, Nat.add_comm]

theorem toNat_add_ofNat_sub (bounded : i < 2 ^ 64) : (start + BitVec.ofNat 64 i - start).toNat = i := by
  rw [BitVec.add_comm, BitVec.add_sub_cancel, BitVec.toNat_ofNat, Nat.mod_eq_of_lt bounded]

theorem within_add (below : i < count) (bounded : count ≤ 2 ^ 64) :
    Within start count (start + BitVec.ofNat 64 i) := by
  rw [Within, toNat_add_ofNat_sub (by omega)]
  exact below

theorem within_of_succ (bounded : count < 2 ^ 64) (within : Within (start + 1#64) count place) :
    Within start (count + 1) place ∧ place ≠ start := by
  unfold Within at within ⊢
  constructor
  · bv_omega
  · rintro rfl
    bv_omega

/-- A place within is an offset from the start. -/
theorem Within.exists_offset (within : Within start count place) :
    ∃ i < count, place = start + BitVec.ofNat 64 i := by
  refine ⟨(place - start).toNat, within, ?_⟩
  rw [BitVec.ofNat_toNat, BitVec.setWidth_eq, BitVec.add_comm, BitVec.sub_add_cancel]

namespace StringAt

theorem head (string : StringAt memory start text) : memory start = text.headD 0#8 := by
  have first := string.chars 0 (Nat.zero_le _)
  rw [BitVec.add_zero] at first
  rw [first]
  cases text <;> rfl

theorem tail (string : StringAt memory start (byte :: rest)) : StringAt memory (start + 1#64) rest := by
  have bounded := string.noWrap
  rw [List.length_cons] at bounded
  refine ⟨fun i le => ?_, fun member => string.nonzero (List.mem_cons_of_mem _ member), ?_⟩
  · rw [add_ofNat_succ, string.chars (i + 1) (by simpa using le)]
    rfl
  · bv_omega

theorem congr (string : StringAt memory start text)
    (same : ∀ place, Within start (text.length + 1) place → changed place = memory place) :
    StringAt changed start text := by
  have bounded := string.noWrap
  refine ⟨fun i le => ?_, string.nonzero, bounded⟩
  rw [same _ (within_add (Nat.lt_succ_of_le le) (by omega))]
  exact string.chars i le

theorem terminated (string : StringAt memory start text) :
    memory (start + BitVec.ofNat 64 text.length) = 0#8 := by
  rw [string.chars _ le_rfl, List.getD_eq_default _ _ le_rfl]

theorem ne_zero (string : StringAt memory start text) (below : i < text.length) :
    memory (start + BitVec.ofNat 64 i) ≠ 0#8 := by
  rw [string.chars i below.le, List.getD_eq_getElem _ _ below]
  intro isZero
  exact string.nonzero (isZero ▸ List.getElem_mem below)

end StringAt

theorem storeBytes_of_outside (outside : ¬ Within start bytes.length place) :
    storeBytes start bytes memory place = memory place :=
  List.getD_eq_default _ _ (Nat.le_of_not_lt outside)

theorem storeBytes_nil (start : BitVec 64) (memory : BitVec 64 → BitVec 8) :
    storeBytes start [] memory = memory := rfl

/-- Bytes are written one after the other. -/
theorem storeBytes_cons (bounded : rest.length < 2 ^ 64) :
    storeBytes start (byte :: rest) memory =
      storeBytes (start + 1#64) rest (Function.update memory start byte) := by
  funext place
  by_cases same : place = start
  · subst same
    have far : (place - (place + 1#64)).toNat = 2 ^ 64 - 1 := by bv_omega
    have near : (place - place).toNat = 0 := by bv_omega
    rw [storeBytes, storeBytes, far, near, List.getD_eq_default rest _ (by omega),
      Function.update_self]
    rfl
  · have offset : (place - start).toNat = (place - (start + 1#64)).toNat + 1 := by bv_omega
    rw [storeBytes, storeBytes, offset, Function.update_of_ne same]
    rfl

theorem stringAt_storeBytes (nonzero : 0#8 ∉ text) (noWrap : start.toNat + text.length < 2 ^ 64) :
    StringAt (storeBytes start (text ++ [0#8]) memory) start text := by
  refine ⟨fun i le => ?_, nonzero, noWrap⟩
  rw [storeBytes, toNat_add_ofNat_sub (by omega)]
  rcases Nat.lt_or_eq_of_le le with below | rfl
  · rw [List.getD_append _ _ _ _ below, List.getD_eq_getElem _ _ below, List.getD_eq_getElem _ _ below]
  · rw [List.getD_append_right _ _ _ _ le_rfl, Nat.sub_self, List.getD_eq_default _ _ le_rfl]
    rfl

/-- Writing a string over the terminator of another appends it. -/
theorem StringAt.append {tail : List (BitVec 8)} (string : StringAt memory start text)
    (nonzero : 0#8 ∉ tail) (noWrap : start.toNat + (text ++ tail).length < 2 ^ 64) :
    StringAt (storeBytes (start + BitVec.ofNat 64 text.length) (tail ++ [0#8]) memory) start
      (text ++ tail) := by
  have member : 0#8 ∉ text ++ tail := by simp [string.nonzero, nonzero]
  refine ⟨fun i le => ?_, member, noWrap⟩
  rw [List.length_append] at le noWrap
  by_cases inText : i < text.length
  · have outside : ¬ Within (start + BitVec.ofNat 64 text.length) (tail ++ [0#8]).length
        (start + BitVec.ofNat 64 i) := by
      simp only [Within, List.length_append, List.length_singleton]
      bv_omega
    rw [storeBytes_of_outside outside, string.chars i (by omega), List.getD_append _ _ _ _ inText]
  · obtain ⟨j, rfl⟩ := Nat.exists_eq_add_of_le (Nat.le_of_not_lt inText)
    have behind := (@stringAt_storeBytes memory (start + BitVec.ofNat 64 text.length) tail nonzero
      (by bv_omega)).chars j (by omega)
    rw [BitVec.ofNat_add, ← BitVec.add_assoc, behind, List.getD_append_right _ _ _ _ (by omega),
      Nat.add_sub_cancel_left]

end Libmicrokitco.CString
