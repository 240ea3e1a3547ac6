import Libmicrokitco.Codis.Strings
import Libmicrokitco.Data.CString
import Libmicrokitco.Data.ZeroByte
import Libmicrokitco.Semantics.Agreement

/-!
# Searching memory a word at a time

`strlen` and `strnlen` find what a search byte by byte would find, wherever the
string starts, and touch no page that it would not touch.
-/

namespace Libmicrokitco.Codis

open Isa CString

/-- The page of every one of `count` bytes from `start` on is mapped. -/
def AddressSpace.Maps (space : AddressSpace) (start : Address) (count : Nat) : Prop :=
  ∀ place, Within start count place → space.mapped place = true

variable {space : AddressSpace} {start s w : Address} {text : List (BitVec 8)} {c : BitVec 8}
  {n : BitVec 64} {count i j k fuel : Nat}

namespace AddressSpace

theorem Maps.load (maps : space.Maps start count) (below : i < count) (bounded : count ≤ 2 ^ 64) :
    space.load (start + BitVec.ofNat 64 i) = .ok (space.bytes (start + BitVec.ofNat 64 i)) :=
  if_pos (maps _ (within_add below bounded))

theorem load_eq_ok {place : Address} {byte : BitVec 8} :
    space.load place = .ok byte ↔ space.mapped place = true ∧ space.bytes place = byte := by
  unfold AddressSpace.load
  split
  · rename_i mapped
    simp [mapped]
  · rename_i unmapped
    simp [unmapped]

/-- An aligned word lies in one page. -/
theorem mapped_of_aligned (aligned : w % align = 0#64) (mapped : space.mapped w = true) (below : i < 8) :
    space.mapped (w + BitVec.ofNat 64 i) = true := by
  have samePage : (w + BitVec.ofNat 64 i).toNat / 0x1000 = w.toNat / 0x1000 := by
    have multiple : w.toNat % 8 = 0 := congrArg BitVec.toNat aligned
    bv_omega
  unfold AddressSpace.mapped at mapped ⊢
  rwa [samePage]

theorem loadWord_of_aligned (aligned : w % align = 0#64) (mapped : space.mapped w = true) :
    space.loadWord w = .ok (loadDouble w space.bytes) :=
  if_pos ⟨mapped, mapped_of_aligned aligned mapped (i := 7) (by decide)⟩

theorem loadWord_eq_ok {word : BitVec 64} (aligned : w % align = 0#64)
    (loaded : space.loadWord w = .ok word) :
    (∀ i < 8, space.mapped (w + BitVec.ofNat 64 i) = true) ∧ word = loadDouble w space.bytes := by
  unfold AddressSpace.loadWord at loaded
  split at loaded
  · rename_i mapped
    cases loaded
    exact ⟨fun i below => mapped_of_aligned aligned mapped.1 below, rfl⟩
  · cases loaded

theorem Maps.loadWord (maps : space.Maps start count) (below : i + 8 ≤ count)
    (bounded : count ≤ 2 ^ 64) : space.loadWord (start + BitVec.ofNat 64 i) =
      .ok (loadDouble (start + BitVec.ofNat 64 i) space.bytes) := by
  have last : start + BitVec.ofNat 64 i + 7#64 = start + BitVec.ofNat 64 (i + 7) := by
    rw [BitVec.add_assoc, BitVec.ofNat_add]
  refine if_pos ⟨maps _ (within_add (by omega) bounded), ?_⟩
  rw [last]
  exact maps _ (within_add (by omega) bounded)

end AddressSpace

theorem aligned_add (aligned : w % align = 0#64) : (w + align) % align = 0#64 := by
  have multiple : w.toNat % 8 = 0 := congrArg BitVec.toNat aligned
  apply BitVec.eq_of_toNat_eq
  rw [BitVec.toNat_umod, BitVec.toNat_add]
  change (w.toNat + 8) % 2 ^ 64 % 8 = 0
  omega

/-- A word that is passed over holds no zero byte. -/
theorem ne_zero_of_hasZero (clear : hasZero (loadDouble w space.bytes) = 0#64) (below : i < 8) :
    space.bytes (w + BitVec.ofNat 64 i) ≠ 0#8 := by
  rw [← byteOf_loadDouble w space.bytes below]
  exact byteOf_ne_zero clear below

/-- The first zero byte from `start` on is `count` bytes away, and it can be
reached. -/
structure Ends (space : AddressSpace) (start : Address) (count : Nat) : Prop where
  maps : space.Maps start (count + 1)
  nonzero : ∀ i < count, space.bytes (start + BitVec.ofNat 64 i) ≠ 0#8
  zero : space.bytes (start + BitVec.ofNat 64 count) = 0#8

section Strlen

/-- The end comes before the addresses repeat. -/
theorem Ends.bounded (ends : Ends space start count) : count < 2 ^ 64 := by
  by_contra far
  obtain ⟨i, rfl⟩ := Nat.exists_eq_add_of_le (Nat.le_of_not_lt far)
  apply ends.nonzero i (by omega)
  have same : BitVec.ofNat 64 (2 ^ 64 + i) = BitVec.ofNat 64 i := by
    apply BitVec.eq_of_toNat_eq
    rw [BitVec.toNat_ofNat, BitVec.toNat_ofNat, Nat.add_mod_left]
  rw [← same]
  exact ends.zero

/-- A string ends after its text. -/
theorem Ends.of_string (string : StringAt space.bytes start text)
    (maps : space.Maps start (text.length + 1)) : Ends space start text.length :=
  ⟨maps, fun _ below => string.ne_zero below, string.terminated⟩

theorem Ends.load (ends : Ends space start count) (le : k ≤ count) :
    space.load (start + BitVec.ofNat 64 k) = .ok (space.bytes (start + BitVec.ofNat 64 k)) :=
  ends.maps.load (Nat.lt_succ_of_le le) ends.bounded

section Forward

variable (ends : Ends space start count)

include ends

theorem strlenAlign_ends (le : k ≤ count) (enough : count < k + fuel) :
    ∃ j ≤ count, ∃ returned,
      strlenAlign space fuel (start + BitVec.ofNat 64 k) = .ok (start + BitVec.ofNat 64 j, returned) ∧
      (if returned then j = count else (start + BitVec.ofNat 64 j) % align = 0#64) := by
  induction fuel generalizing k with
  | zero => omega
  | succ fuel ih =>
    rw [strlenAlign]
    split
    · rename_i aligned
      exact ⟨k, le, false, rfl, aligned⟩
    rw [ends.load le]
    by_cases ended : k = count
    · refine ⟨k, le, true, ?_, ended⟩
      have isZero : space.bytes (start + BitVec.ofNat 64 k) = 0#8 := ended ▸ ends.zero
      simp only [bind, Except.bind, isZero, if_true]
      rfl
    · have nonzero := ends.nonzero k (by omega)
      obtain ⟨j, within, returned, result, found⟩ := ih (k := k + 1) (by omega) (by omega)
      refine ⟨j, within, returned, ?_, found⟩
      simp only [bind, Except.bind, nonzero, if_false]
      rw [← result, BitVec.ofNat_add, ← BitVec.add_assoc]

theorem strlenWords_ends (le : k ≤ count) (aligned : (start + BitVec.ofNat 64 k) % align = 0#64)
    (enough : count < k + fuel) :
    ∃ j ≤ count, strlenWords space fuel (start + BitVec.ofNat 64 k) =
      .ok (start + BitVec.ofNat 64 j) := by
  induction fuel generalizing k with
  | zero => omega
  | succ fuel ih =>
    have mapped := ends.maps _ (within_add (Nat.lt_succ_of_le le) ends.bounded)
    rw [strlenWords, AddressSpace.loadWord_of_aligned aligned mapped]
    by_cases clear : hasZero (loadDouble (start + BitVec.ofNat 64 k) space.bytes) = 0#64
    · have beyond : k + 8 ≤ count := by
        by_contra near
        apply ne_zero_of_hasZero clear (show count - k < 8 by omega)
        rw [BitVec.add_assoc, ← BitVec.ofNat_add, Nat.add_sub_cancel' le]
        exact ends.zero
      have next : start + BitVec.ofNat 64 k + align = start + BitVec.ofNat 64 (k + 8) := by
        rw [BitVec.ofNat_add, ← BitVec.add_assoc]
        rfl
      obtain ⟨j, within, result⟩ := ih (k := k + 8) beyond
        (next ▸ aligned_add aligned) (by omega)
      refine ⟨j, within, ?_⟩
      rw [← result, ← next]
      simp only [bind, Except.bind, clear, ne_eq, not_true_eq_false, if_false]
    · refine ⟨k, le, ?_⟩
      simp only [bind, Except.bind, ne_eq, clear, not_false_eq_true, if_true]
      rfl

theorem strlenBytes_ends (le : k ≤ count) (enough : count < k + fuel) :
    strlenBytes space fuel (start + BitVec.ofNat 64 k) = .ok (start + BitVec.ofNat 64 count) := by
  induction fuel generalizing k with
  | zero => omega
  | succ fuel ih =>
    rw [strlenBytes, ends.load le]
    by_cases ended : k = count
    · have isZero : space.bytes (start + BitVec.ofNat 64 k) = 0#8 := ended ▸ ends.zero
      simp only [bind, Except.bind, isZero, if_true]
      rw [ended]
      rfl
    · have nonzero := ends.nonzero k (by omega)
      rw [← ih (k := k + 1) (by omega) (by omega), BitVec.ofNat_add, ← BitVec.add_assoc]
      simp only [bind, Except.bind, nonzero, if_false]

/-- `strlen` finds the end, and reads no page that lies behind it. -/
theorem strlen_ends : strlen space start = .ok (BitVec.ofNat 64 count) := by
  have bounded := ends.bounded
  have enough : ∀ k, count < k + everywhere := by
    intro k
    unfold everywhere
    omega
  have length : start + BitVec.ofNat 64 count - start = BitVec.ofNat 64 count := by
    rw [BitVec.add_comm, BitVec.add_sub_cancel]
  obtain ⟨j, within, returned, result, found⟩ := strlenAlign_ends ends (Nat.zero_le _) (enough 0)
  rw [BitVec.add_zero] at result
  unfold strlen
  cases returned with
  | true =>
    rw [if_pos rfl] at found
    simp only [result, found, bind, Except.bind, if_true, length]
    rfl
  | false =>
    obtain ⟨i, withinToo, words⟩ := strlenWords_ends ends within found (enough j)
    simp only [result, words, strlenBytes_ends ends withinToo (enough i), bind, Except.bind, length]
    rfl

end Forward

/-- Bytes before the end that can be read. -/
def Passes (space : AddressSpace) (start : Address) (k : Nat) : Prop :=
  ∀ i < k, space.mapped (start + BitVec.ofNat 64 i) = true ∧ space.bytes (start + BitVec.ofNat 64 i) ≠ 0#8

theorem Passes.zero : Passes space start 0 := fun i below => absurd below (Nat.not_lt_zero i)

theorem Passes.add (passes : Passes space start k)
    (more : ∀ i < j, space.mapped (start + BitVec.ofNat 64 k + BitVec.ofNat 64 i) = true ∧
      space.bytes (start + BitVec.ofNat 64 k + BitVec.ofNat 64 i) ≠ 0#8) :
    Passes space start (k + j) := by
  intro i below
  by_cases earlier : i < k
  · exact passes i earlier
  · obtain ⟨i, rfl⟩ := Nat.exists_eq_add_of_le (Nat.le_of_not_lt earlier)
    rw [BitVec.ofNat_add, ← BitVec.add_assoc]
    exact more i (by omega)

theorem Passes.next (passes : Passes space start k) {byte : BitVec 8}
    (loaded : space.load (start + BitVec.ofNat 64 k) = .ok byte) (nonzero : byte ≠ 0#8) :
    Passes space start (k + 1) := by
  obtain ⟨mapped, rfl⟩ := AddressSpace.load_eq_ok.mp loaded
  refine passes.add fun i below => ?_
  obtain rfl : i = 0 := by omega
  rw [BitVec.add_zero]
  exact ⟨mapped, nonzero⟩

/-- The end is where the passed bytes end. -/
theorem Passes.ends (passes : Passes space start k)
    (loaded : space.load (start + BitVec.ofNat 64 k) = .ok 0#8) : Ends space start k := by
  obtain ⟨mapped, zero⟩ := AddressSpace.load_eq_ok.mp loaded
  refine ⟨fun place within => ?_, fun i below => (passes i below).2, zero⟩
  obtain ⟨i, below, rfl⟩ := within.exists_offset
  rcases Nat.lt_succ_iff_lt_or_eq.mp below with earlier | rfl
  · exact (passes i earlier).1
  · exact mapped

section Backward

variable {s : Address}

theorem strlenAlign_passes {returned : Bool} (passes : Passes space start k)
    (result : strlenAlign space fuel (start + BitVec.ofNat 64 k) = .ok (s, returned)) :
    ∃ j, Passes space start j ∧ s = start + BitVec.ofNat 64 j ∧
      if returned then space.load s = .ok 0#8 else s % align = 0#64 := by
  induction fuel generalizing k with
  | zero => cases result
  | succ fuel ih =>
    rw [strlenAlign] at result
    split at result
    · rename_i aligned
      cases result
      exact ⟨k, passes, rfl, aligned⟩
    obtain ⟨byte, loaded, rest⟩ := bind_eq_ok.mp result
    split at rest
    · rename_i isZero
      cases rest
      exact ⟨k, passes, rfl, isZero ▸ loaded⟩
    · rename_i nonzero
      apply ih (passes.next loaded nonzero)
      rw [BitVec.ofNat_add, ← BitVec.add_assoc]
      exact rest

theorem strlenWords_passes (passes : Passes space start k)
    (aligned : (start + BitVec.ofNat 64 k) % align = 0#64)
    (result : strlenWords space fuel (start + BitVec.ofNat 64 k) = .ok s) :
    ∃ j, Passes space start j ∧ s = start + BitVec.ofNat 64 j := by
  induction fuel generalizing k with
  | zero => cases result
  | succ fuel ih =>
    rw [strlenWords] at result
    obtain ⟨word, loaded, rest⟩ := bind_eq_ok.mp result
    obtain ⟨mapped, rfl⟩ := AddressSpace.loadWord_eq_ok aligned loaded
    split at rest
    · cases rest
      exact ⟨k, passes, rfl⟩
    · rename_i clear
      rw [not_not] at clear
      have next : start + BitVec.ofNat 64 k + align = start + BitVec.ofNat 64 (k + 8) := by
        rw [BitVec.ofNat_add, ← BitVec.add_assoc]
        rfl
      rw [next] at rest
      refine ih (passes.add fun i below => ⟨mapped i below, ne_zero_of_hasZero clear below⟩) ?_ rest
      rw [← next]
      exact aligned_add aligned

theorem strlenBytes_passes (passes : Passes space start k)
    (result : strlenBytes space fuel (start + BitVec.ofNat 64 k) = .ok s) :
    ∃ count, Ends space start count ∧ s = start + BitVec.ofNat 64 count := by
  induction fuel generalizing k with
  | zero => cases result
  | succ fuel ih =>
    rw [strlenBytes] at result
    obtain ⟨byte, loaded, rest⟩ := bind_eq_ok.mp result
    split at rest
    · rename_i isZero
      cases rest
      exact ⟨k, passes.ends (isZero ▸ loaded), rfl⟩
    · rename_i nonzero
      apply ih (passes.next loaded nonzero)
      rw [BitVec.ofNat_add, ← BitVec.add_assoc]
      exact rest

/-- If `strlen` returns it has found the end. -/
theorem strlen_eq_ok {n : BitVec 64} : strlen space start = .ok n ↔
    ∃ count, Ends space start count ∧ n = BitVec.ofNat 64 count := by
  constructor
  · intro result
    unfold strlen at result
    obtain ⟨⟨s, returned⟩, walked, result⟩ := bind_eq_ok.mp result
    rw [← BitVec.add_zero start] at walked
    obtain ⟨j, passes, rfl, found⟩ := strlenAlign_passes Passes.zero walked
    have offset : ∀ count, start + BitVec.ofNat 64 count - start = BitVec.ofNat 64 count := by
      intro count
      rw [BitVec.add_comm, BitVec.add_sub_cancel]
    cases returned with
    | true =>
      cases result
      exact ⟨j, passes.ends found, offset j⟩
    | false =>
      obtain ⟨w, words, result⟩ := bind_eq_ok.mp result
      obtain ⟨s, bytes, result⟩ := bind_eq_ok.mp result
      cases result
      obtain ⟨i, passes, rfl⟩ := strlenWords_passes passes found words
      obtain ⟨count, ends, rfl⟩ := strlenBytes_passes passes bytes
      exact ⟨count, ends, offset count⟩
  · rintro ⟨count, ends, rfl⟩
    exact strlen_ends ends

end Backward

end Strlen

section Memchr

/-- A search for `c` in `total` bytes that has passed `k` of them without finding it. -/
structure Passed (space : AddressSpace) (c : BitVec 8) (start : Address) (total k : Nat) : Prop where
  within : k ≤ total
  absent : ∀ i < k, space.bytes (start + BitVec.ofNat 64 i) ≠ c

variable {total : Nat}

theorem Passed.next (passed : Passed space c start total k) (below : k < total)
    (other : space.bytes (start + BitVec.ofNat 64 k) ≠ c) : Passed space c start total (k + 1) := by
  refine ⟨below, fun i lt => ?_⟩
  rcases Nat.lt_succ_iff_lt_or_eq.mp lt with earlier | rfl
  · exact passed.absent i earlier
  · exact other

/-- Passing over a word in which the test finds no byte `c`. -/
theorem Passed.word (passed : Passed space c start total k) (below : k + 8 ≤ total)
    (clear : hasZero (loadDouble (start + BitVec.ofNat 64 k) space.bytes ^^^
      ones * c.setWidth 64) = 0#64) : Passed space c start total (k + 8) := by
  refine ⟨below, fun i lt => ?_⟩
  by_cases earlier : i < k
  · exact passed.absent i earlier
  obtain ⟨j, rfl⟩ := Nat.exists_eq_add_of_le (Nat.le_of_not_lt earlier)
  rw [BitVec.ofNat_add, ← BitVec.add_assoc,
    ← byteOf_loadDouble _ space.bytes (show j < 8 by omega)]
  exact byteOf_ne_of_xor (byteOf_ne_zero clear (by omega)) (by omega)

variable (maps : space.Maps start total) (bounded : total < 2 ^ 64)

include maps bounded

theorem memchrAlign_passed (passed : Passed space c start total k) (enough : total < k + fuel) :
    ∃ j, Passed space c start total j ∧
      memchrAlign space c fuel (start + BitVec.ofNat 64 k) (BitVec.ofNat 64 (total - k)) =
        .ok (start + BitVec.ofNat 64 j, BitVec.ofNat 64 (total - j)) := by
  induction fuel generalizing k with
  | zero =>
    have := passed.within
    omega
  | succ fuel ih =>
    rw [memchrAlign]
    split
    · exact ⟨k, passed, rfl⟩
    rename_i unaligned
    have below : k < total := by
      have := passed.within
      by_contra ended
      apply unaligned
      right
      rw [show total - k = 0 by omega]
    rw [maps.load below bounded.le]
    by_cases found : space.bytes (start + BitVec.ofNat 64 k) = c
    · refine ⟨k, passed, ?_⟩
      simp only [bind, Except.bind, found, if_true]
      rfl
    · obtain ⟨j, passedToo, result⟩ := ih (passed.next below found) (by omega)
      refine ⟨j, passedToo, ?_⟩
      have remaining : BitVec.ofNat 64 (total - k) - 1#64 = BitVec.ofNat 64 (total - (k + 1)) := by
        bv_omega
      rw [← result, BitVec.ofNat_add, ← BitVec.add_assoc, ← remaining]
      simp only [bind, Except.bind, found, if_false]

theorem memchrWords_passed (passed : Passed space c start total k) (enough : total < k + fuel) :
    ∃ j, Passed space c start total j ∧
      memchrWords space (ones * c.setWidth 64) fuel (start + BitVec.ofNat 64 k)
        (BitVec.ofNat 64 (total - k)) =
          .ok (start + BitVec.ofNat 64 j, BitVec.ofNat 64 (total - j)) := by
  induction fuel generalizing k with
  | zero =>
    have := passed.within
    omega
  | succ fuel ih =>
    rw [memchrWords]
    split
    · exact ⟨k, passed, rfl⟩
    rename_i room
    have below : k + 8 ≤ total := by
      unfold align at room
      bv_omega
    rw [maps.loadWord below bounded.le]
    by_cases clear : hasZero (loadDouble (start + BitVec.ofNat 64 k) space.bytes ^^^
      ones * c.setWidth 64) = 0#64
    · obtain ⟨j, passedToo, result⟩ := ih (passed.word below clear) (by omega)
      refine ⟨j, passedToo, ?_⟩
      have remaining : BitVec.ofNat 64 (total - k) - align = BitVec.ofNat 64 (total - (k + 8)) := by
        unfold align
        bv_omega
      have next : start + BitVec.ofNat 64 k + align = start + BitVec.ofNat 64 (k + 8) := by
        rw [BitVec.ofNat_add, ← BitVec.add_assoc]
        rfl
      rw [← result, ← next, ← remaining]
      simp only [bind, Except.bind, clear, ne_eq, not_true_eq_false, if_false]
    · refine ⟨k, passed, ?_⟩
      simp only [bind, Except.bind, ne_eq, clear, not_false_eq_true, if_true]
      rfl

theorem memchrBytes_passed (passed : Passed space c start total k) (enough : total < k + fuel) :
    ∃ j, Passed space c start total j ∧
      (j = total ∨ space.bytes (start + BitVec.ofNat 64 j) = c) ∧
      memchrBytes space c fuel (start + BitVec.ofNat 64 k) (BitVec.ofNat 64 (total - k)) =
        .ok (start + BitVec.ofNat 64 j, BitVec.ofNat 64 (total - j)) := by
  induction fuel generalizing k with
  | zero =>
    have := passed.within
    omega
  | succ fuel ih =>
    rw [memchrBytes]
    by_cases ended : k = total
    · subst ended
      refine ⟨k, passed, .inl rfl, ?_⟩
      rw [if_pos (by rw [Nat.sub_self])]
    have below : k < total := lt_of_le_of_ne passed.within ended
    rw [if_neg (by bv_omega), maps.load below bounded.le]
    by_cases found : space.bytes (start + BitVec.ofNat 64 k) = c
    · refine ⟨k, passed, .inr found, ?_⟩
      simp only [bind, Except.bind, found, if_true]
      rfl
    · obtain ⟨j, passedToo, ends, result⟩ := ih (passed.next below found) (by omega)
      refine ⟨j, passedToo, ends, ?_⟩
      have remaining : BitVec.ofNat 64 (total - k) - 1#64 = BitVec.ofNat 64 (total - (k + 1)) := by
        bv_omega
      rw [← result, BitVec.ofNat_add, ← BitVec.add_assoc, ← remaining]
      simp only [bind, Except.bind, found, if_false]

/-- `memchr` finds the first byte `c`, and reads no page that the bytes searched
are not in. -/
theorem memchr_passed (c : BitVec 32) :
    ∃ j, Passed space (c.setWidth 8) start total j ∧
      (j = total ∨ space.bytes (start + BitVec.ofNat 64 j) = c.setWidth 8) ∧
      memchr space start c (BitVec.ofNat 64 total) =
        .ok (if j = total then 0#64 else start + BitVec.ofNat 64 j) := by
  have enough : ∀ k, total < k + everywhere := by
    intro k
    unfold everywhere
    omega
  have none : Passed space (c.setWidth 8) start total 0 :=
    ⟨Nat.zero_le _, fun i below => absurd below (Nat.not_lt_zero i)⟩
  obtain ⟨first, passedFirst, alignResult⟩ := memchrAlign_passed maps bounded none (enough 0)
  rw [BitVec.add_zero, Nat.sub_zero] at alignResult
  unfold memchr
  by_cases exhausted : first = total
  · refine ⟨first, passedFirst, .inl exhausted, ?_⟩
    simp only [alignResult, exhausted, Nat.sub_self, bind, Except.bind, if_true]
    rfl
  have below : first < total := lt_of_le_of_ne passedFirst.within exhausted
  have some : ¬ BitVec.ofNat 64 (total - first) = 0#64 := by bv_omega
  have loads := maps.load below bounded.le
  by_cases found : space.bytes (start + BitVec.ofNat 64 first) = c.setWidth 8
  · refine ⟨first, passedFirst, .inr found, ?_⟩
    simp only [alignResult, loads, bind, Except.bind, some, found, exhausted, if_true, if_false]
    rfl
  obtain ⟨second, passedSecond, wordsResult⟩ := memchrWords_passed maps bounded passedFirst (enough first)
  obtain ⟨third, passedThird, ends, bytesResult⟩ :=
    memchrBytes_passed maps bounded passedSecond (enough second)
  refine ⟨third, passedThird, ends, ?_⟩
  simp only [alignResult, loads, wordsResult, bytesResult, bind, Except.bind, some, found, if_false]
  by_cases exhaustedToo : third = total
  · simp only [exhaustedToo, Nat.sub_self, if_true]
    rfl
  · have someToo : ¬ BitVec.ofNat 64 (total - third) = 0#64 := by
      have := passedThird.within
      bv_omega
    simp only [someToo, exhaustedToo, if_false]
    rfl

/-- `strnlen` returns the length of a string that ends within `n` bytes, and `n`
if none does. -/
theorem strnlen_passed (nonNull : start ≠ 0#64) (noWrap : start.toNat + total ≤ 2 ^ 64) :
    ∃ j, Passed space 0#8 start total j ∧
      (j = total ∨ space.bytes (start + BitVec.ofNat 64 j) = 0#8) ∧
      strnlen space start (BitVec.ofNat 64 total) = .ok (BitVec.ofNat 64 j) := by
  obtain ⟨j, passed, ends, result⟩ := memchr_passed maps bounded 0#32
  refine ⟨j, passed, ends, ?_⟩
  unfold strnlen
  simp only [result, bind, Except.bind]
  by_cases exhausted : j = total
  · simp only [exhausted, if_true]
    rfl
  · have below : j < total := lt_of_le_of_ne passed.within exhausted
    have found : ¬ start + BitVec.ofNat 64 j = 0#64 := by bv_omega
    have length : start + BitVec.ofNat 64 j - start = BitVec.ofNat 64 j := by
      rw [BitVec.add_comm, BitVec.add_sub_cancel]
    simp only [exhausted, found, if_false, length]
    rfl

end Memchr

end Libmicrokitco.Codis
