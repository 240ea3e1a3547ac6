import Libmicrokitco.Codis.Searching

/-!
# Searching by words agrees with searching by bytes

`strlen` and `memchr` skip over words that the test for a zero byte passes. Both
end in a loop over single bytes, which alone is the plain search.
-/

namespace Libmicrokitco

open Codis

variable {space : AddressSpace} {start : Address} {n : BitVec 64} {c : BitVec 8} {total i j : Nat}

/-- In every memory, whatever is mapped of it, `strlen` returns exactly when the
plain search does, and then with the same end. -/
theorem strlen_agrees_with_plain :
    strlen space start = .ok n ↔ strlenBytes space everywhere start = .ok (start + n) := by
  rw [strlen_eq_ok]
  constructor
  · rintro ⟨count, ends, rfl⟩
    have bounded := ends.bounded
    have found : strlenBytes space everywhere (start + BitVec.ofNat 64 0) =
        .ok (start + BitVec.ofNat 64 count) :=
      strlenBytes_ends ends (Nat.zero_le _) (by unfold everywhere; omega)
    rwa [BitVec.add_zero] at found
  · intro found
    rw [← BitVec.add_zero start] at found
    obtain ⟨count, ends, same⟩ := strlenBytes_passes Passes.zero found
    rw [BitVec.add_zero] at same
    exact ⟨count, ends, (BitVec.add_right_inj start).mp same⟩

/-- Two searches that ended have ended at the same place. -/
theorem Codis.Passed.unique (left : Passed space c start total i) (right : Passed space c start total j)
    (leftEnds : i = total ∨ space.bytes (start + BitVec.ofNat 64 i) = c)
    (rightEnds : j = total ∨ space.bytes (start + BitVec.ofNat 64 j) = c) : i = j := by
  have leftWithin := left.within
  have rightWithin := right.within
  rcases Nat.lt_trichotomy i j with before | same | after
  · exact absurd (leftEnds.resolve_left (by omega)) (right.absent i before)
  · exact same
  · exact absurd (rightEnds.resolve_left (by omega)) (left.absent j after)

/-- If the bytes to search are mapped `memchr` finds what the plain search finds,
although the words it loads need not be aligned. -/
theorem memchr_agrees_with_plain (maps : space.Maps start n.toNat) (c : BitVec 32) :
    memchr space start c n =
      (fun left => if left.2 = 0#64 then 0#64 else left.1) <$>
        memchrBytes space (c.setWidth 8) everywhere start n := by
  have bounded : n.toNat < 2 ^ 64 := n.isLt
  have none : Passed space (c.setWidth 8) start n.toNat 0 :=
    ⟨Nat.zero_le _, fun i below => absurd below (Nat.not_lt_zero i)⟩
  obtain ⟨i, passed, ends, result⟩ := memchr_passed maps bounded c
  have enough : n.toNat < 0 + everywhere := by
    unfold everywhere
    omega
  obtain ⟨j, passedPlain, endsPlain, plain⟩ := memchrBytes_passed maps bounded none enough
  obtain rfl := passed.unique passedPlain ends endsPlain
  have within := passed.within
  rw [BitVec.ofNat_toNat, BitVec.setWidth_eq] at result
  rw [BitVec.add_zero, Nat.sub_zero, BitVec.ofNat_toNat, BitVec.setWidth_eq] at plain
  rw [result, plain]
  change Except.ok _ = Except.ok (if BitVec.ofNat 64 (n.toNat - i) = 0#64 then _ else _)
  congr 1
  by_cases exhausted : i = n.toNat
  · rw [if_pos exhausted, if_pos (by rw [exhausted, Nat.sub_self])]
  · rw [if_neg exhausted, if_neg (by bv_omega)]

/-- One page with a byte of interest behind an unaligned start. -/
def samplePage : AddressSpace where
  pages := fun page => page = 1
  bytes := fun place => if place = 0x1ffe#64 then 0x2a#8 else 1#8

theorem memchr_agrees_with_plain_sample :
    memchr samplePage 0x1ff3#64 0x2a#32 13#64 =
      (fun left => if left.2 = 0#64 then 0#64 else left.1) <$>
        memchrBytes samplePage 0x2a#8 everywhere 0x1ff3#64 13#64 := by
  refine memchr_agrees_with_plain (fun place within => ?_) 0x2a#32
  unfold CString.Within at within
  apply decide_eq_true
  bv_omega

end Libmicrokitco
