import Libmicrokitco.Codis.Searching
import Libmicrokitco.Cothread.Clearing

/-!
# Copying strings and clearing memory

`strncpy` of the example never counts: with any positive bound it copies all of
its source, as `strcpy` does.
-/

namespace Libmicrokitco.Codis

open CString

variable {space : AddressSpace} {d s dest src : Address} {text tail : List (BitVec 8)}
  {i maxLen n : BitVec 64} {fuel k count : Nat}

theorem AddressSpace.load_of_mapped (mapped : space.mapped s = true) :
    space.load s = .ok (space.bytes s) := if_pos mapped

theorem AddressSpace.store_of_mapped (mapped : space.mapped d = true) (value : BitVec 8) :
    space.store d value = .ok { space with bytes := Function.update space.bytes d value } :=
  if_pos mapped

theorem strncpyLoop_eq_strcpyLoop (counts : i < maxLen) :
    strncpyLoop i maxLen fuel d s space = strcpyLoop fuel d s space := by
  induction fuel generalizing d s space with
  | zero => rfl
  | succ fuel ih =>
    rw [strncpyLoop, strcpyLoop]
    simp only [ih, counts, and_true]

theorem strcpyLoop_string (string : StringAt space.bytes s text)
    (mapsSource : space.Maps s (text.length + 1)) (mapsDest : space.Maps d (text.length + 1))
    (apart : ∀ place, Within s (text.length + 1) place → ¬ Within d (text.length + 1) place)
    (enough : text.length < fuel) :
    strcpyLoop fuel d s space =
      .ok { space with bytes := storeBytes d (text ++ [0#8]) space.bytes } := by
  have bounded := string.noWrap
  induction text generalizing d s space fuel with
  | nil =>
    obtain ⟨fuel, rfl⟩ := Nat.exists_eq_succ_of_ne_zero (show fuel ≠ 0 by omega)
    have isZero : space.bytes s = 0#8 := string.head
    have first : ∀ start : Address, Within start (0 + 1) start := fun start => by
      unfold Within
      bv_omega
    rw [strcpyLoop, AddressSpace.load_of_mapped (mapsSource s (first s))]
    simp only [bind, Except.bind, isZero, AddressSpace.store_of_mapped (mapsDest d (first d)), ne_eq,
      not_true_eq_false, if_false]
    rw [List.nil_append, storeBytes_cons (by simp), storeBytes_nil]
    rfl
  | cons c rest ih =>
    obtain ⟨fuel, rfl⟩ := Nat.exists_eq_succ_of_ne_zero (show fuel ≠ 0 by omega)
    rw [List.length_cons] at bounded enough mapsSource mapsDest apart
    have char : space.bytes s = c := string.head
    have nonzero : c ≠ 0#8 := fun isZero => string.nonzero (isZero ▸ List.mem_cons_self)
    have first : ∀ start : Address, Within start (rest.length + 1 + 1) start := fun start => by
      unfold Within
      bv_omega
    have small : rest.length + 1 < 2 ^ 64 := by omega
    have later : ∀ {start place : Address}, Within (start + 1#64) (rest.length + 1) place →
        Within start (rest.length + 1 + 1) place := fun within => (within_of_succ small within).1
    rw [strcpyLoop, AddressSpace.load_of_mapped (mapsSource s (first s))]
    simp only [bind, Except.bind, char, AddressSpace.store_of_mapped (mapsDest d (first d)), ne_eq,
      nonzero, not_false_eq_true, if_true]
    have stringAfter : StringAt (Function.update space.bytes d c) (s + 1#64) rest := by
      refine string.tail.congr fun place within => Function.update_of_ne ?_ _ _
      rintro rfl
      exact apart place (later within) (first place)
    have copied := @ih { space with bytes := Function.update space.bytes d c } (d + 1#64) _ _
      stringAfter (fun place within => mapsSource place (later within))
      (fun place within => mapsDest place (later within))
      (fun place within inDest => apart place (later within) (later inDest))
      (show rest.length < fuel by omega) stringAfter.noWrap
    rw [copied, List.cons_append, storeBytes_cons (by simpa using small)]

/-- `strcpy` copies a string that its destination does not overlap. -/
theorem strcpy_string (string : StringAt space.bytes src text)
    (mapsSource : space.Maps src (text.length + 1)) (mapsDest : space.Maps dest (text.length + 1))
    (apart : ∀ place, Within src (text.length + 1) place → ¬ Within dest (text.length + 1) place) :
    strcpy dest src space =
      .ok { space with bytes := storeBytes dest (text ++ [0#8]) space.bytes } := by
  apply strcpyLoop_string string mapsSource mapsDest apart
  have bounded := string.noWrap
  unfold everywhere
  omega

/-- `strncpy` with any bound but zero copies the whole of a string. -/
theorem strncpy_string (string : StringAt space.bytes src text)
    (mapsSource : space.Maps src (text.length + 1)) (mapsDest : space.Maps dest (text.length + 1))
    (apart : ∀ place, Within src (text.length + 1) place → ¬ Within dest (text.length + 1) place)
    (positive : 0#64 < maxLen) :
    strncpy dest src maxLen space =
      .ok { space with bytes := storeBytes dest (text ++ [0#8]) space.bytes } := by
  rw [strncpy, strncpyLoop_eq_strcpyLoop positive]
  exact strcpy_string string mapsSource mapsDest apart

/-- `strcat` puts a string behind another one. -/
theorem strcat_string (string : StringAt space.bytes dest text)
    (tailString : StringAt space.bytes src tail)
    (mapsSource : space.Maps src (tail.length + 1))
    (mapsDest : space.Maps dest (text.length + tail.length + 1))
    (apart : ∀ place, Within src (tail.length + 1) place →
      ¬ Within dest (text.length + tail.length + 1) place) :
    strcat dest src space = .ok { space with
      bytes := storeBytes (dest + BitVec.ofNat 64 text.length) (tail ++ [0#8]) space.bytes } := by
  have behind : ∀ place, Within (dest + BitVec.ofNat 64 text.length) (tail.length + 1) place →
      Within dest (text.length + tail.length + 1) place := by
    intro place within
    unfold Within at within ⊢
    bv_omega
  have measured : strlen space dest = .ok (BitVec.ofNat 64 text.length) := by
    refine strlen_ends (.of_string string fun place within => mapsDest place ?_)
    unfold Within at within ⊢
    omega
  rw [strcat, measured]
  exact strcpy_string tailString mapsSource (fun place within => mapsDest place (behind place within))
    fun place inSource inDest => apart place inSource (behind place inDest)

/-- A source without a terminator is copied until it runs into a page that is not
mapped, and the copying fails there at the latest. -/
theorem strcpyLoop_unterminated (chars : ∀ i < k, space.bytes (s + BitVec.ofNat 64 i) ≠ 0#8)
    (ends : space.mapped (s + BitVec.ofNat 64 k) = false) (bounded : k < 2 ^ 64)
    (apart : ∀ place, Within s k place → ¬ Within d k place) (enough : k < fuel) :
    ∃ place, strcpyLoop fuel d s space = .error (.vmFault place) := by
  induction k generalizing d s space fuel with
  | zero =>
    obtain ⟨fuel, rfl⟩ := Nat.exists_eq_succ_of_ne_zero (show fuel ≠ 0 by omega)
    rw [BitVec.add_zero] at ends
    refine ⟨s, ?_⟩
    have faults : space.load s = .error (.vmFault s) := if_neg (by simp [ends])
    rw [strcpyLoop, faults]
    rfl
  | succ k ih =>
    obtain ⟨fuel, rfl⟩ := Nat.exists_eq_succ_of_ne_zero (show fuel ≠ 0 by omega)
    have nonzero : space.bytes s ≠ 0#8 := by
      have char := chars 0 (Nat.succ_pos k)
      rwa [BitVec.add_zero] at char
    have first : ∀ start : Address, Within start (k + 1) start := fun start => by
      unfold Within
      bv_omega
    rw [strcpyLoop]
    by_cases mapped : space.mapped s = true
    · rw [AddressSpace.load_of_mapped mapped]
      by_cases mappedDest : space.mapped d = true
      · simp only [bind, Except.bind, AddressSpace.store_of_mapped mappedDest, ne_eq, nonzero,
          not_false_eq_true, if_true]
        apply @ih { space with bytes := Function.update space.bytes d (space.bytes s) }
        · intro i below
          have within : Within s (k + 1) (s + BitVec.ofNat 64 (i + 1)) :=
            within_add (by omega) (by omega)
          rw [add_ofNat_succ]
          change Function.update space.bytes d _ _ ≠ _
          rw [Function.update_of_ne fun same => apart _ within (by rw [same]; exact first d)]
          exact chars (i + 1) (by omega)
        · rw [add_ofNat_succ]
          exact ends
        · omega
        · intro place inSource inDest
          exact apart place (within_of_succ (by omega) inSource).1 (within_of_succ (by omega) inDest).1
        · omega
      · refine ⟨d, ?_⟩
        have faults : space.store d (space.bytes s) = .error (.vmFault d) := if_neg mappedDest
        simp only [bind, Except.bind, faults]
    · refine ⟨s, ?_⟩
      have faults : space.load s = .error (.vmFault s) := if_neg mapped
      rw [faults]
      rfl

/-- The loop of `memzero` clears mapped memory as the library's own does. -/
theorem memzeroLoop_mapped {i : BitVec 32} (maps : space.Maps dest n.toNat) (short : n.toNat < 2 ^ 31)
    (reached : i.toNat ≤ n.toNat) (enough : n.toNat - i.toNat < fuel) :
    memzeroLoop dest n fuel i space =
      .ok { space with bytes := Libmicrokitco.memzeroLoop dest n fuel i space.bytes } := by
  induction fuel generalizing i space with
  | zero => omega
  | succ fuel ih =>
    have counter := toNat_signExtend_int (show i.toNat < 2 ^ 31 by omega)
    rw [memzeroLoop, Libmicrokitco.memzeroLoop]
    by_cases more : i.signExtend 64 < n
    · have below : i.toNat < n.toNat := by
        rw [BitVec.lt_def, counter] at more
        exact more
      have next : (i + 1#32).toNat = i.toNat + 1 := by
        rw [BitVec.toNat_add]
        simp only [BitVec.toNat_ofNat]
        omega
      have within : Within dest n.toNat (dest + i.signExtend 64) := by
        rw [Within, BitVec.add_comm, BitVec.add_sub_cancel, counter]
        exact below
      rw [if_pos more, if_pos more, AddressSpace.store_of_mapped (maps _ within)]
      exact ih (fun place inside => maps place inside) (by omega) (by omega)
    · rw [if_neg more, if_neg more]

theorem memzero_mapped (maps : space.Maps dest n.toNat) (short : n.toNat < 2 ^ 31) :
    memzero dest n space = .ok { space with bytes := cleared dest n space.bytes } := by
  rw [← memzero_eq_cleared short]
  apply memzeroLoop_mapped maps short
  · exact Nat.zero_le _
  · rw [BitVec.toNat_zero]
    omega

end Libmicrokitco.Codis
