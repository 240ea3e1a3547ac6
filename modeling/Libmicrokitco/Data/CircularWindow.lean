import Mathlib.Logic.Function.Basic
import Mathlib.Data.List.Basic
import Mathlib.Data.Nat.ModEq

/-!
# Windows of a circular array

A ring buffer stores a bounded sequence in `capacity` cells, starting at
`first` and wrapping past the last cell. `window` reads that sequence back as a
list; the lemmas say what one store behind the window and one step of its
start do to the list. Nothing here fixes an element type or an index width.
-/

namespace Libmicrokitco.CircularWindow

variable {α : Type*}

/-- The `count` elements stored from cell `first` on, modulo `capacity`. -/
def window (cells : Nat → α) (capacity first count : Nat) : List α :=
  (List.range count).map fun offset => cells ((first + offset) % capacity)

@[simp] theorem length_window (cells : Nat → α) (capacity first count : Nat) :
    (window cells capacity first count).length = count := by
  simp [window]

/-- Two offsets below the capacity name different cells. -/
theorem offset_injective {capacity first i j : Nat} (iBounded : i < capacity)
    (jBounded : j < capacity) (same : (first + i) % capacity = (first + j) % capacity) :
    i = j := by
  have congruent : i ≡ j [MOD capacity] := Nat.ModEq.add_left_cancel' first same
  exact Nat.ModEq.eq_of_lt_of_lt congruent iBounded jBounded

/-- A store outside the window leaves the stored sequence alone. -/
theorem window_update_of_outside {cells : Nat → α} {capacity first count : Nat}
    {cell : Nat} {value : α}
    (outside : ∀ offset < count, (first + offset) % capacity ≠ cell) :
    window (Function.update cells cell value) capacity first count =
      window cells capacity first count := by
  apply List.map_congr_left
  intro offset member
  exact Function.update_of_ne (outside offset (List.mem_range.mp member)) _ _

/-- Storing one element directly behind a window that is not full appends it. -/
theorem window_store {cells : Nat → α} {capacity first count : Nat} {value : α}
    (room : count < capacity) :
    window (Function.update cells ((first + count) % capacity) value) capacity first
        (count + 1) =
      window cells capacity first count ++ [value] := by
  have outside : ∀ offset < count,
      (first + offset) % capacity ≠ (first + count) % capacity := by
    intro offset below same
    have equal := offset_injective (Nat.lt_trans below room) room same
    omega
  have extended : window (Function.update cells ((first + count) % capacity) value) capacity
      first (count + 1) =
      window (Function.update cells ((first + count) % capacity) value) capacity first count ++
        [value] := by
    simp [window, List.range_succ]
  rw [extended, window_update_of_outside outside]

/-- The front of a non-empty window is the cell at its start; dropping it moves
the start by one cell. -/
theorem window_succ {cells : Nat → α} {capacity first count : Nat}
    (bounded : first < capacity) :
    window cells capacity first (count + 1) =
      cells first :: window cells capacity ((first + 1) % capacity) count := by
  have shifted : ∀ offset,
      ((first + 1) % capacity + offset) % capacity = (first + (offset + 1)) % capacity := by
    intro offset
    rw [Nat.mod_add_mod]
    congr 1
    omega
  simp [window, List.range_succ_eq_map, List.map_map, Function.comp_def, shifted,
    Nat.mod_eq_of_lt bounded]

end Libmicrokitco.CircularWindow
