import Libmicrokitco.Cothread.Libco
import Libmicrokitco.Isa.Doubleword

/-!
# Contexts of the AArch64 back end

The save slots of `aarch64.c` and `co_derive`. The client's entry is handed to
`co_entrypoint` in the slot of `x19`.
-/

namespace Libmicrokitco.Aarch64

open Isa

/-- The names of the `enum` of save slots; `x n` and `d n` are numbered. -/
inductive SaveSlot where
  | lr
  | sp
  | fp
  | x (n : Nat)
  | d (n : Nat)
deriving DecidableEq, Repr

/-- The `enum`, in its order. -/
def saveSlots : List SaveSlot :=
  [.lr, .sp, .fp, .x 19, .x 20, .x 21, .x 22, .x 23, .x 24, .x 25, .x 26, .x 27, .x 28, .d 8, .d 9,
    .d 10, .d 11, .d 12, .d 13, .d 14, .d 15]

/-- `regs_count`. -/
def regsCount : Nat := saveSlots.length

/-- The offset of a slot from the handle. -/
def slotOffset (slot : SaveSlot) : BitVec 64 := -BitVec.ofNat 64 (8 * saveSlots.idxOf slot)

/-- The address of a slot: `handle[-slot]`. -/
def slotAddress (handle : Address) (slot : SaveSlot) : Address :=
  handle - BitVec.ofNat 64 (8 * saveSlots.idxOf slot)

/-- The number of words in `size` bytes. -/
def numWordsStorable (size : BitVec 32) : BitVec 64 := size.setWidth 64 / 8#64

def coDerive (coEntrypoint : Address) (memory : Memory) (base : Address) (size : BitVec 32)
    (entrypoint : Address) : Memory × Address :=
  let coLocalStorageTop := base + (numWordsStorable size - 1#64) * 8#64
  let unalignedSp := base + (numWordsStorable size - BitVec.ofNat 64 regsCount - 1#64) * 8#64
  let alignedSp := unalignedSp &&& ~~~0xF#64
  let write slot value := storeDouble (slotAddress coLocalStorageTop slot) value
  (memory
    |> write .sp alignedSp
    |> write .lr coEntrypoint
    |> write (.x 19) entrypoint
    |> write .fp alignedSp, coLocalStorageTop)

/-- The address that `co_entrypoint` calls in the context of `handle`. -/
def coEntrypointCallee (handle : Address) (memory : Memory) : Address :=
  loadDouble (slotAddress handle (.x 19)) memory

/-- The AArch64 back end of libco. -/
def backend (coEntrypoint : Address) : Backend where
  coDerive := coDerive coEntrypoint
  handleOffset size := (numWordsStorable size - 1#64) * 8#64
  handleEq _ _ _ _ := rfl

end Libmicrokitco.Aarch64
