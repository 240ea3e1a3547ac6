import Libmicrokitco.Cothread.Libco
import Libmicrokitco.Isa.Doubleword

/-!
# Contexts of the RISC-V back end

The save slots of `riscv64.c`, for soft and hard float, and `co_derive`, which
puts a fresh context into the top words of a stack.
-/

namespace Libmicrokitco.Riscv64

open Isa

/-- Whether `__riscv_flen` is defined. -/
inductive FloatAbi where
  | soft
  | hard
deriving DecidableEq, Repr

/-- The names of the `enum` of save slots; `f n` and `s n` are numbered. -/
inductive SaveSlot where
  | clientEntry
  | pc
  | f (n : Nat)
  | s (n : Nat)
  | fp
  | sp
  | ra
deriving DecidableEq, Repr

/-- The `enum`, in its order. -/
def saveSlots : FloatAbi → List SaveSlot
  | .soft => [.clientEntry, .pc, .s 11, .s 10, .s 9, .s 8, .s 7, .s 6, .s 5, .s 4, .s 3, .s 2,
      .s 1, .fp, .sp, .ra]
  | .hard => [.clientEntry, .pc, .f 27, .f 26, .f 25, .f 24, .f 23, .f 22, .f 21, .f 20, .f 19,
      .f 18, .f 9, .f 8, .s 11, .s 10, .s 9, .s 8, .s 7, .s 6, .s 5, .s 4, .s 3, .s 2, .s 1, .fp,
      .sp, .ra]

/-- `num_saved`. -/
def numSaved (abi : FloatAbi) : Nat := (saveSlots abi).length

/-- The address of a slot: `handle[-slot]`. -/
def slotAddress (abi : FloatAbi) (handle : Address) (slot : SaveSlot) : Address :=
  handle - BitVec.ofNat 64 (8 * (saveSlots abi).idxOf slot)

/-- The number of words in `size` bytes. -/
def numWordsStorable (size : BitVec 32) : BitVec 64 := size.setWidth 64 / 8#64

def coDerive (abi : FloatAbi) (coEntrypoint : Address) (memory : Memory) (base : Address)
    (size : BitVec 32) (entrypoint : Address) : Memory × Address :=
  let coLocalStorageTop := base + (numWordsStorable size - 1#64) * 8#64
  let unalignedSp :=
    base + (numWordsStorable size - BitVec.ofNat 64 (numSaved abi) - 1#64) * 8#64
  let alignedSp := unalignedSp &&& ~~~0xF#64
  let write slot value := storeDouble (slotAddress abi coLocalStorageTop slot) value
  (memory
    |> write .ra 0#64
    |> write .sp alignedSp
    |> write .fp alignedSp
    |> write .pc coEntrypoint
    |> write .clientEntry entrypoint, coLocalStorageTop)

/-- The address that `co_entrypoint` calls in the context of `handle`. -/
def coEntrypointCallee (abi : FloatAbi) (handle : Address) (memory : Memory) : Address :=
  loadDouble (slotAddress abi handle .clientEntry) memory

/-- The RISC-V back end of libco. -/
def backend (abi : FloatAbi) (coEntrypoint : Address) : Backend where
  coDerive := coDerive abi coEntrypoint
  handleOffset size := (numWordsStorable size - 1#64) * 8#64
  handleEq _ _ _ _ := rfl

end Libmicrokitco.Riscv64
