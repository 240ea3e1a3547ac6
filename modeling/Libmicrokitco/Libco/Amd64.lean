import Libmicrokitco.Cothread.Libco
import Libmicrokitco.Isa.Doubleword

/-!
# Contexts of the AMD64 back end

`co_derive` of `amd64.c`. The handle is the base of the stack, and the words
there hold the stack pointer and the client's entry.
-/

namespace Libmicrokitco.Amd64

open Isa

def coDerive (coEntrypoint : Address) (memory : Memory) (base : Address) (size : BitVec 32)
    (entrypoint : Address) : Memory × Address :=
  if base = 0#64 then (memory, base)
  else
    let offset := (size &&& ~~~15#32) - 32#32
    -- `p` is decremented by a word before each of the two stores through it
    let p := base + offset.setWidth 64
    (memory
      |> storeDouble (p - 8#64) 0#64
      |> storeDouble (p - 16#64) coEntrypoint
      |> storeDouble base (p - 16#64)
      |> storeDouble (base + 8#64) entrypoint, base)

/-- The address that `co_entrypoint` calls when it is called with `handle`. -/
def coEntrypointCallee (handle : Address) (memory : Memory) : Address :=
  loadDouble (handle + 8#64) memory

/-- The AMD64 back end of libco. -/
def backend (coEntrypoint : Address) : Backend where
  coDerive := coDerive coEntrypoint
  handleOffset _ := 0#64
  handleEq memory base size entrypoint := by
    rw [BitVec.add_zero, coDerive]
    split <;> rfl

end Libmicrokitco.Amd64
