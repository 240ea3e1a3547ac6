import Libmicrokitco.Cothread.Control
import Libmicrokitco.Isa.Doubleword

/-!
# The string functions of the database example

`string.h` of the example `codis`, over the memory of a protection domain. Loops
without a bound of their own get the size of the address space as fuel. Pointers
and `size_t` are 64 bits wide.
-/

namespace Libmicrokitco.Codis

open Isa

/-- How code of the example can fail. -/
inductive Mishap where
  /-- An access to a page that is not mapped. -/
  | vmFault (place : Address)
  /-- An access behind the end of an array. -/
  | outOfBounds (index : Nat)
  /-- A read of a local variable of a function that has returned. -/
  | dangling (place : Address)
  | diverged
  | library (fault : Fault)
deriving DecidableEq, Repr

/-- The memory of a protection domain, of which some pages are mapped. -/
structure AddressSpace where
  pages : Nat → Bool
  bytes : Memory

namespace AddressSpace

def mapped (space : AddressSpace) (place : Address) : Bool := space.pages (place.toNat / 0x1000)

def load (space : AddressSpace) (place : Address) : Except Mishap (BitVec 8) :=
  if space.mapped place then .ok (space.bytes place) else .error (.vmFault place)

/-- `*w` for a `size_t *w`. The word may lie across two pages. -/
def loadWord (space : AddressSpace) (w : Address) : Except Mishap (BitVec 64) :=
  if space.mapped w ∧ space.mapped (w + 7#64) then .ok (loadDouble w space.bytes)
  else .error (.vmFault w)

def store (space : AddressSpace) (place : Address) (value : BitVec 8) :
    Except Mishap AddressSpace :=
  if space.mapped place then .ok { space with bytes := Function.update space.bytes place value }
  else .error (.vmFault place)

end AddressSpace

/-- `ALIGN` and `SS`. -/
def align : BitVec 64 := 8#64

def ones : BitVec 64 := 0x0101010101010101#64

def highs : BitVec 64 := 0x8080808080808080#64

def hasZero (x : BitVec 64) : BitVec 64 := (x - ones) &&& ~~~x &&& highs

/-- Iterations that no loop over an address space can exceed. -/
def everywhere : Nat := 2 ^ 64

/-- The loop of `memzero`, whose counter is an `int`. -/
def memzeroLoop (dst : Address) (n : BitVec 64) :
    Nat → BitVec 32 → AddressSpace → Except Mishap AddressSpace
  | 0, _, _ => .error .diverged
  | fuel + 1, i, space =>
    if i.signExtend 64 < n then do
      let space ← space.store (dst + i.signExtend 64) 0#8
      memzeroLoop dst n fuel (i + 1#32) space
    else .ok space

/-- The counter takes fewer than `2 ^ 32` values before the loop ends. -/
def memzero (dst : Address) (n : BitVec 64) (space : AddressSpace) : Except Mishap AddressSpace :=
  memzeroLoop dst n (2 ^ 32) 0#32 space

/-- `for (; ((uintptr_t)s & ALIGN) && n && *s != c; s++, n--);` -/
def memchrAlign (space : AddressSpace) (c : BitVec 8) :
    Nat → Address → BitVec 64 → Except Mishap (Address × BitVec 64)
  | 0, _, _ => .error .diverged
  | fuel + 1, s, n =>
    if s &&& align = 0#64 ∨ n = 0#64 then .ok (s, n)
    else do
      if (← space.load s) = c then return (s, n)
      memchrAlign space c fuel (s + 1#64) (n - 1#64)

/-- `for (w = (const void *)s; n>=SS && !HASZERO(*w^k); w++, n-=SS);` -/
def memchrWords (space : AddressSpace) (k : BitVec 64) :
    Nat → Address → BitVec 64 → Except Mishap (Address × BitVec 64)
  | 0, _, _ => .error .diverged
  | fuel + 1, w, n =>
    if n < align then .ok (w, n)
    else do
      if hasZero ((← space.loadWord w) ^^^ k) ≠ 0#64 then return (w, n)
      memchrWords space k fuel (w + align) (n - align)

/-- `for (s = (const void *)w; n && *s != c; s++, n--);` -/
def memchrBytes (space : AddressSpace) (c : BitVec 8) :
    Nat → Address → BitVec 64 → Except Mishap (Address × BitVec 64)
  | 0, _, _ => .error .diverged
  | fuel + 1, s, n =>
    if n = 0#64 then .ok (s, n)
    else do
      if (← space.load s) = c then return (s, n)
      memchrBytes space c fuel (s + 1#64) (n - 1#64)

/-- Only one bit of the address is tested for alignment, so that the words that
are loaded need not be aligned. -/
def memchr (space : AddressSpace) (src : Address) (c : BitVec 32) (n : BitVec 64) :
    Except Mishap Address := do
  let c := c.setWidth 8
  let (s, n) ← memchrAlign space c everywhere src n
  if n = 0#64 then return 0#64
  if (← space.load s) = c then return s
  let k := ones * c.setWidth 64
  let (w, n) ← memchrWords space k everywhere s n
  let (s, n) ← memchrBytes space c everywhere w n
  return if n = 0#64 then 0#64 else s

def strnlen (space : AddressSpace) (s : Address) (n : BitVec 64) : Except Mishap (BitVec 64) := do
  let p ← memchr space s 0#32 n
  return if p = 0#64 then n else p - s

/-- `for (; (uintptr_t)s % ALIGN; s++) if (!*s) return s-a;` with whether it returned. -/
def strlenAlign (space : AddressSpace) : Nat → Address → Except Mishap (Address × Bool)
  | 0, _ => .error .diverged
  | fuel + 1, s =>
    if s % align = 0#64 then .ok (s, false)
    else do
      if (← space.load s) = 0#8 then return (s, true)
      strlenAlign space fuel (s + 1#64)

/-- `for (w = (const void *)s; !HASZERO(*w); w++);` -/
def strlenWords (space : AddressSpace) : Nat → Address → Except Mishap Address
  | 0, _ => .error .diverged
  | fuel + 1, w => do
    if hasZero (← space.loadWord w) ≠ 0#64 then return w
    strlenWords space fuel (w + align)

/-- `for (s = (const void *)w; *s; s++);` -/
def strlenBytes (space : AddressSpace) : Nat → Address → Except Mishap Address
  | 0, _ => .error .diverged
  | fuel + 1, s => do
    if (← space.load s) = 0#8 then return s
    strlenBytes space fuel (s + 1#64)

def strlen (space : AddressSpace) (s : Address) : Except Mishap (BitVec 64) := do
  let a := s
  let (s, returned) ← strlenAlign space everywhere s
  if returned then return s - a
  let w ← strlenWords space everywhere s
  let s ← strlenBytes space everywhere w
  return s - a

/-- `while ((*d++ = *s++) && i < max_len);` where nothing changes `i`. -/
def strncpyLoop (i maxLen : BitVec 64) :
    Nat → Address → Address → AddressSpace → Except Mishap AddressSpace
  | 0, _, _, _ => .error .diverged
  | fuel + 1, d, s, space => do
    let c ← space.load s
    let space ← space.store d c
    if c ≠ 0#8 ∧ i < maxLen then strncpyLoop i maxLen fuel (d + 1#64) (s + 1#64) space
    else return space

def strncpy (dest src : Address) (maxLen : BitVec 64) (space : AddressSpace) :
    Except Mishap AddressSpace :=
  strncpyLoop 0#64 maxLen everywhere dest src space

/-- `while ((*d++ = *s++));` -/
def strcpyLoop : Nat → Address → Address → AddressSpace → Except Mishap AddressSpace
  | 0, _, _, _ => .error .diverged
  | fuel + 1, d, s, space => do
    let c ← space.load s
    let space ← space.store d c
    if c ≠ 0#8 then strcpyLoop fuel (d + 1#64) (s + 1#64) space else return space

def strcpy (dest src : Address) (space : AddressSpace) : Except Mishap AddressSpace :=
  strcpyLoop everywhere dest src space

def strcat (dest src : Address) (space : AddressSpace) : Except Mishap AddressSpace := do
  strcpy (dest + (← strlen space dest)) src space

end Libmicrokitco.Codis
