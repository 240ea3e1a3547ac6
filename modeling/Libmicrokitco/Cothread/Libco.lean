import Mathlib.Logic.Function.Basic

/-!
# What libmicrokitco uses of libco

A `cothread_t` is either libco's own root buffer or the top word of memory
given to `co_derive`. `Libco` keeps, for every handle, the context a switch to
it would resume; the saved registers behind that context are the business of
the back ends. Incarnation numbers are ghost state: they count `co_derive`
calls, so that a context can be traced to the call which made it.
-/

namespace Libmicrokitco

/-- A 64-bit virtual address or pointer-sized word. -/
abbrev Address := BitVec 64

/-- The client's byte-addressed memory. -/
abbrev Memory := Address → BitVec 8

/-- `cothread_t`. `root_cothread_buffer` is an object of libco itself, so no
pointer into a client's stack equals a pointer to it. -/
inductive CothreadT where
  | null
  | rootBuffer
  | stack (top : Address)
deriving DecidableEq, Repr

/-- The library call in which a context was suspended. -/
inductive SwitchPoint where
  | yield
  | semaphoreWait
  | semaphoreSignal
  /-- `microkit_cothread_destroy` called by client code on its own handle. -/
  | selfDestroy
  /-- The call of `microkit_cothread_destroy` in `cothread_entry_wrapper`. -/
  | entryReturn
deriving DecidableEq, Repr

/-- What a switch to a handle resumes. -/
inductive Context where
  | unset
  | derived (incarnation : Nat)
  | suspended (incarnation : Nat) (point : SwitchPoint)
deriving DecidableEq, Repr

def Context.incarnation : Context → Nat
  | .unset => 0
  | .derived incarnation => incarnation
  | .suspended incarnation _ => incarnation

structure Libco where
  coActiveHandle : CothreadT
  contexts : CothreadT → Context
  /-- The incarnation whose code is executing; the root is 0. -/
  current : Nat
  /-- How many contexts have been derived. -/
  derivations : Nat
  /-- The context resumed by the latest switch. -/
  resumed : Context

/-- libco before any context was derived: the root is executing. -/
def Libco.atStart : Libco where
  coActiveHandle := .rootBuffer
  contexts := fun _ => .unset
  current := 0
  derivations := 0
  resumed := .unset

def Libco.coActive (libco : Libco) : CothreadT := libco.coActiveHandle

/-- `co_derive` leaves a fresh context behind the handle it answers. -/
def Libco.coDerive (handle : CothreadT) (libco : Libco) : Libco :=
  { libco with
    contexts := Function.update libco.contexts handle (.derived (libco.derivations + 1))
    derivations := libco.derivations + 1 }

/-- `co_switch`: suspend the active context at `point`, make `handle` active
and resume the context behind it. -/
def Libco.coSwitch (point : SwitchPoint) (handle : CothreadT) (libco : Libco) : Libco :=
  let saved :=
    Function.update libco.contexts libco.coActiveHandle (.suspended libco.current point)
  { libco with
    contexts := saved
    coActiveHandle := handle
    current := (saved handle).incarnation
    resumed := saved handle }

/-- The memory side of `co_derive` in one back end. The handle is at an offset
from the given memory that depends on its size alone. -/
structure Backend where
  coDerive : (memory : Memory) → (base : Address) → (size : BitVec 32) →
    (entrypoint : Address) → Memory × Address
  handleOffset : BitVec 32 → Address
  handleEq : ∀ memory base size entrypoint,
    (coDerive memory base size entrypoint).2 = base + handleOffset size

section

variable (libco : Libco) (handle other : CothreadT) (point : SwitchPoint)

@[simp] theorem Libco.current_coDerive : (libco.coDerive handle).current = libco.current := rfl

@[simp] theorem Libco.derivations_coDerive :
    (libco.coDerive handle).derivations = libco.derivations + 1 := rfl

theorem Libco.contexts_coDerive :
    (libco.coDerive handle).contexts =
      Function.update libco.contexts handle (.derived (libco.derivations + 1)) := rfl

@[simp] theorem Libco.derivations_coSwitch :
    (libco.coSwitch point handle).derivations = libco.derivations := rfl

theorem Libco.contexts_coSwitch :
    (libco.coSwitch point handle).contexts =
      Function.update libco.contexts libco.coActiveHandle (.suspended libco.current point) := rfl

theorem Libco.resumed_coSwitch :
    (libco.coSwitch point handle).resumed = (libco.coSwitch point handle).contexts handle := rfl

/-- A switch to another handle resumes the context that was behind it. -/
theorem Libco.resumed_coSwitch_of_ne (different : handle ≠ libco.coActiveHandle) :
    (libco.coSwitch point handle).resumed = libco.contexts handle := by
  rw [resumed_coSwitch, contexts_coSwitch, Function.update_of_ne different]

end

end Libmicrokitco
