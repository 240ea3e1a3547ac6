import Mathlib.Data.List.Basic
import Mathlib.Logic.Function.Basic

/-!
# A FIFO scheduler with binary semaphores

One thread runs, the others are free, ready in the order of their turns, or
waiting on a semaphore in the order of their waits. Threads and semaphores are
arbitrary; nothing bounds the lists.
-/

namespace Libmicrokitco

@[ext]
structure Fifo (Thread Sem : Type*) where
  running : Thread
  ready : List Thread
  free : List Thread
  flag : Sem → Bool
  waiters : Sem → List Thread

/-- What the running thread asks of the scheduler. -/
inductive FifoAction (Sem : Type*) where
  | spawn
  | yield
  | wait (sem : Sem)
  | signal (sem : Sem)
  /-- The running thread ends and its handle becomes free. -/
  | exit
  | initialise (sem : Sem)
  /-- Anything that does not concern the scheduler. -/
  | observe
deriving DecidableEq

namespace Fifo

variable {Thread Sem : Type*} {fifo middle next : Fifo Thread Sem} {sem : Sem} {first : Thread}
  {rest : List Thread}

/-- The first ready thread runs; without one the scheduler is stuck. -/
def dispatch (fifo : Fifo Thread Sem) : Option (Fifo Thread Sem) :=
  match fifo.ready with
  | [] => none
  | next :: rest => some { fifo with running := next, ready := rest }

theorem dispatch_of_ready (ready : fifo.ready = first :: rest) :
    fifo.dispatch = some { fifo with running := first, ready := rest } := by
  rw [dispatch, ready]

def spawn (fifo : Fifo Thread Sem) : Fifo Thread Sem :=
  match fifo.free with
  | [] => fifo
  | new :: rest => { fifo with free := rest, ready := fifo.ready ++ [new] }

theorem spawn_of_free (free : fifo.free = first :: rest) :
    fifo.spawn = { fifo with free := rest, ready := fifo.ready ++ [first] } := by
  rw [spawn, free]

theorem spawn_of_exhausted (free : fifo.free = []) : fifo.spawn = fifo := by
  rw [spawn, free]

def queueCaller (fifo : Fifo Thread Sem) : Fifo Thread Sem :=
  { fifo with ready := fifo.ready ++ [fifo.running] }

def freeCaller (fifo : Fifo Thread Sem) : Fifo Thread Sem :=
  { fifo with free := fifo.free ++ [fifo.running] }

variable [DecidableEq Sem]

def blockCaller (sem : Sem) (fifo : Fifo Thread Sem) : Fifo Thread Sem :=
  { fifo with waiters := Function.update fifo.waiters sem (fifo.waiters sem ++ [fifo.running]) }

def setFlag (sem : Sem) (value : Bool) (fifo : Fifo Thread Sem) : Fifo Thread Sem :=
  { fifo with flag := Function.update fifo.flag sem value }

def wait (sem : Sem) (fifo : Fifo Thread Sem) : Option (Fifo Thread Sem) :=
  if fifo.flag sem then some (fifo.setFlag sem false) else (fifo.blockCaller sem).dispatch

theorem wait_of_set (set : fifo.flag sem = true) : fifo.wait sem = some (fifo.setFlag sem false) := by
  rw [wait, if_pos set]

theorem wait_of_clear (clear : fifo.flag sem = false) :
    fifo.wait sem = (fifo.blockCaller sem).dispatch := by
  rw [wait, if_neg (by simp [clear])]

def signal (sem : Sem) (fifo : Fifo Thread Sem) : Fifo Thread Sem :=
  if fifo.flag sem then fifo
  else
    match fifo.waiters sem with
    | [] => fifo.setFlag sem true
    | first :: rest =>
      { fifo.queueCaller with
        running := first
        waiters := Function.update fifo.waiters sem rest }

theorem signal_of_set (set : fifo.flag sem = true) : fifo.signal sem = fifo := by
  rw [signal, if_pos set]

theorem signal_of_nil (clear : fifo.flag sem = false) (none : fifo.waiters sem = []) :
    fifo.signal sem = fifo.setFlag sem true := by
  rw [signal, if_neg (by simp [clear]), none]

theorem signal_of_cons (clear : fifo.flag sem = false) (some : fifo.waiters sem = first :: rest) :
    fifo.signal sem = { fifo.queueCaller with
      running := first
      waiters := Function.update fifo.waiters sem rest } := by
  rw [signal, if_neg (by simp [clear]), some]

def initialise (sem : Sem) (fifo : Fifo Thread Sem) : Fifo Thread Sem :=
  { fifo.setFlag sem false with waiters := Function.update fifo.waiters sem [] }

def step (fifo : Fifo Thread Sem) : FifoAction Sem → Option (Fifo Thread Sem)
  | .spawn => some fifo.spawn
  | .yield => fifo.queueCaller.dispatch
  | .wait sem => fifo.wait sem
  | .signal sem => some (fifo.signal sem)
  | .exit => fifo.freeCaller.dispatch
  | .initialise sem => some (fifo.initialise sem)
  | .observe => some fifo

/-- The state after a list of actions, if the scheduler is never stuck. -/
def run (fifo : Fifo Thread Sem) (actions : List (FifoAction Sem)) : Option (Fifo Thread Sem) :=
  actions.foldlM step fifo

theorem run_snoc {actions : List (FifoAction Sem)} {action : FifoAction Sem}
    (prior : fifo.run actions = some middle) (taken : middle.step action = some next) :
    fifo.run (actions ++ [action]) = some next := by
  rw [run] at prior ⊢
  rw [List.foldlM_append, prior]
  simpa using taken

end Fifo
end Libmicrokitco
