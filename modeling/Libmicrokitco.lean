import Libmicrokitco.Data.CircularWindow
import Libmicrokitco.Data.LinkedChain
import Libmicrokitco.Data.CString
import Libmicrokitco.Data.ZeroByte
import Libmicrokitco.Semantics.Agreement
import Libmicrokitco.Semantics.Fifo
import Libmicrokitco.Semantics.Loops
import Libmicrokitco.Semantics.Trace
import Libmicrokitco.Semantics.Simulation
import Libmicrokitco.Semantics.Partiality
import Libmicrokitco.Isa.Doubleword
import Libmicrokitco.Isa.Cpu
import Libmicrokitco.Isa.Spill
import Libmicrokitco.Isa.A64
import Libmicrokitco.Isa.ContextSwitch
import Libmicrokitco.Isa.Rv64
import Libmicrokitco.Isa.ByteCode
import Libmicrokitco.Isa.Coroutines
import Libmicrokitco.Isa.X64
import Libmicrokitco.HostedQueue.Basic
import Libmicrokitco.HostedQueue.BoundedFifo
import Libmicrokitco.Cothread.Libco
import Libmicrokitco.Cothread.Control
import Libmicrokitco.Cothread.Scheduler
import Libmicrokitco.Cothread.Lifecycle
import Libmicrokitco.Cothread.Calls
import Libmicrokitco.Cothread.Clearing
import Libmicrokitco.Libco.Aarch64
import Libmicrokitco.Libco.Amd64
import Libmicrokitco.Libco.Riscv64
import Libmicrokitco.Libco.StackTop
import Libmicrokitco.Libco.Aarch64Swap
import Libmicrokitco.Libco.Backends
import Libmicrokitco.Libco.Riscv64Swap
import Libmicrokitco.Libco.Amd64Swap
import Libmicrokitco.Sched.State
import Libmicrokitco.Sched.Refinement
import Libmicrokitco.Sched.Initial
import Libmicrokitco.Sched.Effect
import Libmicrokitco.Sched.Resources
import Libmicrokitco.Sched.Slots
import Libmicrokitco.Sched.Sound
import Libmicrokitco.Sched.Contexts
import Libmicrokitco.Sched.Waiting
import Libmicrokitco.Sched.DistinctQueue
import Libmicrokitco.Sched.Faults
import Libmicrokitco.Sched.Owners
import Libmicrokitco.Sched.WakeUps
import Libmicrokitco.Sched.FifoOrder
import Libmicrokitco.Sched.Runs
import Libmicrokitco.Sched.TurnOrder
import Libmicrokitco.Sched.Asking
import Libmicrokitco.Sched.Stacks
import Libmicrokitco.Sched.Surroundings
import Libmicrokitco.Sched.Oblivious
import Libmicrokitco.Codis.Database
import Libmicrokitco.Codis.Strings
import Libmicrokitco.Codis.Server
import Libmicrokitco.Codis.Handlers
import Libmicrokitco.Codis.Searching
import Libmicrokitco.Codis.Copying
import Libmicrokitco.Codis.Requests
import Libmicrokitco.Codis.Turns
import Libmicrokitco.Codis.Staff
import Libmicrokitco.Codis.Booting
import Libmicrokitco.Codis.Serving
import Libmicrokitco.Guarantees.Aarch64Switch
import Libmicrokitco.Guarantees.RiscvSwitch
import Libmicrokitco.Guarantees.Layout
import Libmicrokitco.Guarantees.Selection
import Libmicrokitco.Guarantees.Replay
import Libmicrokitco.Guarantees.Destruction
import Libmicrokitco.Guarantees.Fallback
import Libmicrokitco.Guarantees.Incarnations
import Libmicrokitco.Guarantees.Initialisation
import Libmicrokitco.Guarantees.LiveStacks
import Libmicrokitco.Guarantees.Ownership
import Libmicrokitco.Guarantees.QueueCapacity
import Libmicrokitco.Guarantees.Scheduling
import Libmicrokitco.Guarantees.StackSize
import Libmicrokitco.Guarantees.Waits
import Libmicrokitco.Guarantees.Allocation
import Libmicrokitco.Guarantees.Identity
import Libmicrokitco.Guarantees.Turns
import Libmicrokitco.Guarantees.WakeUps
import Libmicrokitco.Guarantees.Starvation
import Libmicrokitco.Guarantees.Amd64Switch
import Libmicrokitco.Guarantees.Obliviousness
import Libmicrokitco.Guarantees.Failures
import Libmicrokitco.Guarantees.Transitions
import Libmicrokitco.Guarantees.Bounds
import Libmicrokitco.Guarantees.CodisRequests
import Libmicrokitco.Guarantees.CodisServer
import Libmicrokitco.Guarantees.CodisStrings
import Libmicrokitco.System.Port
import Libmicrokitco.System.Machine
import Libmicrokitco.System.Threads
import Libmicrokitco.System.Realisation
import Libmicrokitco.System.Resumption
