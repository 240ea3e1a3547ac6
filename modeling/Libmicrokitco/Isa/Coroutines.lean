import Libmicrokitco.Isa.ContextSwitch
import Libmicrokitco.Semantics.Trace

/-!
# Threads on one processor

Threads that share a processor and switch among themselves by code that keeps
the context of whoever does not run in memory. A `Mechanism` is such code, with
the contexts it captures and where it keeps them. As long as every thread stays
on its own stack, a thread that is switched to goes on where it left, whatever
the others did in between.
-/

namespace Libmicrokitco.Isa

/-- What a suspended thread resumes with. -/
structure Saved (ρ : Type) where
  regs : ρ → BitVec 64
  resume : BitVec 64

/-- Code that suspends its caller behind one handle and resumes the context
behind another. -/
structure Mechanism (ρ : Type) where
  run : Cpu ρ → Option (Cpu ρ)
  handleReg : ρ
  previousReg : ρ
  /-- The registers of a context. -/
  kept : List ρ
  /-- What the caller is to resume with. -/
  captured : Cpu ρ → Saved ρ
  /-- The context can be kept behind the handle. -/
  Sited : BitVec 64 → Saved ρ → Prop
  /-- The context is kept behind the handle. -/
  Holds : BitVec 64 → Saved ρ → (BitVec 64 → BitVec 8) → Prop
  /-- The bytes it is kept in. -/
  Footprint : BitVec 64 → Saved ρ → BitVec 64 → Prop

variable {ρ κ : Type}

/-- Doublewords at the offsets of a layout depend on its area only. -/
theorem SaveLayout.Enclosed.loadDouble_congr {layout : SaveLayout ρ} (enclosed : layout.Enclosed)
    {handle offset : BitVec 64} {memory changed : BitVec 64 → BitVec 8}
    (member : offset ∈ layout.linkOffset :: layout.saved.map Prod.snd)
    (same : ∀ place, layout.InArea handle place → changed place = memory place) :
    loadDouble (handle + offset) changed = loadDouble (handle + offset) memory :=
  Isa.loadDouble_congr fun _ bounded => same _ (enclosed.inArea member handle bounded)

variable [DecidableEq ρ] [Registers ρ]

namespace Mechanism

variable {mechanism : Mechanism ρ}

/-- The processor goes on with a context. -/
structure Resumes (mechanism : Mechanism ρ) (saved : Saved ρ) (cpu : Cpu ρ) : Prop where
  regs : ∀ reg ∈ mechanism.kept, cpu.get reg = saved.regs reg
  pc : cpu.pc = saved.resume

/-- The processor is about to switch from `previous` to `handle`. -/
structure Enters (mechanism : Mechanism ρ) (handle previous : BitVec 64) (cpu : Cpu ρ) : Prop where
  handleArg : cpu.get mechanism.handleReg = handle
  previousArg : cpu.get mechanism.previousReg = previous
  sited : mechanism.Sited previous (mechanism.captured cpu)

/-- A switch returns in the context behind `handle`, leaves its caller's behind
`previous` and writes nowhere else. -/
structure Lawful (mechanism : Mechanism ρ) : Prop where
  congr : ∀ {handle saved memory changed}, mechanism.Holds handle saved memory →
    (∀ place, mechanism.Footprint handle saved place → changed place = memory place) →
      mechanism.Holds handle saved changed
  switch : ∀ {handle previous saved cpu}, mechanism.Enters handle previous cpu →
    mechanism.Sited handle saved → mechanism.Holds handle saved cpu.memory →
      (∀ place, mechanism.Footprint previous (mechanism.captured cpu) place →
        ¬ mechanism.Footprint handle saved place) →
        ∃ after, mechanism.run cpu = some after ∧ mechanism.Resumes saved after ∧
          mechanism.Holds previous (mechanism.captured cpu) after.memory ∧
            ∀ place, ¬ mechanism.Footprint previous (mechanism.captured cpu) place →
              after.memory place = cpu.memory place
  itself : ∀ {handle cpu}, mechanism.Enters handle handle cpu →
    ∃ after, mechanism.run cpu = some after ∧
      mechanism.Resumes (mechanism.captured cpu) after ∧
        ∀ place, ¬ mechanism.Footprint handle (mechanism.captured cpu) place →
          after.memory place = cpu.memory place

end Mechanism

/-- A switch with save areas at fixed offsets, for the handles it works with. -/
def Switch.mechanism (switch : Switch ρ) (Fits : BitVec 64 → Prop) : Mechanism ρ where
  run := switch.run
  handleReg := switch.handleReg
  previousReg := switch.previousReg
  kept := switch.layout.saved.map Prod.fst
  captured cpu := ⟨cpu.get, switch.layout.target (cpu.get switch.layout.link)⟩
  Sited handle _ := Fits handle
  Holds handle saved memory :=
    (∀ entry ∈ switch.layout.saved, loadDouble (handle + entry.2) memory = saved.regs entry.1) ∧
      switch.layout.target (loadDouble (handle + switch.layout.linkOffset) memory) = saved.resume
  Footprint handle _ place := switch.layout.InArea handle place

theorem Switch.mechanism_lawful {switch : Switch ρ} {Fits : BitVec 64 → Prop}
    (enclosed : switch.layout.Enclosed)
    (swaps : ∀ {handle previous}, Fits handle → Fits previous → switch.Swaps handle previous) :
    (switch.mechanism Fits).Lawful := by
  have slot : ∀ entry ∈ switch.layout.saved,
      entry.2 ∈ switch.layout.linkOffset :: switch.layout.saved.map Prod.snd :=
    fun entry member => List.mem_cons_of_mem _ (List.mem_map_of_mem member)
  constructor
  case congr =>
    rintro handle saved memory changed ⟨regs, resume⟩ same
    constructor
    · intro entry member
      exact (enclosed.loadDouble_congr (slot entry member) same).trans (regs entry member)
    · exact (congrArg switch.layout.target
        (enclosed.loadDouble_congr List.mem_cons_self same)).trans resume
  case switch =>
    rintro handle previous saved cpu ⟨handleArg, previousArg, previousFits⟩ handleFits ⟨regs, resume⟩
      apart
    obtain ⟨after, ran, switched⟩ := swaps handleFits previousFits cpu handleArg previousArg
    have untouched : ∀ place, switch.layout.InArea handle place →
        after.memory place = cpu.memory place :=
      fun place inHandle => switched.outside place fun inPrevious => apart place inPrevious inHandle
    refine ⟨after, ran, ⟨?_, ?_⟩, ⟨switched.saved, ?_⟩, switched.outside⟩
    · intro reg isKept
      obtain ⟨entry, member, rfl⟩ := List.mem_map.mp isKept
      calc after.get entry.1
          = loadDouble (handle + entry.2) after.memory := switched.loaded entry member
        _ = loadDouble (handle + entry.2) cpu.memory :=
          enclosed.loadDouble_congr (slot entry member) untouched
        _ = saved.regs entry.1 := regs entry member
    · apply switched.jumped.trans
      apply Eq.trans _ resume
      exact congrArg switch.layout.target (enclosed.loadDouble_congr List.mem_cons_self untouched)
    · exact congrArg switch.layout.target switched.savedLink
  case itself =>
    rintro handle cpu ⟨handleArg, previousArg, fits⟩
    obtain ⟨after, ran, switched⟩ := swaps fits fits cpu handleArg previousArg
    refine ⟨after, ran, ⟨?_, ?_⟩, switched.outside⟩
    · intro reg isKept
      obtain ⟨entry, member, rfl⟩ := List.mem_map.mp isKept
      exact (switched.loaded entry member).trans (switched.saved entry member)
    · exact switched.jumped.trans (congrArg switch.layout.target switched.savedLink)

/-- Whatever the save area of a handle holds is a context. -/
theorem Switch.exists_holds (switch : Switch ρ) (Fits : BitVec 64 → Prop) (handle : BitVec 64)
    (memory : BitVec 64 → BitVec 8) (nodup : (switch.layout.saved.map Prod.fst).Nodup) : ∃ saved, (switch.mechanism Fits).Holds handle saved memory ∧
      saved.resume = switch.layout.target (loadDouble (handle + switch.layout.linkOffset) memory) ∧
      ∀ entry ∈ switch.layout.saved, saved.regs entry.1 = loadDouble (handle + entry.2) memory := by
  let regs reg := ((switch.layout.saved.find? fun entry => entry.1 = reg).map
    fun entry => loadDouble (handle + entry.2) memory).getD 0#64
  have value : ∀ entry ∈ switch.layout.saved, regs entry.1 = loadDouble (handle + entry.2) memory := by
    intro entry member
    have found : switch.layout.saved.find? (fun other => other.1 = entry.1) = some entry := by
      rw [List.find?_eq_some_iff_append]
      obtain ⟨before, behind, shape⟩ := List.append_of_mem member
      refine ⟨by simp, before, behind, shape, fun other isBefore => ?_⟩
      rw [shape, List.map_append, List.map_cons] at nodup
      have apart := (List.nodup_append.mp nodup).2.2 other.1 (List.mem_map_of_mem isBefore) entry.1
        List.mem_cons_self
      simpa using apart
    change ((switch.layout.saved.find? fun other => other.1 = entry.1).map _).getD _ = _
    rw [found]
    rfl
  exact ⟨⟨regs, _⟩, ⟨fun entry member => (value entry member).symm, rfl⟩, rfl, value⟩

/-- Two argument registers are all that a switch with save areas needs. -/
theorem Switch.exists_enters (switch : Switch ρ) {Fits : BitVec 64 → Prop} {previous : BitVec 64}
    (apart : switch.handleReg ≠ switch.previousReg) (handleNonzero : switch.handleReg ≠ Registers.zero)
    (previousNonzero : switch.previousReg ≠ Registers.zero) (fits : Fits previous)
    (handle : BitVec 64) (memory : BitVec 64 → BitVec 8) :
    ∃ cpu : Cpu ρ, cpu.memory = memory ∧ (switch.mechanism Fits).Enters handle previous cpu := by
  let cpu : Cpu ρ := ⟨0#64, fun _ => 0#64, memory⟩
  refine ⟨(cpu.set switch.previousReg previous).set switch.handleReg handle, rfl, ?_, ?_, fits⟩
  · exact Cpu.get_set_self handleNonzero
  · exact (Cpu.get_set_of_ne apart.symm).trans (Cpu.get_set_self previousNonzero)

/-- Threads with their handles and stacks. -/
structure Crew (ρ κ : Type) where
  mechanism : Mechanism ρ
  handle : κ → BitVec 64
  OnStack : κ → BitVec 64 → Prop
  apart : ∀ {i j}, i ≠ j → ∀ place, OnStack i place → ¬ OnStack j place

/-- `contexts` remembers what the threads that do not run are to resume with. -/
structure CrewState (ρ κ : Type) where
  running : κ
  cpu : Cpu ρ
  contexts : κ → Option (Saved ρ)

/-- What the running thread does. A derived thread gets a context, and a switch is
entered with a state of the processor. -/
inductive Move (ρ κ : Type) where
  | compute
  | derive (thread : κ) (saved : Saved ρ)
  | switch (thread : κ) (entered : Cpu ρ)

namespace Crew

variable {crew : Crew ρ κ}

/-- The stacks of the other threads stay as they are. -/
def Spares (crew : Crew ρ κ) (thread : κ) (memory changed : BitVec 64 → BitVec 8) : Prop :=
  ∀ another, another ≠ thread → ∀ place, crew.OnStack another place → changed place = memory place

/-- The context of a thread lies within its stack. -/
def Within (crew : Crew ρ κ) (thread : κ) (saved : Saved ρ) : Prop :=
  crew.mechanism.Sited (crew.handle thread) saved ∧
    ∀ place, crew.mechanism.Footprint (crew.handle thread) saved place → crew.OnStack thread place

/-- The moves of threads that stay on their own stacks. -/
inductive Moves [DecidableEq κ] (crew : Crew ρ κ) :
    CrewState ρ κ → Move ρ κ → CrewState ρ κ → Prop where
  | compute {state : CrewState ρ κ} {cpu : Cpu ρ}
      (spares : crew.Spares state.running state.cpu.memory cpu.memory) :
      Moves crew state .compute { state with cpu := cpu }
  /-- A fresh context is made for another thread. -/
  | derive {state : CrewState ρ κ} {cpu : Cpu ρ} {thread : κ} {saved : Saved ρ}
      (other : thread ≠ state.running)
      (spares : ∀ another, another ≠ state.running → another ≠ thread → ∀ place,
        crew.OnStack another place → cpu.memory place = state.cpu.memory place)
      (within : crew.Within thread saved)
      (holds : crew.mechanism.Holds (crew.handle thread) saved cpu.memory) :
      Moves crew state (.derive thread saved)
        { state with cpu := cpu, contexts := Function.update state.contexts thread (some saved) }
  | switch {state : CrewState ρ κ} {entered after : Cpu ρ} {thread : κ} {saved : Saved ρ}
      (other : thread ≠ state.running) (suspended : state.contexts thread = some saved)
      (spares : crew.Spares state.running state.cpu.memory entered.memory)
      (enters : crew.mechanism.Enters (crew.handle thread) (crew.handle state.running) entered)
      (within : crew.Within state.running (crew.mechanism.captured entered))
      (ran : crew.mechanism.run entered = some after) :
      Moves crew state (.switch thread entered)
        { running := thread
          cpu := after
          contexts := Function.update state.contexts state.running
            (some (crew.mechanism.captured entered)) }
  | itself {state : CrewState ρ κ} {entered after : Cpu ρ}
      (spares : crew.Spares state.running state.cpu.memory entered.memory)
      (enters : crew.mechanism.Enters (crew.handle state.running) (crew.handle state.running) entered)
      (within : crew.Within state.running (crew.mechanism.captured entered))
      (ran : crew.mechanism.run entered = some after) :
      Moves crew state (.switch state.running entered) { state with cpu := after }

/-- The memory holds the contexts of all threads that do not run. -/
def Kept (crew : Crew ρ κ) (state : CrewState ρ κ) : Prop :=
  ∀ thread saved, thread ≠ state.running → state.contexts thread = some saved →
    crew.Within thread saved ∧
      crew.mechanism.Holds (crew.handle thread) saved state.cpu.memory

variable {state next start final : CrewState ρ κ} {move : Move ρ κ} {thread another : κ}
  {saved : Saved ρ} {entered : Cpu ρ} {history : List (Transition (CrewState ρ κ) (Move ρ κ))}

/-- Contexts stay where stacks are spared. -/
theorem Within.holds_of_spared (lawful : crew.mechanism.Lawful) (within : crew.Within thread saved)
    {memory changed : BitVec 64 → BitVec 8}
    (holds : crew.mechanism.Holds (crew.handle thread) saved memory)
    (spared : ∀ place, crew.OnStack thread place → changed place = memory place) :
    crew.mechanism.Holds (crew.handle thread) saved changed :=
  lawful.congr holds fun place inside => spared place (within.2 place inside)

/-- What a switch from the running thread does. -/
theorem Kept.switch (lawful : crew.mechanism.Lawful) (kept : crew.Kept state)
    (other : thread ≠ state.running) (suspended : state.contexts thread = some saved)
    (spares : crew.Spares state.running state.cpu.memory entered.memory)
    (enters : crew.mechanism.Enters (crew.handle thread) (crew.handle state.running) entered)
    (within : crew.Within state.running (crew.mechanism.captured entered)) :
    ∃ after, crew.mechanism.run entered = some after ∧ crew.mechanism.Resumes saved after ∧
      crew.mechanism.Holds (crew.handle state.running) (crew.mechanism.captured entered)
        after.memory ∧
      ∀ place, ¬ crew.mechanism.Footprint (crew.handle state.running)
        (crew.mechanism.captured entered) place → after.memory place = entered.memory place := by
  obtain ⟨its, holds⟩ := kept thread saved other suspended
  have stillHolds := its.holds_of_spared lawful holds (spares thread other)
  exact lawful.switch enters its.1 stillHolds fun place ofCaller ofThread =>
    crew.apart other place (its.2 place ofThread) (within.2 place ofCaller)

variable [DecidableEq κ]

/-- No move writes on the stack of another thread, but to derive it. -/
theorem Moves.spares (lawful : crew.mechanism.Lawful) (moves : crew.Moves state move next)
    (kept : crew.Kept state) (idle : thread ≠ state.running) (fresh : ∀ saved, move ≠ .derive thread saved) :
    ∀ place, crew.OnStack thread place → next.cpu.memory place = state.cpu.memory place := by
  intro place onStack
  cases moves with
  | compute spares => exact spares thread idle place onStack
  | @derive _ made _ _ spares =>
    apply spares thread idle _ place onStack
    rintro rfl
    exact fresh _ rfl
  | @switch entered after chosen target other found spares enters within ran =>
    obtain ⟨reached, ranAlso, -, -, outside⟩ := kept.switch lawful other found spares enters within
    obtain rfl := Option.some.inj (ranAlso.symm.trans ran)
    exact (outside place fun ofCaller =>
      crew.apart idle place onStack (within.2 place ofCaller)).trans (spares thread idle place onStack)
  | @itself entered after spares enters within ran =>
    obtain ⟨reached, ranAlso, -, outside⟩ := lawful.itself enters
    obtain rfl := Option.some.inj (ranAlso.symm.trans ran)
    exact (outside place fun ofCaller =>
      crew.apart idle place onStack (within.2 place ofCaller)).trans (spares thread idle place onStack)

/-- The context of a thread changes only when it switches away or is derived anew. -/
theorem Moves.contexts_eq (moves : crew.Moves state move next)
    (fresh : ∀ saved, move ≠ .derive thread saved) (idle : thread ≠ state.running) : next.contexts thread = state.contexts thread := by
  cases moves with
  | compute | itself => rfl
  | @derive =>
    apply Function.update_of_ne
    rintro rfl
    exact fresh _ rfl
  | switch => exact Function.update_of_ne idle ..

/-- What another thread than the derived one has is what it had. -/
theorem Moves.keeps (lawful : crew.mechanism.Lawful) (moves : crew.Moves state move next)
    (kept : crew.Kept state) (idle : thread ≠ state.running)
    (fresh : ∀ saved, move ≠ .derive thread saved) (suspended : next.contexts thread = some saved) :
    crew.Within thread saved ∧
      crew.mechanism.Holds (crew.handle thread) saved next.cpu.memory := by
  rw [moves.contexts_eq fresh idle] at suspended
  obtain ⟨within, holds⟩ := kept thread saved idle suspended
  exact ⟨within, within.holds_of_spared lawful holds (moves.spares lawful kept idle fresh)⟩

/-- Every move keeps the contexts in memory. -/
theorem Moves.kept (lawful : crew.mechanism.Lawful) (moves : crew.Moves state move next)
    (kept : crew.Kept state) : crew.Kept next := by
  intro thread saved notRunning suspended
  have others : thread ≠ state.running → (∀ saved, move ≠ .derive thread saved) →
      next.contexts thread = some saved → crew.Within thread saved ∧
        crew.mechanism.Holds (crew.handle thread) saved next.cpu.memory :=
    fun idle fresh => moves.keeps lawful kept idle fresh
  cases moves with
  | compute => exact others notRunning (by simp) suspended
  | @derive cpu fresh made other spares within holds =>
    by_cases isFresh : thread = fresh
    · subst isFresh
      obtain rfl : made = saved := by simpa using suspended
      exact ⟨within, holds⟩
    · exact others notRunning (by simp [Ne.symm isFresh]) suspended
  | @switch entered after chosen target other found spares enters within ran =>
    by_cases isCaller : thread = state.running
    · obtain ⟨reached, ranAlso, -, left, -⟩ := kept.switch lawful other found spares enters within
      obtain rfl := Option.some.inj (ranAlso.symm.trans ran)
      subst isCaller
      obtain rfl : crew.mechanism.captured entered = saved := by simpa using suspended
      exact ⟨within, left⟩
    · exact others isCaller (by simp) suspended
  | itself => exact others notRunning (by simp) suspended

/-- A thread that another one switches to resumes with its context. -/
theorem Moves.resumes (lawful : crew.mechanism.Lawful)
    (moves : crew.Moves state (.switch thread entered) next) (kept : crew.Kept state)
    (other : thread ≠ state.running) (suspended : state.contexts thread = some saved) :
    crew.mechanism.Resumes saved next.cpu := by
  cases moves with
  | switch _ _ spares enters within ran =>
    obtain ⟨reached, ranAlso, resumes, -⟩ :=
      kept.switch lawful other suspended spares enters within
    obtain rfl := Option.some.inj (ranAlso.symm.trans ran)
    exact resumes
  | itself => exact absurd rfl other

/-- A thread that switches away is to resume as it called, and its stack stays as
it was, but for its context. -/
theorem Moves.leaves (lawful : crew.mechanism.Lawful)
    (moves : crew.Moves state (.switch another entered) next) (kept : crew.Kept state)
    (other : another ≠ state.running) :
    next.running = another ∧
      next.contexts state.running = some (crew.mechanism.captured entered) ∧
      ∀ place, ¬ crew.mechanism.Footprint (crew.handle state.running)
        (crew.mechanism.captured entered) place → next.cpu.memory place = entered.memory place := by
  cases moves with
  | itself => exact absurd rfl other
  | switch _ found spares enters within ran =>
    obtain ⟨reached, ranAlso, -, -, outside⟩ := kept.switch lawful other found spares enters within
    obtain rfl := Option.some.inj (ranAlso.symm.trans ran)
    exact ⟨rfl, Function.update_self .., outside⟩

/-- A thread that starts to run was switched to. -/
theorem Moves.switches (moves : crew.Moves state move next) (away : next.running ≠ state.running) :
    ∃ entered, move = .switch next.running entered := by
  cases moves with
  | compute | derive | itself => exact absurd rfl away
  | @switch entered => exact ⟨entered, rfl⟩

/-- A thread does not run, and is not derived anew, in the course of a run. -/
def Idle (thread : κ) (history : List (Transition (CrewState ρ κ) (Move ρ κ))) : Prop :=
  ∀ transition ∈ history, (∀ saved, transition.label ≠ .derive thread saved) ∧
    transition.after.running ≠ thread

variable {leaving resuming : Transition (CrewState ρ κ) (Move ρ κ)}
  {first between rest : List (Transition (CrewState ρ κ) (Move ρ κ))}

/-- While a thread is idle its context and its stack stay as they are. -/
theorem kept_of_trace (lawful : crew.mechanism.Lawful)
    (trace : Trace crew.Moves start history final) (kept : crew.Kept start)
    (idle : thread ≠ start.running) (undisturbed : Idle thread history) :
    thread ≠ final.running ∧ crew.Kept final ∧ final.contexts thread = start.contexts thread ∧
      ∀ place, crew.OnStack thread place → final.cpu.memory place = start.cpu.memory place := by
  apply trace.invariant (fun state => thread ≠ state.running ∧ crew.Kept state ∧
    state.contexts thread = start.contexts thread ∧
      ∀ place, crew.OnStack thread place → state.cpu.memory place = start.cpu.memory place)
    ⟨idle, kept, rfl, fun _ _ => rfl⟩
  rintro transition member ⟨notRunning, keptThen, same, stack⟩
  obtain ⟨fresh, stillNot⟩ := undisturbed transition member
  have moves := trace.valid_of_mem member
  refine ⟨stillNot.symm, moves.kept lawful keptThen, ?_, fun place onStack => ?_⟩
  · exact (moves.contexts_eq fresh notRunning).trans same
  · exact (moves.spares lawful keptThen notRunning fresh place onStack).trans (stack place onStack)

/-- A thread that is derived has the context it is given. -/
theorem Moves.derives (moves : crew.Moves state (.derive thread saved) next) :
    thread ≠ next.running ∧ next.contexts thread = some saved := by
  cases moves with
  | derive other => exact ⟨other, Function.update_self ..⟩

/-- A thread that has a context resumes with it when it runs next, on the stack
it had. -/
theorem resumes_of_trace (lawful : crew.mechanism.Lawful)
    (trace : Trace crew.Moves start (between ++ resuming :: rest) final) (kept : crew.Kept start)
    (suspended : start.contexts thread = some saved) (idle : thread ≠ start.running)
    (undisturbed : Idle thread between) (returns : resuming.after.running = thread) :
    crew.mechanism.Resumes saved resuming.after.cpu ∧ ∀ place, crew.OnStack thread place →
      resuming.after.cpu.memory place = start.cpu.memory place := by
  obtain ⟨during, moves, -⟩ := trace.split_at
  obtain ⟨stillIdle, keptThen, same, stack⟩ := kept_of_trace lawful during kept idle undisturbed
  subst returns
  obtain ⟨entered, switches⟩ := moves.switches stillIdle
  rw [switches] at moves
  refine ⟨moves.resumes lawful keptThen stillIdle (same.trans suspended), fun place onStack => ?_⟩
  have unharmed := moves.spares lawful keptThen stillIdle (by simp) place onStack
  exact unharmed.trans (stack place onStack)

/-- A thread that is derived starts with its fresh context when it runs next, on
the stack it was derived in. -/
theorem starts_as_derived (lawful : crew.mechanism.Lawful)
    (trace : Trace crew.Moves start (first ++ leaving :: (between ++ resuming :: rest)) final)
    (kept : crew.Kept start) (derives : leaving.label = .derive thread saved)
    (undisturbed : Idle thread between) (returns : resuming.after.running = thread) :
    crew.mechanism.Resumes saved resuming.after.cpu ∧ ∀ place, crew.OnStack thread place →
      resuming.after.cpu.memory place = leaving.after.cpu.memory place := by
  obtain ⟨prior, moves, later⟩ := trace.split_at
  have keptThen : crew.Kept leaving.before :=
    prior.invariant_of_step kept fun before moves => moves.kept lawful before
  rw [derives] at moves
  obtain ⟨idle, suspended⟩ := moves.derives
  exact resumes_of_trace lawful later (moves.kept lawful keptThen) suspended idle undisturbed returns

/-- A thread goes on where it left, on the stack it left, whatever the others do
in between. -/
theorem resumes_as_left (lawful : crew.mechanism.Lawful)
    (trace : Trace crew.Moves start (first ++ leaving :: (between ++ resuming :: rest)) final)
    (kept : crew.Kept start) (leaves : leaving.label = .switch another entered)
    (caller : leaving.before.running = thread) (other : another ≠ thread)
    (undisturbed : Idle thread between) (returns : resuming.after.running = thread) :
    crew.mechanism.Resumes (crew.mechanism.captured entered) resuming.after.cpu ∧
      ∀ place, crew.OnStack thread place →
        ¬ crew.mechanism.Footprint (crew.handle thread) (crew.mechanism.captured entered) place →
          resuming.after.cpu.memory place = entered.memory place := by
  obtain ⟨prior, moves, later⟩ := trace.split_at
  have keptThen : crew.Kept leaving.before :=
    prior.invariant_of_step kept fun before moves => moves.kept lawful before
  subst caller
  rw [leaves] at moves
  obtain ⟨away, suspended, stack⟩ := moves.leaves lawful keptThen other
  obtain ⟨resumes, kept⟩ := resumes_of_trace lawful later (moves.kept lawful keptThen) suspended
    (away ▸ other.symm) undisturbed returns
  refine ⟨resumes, fun place onStack outside => ?_⟩
  exact (kept place onStack).trans (stack place outside)

end Crew

end Libmicrokitco.Isa
