import Mathlib.Data.List.Induction

/-!
# Finite traces of a labelled step relation

`Trace Step start history final` is a finite run that keeps every transition it
took, with the states around it, so that a property of a run can be a fold over
its history. Nothing is assumed of the relation; determinism, progress and
initial states belong to its users.
-/

namespace Libmicrokitco

variable {State Label : Type*}

/-- One step taken: the state before it, its label, the state after it. -/
structure Transition (State Label : Type*) where
  before : State
  label : Label
  after : State

/-- A finite run from `start`, built one step at a time at its end. -/
inductive Trace (Step : State → Label → State → Prop) (start : State) :
    List (Transition State Label) → State → Prop where
  | nil : Trace Step start [] start
  | snoc {history : List (Transition State Label)} {state next : State} {label : Label}
      (prior : Trace Step start history state) (valid : Step state label next) :
      Trace Step start (history ++ [⟨state, label, next⟩]) next

namespace Trace

variable {Step : State → Label → State → Prop} {start middle final : State}
  {history first second : List (Transition State Label)}

theorem append (before : Trace Step start first middle) (after : Trace Step middle second final) :
    Trace Step start (first ++ second) final := by
  induction after with
  | nil => simpa using before
  | snoc _ valid ih =>
    rw [← List.append_assoc]
    exact .snoc ih valid

/-- A run without transitions ends where it starts. -/
theorem nil_inv (trace : Trace Step start [] final) : final = start := by
  generalize shape : ([] : List (Transition State Label)) = whole at trace
  cases trace with
  | nil => rfl
  | snoc => simp at shape

/-- The last transition of a run ends where the run ends. -/
theorem snoc_inv {transition : Transition State Label}
    (trace : Trace Step start (history ++ [transition]) final) :
    Trace Step start history transition.before ∧
      Step transition.before transition.label transition.after ∧ transition.after = final := by
  generalize shape : history ++ [transition] = whole at trace
  cases trace with
  | nil => simp at shape
  | snoc prior valid =>
    obtain ⟨rfl, last⟩ := List.append_inj' shape rfl
    obtain ⟨rfl, -⟩ := List.cons_eq_cons.mp last
    exact ⟨prior, valid, rfl⟩

/-- A run can be cut at every point of its history. -/
theorem split (trace : Trace Step start (first ++ second) final) :
    ∃ middle, Trace Step start first middle ∧ Trace Step middle second final := by
  induction second using List.reverseRecOn generalizing final with
  | nil => exact ⟨final, by simpa using trace, .nil⟩
  | append_singleton second transition ih =>
    rw [← List.append_assoc] at trace
    obtain ⟨prior, valid, rfl⟩ := trace.snoc_inv
    obtain ⟨middle, before, after⟩ := ih prior
    exact ⟨middle, before, .snoc after valid⟩

/-- The states around a transition are reached by the parts of the run around it. -/
theorem split_at {transition : Transition State Label}
    (trace : Trace Step start (first ++ transition :: second) final) :
    Trace Step start first transition.before ∧
      Step transition.before transition.label transition.after ∧
      Trace Step transition.after second final := by
  rw [List.append_cons] at trace
  obtain ⟨middle, upTo, after⟩ := trace.split
  obtain ⟨before, valid, rfl⟩ := upTo.snoc_inv
  exact ⟨before, valid, after⟩

/-- The first transition of a run starts where the run starts. -/
theorem cons_inv {transition : Transition State Label}
    (trace : Trace Step start (transition :: second) final) :
    transition.before = start ∧ Step transition.before transition.label transition.after ∧
      Trace Step transition.after second final := by
  rw [← List.nil_append (transition :: second)] at trace
  obtain ⟨empty, valid, after⟩ := trace.split_at
  exact ⟨empty.nil_inv, valid, after⟩

theorem valid_of_mem {transition : Transition State Label} (trace : Trace Step start history final)
    (member : transition ∈ history) :
    Step transition.before transition.label transition.after := by
  obtain ⟨first, second, rfl⟩ := List.append_of_mem member
  exact trace.split_at.2.1

/-- What holds at the start and is preserved by each step taken holds at the end. -/
theorem invariant (Inv : State → Prop) (trace : Trace Step start history final)
    (initially : Inv start)
    (preserved : ∀ transition ∈ history, Inv transition.before → Inv transition.after) :
    Inv final := by
  induction trace with
  | nil => exact initially
  | snoc prior valid ih =>
    have before := ih fun transition member => preserved transition (List.mem_append_left _ member)
    exact preserved _ (List.mem_append_right _ (List.mem_singleton_self _)) before

/-- An invariant of the steps holds in every state of the run. -/
theorem invariant_of_step {Inv : State → Prop} (trace : Trace Step start history final)
    (initially : Inv start)
    (preserved : ∀ {state label next}, Inv state → Step state label next → Inv next) :
    Inv final :=
  trace.invariant Inv initially fun _ member holds => preserved holds (trace.valid_of_mem member)

/-- What the transitions of a run preserve holds around each of them. -/
theorem invariant_around (Inv : State → Prop) (trace : Trace Step start history final)
    (initially : Inv start)
    (preserved : ∀ transition ∈ history, Inv transition.before → Inv transition.after) :
    ∀ transition ∈ history, Inv transition.before ∧ Inv transition.after := by
  intro transition member
  obtain ⟨first, second, rfl⟩ := List.append_of_mem member
  obtain ⟨before, -, -⟩ := trace.split_at
  have holds := before.invariant Inv initially fun earlier isEarlier =>
    preserved earlier (List.mem_append_left _ isEarlier)
  exact ⟨holds, preserved transition member holds⟩

/-- A measure that never grows, and falls with every counted transition, bounds
their number. -/
theorem countP_add_le (measure : State → Nat) (counted : Transition State Label → Bool)
    (trace : Trace Step start history final)
    (descends : ∀ transition ∈ history,
      measure transition.after + (if counted transition then 1 else 0) ≤ measure transition.before) :
    history.countP counted + measure final ≤ measure start := by
  induction trace with
  | nil => simp
  | @snoc history state next label prior valid ih =>
    have earlier := ih fun transition member => descends transition (List.mem_append_left _ member)
    have last := descends _ (List.mem_append_right _ (List.mem_singleton_self _))
    change measure next + _ ≤ measure state at last
    rw [List.countP_append, List.countP_singleton]
    omega

end Trace
end Libmicrokitco
