import Libmicrokitco.Semantics.Trace
import Mathlib.Data.List.Forall2

/-!
# Simulation

A run of one system whose every step another system can match is matched by a
run of the other, transition by transition. Nothing is assumed of the relations
between states and between labels.
-/

namespace Libmicrokitco

variable {Abstract Concrete Move Label : Type*} {AbstractStep : Abstract → Move → Abstract → Prop}
  {Step : Concrete → Label → Concrete → Prop} {Related : Abstract → Concrete → Prop}
  {Labelled : Move → Label → Prop}

/-- Transitions between related states, with related labels. -/
structure Matches (Related : Abstract → Concrete → Prop) (Labelled : Move → Label → Prop)
    (abstract : Transition Abstract Move) (concrete : Transition Concrete Label) : Prop where
  before : Related abstract.before concrete.before
  label : Labelled abstract.label concrete.label
  after : Related abstract.after concrete.after

/-- Every step from related states is matched by a step to related states. -/
def Simulates (AbstractStep : Abstract → Move → Abstract → Prop)
    (Step : Concrete → Label → Concrete → Prop) (Related : Abstract → Concrete → Prop)
    (Labelled : Move → Label → Prop) : Prop :=
  ∀ ⦃abstract state label next⦄, Related abstract state → Step state label next →
    ∃ move after, AbstractStep abstract move after ∧ Labelled move label ∧ Related after next

/-- A simulation matches whole runs. -/
theorem Simulates.trace (simulates : Simulates AbstractStep Step Related Labelled)
    {abstract : Abstract} {start final : Concrete} {history : List (Transition Concrete Label)}
    (related : Related abstract start) (trace : Trace Step start history final) :
    ∃ moves after, Trace AbstractStep abstract moves after ∧ Related after final ∧
      List.Forall₂ (Matches Related Labelled) moves history := by
  induction trace with
  | nil => exact ⟨[], abstract, .nil, related, .nil⟩
  | snoc _ valid ih =>
    obtain ⟨moves, reached, prior, relatedThen, matched⟩ := ih
    obtain ⟨move, after, step, labelled, relatedAfter⟩ := simulates relatedThen valid
    refine ⟨_, after, .snoc prior step, relatedAfter, ?_⟩
    exact List.rel_append matched (.cons ⟨relatedThen, labelled, relatedAfter⟩ .nil)

/-- A list that matches one with an entry in the middle has a matching entry there. -/
theorem exists_middle_of_forall₂ {α β : Type*} {R : α → β → Prop} {whole : List α}
    {first second : List β} {entry : β} (matched : List.Forall₂ R whole (first ++ entry :: second)) :
    ∃ left middle right, whole = left ++ middle :: right ∧ List.Forall₂ R left first ∧
      R middle entry ∧ List.Forall₂ R right second := by
  induction first generalizing whole with
  | nil =>
    obtain ⟨middle, right, related, others, rfl⟩ := List.forall₂_cons_right_iff.mp matched
    exact ⟨[], middle, right, rfl, .nil, related, others⟩
  | cons head first ih =>
    obtain ⟨other, rest, related, others, rfl⟩ := List.forall₂_cons_right_iff.mp matched
    obtain ⟨left, middle, right, rfl, before, here, after⟩ := ih others
    exact ⟨other :: left, middle, right, rfl, .cons related before, here, after⟩

/-- What matching transfers to each entry. -/
theorem forall_of_forall₂ {α β : Type*} {R : α → β → Prop} {P : α → Prop} {Q : β → Prop}
    {left : List α} {right : List β} (matched : List.Forall₂ R left right)
    (transfers : ∀ {a b}, R a b → Q b → P a) (holds : ∀ entry ∈ right, Q entry) :
    ∀ entry ∈ left, P entry := by
  induction matched with
  | nil => simp
  | cons related _ ih =>
    rw [List.forall_mem_cons] at holds ⊢
    exact ⟨transfers related holds.1, ih holds.2⟩

end Libmicrokitco
