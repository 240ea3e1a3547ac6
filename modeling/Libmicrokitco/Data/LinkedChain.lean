import Mathlib.Logic.Function.Basic
import Mathlib.Data.List.Nodup

/-!
# Intrusive singly linked lists

A list threaded through a link function, ended by a null node: `Chain null next
first nodes` says that following `next` from `first` visits exactly `nodes`.
A chain is determined by its first node and never visits a node twice, so it
needs no separate acyclicity invariant.
-/

namespace Libmicrokitco.LinkedChain

variable {Node : Type*}

/-- Following `next` from the first node visits `nodes` and then `null`. -/
def Chain (null : Node) (next : Node → Node) : Node → List Node → Prop
  | first, [] => first = null
  | first, node :: rest => first = node ∧ node ≠ null ∧ Chain null next (next node) rest

/-- The last node of a chain, `null` if there is none. -/
def lastNode (null : Node) (nodes : List Node) : Node := nodes.getLastD null

variable {null first : Node} {next : Node → Node} {nodes : List Node}

theorem Chain.nil_iff (chain : Chain null next first nodes) : nodes = [] ↔ first = null := by
  cases nodes with
  | nil => exact ⟨fun _ => chain, fun _ => rfl⟩
  | cons node rest =>
    obtain ⟨rfl, nonNull, -⟩ := chain
    simp [nonNull]

/-- A first node that is not null heads its chain. -/
theorem Chain.exists_cons (chain : Chain null next first nodes) (nonNull : first ≠ null) :
    ∃ rest, nodes = first :: rest ∧ Chain null next (next first) rest := by
  cases nodes with
  | nil => exact absurd chain nonNull
  | cons node rest =>
    obtain ⟨rfl, -, tail⟩ := chain
    exact ⟨rest, rfl, tail⟩

/-- A chain is determined by its first node. -/
theorem Chain.unique {other : List Node} (left : Chain null next first nodes)
    (right : Chain null next first other) : nodes = other := by
  induction nodes generalizing first other with
  | nil => exact (right.nil_iff.mpr left).symm
  | cons node rest ih =>
    obtain ⟨rfl, nonNull, tail⟩ := left
    obtain ⟨rest', rfl, tail'⟩ := right.exists_cons nonNull
    rw [ih tail tail']

theorem Chain.drop {before after : List Node} {node : Node}
    (chain : Chain null next first (before ++ node :: after)) :
    Chain null next node (node :: after) := by
  induction before generalizing first with
  | nil =>
    obtain ⟨rfl, rest⟩ := chain
    exact ⟨rfl, rest⟩
  | cons head before ih => exact ih chain.2.2

/-- No node is visited twice: both visits would be followed by the same rest. -/
theorem Chain.nodup (chain : Chain null next first nodes) : nodes.Nodup := by
  induction nodes generalizing first with
  | nil => exact List.nodup_nil
  | cons node rest ih =>
    refine List.nodup_cons.mpr ⟨fun again => ?_, ih chain.2.2⟩
    obtain ⟨before, after, rfl⟩ := List.append_of_mem again
    have whole : Chain null next node (node :: (before ++ node :: after)) := ⟨rfl, chain.2⟩
    have equal := congrArg List.length (whole.unique chain.2.2.drop)
    simp only [List.length_cons, List.length_append] at equal
    omega

@[simp] theorem lastNode_nil (null : Node) : lastNode null [] = null := rfl

@[simp] theorem lastNode_concat (null node : Node) (nodes : List Node) :
    lastNode null (nodes ++ [node]) = node := by
  simp [lastNode]

theorem lastNode_cons_of_ne_nil (null head : Node) (nonempty : nodes ≠ []) :
    lastNode null (head :: nodes) = lastNode null nodes := by
  cases nodes with
  | nil => exact absurd rfl nonempty
  | cons node rest => simp [lastNode]

theorem getLast?_eq_lastNode (null : Node) (nonempty : nodes ≠ []) :
    nodes.getLast? = some (lastNode null nodes) := by
  rw [lastNode, List.getLastD_eq_getLast?, List.getLast?_eq_some_getLast nonempty]
  rfl

theorem lastNode_mem (null : Node) (nonempty : nodes ≠ []) : lastNode null nodes ∈ nodes := by
  induction nodes with
  | nil => exact absurd rfl nonempty
  | cons head rest ih =>
    by_cases single : rest = []
    · subst single
      simp [lastNode]
    · rw [lastNode_cons_of_ne_nil null head single]
      exact List.mem_cons_of_mem head (ih single)

/-- The link of the last node is null. -/
theorem Chain.next_last (chain : Chain null next first nodes) (nonempty : nodes ≠ []) :
    next (lastNode null nodes) = null := by
  induction nodes generalizing first with
  | nil => exact absurd rfl nonempty
  | cons node rest ih =>
    by_cases single : rest = []
    · subst single
      exact chain.2.2
    · rw [lastNode_cons_of_ne_nil null node single]
      exact ih chain.2.2 single

variable [DecidableEq Node]

/-- Relinking a node that a chain does not visit leaves the chain. -/
theorem Chain.update_of_notMem {node target : Node} (chain : Chain null next first nodes)
    (absent : node ∉ nodes) : Chain null (Function.update next node target) first nodes := by
  induction nodes generalizing first with
  | nil => exact chain
  | cons head rest ih =>
    obtain ⟨rfl, nonNull, tail⟩ := chain
    rw [List.mem_cons, not_or] at absent
    refine ⟨rfl, nonNull, ?_⟩
    rw [Function.update_of_ne (Ne.symm absent.1)]
    exact ih tail absent.2

/-- Linking a fresh node, whose own link is null, behind the last one. -/
theorem Chain.snoc {node : Node} (chain : Chain null next first nodes) (nonempty : nodes ≠ [])
    (fresh : node ∉ nodes) (nonNull : node ≠ null) (unlinked : next node = null) :
    Chain null (Function.update next (lastNode null nodes) node) first (nodes ++ [node]) := by
  induction nodes generalizing first with
  | nil => exact absurd rfl nonempty
  | cons head rest ih =>
    have distinct := chain.nodup
    obtain ⟨rfl, headNonNull, tail⟩ := chain
    rw [List.mem_cons, not_or] at fresh
    refine ⟨rfl, headNonNull, ?_⟩
    by_cases single : rest = []
    · subst single
      have last : lastNode null [first] = first := rfl
      rw [last, Function.update_self]
      refine ⟨rfl, nonNull, ?_⟩
      rw [Function.update_of_ne fresh.1]
      exact unlinked
    · have later : first ≠ lastNode null rest := fun same =>
        (List.nodup_cons.mp distinct).1 (same ▸ lastNode_mem null single)
      rw [lastNode_cons_of_ne_nil null first single, Function.update_of_ne later]
      exact ih tail single fresh.2

omit [DecidableEq Node] in
/-- A chain of one node. -/
theorem Chain.singleton {node : Node} (nonNull : node ≠ null) (unlinked : next node = null) :
    Chain null next node [node] :=
  ⟨rfl, nonNull, unlinked⟩

/-- Following `next` from the first node reaches a node before `null`. This
says nothing about the list ending, so it also reads a corrupted list. -/
inductive Visits (null : Node) (next : Node → Node) : Node → Node → Prop where
  | here {node : Node} (nonNull : node ≠ null) : Visits null next node node
  | later {first node : Node} (nonNull : first ≠ null) (onwards : Visits null next (next first) node) :
      Visits null next first node

omit [DecidableEq Node] in
theorem Chain.visits_iff (chain : Chain null next first nodes) {node : Node} :
    Visits null next first node ↔ node ∈ nodes := by
  constructor
  · intro visits
    induction visits generalizing nodes with
    | here nonNull =>
      obtain ⟨rest, rfl, -⟩ := chain.exists_cons nonNull
      exact List.mem_cons_self
    | later nonNull _ ih =>
      obtain ⟨rest, rfl, tail⟩ := chain.exists_cons nonNull
      exact List.mem_cons_of_mem _ (ih tail)
  · intro member
    induction nodes generalizing first with
    | nil => cases member
    | cons head rest ih =>
      obtain ⟨rfl, nonNull, tail⟩ := chain
      rcases List.mem_cons.mp member with rfl | onwards
      · exact .here nonNull
      · exact .later nonNull (ih tail onwards)

end Libmicrokitco.LinkedChain
