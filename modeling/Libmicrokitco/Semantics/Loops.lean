import Mathlib.Data.List.Basic

/-!
# Counted loops that can fail

A C `for` loop from `first` on, of `count` iterations, is a `foldlM` or `forM`
over `List.range' first count` in `Except`. The rules carry an invariant,
indexed by the iterations done, through such a loop.
-/

namespace Libmicrokitco

variable {Error State : Type}

/-- What a loop that ended has kept: an invariant indexed by the iterations done. -/
theorem foldlM_range'_invariant {Inv : Nat → State → Prop} {body : State → Nat → Except Error State}
    {first count : Nat} {start final : State} (initially : Inv 0 start)
    (preserved : ∀ {done state next}, done < count → Inv done state →
      body state (first + done) = .ok next → Inv (done + 1) next)
    (ended : (List.range' first count).foldlM body start = .ok final) : Inv count final := by
  induction count generalizing final with
  | zero =>
    cases ended
    exact initially
  | succ count ih =>
    rw [List.range'_concat, List.foldlM_append] at ended
    cases prior : (List.range' first count).foldlM body start with
    | error failure => simp [prior, bind, Except.bind] at ended
    | ok state =>
      have before := ih (fun below => preserved (Nat.lt_succ_of_lt below)) prior
      rw [prior, Nat.one_mul] at ended
      have last : body state (first + count) = .ok final := by
        cases run : body state (first + count) <;>
          simp_all [bind, Except.bind, pure, Except.pure]
      exact preserved (Nat.lt_succ_self count) before last

/-- A loop whose every iteration succeeds from the invariant succeeds. -/
theorem foldlM_range'_total {Inv : Nat → State → Prop} {body : State → Nat → Except Error State}
    {first count : Nat} {start : State} (initially : Inv 0 start)
    (progress : ∀ {done state}, done < count → Inv done state →
      ∃ next, body state (first + done) = .ok next ∧ Inv (done + 1) next) :
    ∃ final, (List.range' first count).foldlM body start = .ok final ∧ Inv count final := by
  induction count with
  | zero => exact ⟨start, rfl, initially⟩
  | succ count ih =>
    obtain ⟨state, prior, before⟩ := ih fun below => progress (Nat.lt_succ_of_lt below)
    obtain ⟨next, last, after⟩ := progress (Nat.lt_succ_self count) before
    refine ⟨next, ?_, after⟩
    rw [List.range'_concat, List.foldlM_append, prior, Nat.one_mul]
    simp [last, bind, Except.bind, pure, Except.pure]

/-- A loop of checks succeeds exactly when every check does. -/
theorem forM_ok_iff {A : Type} {check : A → Except Error PUnit} {items : List A} :
    items.forM check = .ok ⟨⟩ ↔ ∀ item ∈ items, check item = .ok ⟨⟩ := by
  induction items with
  | nil => simp [pure, Except.pure]
  | cons item rest ih =>
    cases first : check item with
    | error failure => simp [first, bind, Except.bind]
    | ok value => simp [first, bind, Except.bind, ← ih]

end Libmicrokitco
