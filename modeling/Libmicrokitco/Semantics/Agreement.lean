/-!
# Agreement of fallible computations

Two computations in `Except` agree up to a relation when they fail with the
same error or both succeed with related results. The bind rule is what a
refinement proof of imperative code composes.
-/

namespace Libmicrokitco

variable {Error A B C D : Type}

/-- A sequence that succeeds is two successes. -/
theorem bind_eq_ok {first : Except Error A} {next : A → Except Error B} {result : B} :
    first >>= next = .ok result ↔ ∃ value, first = .ok value ∧ next value = .ok result := by
  cases first <;> simp [bind, Except.bind]

theorem map_eq_ok {f : A → B} {computation : Except Error A} {result : B} :
    f <$> computation = .ok result ↔ ∃ value, computation = .ok value ∧ f value = result := by
  cases computation <;> simp [Functor.map, Except.map]

theorem map_eq_error {f : A → B} {computation : Except Error A} {failure : Error} :
    f <$> computation = .error failure ↔ computation = .error failure := by
  cases computation <;> simp [Functor.map, Except.map]

/-- Equal failures, or successes related by `Related`. -/
inductive Agrees (Related : A → B → Prop) : Except Error A → Except Error B → Prop where
  | ok {left : A} {right : B} (related : Related left right) :
      Agrees Related (.ok left) (.ok right)
  | error (failure : Error) : Agrees Related (.error failure) (.error failure)

namespace Agrees

variable {Related : A → B → Prop} {Result : C → D → Prop}

theorem bind {left : Except Error A} {right : Except Error B} {leftNext : A → Except Error C}
    {rightNext : B → Except Error D} (agreement : Agrees Related left right)
    (next : ∀ {a b}, Related a b → Agrees Result (leftNext a) (rightNext b)) :
    Agrees Result (left >>= leftNext) (right >>= rightNext) := by
  cases agreement with
  | ok related => exact next related
  | error failure => exact .error failure

theorem map {left : Except Error A} {right : Except Error B} {f : A → C} {g : B → D}
    (agreement : Agrees Related left right) (mapped : ∀ {a b}, Related a b → Result (f a) (g b)) :
    Agrees Result (f <$> left) (g <$> right) := by
  cases agreement with
  | ok related => exact .ok (mapped related)
  | error failure => exact .error failure

theorem mono {Weaker : A → B → Prop} {left : Except Error A} {right : Except Error B}
    (agreement : Agrees Related left right) (weaker : ∀ {a b}, Related a b → Weaker a b) :
    Agrees Weaker left right := by
  cases agreement with
  | ok related => exact .ok (weaker related)
  | error failure => exact .error failure

theorem symm {left : Except Error A} {right : Except Error B}
    (agreement : Agrees Related left right) : Agrees (fun b a => Related a b) right left := by
  cases agreement with
  | ok related => exact .ok related
  | error failure => exact .error failure

/-- Agreement composes through a computation in the middle. -/
theorem trans {Second : B → C → Prop} {left : Except Error A} {middle : Except Error B}
    {right : Except Error C} (first : Agrees Related left middle)
    (second : Agrees Second middle right) :
    Agrees (fun a c => ∃ b, Related a b ∧ Second b c) left right := by
  cases first with
  | ok related =>
    cases second with
    | ok also => exact .ok ⟨_, related, also⟩
  | error failure =>
    cases second
    exact .error failure

/-- A success on the left is matched by a related success on the right. -/
theorem ok_left {left : A} {right : Except Error B}
    (agreement : Agrees Related (.ok left) right) :
    ∃ value, right = .ok value ∧ Related left value := by
  cases agreement with
  | ok related => exact ⟨_, rfl, related⟩

theorem error_iff {left : Except Error A} {right : Except Error B} (failure : Error)
    (agreement : Agrees Related left right) : left = .error failure ↔ right = .error failure := by
  cases agreement with
  | ok related => simp
  | error => simp

end Agrees
end Libmicrokitco
