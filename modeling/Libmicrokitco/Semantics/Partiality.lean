/-!
# Partial specifications

A specification in `Option` says what a computation in `Except` must do and, by
being undefined, where it must fail. A loop over inputs meets the specification
that its body meets.
-/

namespace Libmicrokitco

variable {Error A B C D Input : Type}

/-- A related result where the specification is defined, and elsewhere a failure
for a reason. -/
inductive Meets (Related : A → B → Prop) (Reason : Error → Prop) :
    Option A → Except Error B → Prop where
  | defined {value : A} {result : B} (related : Related value result) :
      Meets Related Reason (some value) (.ok result)
  | undefined {failure : Error} (reason : Reason failure) :
      Meets Related Reason none (.error failure)

namespace Meets

variable {Related : A → B → Prop} {Result : C → D → Prop} {Reason : Error → Prop}
  {specification : Option A} {computation : Except Error B} {value : A} {result : B}

theorem of_ok (returned : computation = .ok result) (related : Related value result) :
    Meets Related Reason (some value) computation := by
  rw [returned]
  exact .defined related

theorem of_error {failure : Error} (failed : computation = .error failure)
    (reason : Reason failure) : Meets Related Reason (none : Option A) computation := by
  rw [failed]
  exact .undefined reason

theorem mono {Weaker : A → B → Prop} (meets : Meets Related Reason specification computation)
    (weaker : ∀ {value result}, Related value result → Weaker value result) :
    Meets Weaker Reason specification computation := by
  cases meets with
  | defined related => exact .defined (weaker related)
  | undefined reason => exact .undefined reason

/-- A specification that goes on to compute a value. -/
theorem map {f : A → C} {Related : C → B → Prop}
    (meets : Meets (fun value result => Related (f value) result) Reason specification computation) :
    Meets Related Reason (specification.map f) computation := by
  cases meets with
  | defined related => exact .defined related
  | undefined reason => exact .undefined reason

theorem bind {next : A → Option C} {following : B → Except Error D}
    (first : Meets Related Reason specification computation)
    (second : ∀ {value result}, Related value result →
      Meets Result Reason (next value) (following result)) :
    Meets Result Reason (specification >>= next) (computation >>= following) := by
  cases first with
  | defined related => exact second related
  | undefined reason => exact .undefined reason

/-- What each step meets, a run meets. -/
theorem run {step : A → Input → Option A} {body : B → Input → Except Error B}
    (each : ∀ {value result}, Related value result →
      ∀ input, Meets Related Reason (step value input) (body result input))
    (related : Related value result) (inputs : List Input) :
    Meets Related Reason (inputs.foldlM step value) (inputs.foldlM body result) := by
  induction inputs generalizing value result with
  | nil => exact .defined related
  | cons input rest ih =>
    rw [List.foldlM_cons, List.foldlM_cons]
    exact (each related input).bind fun related => ih related

end Meets

end Libmicrokitco
