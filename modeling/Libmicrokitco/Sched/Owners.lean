import Libmicrokitco.Sched.Contexts

/-!
# Whose code is executing

libco knows which incarnation is executing, the controller which handle is
running. `Belongs` ties one incarnation to one handle; it is established by the
spawn that derives the incarnation and kept by every call. The arguments and
entries of a thread change only when its handle is given them.
-/

namespace Libmicrokitco

/-- The argument that a call gives to a handle. -/
def Call.given (h : Int) : Call → Answer → Option Address
  | .spawn _ privateArg, .handle new => if new = h then some privateArg else none
  | .setArg cothread privateArg, _ => if cothread = h then some privateArg else none
  | _, _ => none

section

variable {call : Call} {answer : Answer} {sem : SemRef} {running cothread h : Int}

theorem Call.given_of_waitsOn (on : call.waitsOn = some sem) : call.given h answer = none := by
  cases call <;> cases on <;> rfl

theorem Call.given_of_signalsOn (on : call.signalsOn = some sem) : call.given h answer = none := by
  cases call <;> cases on <;> rfl

theorem Call.given_of_destroys (destroys : call.destroys running = some cothread) :
    call.given h answer = none := by
  cases call <;> cases destroys <;> rfl

theorem Call.Passive.given (passive : call.Passive) : call.given h answer = none := by
  cases call <;> first | rfl | exact passive.elim

/-- The spawn of a handle gives it its argument. -/
theorem Call.given_of_spawns (spawns : call.spawns answer = some h) : call.given h answer ≠ none := by
  obtain ⟨⟨clientEntry, privateArg, rfl⟩, rfl, -⟩ := Call.spawns_eq_some.mp spawns
  rw [Call.given, if_pos rfl]
  exact Option.some_ne_none privateArg

end

namespace Sched

variable {config : Config} {sched next : Sched} {call : Call} {answer : Answer} {g h : Int}
  {incarnation : Nat}

/-- What the handle holds after a call: what the call gave it, or what it held. -/
theorem Effect.privateArg_next (effect : Effect config sched call answer next) (nonneg : 0 ≤ h) :
    next.privateArg h = (call.given h answer).getD (sched.privateArg h) := by
  cases effect with
  | queried passive => rw [passive.given, Option.getD_none]
  | peeked | initialised | yielded | destroyed => rfl
  | @argued cothread privateArg =>
    change Function.update sched.privateArg cothread privateArg h = _
    by_cases same : cothread = h
    · rw [same, Function.update_self, Call.given, if_pos rfl, Option.getD_some]
    · rw [Function.update_of_ne (Ne.symm same), Call.given, if_neg same, Option.getD_none]
  | @exhausted clientEntry privateArg =>
    have other : nullHandle ≠ h := by
      change -1 ≠ h
      omega
    rw [Call.given, if_neg other, Option.getD_none]
  | @spawned clientEntry privateArg new rest =>
    change Function.update sched.privateArg new privateArg h = _
    by_cases same : new = h
    · rw [same, Function.update_self, Call.given, if_pos rfl, Option.getD_some]
    · rw [Function.update_of_ne (Ne.symm same), Call.given, if_neg same, Option.getD_none]
  | consumed on | blocked on =>
    rw [Call.given_of_waitsOn on]
    rfl
  | ignored on | raised on | handedOver on =>
    rw [Call.given_of_signalsOn on]
    rfl
  | exited self =>
    rw [Call.given_of_destroys self]
    rfl

/-- Only the spawn of a handle changes its entry. -/
theorem Effect.clientEntry_kept (effect : Effect config sched call answer next)
    (unspawned : call.spawns answer ≠ some h) (nonneg : 0 ≤ h) :
    next.clientEntry h = sched.clientEntry h := by
  cases effect with
  | @spawned clientEntry privateArg new rest =>
    refine Function.update_of_ne ?_ ..
    rintro rfl
    refine unspawned (Call.spawns_eq_some.mpr ⟨⟨_, _, rfl⟩, rfl, ?_⟩)
    change h ≠ -1
    omega
  | _ => rfl

/-- A spawn records the entry of the handle it answers. -/
theorem Effect.clientEntry_of_spawn {clientEntry privateArg : Address}
    (effect : Effect config sched (.spawn clientEntry privateArg) (.handle h) next)
    (isHandle : h ≠ nullHandle) : next.clientEntry h = clientEntry := by
  rcases effect.of_spawn with ⟨-, isNull, -⟩ | ⟨new, rest, -, -, answered, rfl⟩
  · cases isNull
    exact absurd rfl isHandle
  · cases answered
    exact Function.update_self ..

theorem Effect.derivations_of_spawns (effect : Effect config sched call answer next)
    (spawns : call.spawns answer = some h) :
    next.libco.derivations = sched.libco.derivations + 1 := by
  obtain ⟨⟨clientEntry, privateArg, rfl⟩, rfl, isHandle⟩ := Call.spawns_eq_some.mp spawns
  rcases effect.of_spawn with ⟨-, isNull, -⟩ | ⟨new, rest, -, -, -, rfl⟩
  · cases isNull
    exact absurd rfl isHandle
  · rfl

theorem Effect.running_of_spawns (effect : Effect config sched call answer next)
    (spawns : call.spawns answer = some h) : next.running = sched.running := by
  obtain ⟨⟨clientEntry, privateArg, rfl⟩, rfl, -⟩ := Call.spawns_eq_some.mp spawns
  rcases effect.of_spawn with ⟨-, -, rfl⟩ | ⟨new, rest, -, -, -, rfl⟩
  · rfl
  · rfl

/-- A dispatch executes the incarnation whose context it resumes. -/
theorem Effect.current_eq (effect : Effect config sched call answer next)
    (dispatched : next.running ≠ sched.running) :
    next.libco.current = next.libco.resumed.incarnation := by
  cases effect.libcoChange with
  | kept _ _ running => exact absurd running dispatched
  | derived _ _ _ _ _ running => exact absurd running dispatched
  | switched libco =>
    rw [libco]
    rfl

/-- No context is of an incarnation that has not been derived yet. -/
structure Counted (libco : Libco) : Prop where
  contexts : ∀ handle, (libco.contexts handle).incarnation ≤ libco.derivations
  current : libco.current ≤ libco.derivations

theorem Counted.effect (counted : Counted sched.libco) (effect : Effect config sched call answer next) :
    Counted next.libco := by
  have saved : ∀ point handle,
      ((sched.libco.coSwitch point handle).contexts handle).incarnation ≤ sched.libco.derivations ∧
        ∀ other, ((sched.libco.coSwitch point handle).contexts other).incarnation ≤
          sched.libco.derivations := by
    intro point handle
    have all : ∀ other, ((sched.libco.coSwitch point handle).contexts other).incarnation ≤
        sched.libco.derivations := by
      intro other
      rw [Libco.contexts_coSwitch]
      by_cases active : other = sched.libco.coActiveHandle
      · rw [active, Function.update_self]
        exact counted.current
      · rw [Function.update_of_ne active]
        exact counted.contexts other
    exact ⟨all handle, all⟩
  cases effect.libcoChange with
  | kept libco =>
    rw [libco]
    exact counted
  | switched libco =>
    rw [libco]
    exact ⟨(saved _ _).2, (saved _ _).1⟩
  | @derived _ _ new _ _ _ _ libco =>
    rw [libco]
    refine ⟨fun handle => ?_, counted.current.trans (Nat.le_succ _)⟩
    rw [Libco.contexts_coDerive, Libco.derivations_coDerive]
    by_cases isNew : handle = sched.stackHandle config new
    · rw [isNew, Function.update_self]
      exact le_rfl
    · rw [Function.update_of_ne isNew]
      exact (counted.contexts handle).trans (Nat.le_succ _)

/-- The incarnation is that of `h`: its code executes only while `h` is running,
and no other thread resumes it. -/
structure Belongs (incarnation : Nat) (h : Int) (sched : Sched) : Prop where
  derived : incarnation ≤ sched.libco.derivations
  current : sched.libco.current = incarnation → sched.running = h
  waiting : ∀ g, sched.state g ≠ .notActive → g ≠ sched.running →
    (sched.libco.contexts (sched.coHandle g)).incarnation = incarnation → g = h

/-- A spawn derives a new incarnation for the handle it answers. -/
theorem Effect.belongs_of_spawns (effect : Effect config sched call answer next)
    (sound : Sound config (some sched.running) sched) (contexts : ContextsSound config sched)
    (counted : Counted sched.libco) (spawns : call.spawns answer = some h) :
    Belongs next.libco.derivations h next := by
  have fresh := effect.derivations_of_spawns spawns
  cases effect.libcoChange with
  | kept libco =>
    rw [libco] at fresh
    omega
  | switched libco =>
    rw [libco, Libco.derivations_coSwitch] at fresh
    omega
  | @derived _ _ new rest isSpawn answered free libco coHandle running =>
    obtain ⟨-, sameAnswer, -⟩ := Call.spawns_eq_some.mp spawns
    cases answered.symm.trans sameAnswer
    obtain ⟨positive, below, inactive⟩ :=
      (sound.free.exact h).mp (by rw [free]; exact List.mem_cons_self)
    refine ⟨le_rfl, fun current => ?_, fun g active _ same => ?_⟩
    · have old := counted.current
      rw [fresh, libco, Libco.current_coDerive] at current
      omega
    · by_contra other
      have before : sched.state g ≠ .notActive := by
        refine (effect.active_before sound active).resolve_right ?_
        rw [spawns]
        simpa using Ne.symm other
      have elsewhere := contexts.coHandle_ne_stackHandle (sound.threads.inRange g before)
        (.inl before) positive below other
      have old := counted.contexts (sched.coHandle g)
      rw [fresh, libco, coHandle, Function.update_of_ne other, Libco.contexts_coDerive,
        Function.update_of_ne elsewhere] at same
      omega

/-- Every call leaves an incarnation with its handle. -/
theorem Belongs.effect (belongs : Belongs incarnation h sched)
    (sound : Sound config (some sched.running) sched) (contexts : ContextsSound config sched)
    (effect : Effect config sched call answer next) : Belongs incarnation h next := by
  -- without a derivation no thread has become active
  have before : next.libco.derivations = sched.libco.derivations → ∀ g,
      next.state g ≠ .notActive → sched.state g ≠ .notActive := by
    intro same g active
    refine (effect.active_before sound active).resolve_right fun spawns => ?_
    have fresh := effect.derivations_of_spawns spawns
    omega
  have derived := belongs.derived
  cases effect.libcoChange with
  | kept libco coHandle running =>
    refine ⟨by rw [libco]; exact derived, ?_, ?_⟩
    · rw [libco, running]
      exact belongs.current
    · intro g active other
      rw [libco, coHandle]
      exact belongs.waiting g (before (by rw [libco]) g active) (running ▸ other)
  | @switched point libco coHandle =>
    have count : next.libco.derivations = sched.libco.derivations := by
      rw [libco]
      rfl
    -- a switch leaves the caller's incarnation behind the caller's handle
    have saved : ∀ g, sched.state g ≠ .notActive →
        (next.libco.contexts (sched.coHandle g)).incarnation = incarnation → g = h := by
      intro g active
      rw [libco, Libco.contexts_coSwitch, contexts.active]
      by_cases caller : g = sched.running
      · rw [caller, Function.update_self]
        exact belongs.current
      · rw [Function.update_of_ne (contexts.coHandle_ne (sound.threads.inRange g active)
          sound.running (.inl active) (.inr rfl) caller)]
        exact belongs.waiting g active caller
    refine ⟨by rw [count]; exact derived, ?_, ?_⟩
    · intro current
      refine saved next.running (sound.running_active effect) ?_
      rw [libco] at current ⊢
      exact current
    · intro g active _
      rw [coHandle]
      exact saved g (before count g active)
  | @derived _ _ new rest isSpawn answered free libco coHandle running =>
    obtain ⟨positive, below, inactive⟩ :=
      (sound.free.exact new).mp (by rw [free]; exact List.mem_cons_self)
    refine ⟨?_, ?_, ?_⟩
    · rw [libco, Libco.derivations_coDerive]
      omega
    · rw [libco, running]
      exact belongs.current
    · intro g active other same
      rw [libco, coHandle, Libco.contexts_coDerive] at same
      by_cases isNew : g = new
      · rw [isNew, Function.update_self, Function.update_self] at same
        change sched.libco.derivations + 1 = incarnation at same
        omega
      · have was : sched.state g ≠ .notActive := by
          refine (effect.active_before sound active).resolve_right fun spawns => isNew ?_
          obtain ⟨-, sameAnswer, -⟩ := Call.spawns_eq_some.mp spawns
          cases answered.symm.trans sameAnswer
          rfl
        rw [Function.update_of_ne isNew, Function.update_of_ne
          (contexts.coHandle_ne_stackHandle (sound.threads.inRange g was) (.inl was) positive below
            isNew)] at same
        exact belongs.waiting g was (running ▸ other) same

end Sched
end Libmicrokitco
