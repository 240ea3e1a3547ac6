import Libmicrokitco.Codis.Handlers
import Libmicrokitco.Codis.Requests
import Libmicrokitco.Codis.Turns
import Libmicrokitco.Sched.Stacks

/-!
# The cothreads of the server

A deployment is a setup as the system description makes it. `Staffed` says which
cothreads of a domain wait for their clients and who runs next.
-/

namespace Libmicrokitco.Codis

open CString Sched

/-- A setup whose memory regions do not overlap, and a build with a cothread for
each client. -/
structure Deployment extends Setup, Layout where
  fourCothreads : config.maxCothreads = 4
  threeChannels : 3 ≤ config.maxChannels
  shipped : config.backend.Shipped
  handlerNonNull : clientHandler ≠ 0#64
  argDistinct : Function.Injective arg
  stackNonNull : ∀ i < 3, stack i ≠ 0#64
  stackFits : ∀ i < 3, (stack i).toNat + 0x2000 ≤ 2 ^ 64
  stacksDisjoint : ∀ i < 3, ∀ j < 3, j ≠ i → StacksDisjoint 0x2000#64 (stack i) (stack j)
  stackApart : ∀ i < 3, ∀ place, StackBytes 0x2000#64 (stack i) place →
    ¬ Within db (nBuckets * bucketSize) place ∧ ∀ client, ¬ Within (ipc client) bucketSize place

namespace Deployment

/-- The pages of the clients in a memory. -/
def pagesOf (deployment : Deployment) (memory : Memory) : Fin 3 → Page :=
  fun client i => memory (deployment.ipc client + BitVec.ofNat 64 i)

private theorem toNat_place {first step i : Nat} (short : first + step * i < 2 ^ 64) :
    (BitVec.ofNat 64 first + BitVec.ofNat 64 (step * i)).toNat = first + step * i := by
  rw [← BitVec.ofNat_add, BitVec.toNat_ofNat, Nat.mod_eq_of_lt short]

/-- The regions of `codis.system`, with a guard page behind every page of a client. -/
def codisSystem : Deployment where
  config :=
    { maxCothreads := 4
      maxChannels := 63
      backend := Aarch64.backend 0x200000#64
      cothreadEntryWrapper := 0x200100#64
      atLeastTwo := by decide
      fitsInt := by decide }
  pages page := 0x3000 ≤ page ∧ page < 0x3000 + 0xFF1 ∨
    page ∈ [0x2004, 0x2005, 0x2007, 0x2008, 0x200a, 0x200b, 0x2011, 0x2013, 0x2015]
  db := 0x3000000#64
  ipc client := 0x2011000#64 + BitVec.ofNat 64 (0x2000 * client)
  stack i := 0x2004000#64 + BitVec.ofNat 64 (0x3000 * i)
  clientHandler := 0x200200#64
  arg client := 0x20e000#64 + BitVec.ofNat 64 (0x10 * client)
  dbFits := by decide
  dbMapped place within := by
    unfold Within nBuckets bucketSize at *
    apply decide_eq_true
    left
    bv_omega
  ipcAligned := by decide
  ipcNonNull := by decide
  ipcDistinct := by decide
  ipcMapped := by decide
  ipcGuard := by decide
  apart client place within := by
    have few := client.isLt
    unfold Within nBuckets bucketSize at *
    bv_omega
  fourCothreads := rfl
  threeChannels := by decide
  shipped := .aarch64 _
  handlerNonNull := by decide
  argDistinct := by decide
  stackNonNull := by decide
  stackFits := by decide
  stacksDisjoint i iBelow j jBelow different := by
    unfold StacksDisjoint
    rw [toNat_place (by omega), toNat_place (by omega)]
    change 0x2004000 + 0x3000 * i + 0x2000 ≤ 0x2004000 + 0x3000 * j ∨
      0x2004000 + 0x3000 * j + 0x2000 ≤ 0x2004000 + 0x3000 * i
    omega
  stackApart i below place inside := by
    obtain ⟨first, last⟩ := inside
    rw [toNat_place (by omega)] at first last
    have size : (0x2000#64).toNat = 0x2000 := rfl
    refine ⟨?_, fun client => ?_⟩
    · unfold Within nBuckets bucketSize
      bv_omega
    · have low : place.toNat < 0x200c000 := by omega
      have start := @toNat_place 0x2011000 0x2000 client (by omega)
      have high : 0x2011000 ≤ (0x2011000#64 + BitVec.ofNat 64 (0x2000 * client)).toNat := by omega
      have short : (0x2011000#64 + BitVec.ofNat 64 (0x2000 * client)).toNat < 2 ^ 63 := by omega
      generalize 0x2011000#64 + BitVec.ofNat 64 (0x2000 * client) = page at high short
      clear start first last
      unfold Within bucketSize
      bv_omega

end Deployment

/-- The argument for the cothread of a client. -/
def Setup.argOf (setup : Setup) (client : Fin 3) : Arg := ⟨client, setup.ipc client⟩

/-- The threads in `turns` run in this order, and the cothreads of the clients in
`waiting` wait for them. -/
structure Domain.Staffed (setup : Setup) (turns : List Int) (waiting : Fin 3 → Bool)
    (domain : Domain) : Prop where
  sound : World.Sound setup.config domain.world
  manned : Manned turns waiting domain.world.view
  serving : ∀ client, waiting client = true →
    domain.handlers (servant client) = .waiting (setup.argOf client)

/-- The root runs and each cothread waits for its client. The server holds the
database of the service, shares its pages and has notified its clients. -/
structure Mirrors (deployment : Deployment) (service : Service) (domain : Domain) : Prop where
  staffed : domain.Staffed deployment.toSetup [0] fun _ => true
  holds : (domain.server deployment.toSetup).Holds deployment.toLayout service.database
  pages : ∀ client, ∀ i < bucketSize,
    deployment.pagesOf domain.world.memory client i = service.pages client i
  notifications : domain.notifications = service.notifications.map Fin.val

/-- What the wait of a client's cothread leaves as it was. -/
structure Domain.Waited (client : Fin 3) (domain next : Domain) : Prop where
  memory : next.world.memory = domain.world.memory
  privateArg : next.world.view.privateArg = domain.world.view.privateArg
  handlers : ∀ other, other ≠ client →
    next.handlers (servant other) = domain.handlers (servant other)
  dataLen : next.dataLen = domain.dataLen
  frame : next.frame = domain.frame
  notifications : next.notifications = domain.notifications

variable {deployment : Deployment} {domain next : Domain} {turns rest : List Int}
  {waiting : Fin 3 → Bool} {client : Fin 3} {g : Int} {α : Type}

theorem library_eq_ok {computation : Except Fault α} {value : α} (returned : computation = .ok value) :
    library computation = .ok value := by
  rw [returned]
  rfl

theorem untilRoot_done {setup : Setup} {fuel : Nat} (root : domain.world.coController.running = 0) :
    untilRoot setup (fuel + 1) domain = .ok domain := if_pos root

theorem untilRoot_turn {setup : Setup} {fuel : Nat} (cothread : domain.world.coController.running ≠ 0)
    (turn : clientHandler setup domain = .ok next) :
    untilRoot setup (fuel + 1) domain = untilRoot setup fuel next := by
  rw [untilRoot, if_neg cothread, turn]
  rfl

theorem sparing_of_plain {config : Config} {world : World} {call : Call}
    (plain : call.semaphore = none ∧ call.destroys 0 = none) : Sparing config world call := by
  obtain ⟨noSemaphore, noDestroy⟩ := plain
  refine ⟨⟨fun sem uses => ?_, ?_⟩, ?_, fun cothread _ destroys => ?_⟩
  · rw [noSemaphore] at uses
    cases uses
  · rintro rfl
    cases noDestroy
  · rintro rfl
    cases noDestroy
  · rw [destroys] at noDestroy
    cases noDestroy

namespace Domain.Staffed

theorem channel_live (deployment : Deployment) (client : Fin 3) :
    (client : Nat) < deployment.config.maxChannels :=
  lt_of_lt_of_le client.isLt deployment.threeChannels

theorem running (staffed : domain.Staffed deployment.toSetup (g :: rest) waiting) :
    domain.world.coController.running = g := staffed.manned.running

/-- A cothread waits for its client, and the next thread runs. -/
theorem waitOnChannel
    (staffed : domain.Staffed deployment.toSetup (servant client :: g :: rest) waiting)
    (away : waiting client = false) :
    ∃ next, domain.waitOnChannel deployment.toSetup (deployment.argOf client) = .ok next ∧
      next.Staffed deployment.toSetup (g :: rest) (Function.update waiting client true) ∧
      Domain.Waited client domain next := by
  have sound := staffed.sound
  have live := channel_live deployment client
  obtain ⟨sched, waits, manned, memory, privateArg⟩ :=
    staffed.manned.wait sound.sound sound.contexts live away
  have listed : domain.world.view.step deployment.config (.waitOnChannel client) =
      .ok (.unit, sched) := by
    rw [Sched.step, if_neg (Nat.not_le_of_lt live), waits]
    rfl
  obtain ⟨world, returned, rfl, soundAfter⟩ :=
    sound.realise_returning (sparing_of_plain ⟨rfl, rfl⟩) rfl listed
  refine ⟨{ domain.setHandler (servant client) (.waiting (deployment.argOf client)) with
      world := world }, ?_, ⟨soundAfter, manned, fun other sleeps => ?_⟩,
    ⟨memory, privateArg, fun other different => ?_, rfl, rfl, rfl⟩⟩
  · rw [Domain.waitOnChannel, staffed.running, Setup.argOf, library_eq_ok returned]
    rfl
  · change Function.update domain.handlers (servant client) _ (servant other) = _
    by_cases same : other = client
    · rw [same, Function.update_self]
    · rw [Function.update_of_ne same] at sleeps
      rw [Function.update_of_ne (servant_injective.ne same)]
      exact staffed.serving other sleeps
  · exact Function.update_of_ne (servant_injective.ne different) _ _

end Domain.Staffed

end Libmicrokitco.Codis
