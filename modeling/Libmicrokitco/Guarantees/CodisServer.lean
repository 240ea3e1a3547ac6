import Libmicrokitco.Codis.Booting
import Libmicrokitco.Codis.Serving

/-!
# The example server is a database

From the start of the protection domain on, through the library and whatever its
clients write and whenever they notify it, the server does what the database
prescribes, until a client sends a request that the code does not check for.
-/

namespace Libmicrokitco

open Codis

/-- `init` never fails. From then on the server does on every sequence of events
what the service does, answers every notification once, and fails only by an
access to memory that is not there, at the first request that is not one or
whose input does not end. -/
theorem codis_server_serves (deployment : Deployment) (clientSems : Nat → CothreadSem)
    (memory : Memory) :
    ∃ booted, Codis.init deployment.toSetup clientSems memory = .ok booted ∧
      ∀ events : List Event, Meets (Mirrors deployment) Mishap.Stray
        (events.foldlM Service.receive (.opened (deployment.pagesOf memory)))
        (events.foldlM (Domain.receive deployment.toSetup) booted) := by
  obtain ⟨booted, boots, mirrors⟩ := init_mirrors deployment clientSems memory
  exact ⟨booted, boots, Meets.run (fun mirrors => mirrors.receive) mirrors⟩

/-- The request in a page that starts with `bytes`. -/
def requestPage (bytes : List (BitVec 8)) : Page := fun i => bytes.getD i 0#8

/-- One client appends to a bucket, and another reads it. -/
def sampleEvents (writer reader : Fin 3) : List Event :=
  [.written writer (requestPage [1#8, 7#8, 0x68#8, 0x69#8]), .notified writer,
    .written reader (requestPage [0#8, 7#8]), .notified reader]

theorem codis_server_serves_sample : ∃ booted final,
    Codis.init Deployment.codisSystem.toSetup (fun _ => .zeroed) (fun _ => 0xff#8) = .ok booted ∧
      (sampleEvents 1 0).foldlM (Domain.receive Deployment.codisSystem.toSetup) booted = .ok final ∧
      final.notifications = [1, 0] ∧ final.world.memory 0x2011000#64 = 0x68#8 ∧
      final.world.memory 0x2011001#64 = 0x69#8 ∧ final.world.memory 0x2011002#64 = 0#8 := by
  obtain ⟨booted, boots, meets⟩ := codis_server_serves Deployment.codisSystem (fun _ => .zeroed)
    (fun _ => 0xff#8)
  have run : ((sampleEvents 1 0).foldlM Service.receive
      (.opened (Deployment.codisSystem.pagesOf fun _ => 0xff#8))).map
        (fun service => (service.notifications, service.pages 0 0, service.pages 0 1, service.pages 0 2)) =
      some ([1, 0], 0x68#8, 0x69#8, 0#8) := by
    decide +kernel
  obtain ⟨service, served, seen⟩ := Option.map_eq_some_iff.mp run
  have after := meets (sampleEvents 1 0)
  rw [served] at after
  generalize received :
    (sampleEvents 1 0).foldlM (Domain.receive Deployment.codisSystem.toSetup) booted = outcome at after
  cases after with
  | @defined _ final mirrors =>
    simp only [Prod.mk.injEq] at seen
    obtain ⟨notified, first, second, third⟩ := seen
    refine ⟨booted, final, boots, received, ?_, ?_, ?_, ?_⟩
    · rw [mirrors.notifications, notified]
      rfl
    · exact (mirrors.pages 0 0 (by decide)).trans first
    · exact (mirrors.pages 0 1 (by decide)).trans second
    · exact (mirrors.pages 0 2 (by decide)).trans third

end Libmicrokitco
