import Libmicrokitco.Codis.Staff

/-!
# One request

What the body of `client_handler` does to the memory of the server, for every
page that a client can send, also for those that are no request.
-/

namespace Libmicrokitco

open Codis CString

variable {layout : Layout} {database : Database} {server : Server}

/-- What a client and everybody else sees of a request. -/
structure Executed (layout : Layout) (client : Fin 3) (database : Database) (server : Server)
    (request : Request) (next : Server) : Prop where
  holds : next.Holds layout (database.serve request).1
  reply : ∀ i < bucketSize, next.page (layout.ipc client) i =
    (server.page (layout.ipc client)).replied (database.serve request).2 i
  untouched : ∀ place, ¬ Within (layout.ipc client) bucketSize place →
    (∀ bucket, request.changes = some bucket → ¬ Within (layout.bucketAt bucket) bucketSize place) →
    next.space.bytes place = server.space.bytes place

/-- The server executes a request if the page holds one whose bucket exists and
whose input ends, or is too long for the bucket anyway. It then changes the
database and the page as prescribed and no other byte. Otherwise it uses memory
that is not there. -/
theorem codis_executes_requests (holds : server.Holds layout database) (client : Fin 3) :
    Meets (Executed layout client database server) Mishap.Stray
      (database.request? (server.page (layout.ipc client)))
      (handleRequest layout.db (layout.ipc client) server) := by
  apply (handleRequest_meets holds client).mono
  intro request next serves
  exact ⟨serves.holds, fun i below => serves.replied below, fun place => serves.untouched⟩

/-- The first client asks to delete the first bucket. -/
def sampleServer : Server where
  space := ⟨Deployment.codisSystem.pages, fun place => if place = 0x2011000#64 then 2#8 else 0#8⟩
  dataLen := fun _ => 0

theorem codis_executes_requests_sample : ∃ next,
    handleRequest Deployment.codisSystem.db (Deployment.codisSystem.ipc 0) sampleServer = .ok next ∧
      next.page (Deployment.codisSystem.ipc 0) 0 = 1#8 := by
  have holds : sampleServer.Holds Deployment.codisSystem.toLayout fun _ => .empty := by
    refine ⟨rfl, fun bucket => ⟨fun i le => ?_, Text.empty.nonzero, ?_⟩, fun bucket => rfl⟩
    · obtain rfl := Nat.le_zero.mp le
      refine if_neg fun inPage => ?_
      have within : Within (Deployment.codisSystem.bucketAt bucket) bucketSize
          (Deployment.codisSystem.bucketAt bucket + BitVec.ofNat 64 0) :=
        within_add (by decide) (by decide)
      apply @Layout.bucket_apart Deployment.codisSystem.toLayout 0 bucket _ within
      rw [inPage]
      decide
    · exact (Deployment.codisSystem.bucketAt bucket).isLt
  have meets := codis_executes_requests holds 0
  have request : Database.request? (fun _ => .empty)
      (sampleServer.page (Deployment.codisSystem.ipc 0)) = some (.delete ⟨0, by decide⟩) := rfl
  change Meets _ _ (Database.request? _ (sampleServer.page (Deployment.codisSystem.ipc 0))) _ at meets
  rw [request] at meets
  cases handled : handleRequest Deployment.codisSystem.toLayout.db
      (Deployment.codisSystem.toLayout.ipc 0) sampleServer with
  | error mishap =>
    rw [handled] at meets
    cases meets
  | ok next =>
    rw [handled] at meets
    cases meets with
    | defined executed => exact ⟨next, rfl, executed.reply 0 (by decide)⟩

end Libmicrokitco
