import Libmicrokitco.Codis.Copying
import Libmicrokitco.Codis.Server
import Libmicrokitco.Semantics.Partiality

/-!
# The server is the database

A request that the server executes does to the buckets, and writes to the page of
its client, what the database prescribes, and changes no other memory.
-/

namespace Libmicrokitco.Codis

open CString

/-- The memory of the server as the system description lays it out: the buckets,
and a page for each client with nothing mapped behind it. -/
structure Layout where
  db : Address
  ipc : Fin 3 → Address
  pages : Nat → Bool
  dbFits : db.toNat + nBuckets * bucketSize ≤ 2 ^ 64
  dbMapped : ∀ place, Within db (nBuckets * bucketSize) place → pages (place.toNat / bucketSize) = true
  ipcAligned : ∀ client, (ipc client).toNat % bucketSize = 0
  ipcNonNull : ∀ client, ipc client ≠ 0#64
  ipcDistinct : Function.Injective ipc
  ipcMapped : ∀ client, pages ((ipc client).toNat / bucketSize) = true
  ipcGuard : ∀ client, pages ((ipc client + BitVec.ofNat 64 bucketSize).toNat / bucketSize) = false
  apart : ∀ client place, Within (ipc client) bucketSize place →
    ¬ Within db (nBuckets * bucketSize) place

namespace Layout

variable {layout : Layout} {client : Fin 3} {bucket other : Fin nBuckets} {place : Address}

def bucketAt (layout : Layout) (bucket : Fin nBuckets) : Address := bucketToDbVaddr layout.db bucket

theorem bucketToDbVaddr_eq : bucketToDbVaddr layout.db bucket = layout.bucketAt bucket := rfl

theorem toNat_bucketAt (layout : Layout) (bucket : Fin nBuckets) :
    (layout.bucketAt bucket).toNat = layout.db.toNat + bucket * bucketSize := by
  have fits := layout.dbFits
  have bounded := bucket.isLt
  unfold bucketAt bucketToDbVaddr
  unfold nBuckets bucketSize at *
  bv_omega

/-- A bucket is part of the database. -/
theorem within_db (within : Within (layout.bucketAt bucket) bucketSize place) :
    Within layout.db (nBuckets * bucketSize) place := by
  have fits := layout.dbFits
  have bounded := bucket.isLt
  have start := layout.toNat_bucketAt bucket
  unfold Within nBuckets bucketSize at *
  bv_omega

theorem buckets_apart (different : other ≠ bucket)
    (within : Within (layout.bucketAt bucket) bucketSize place) :
    ¬ Within (layout.bucketAt other) bucketSize place := by
  have fits := layout.dbFits
  have bounded := bucket.isLt
  have boundedOther := other.isLt
  have start := layout.toNat_bucketAt bucket
  have startOther := layout.toNat_bucketAt other
  have notEqual : (other : Nat) ≠ bucket := fun same => different (Fin.ext same)
  unfold Within nBuckets bucketSize at *
  bv_omega

/-- A page does not reach the end of the address space. -/
theorem ipc_fits (layout : Layout) (client : Fin 3) :
    (layout.ipc client).toNat + bucketSize ≤ 2 ^ 64 := by
  have aligned := layout.ipcAligned client
  unfold bucketSize at *
  omega

theorem ipc_page (within : Within (layout.ipc client) bucketSize place) :
    place.toNat / bucketSize = (layout.ipc client).toNat / bucketSize := by
  have aligned := layout.ipcAligned client
  unfold Within bucketSize at *
  bv_omega

/-- The pages of two clients share no place. -/
theorem ipcs_apart {another : Fin 3} (different : another ≠ client)
    (within : Within (layout.ipc client) bucketSize place) :
    ¬ Within (layout.ipc another) bucketSize place := by
  intro withinToo
  apply different
  apply layout.ipcDistinct
  have samePage := (ipc_page withinToo).symm.trans (ipc_page within)
  have aligned := layout.ipcAligned client
  have alignedToo := layout.ipcAligned another
  apply BitVec.eq_of_toNat_eq
  unfold bucketSize at *
  omega

end Layout

/-- The server holds a database. -/
structure Server.Holds (layout : Layout) (database : Database) (server : Server) : Prop where
  pages : server.space.pages = layout.pages
  texts : ∀ bucket, StringAt server.space.bytes (layout.bucketAt bucket) (database bucket).chars
  lengths : ∀ bucket : Fin nBuckets, server.dataLen bucket = (database bucket).length

/-- The page of a client as the server sees it. -/
def Server.page (server : Server) (ipc : Address) : Page :=
  fun i => server.space.bytes (ipc + BitVec.ofNat 64 i)

variable {layout : Layout} {client : Fin 3} {bucket : Fin nBuckets} {database : Database}
  {server next : Server} {text : Text}

/-- A text and its terminator fit into a bucket. -/
theorem Text.within (text : Text) {start place : Address}
    (within : Within start (text.chars.length + 1) place) : Within start bucketSize place :=
  lt_of_lt_of_le within text.fits

namespace Server.Holds

theorem mapsIpc (holds : server.Holds layout database) (client : Fin 3) :
    server.space.Maps (layout.ipc client) bucketSize := by
  intro place within
  have page := Layout.ipc_page within
  unfold AddressSpace.mapped
  rw [holds.pages]
  exact page ▸ layout.ipcMapped client

theorem mapsBucket (holds : server.Holds layout database) (bucket : Fin nBuckets) :
    server.space.Maps (layout.bucketAt bucket) bucketSize := by
  intro place within
  unfold AddressSpace.mapped
  rw [holds.pages]
  exact layout.dbMapped place (Layout.within_db within)

/-- Memory outside the buckets may change. -/
theorem congr (holds : server.Holds layout database) (pages : next.space.pages = server.space.pages)
    (lengths : next.dataLen = server.dataLen)
    (same : ∀ place, Within layout.db (nBuckets * bucketSize) place →
      next.space.bytes place = server.space.bytes place) : next.Holds layout database := by
  refine ⟨pages.trans holds.pages, fun bucket => ?_, fun bucket => ?_⟩
  · refine (holds.texts bucket).congr fun place within => same place ?_
    exact @Layout.within_db layout bucket place (Text.within _ within)
  · rw [lengths, holds.lengths bucket]

/-- One bucket gets another text. -/
theorem update (holds : server.Holds layout database) (pages : next.space.pages = server.space.pages)
    (lengths : next.dataLen = Function.update server.dataLen bucket text.length)
    (string : StringAt next.space.bytes (layout.bucketAt bucket) text.chars)
    (same : ∀ place, Within layout.db (nBuckets * bucketSize) place →
      ¬ Within (layout.bucketAt bucket) bucketSize place →
      next.space.bytes place = server.space.bytes place) :
    next.Holds layout (Function.update database bucket text) := by
  refine ⟨pages.trans holds.pages, fun other => ?_, fun other => ?_⟩
  · by_cases isBucket : other = bucket
    · subst isBucket
      rwa [Function.update_self]
    · rw [Function.update_of_ne isBucket]
      refine (holds.texts other).congr fun place within => ?_
      have inBucket : Within (layout.bucketAt other) bucketSize place := Text.within _ within
      exact same place (Layout.within_db inBucket) (Layout.buckets_apart (Ne.symm isBucket) inBucket)
  · by_cases isBucket : other = bucket
    · subst isBucket
      rw [lengths, Function.update_self, Function.update_self]
    · have different : (other : Nat) ≠ bucket := fun equal => isBucket (Fin.ext equal)
      rw [lengths, Function.update_of_ne different, Function.update_of_ne isBucket, holds.lengths other]

end Server.Holds

/-- An access to memory that is not there. -/
inductive Mishap.Stray : Mishap → Prop where
  | vmFault (place : Address) : Stray (.vmFault place)
  | outOfBounds (index : Nat) : Stray (.outOfBounds index)

/-- What a request does to the server. -/
structure Serves (layout : Layout) (client : Fin 3) (database : Database) (request : Request)
    (server next : Server) : Prop where
  holds : next.Holds layout (database.serve request).1
  elsewhere : ∀ place,
    (∀ bucket, request.changes = some bucket → ¬ Within (layout.bucketAt bucket) bucketSize place) →
    next.space.bytes place =
      storeBytes (layout.ipc client) (database.serve request).2.bytes server.space.bytes place

/-- A reply fits into the page. -/
theorem Reply.within (reply : Reply) {start place : Address}
    (within : Within start reply.bytes.length place) : Within start bucketSize place := by
  cases reply with
  | contents text =>
    rw [Reply.bytes, List.length_append, List.length_singleton] at within
    exact text.within within
  | newLength length => exact lt_of_lt_of_le within (by simp [Reply.bytes, halfword, bucketSize])
  | deleted => exact lt_of_lt_of_le within (by simp [Reply.bytes, halfword, bucketSize])
  | none => exact lt_of_lt_of_le within (by simp [Reply.bytes, bucketSize])

/-- The server with a reply in the page of a client. -/
def Server.replied (server : Server) (ipc : Address) (reply : Reply) : Server :=
  { server with space := { server.space with
      bytes := storeBytes ipc reply.bytes server.space.bytes } }

/-- A reply changes no bucket. -/
theorem Server.Holds.replied (holds : server.Holds layout database) (client : Fin 3) (reply : Reply) :
    (server.replied (layout.ipc client) reply).Holds layout database := by
  refine holds.congr rfl rfl fun place inDb => ?_
  refine storeBytes_of_outside fun within => ?_
  exact layout.apart client place (reply.within within) inDb

/-- The buckets first, then the reply. -/
theorem Server.Holds.serves {request : Request} (holds : next.Holds layout (database.serve request).1)
    (client : Fin 3) (same : ∀ place,
      (∀ bucket, request.changes = some bucket → ¬ Within (layout.bucketAt bucket) bucketSize place) →
      next.space.bytes place = server.space.bytes place) :
    Serves layout client database request server
      (next.replied (layout.ipc client) (database.serve request).2) := by
  refine ⟨holds.replied client _, fun place outside => ?_⟩
  change storeBytes _ _ next.space.bytes place = storeBytes _ _ server.space.bytes place
  unfold storeBytes
  rw [same place outside]

theorem Server.setRetval_mapped (maps : server.space.Maps (layout.ipc client) bucketSize) (value : Nat) :
    server.setRetval (layout.ipc client) value =
      .ok (server.replied (layout.ipc client) (.newLength value)) := by
  have first : Within (layout.ipc client) bucketSize (layout.ipc client) := by
    unfold Within bucketSize
    bv_omega
  have second : Within (layout.ipc client) bucketSize (layout.ipc client + 1#64) := by
    unfold Within bucketSize
    bv_omega
  have quotient : BitVec.ofInt 8 ((value : Int) / 256) = BitVec.ofNat 8 (value / 256) := by
    rw [← BitVec.ofInt_natCast]
    rfl
  have mapped : ∀ bytes, AddressSpace.mapped ⟨server.space.pages, bytes⟩ (layout.ipc client + 1#64) :=
    fun _ => maps _ second
  rw [Server.setRetval, AddressSpace.store_of_mapped (maps _ first)]
  simp only [bind, Except.bind]
  rw [AddressSpace.store_of_mapped (mapped _), Server.replied, Reply.bytes, halfword,
    storeBytes_cons (by simp), storeBytes_cons (by simp), storeBytes_nil, quotient,
    BitVec.ofInt_natCast]
  rfl

theorem Server.lengthOf_bucket (holds : server.Holds layout database) (bucket : Fin nBuckets) :
    server.lengthOf bucket = .ok ((database bucket).length : Int) := by
  rw [Server.lengthOf, if_pos bucket.isLt, holds.lengths bucket]

/-- The string in a bucket does not overlap the page of a client. -/
theorem Layout.bucket_apart {place : Address} (within : Within (layout.bucketAt bucket) bucketSize place) :
    ¬ Within (layout.ipc client) bucketSize place :=
  fun inIpc => layout.apart client place inIpc (Layout.within_db within)

namespace Serves

variable {request : Request}

/-- The client finds the reply at the start of its page, and the rest as it was. -/
theorem replied (serves : Serves layout client database request server next) {i : Nat}
    (below : i < bucketSize) : next.page (layout.ipc client) i =
      (server.page (layout.ipc client)).replied (database.serve request).2 i := by
  have within : Within (layout.ipc client) bucketSize (layout.ipc client + BitVec.ofNat 64 i) :=
    within_add below (by decide)
  rw [Server.page, serves.elsewhere _ fun bucket _ inBucket => Layout.bucket_apart inBucket within,
    storeBytes, toNat_add_ofNat_sub (below.trans (by decide))]
  rfl

/-- Nobody else finds anything changed. -/
theorem untouched (serves : Serves layout client database request server next) {place : Address}
    (notInPage : ¬ Within (layout.ipc client) bucketSize place)
    (notInBucket : ∀ bucket, request.changes = some bucket →
      ¬ Within (layout.bucketAt bucket) bucketSize place) :
    next.space.bytes place = server.space.bytes place := by
  rw [serves.elsewhere place notInBucket]
  exact storeBytes_of_outside fun inReply => notInPage (Reply.within _ inReply)

end Serves

theorem readRequest_serves (holds : server.Holds layout database) :
    ∃ next, readRequest layout.db (layout.ipc client) bucket server = .ok next ∧
      Serves layout client database (.read bucket) server next := by
  have copied : strncpy (layout.ipc client) (layout.bucketAt bucket)
      (BitVec.ofInt 64 ((database bucket).length + 1)) server.space = .ok { server.space with
        bytes := storeBytes (layout.ipc client) ((database bucket).chars ++ [0#8])
          server.space.bytes } := by
    refine strncpy_string (holds.texts bucket) (fun place within => ?_) (fun place within => ?_)
      (fun place inBucket inIpc => ?_) ?_
    · exact holds.mapsBucket bucket place (Text.within _ within)
    · exact holds.mapsIpc client place (Text.within _ within)
    · exact Layout.bucket_apart (Text.within _ inBucket) (Text.within _ inIpc)
    · have fits : (database bucket).length < bucketSize := (database bucket).fits
      have value : BitVec.ofInt 64 ((database bucket).length + 1) =
          BitVec.ofNat 64 ((database bucket).length + 1) := by
        rw [← BitVec.ofInt_natCast]
        rfl
      unfold bucketSize at fits
      rw [value]
      bv_omega
  refine ⟨_, ?_, Server.Holds.serves holds client fun _ _ => rfl⟩
  rw [readRequest, Server.lengthOf_bucket holds]
  simp only [bind, Except.bind]
  rw [Layout.bucketToDbVaddr_eq, copied]
  rfl

theorem deleteRequest_serves (holds : server.Holds layout database) :
    ∃ next, deleteRequest layout.db (layout.ipc client) bucket server = .ok next ∧
      Serves layout client database (.delete bucket) server next := by
  have within : Within (layout.bucketAt bucket) bucketSize (layout.bucketAt bucket) := by
    unfold Within bucketSize
    bv_omega
  obtain ⟨emptied, isEmptied⟩ : ∃ emptied : Server, emptied =
      { space := { server.space with
          bytes := Function.update server.space.bytes (layout.bucketAt bucket) 0#8 }
        dataLen := Function.update server.dataLen bucket 0 } := ⟨_, rfl⟩
  have bytes : emptied.space.bytes =
      Function.update server.space.bytes (layout.bucketAt bucket) 0#8 := by rw [isEmptied]
  have holdsAfter : emptied.Holds layout (Function.update database bucket .empty) := by
    refine holds.update (by rw [isEmptied]) (by rw [isEmptied]; rfl) ?_ fun place _ outside => ?_
    · have bounded := layout.toNat_bucketAt bucket
      refine ⟨fun i le => ?_, Text.empty.nonzero, (layout.bucketAt bucket).isLt⟩
      obtain rfl : i = 0 := Nat.le_zero.mp le
      rw [bytes, BitVec.add_zero, Function.update_self]
      rfl
    · rw [bytes, Function.update_of_ne]
      rintro rfl
      exact outside within
  refine ⟨_, ?_, Server.Holds.serves holdsAfter client fun place outside => ?_⟩
  · rw [deleteRequest, Server.setLength, if_pos bucket.isLt]
    simp only [bind, Except.bind]
    rw [Layout.bucketToDbVaddr_eq,
      AddressSpace.store_of_mapped (holds.mapsBucket bucket _ within)]
    simp only
    rw [← isEmptied]
    exact Server.setRetval_mapped (holdsAfter.mapsIpc client) 1
  · rw [bytes, Function.update_of_ne]
    rintro rfl
    exact outside bucket rfl within

/-- The search of the server for the end of its input. -/
theorem strnlen_payload (holds : server.Holds layout database) (client : Fin 3) :
    strnlen server.space (layout.ipc client + 2#64) (BitVec.ofNat 64 appendCmdMaxPayloadLen) =
        .ok (BitVec.ofNat 64 (server.page (layout.ipc client)).input.length) ∧
      ((server.page (layout.ipc client)).input.length < appendCmdMaxPayloadLen →
        StringAt server.space.bytes (layout.ipc client + 2#64)
          (server.page (layout.ipc client)).input.chars) := by
  have fits := layout.ipc_fits client
  have aligned := layout.ipcAligned client
  have start : (layout.ipc client + 2#64).toNat = (layout.ipc client).toNat + 2 := by
    unfold bucketSize at fits
    bv_omega
  have offset : ∀ i, layout.ipc client + BitVec.ofNat 64 (2 + i) =
      layout.ipc client + 2#64 + BitVec.ofNat 64 i := by
    intro i
    rw [BitVec.ofNat_add, ← BitVec.add_assoc]
  have maps : server.space.Maps (layout.ipc client + 2#64) appendCmdMaxPayloadLen := by
    intro place within
    apply holds.mapsIpc client
    unfold Within appendCmdMaxPayloadLen bucketSize at *
    bv_omega
  have nonNull : layout.ipc client + 2#64 ≠ 0#64 := by
    intro isNull
    rw [isNull] at start
    simp at start
  obtain ⟨k, passed, ends, result⟩ := strnlen_passed maps (by decide) nonNull
    (by unfold appendCmdMaxPayloadLen bucketSize at *; omega)
  have payload : (server.page (layout.ipc client)).payload =
      (List.range k).map fun i => server.page (layout.ipc client) (2 + i) := by
    apply Page.payload_of_search passed.within
    · intro i below
      rw [Server.page, offset]
      exact passed.absent i below
    · refine ends.imp id fun isZero => ?_
      rw [Server.page, offset]
      exact isZero
  have isLength : (server.page (layout.ipc client)).input.chars.length = k := by
    rw [Page.chars_input, payload, List.length_map, List.length_range]
  rw [Text.length, isLength]
  refine ⟨result, fun terminated => ?_⟩
  refine ⟨fun i le => ?_, (server.page (layout.ipc client)).input.nonzero, ?_⟩
  · rw [isLength] at le
    rcases Nat.lt_or_eq_of_le le with below | rfl
    · rw [List.getD_eq_getElem _ _ (by omega)]
      simp only [Page.chars_input, payload, List.getElem_map, List.getElem_range, Server.page, offset]
    · rw [List.getD_eq_default _ _ isLength.le]
      exact ends.resolve_left terminated.ne
  · rw [isLength]
    unfold appendCmdMaxPayloadLen bucketSize at *
    omega

/-- The server with `input` behind the text in a bucket. -/
def Server.extended (server : Server) (layout : Layout) (bucket : Fin nBuckets) (text input : Text) :
    Server where
  space := { server.space with
    bytes := storeBytes (layout.bucketAt bucket + BitVec.ofNat 64 text.chars.length)
      (input.chars ++ [0#8]) server.space.bytes }
  dataLen := Function.update server.dataLen bucket (text.length + input.length)

section Extended

variable {input both : Text} (appended : (database bucket).append? input = some both)

include appended

theorem Server.extended_of_outside {place : Address}
    (outside : ¬ Within (layout.bucketAt bucket) bucketSize place) :
    (server.extended layout bucket (database bucket) input).space.bytes place =
      server.space.bytes place := by
  refine storeBytes_of_outside fun within => outside ?_
  rw [List.length_append, List.length_singleton] at within
  have length := Text.length_of_append? appended
  have fits := both.fits
  have start := layout.toNat_bucketAt bucket
  unfold Within Text.length bucketSize at *
  bv_omega

theorem Server.Holds.extended (holds : server.Holds layout database) :
    (server.extended layout bucket (database bucket) input).Holds layout
      (Function.update database bucket both) := by
  refine holds.update rfl ?_ ?_ fun place _ outside => extended_of_outside appended outside
  · rw [Text.length_of_append? appended, Nat.cast_add]
    rfl
  · have length := Text.length_of_append? appended
    have fits := both.fits
    have start := layout.toNat_bucketAt bucket
    have fitsDb := layout.dbFits
    have bounded := bucket.isLt
    rw [Text.chars_of_append? appended]
    apply (holds.texts bucket).append input.nonzero
    rw [List.length_append]
    unfold Text.length nBuckets bucketSize at *
    omega

end Extended

/-- Both the input and its end are copied within the page and within the bucket. -/
theorem strcat_input {input both : Text} (holds : server.Holds layout database)
    (appended : (database bucket).append? input = some both)
    (string : StringAt server.space.bytes (layout.ipc client + 2#64) input.chars)
    (ends : input.length < appendCmdMaxPayloadLen) :
    strcat (layout.bucketAt bucket) (layout.ipc client + 2#64) server.space =
      .ok (server.extended layout bucket (database bucket) input).space := by
  have room : (database bucket).length + input.length < bucketSize :=
    Text.length_of_append? appended ▸ both.fits
  have inPage : ∀ place, Within (layout.ipc client + 2#64) (input.chars.length + 1) place →
      Within (layout.ipc client) bucketSize place := by
    intro place within
    unfold Within Text.length appendCmdMaxPayloadLen bucketSize at *
    bv_omega
  have inBucket : ∀ place, Within (layout.bucketAt bucket)
      ((database bucket).chars.length + input.chars.length + 1) place →
      Within (layout.bucketAt bucket) bucketSize place :=
    fun place within => lt_of_lt_of_le within room
  apply strcat_string (holds.texts bucket) string
  · exact fun place within => holds.mapsIpc client place (inPage place within)
  · exact fun place within => holds.mapsBucket bucket place (inBucket place within)
  · exact fun place inSource inDest =>
      Layout.bucket_apart (inBucket place inDest) (inPage place inSource)

theorem appendRequest_serves (holds : server.Holds layout database)
    (digestible : (Request.append bucket (server.page (layout.ipc client)).input).Digestible database) :
    ∃ next, appendRequest layout.db (layout.ipc client) bucket server = .ok next ∧
      Serves layout client database (.append bucket (server.page (layout.ipc client)).input) server
        next := by
  obtain ⟨measured, terminated⟩ := strnlen_payload holds client
  generalize (server.page (layout.ipc client)).input = input at *
  have lengthNat : (BitVec.ofNat 64 input.length).toNat = input.length := by
    have short : input.length < bucketSize := input.fits
    rw [BitVec.toNat_ofNat, Nat.mod_eq_of_lt (short.trans (by decide))]
  rw [appendRequest, measured]
  simp only [bind, Except.bind, Server.lengthOf_bucket holds, lengthNat]
  cases appended : (database bucket).append? input with
  | some both =>
    have length := Text.length_of_append? appended
    have fits : both.length < bucketSize := both.fits
    have ends : input.length < appendCmdMaxPayloadLen := by
      rcases digestible with ends | long
      · exact ends
      · unfold appendCmdMaxPayloadLen
        omega
    have served : database.serve (.append bucket input) =
        (Function.update database bucket both, .newLength both.length) := by
      rw [Database.serve, appended]
    have holdsAfter : (server.extended layout bucket (database bucket) input).Holds layout
        (database.serve (.append bucket input)).1 := by
      rw [served]
      exact holds.extended appended
    have serves := Server.Holds.serves holdsAfter client fun place outside =>
      Server.extended_of_outside appended (outside bucket rfl)
    rw [served] at serves
    refine ⟨_, ?_, serves⟩
    rw [if_neg (by omega), Layout.bucketToDbVaddr_eq,
      strcat_input holds appended (terminated ends) ends]
    simp only [Server.setLength, if_pos bucket.isLt]
    rw [← Server.setRetval_mapped (holdsAfter.mapsIpc client), length, Nat.cast_add]
    rfl
  | none =>
    have long := Text.append?_eq_none.mp appended
    have served : database.serve (.append bucket input) = (database, .newLength 0) := by
      rw [Database.serve, appended]
    have holdsAfter : server.Holds layout (database.serve (.append bucket input)).1 := by
      rwa [served]
    have serves := Server.Holds.serves holdsAfter client fun _ _ => rfl
    rw [served] at serves
    refine ⟨_, ?_, serves⟩
    rw [if_pos (by omega)]
    exact Server.setRetval_mapped (holds.mapsIpc client) 0

/-- An input without an end is copied out of the page of its client. -/
theorem appendRequest_fails (holds : server.Holds layout database)
    (indigestible : ¬ (Request.append bucket (server.page (layout.ipc client)).input).Digestible
      database) :
    ∃ place, appendRequest layout.db (layout.ipc client) bucket server = .error (.vmFault place) := by
  obtain ⟨measured, -⟩ := strnlen_payload holds client
  obtain ⟨full, few⟩ := not_or.mp indigestible
  have most : (server.page (layout.ipc client)).input.length ≤ appendCmdMaxPayloadLen := by
    rw [Text.length, Page.chars_input]
    exact (server.page (layout.ipc client)).length_payload_le
  have isFull : (server.page (layout.ipc client)).input.length = appendCmdMaxPayloadLen := by omega
  have lengthNat : (BitVec.ofNat 64 appendCmdMaxPayloadLen).toNat = appendCmdMaxPayloadLen := rfl
  have accepted : ¬ ((database bucket).length : Int) + appendCmdMaxPayloadLen + 1 > bucketSize := by
    unfold appendCmdMaxPayloadLen bucketSize
    omega
  have fits := layout.ipc_fits client
  have offset : ∀ i, layout.ipc client + 2#64 + BitVec.ofNat 64 i =
      layout.ipc client + BitVec.ofNat 64 (2 + i) := by
    intro i
    rw [BitVec.ofNat_add, ← BitVec.add_assoc]
  have measuredToo : strlen server.space (layout.bucketAt bucket) =
      .ok (BitVec.ofNat 64 (database bucket).chars.length) :=
    strlen_ends <| .of_string (holds.texts bucket) fun place within =>
      holds.mapsBucket bucket place (Text.within _ within)
  obtain ⟨place, runsOut⟩ := @strcpyLoop_unterminated server.space
    (layout.bucketAt bucket + BitVec.ofNat 64 (database bucket).chars.length)
    (layout.ipc client + 2#64) everywhere appendCmdMaxPayloadLen
    (fun i below => by
      rw [offset]
      exact Page.ne_zero_of_full full below)
    (by
      rw [offset]
      unfold AddressSpace.mapped
      rw [holds.pages]
      exact layout.ipcGuard client)
    (by decide)
    (fun place inSource inDest => by
      refine layout.apart client place ?_ (@Layout.within_db layout bucket place ?_)
      · unfold Within appendCmdMaxPayloadLen bucketSize at *
        bv_omega
      · have start := layout.toNat_bucketAt bucket
        unfold Within Text.length appendCmdMaxPayloadLen bucketSize at *
        bv_omega)
    (by unfold everywhere appendCmdMaxPayloadLen bucketSize; omega)
  refine ⟨place, ?_⟩
  rw [appendRequest, measured, isFull]
  simp only [bind, Except.bind, Server.lengthOf_bucket holds, lengthNat]
  rw [if_neg accepted, strcat, Layout.bucketToDbVaddr_eq,
    measuredToo]
  simp only [bind, Except.bind]
  rw [strcpy, runsOut]

section Dispatch

variable {request : Request}

/-- The command and the bucket in the page. -/
theorem handleRequest_eq (holds : server.Holds layout database) (client : Fin 3) :
    handleRequest layout.db (layout.ipc client) server =
      let page := server.page (layout.ipc client)
      if page 0 = 0#8 then readRequest layout.db (layout.ipc client) (page 1).toNat server
      else if page 0 = 1#8 then appendRequest layout.db (layout.ipc client) (page 1).toNat server
      else if page 0 = 2#8 then deleteRequest layout.db (layout.ipc client) (page 1).toNat server
      else .ok server := by
  have loads := fun i below => (holds.mapsIpc client).load (i := i) below (by decide)
  have command := loads 0 (by decide)
  have bucket := loads 1 (by decide)
  rw [BitVec.add_zero] at command
  have first : server.page (layout.ipc client) 0 = server.space.bytes (layout.ipc client) := by
    rw [Server.page, BitVec.add_zero]
  rw [handleRequest, command, show layout.ipc client + 1#64 = layout.ipc client + BitVec.ofNat 64 1 from rfl,
    bucket]
  simp only [bind, Except.bind, first]
  rfl

/-- A request that the server can execute has the effect that the database
prescribes. -/
theorem handleRequest_serves (holds : server.Holds layout database)
    (isRequest : Request.ofPage (server.page (layout.ipc client)) = some request)
    (digestible : request.Digestible database) :
    ∃ next, handleRequest layout.db (layout.ipc client) server = .ok next ∧
      Serves layout client database request server next := by
  rw [handleRequest_eq holds]
  unfold Request.ofPage at isRequest
  simp only
  split at isRequest
  · rename_i isRead
    obtain ⟨bucket, named, rfl⟩ := Option.map_eq_some_iff.mp isRequest
    rw [if_pos isRead, Page.bucket_eq_some.mp named]
    exact readRequest_serves holds
  rename_i notRead
  rw [if_neg notRead]
  split at isRequest
  · rename_i isAppend
    obtain ⟨bucket, named, rfl⟩ := Option.map_eq_some_iff.mp isRequest
    rw [if_pos isAppend, Page.bucket_eq_some.mp named]
    exact appendRequest_serves holds digestible
  rename_i notAppend
  rw [if_neg notAppend]
  split at isRequest
  · rename_i isDelete
    obtain ⟨bucket, named, rfl⟩ := Option.map_eq_some_iff.mp isRequest
    rw [if_pos isDelete, Page.bucket_eq_some.mp named]
    exact deleteRequest_serves holds
  · rename_i notDelete
    cases isRequest
    rw [if_neg notDelete]
    exact ⟨server, rfl, holds, fun _ _ => rfl⟩

/-- All others make it use memory that is not there. -/
theorem handleRequest_fails (holds : server.Holds layout database)
    (indigestible : ∀ request, Request.ofPage (server.page (layout.ipc client)) = some request →
      ¬ request.Digestible database) :
    ∃ mishap, handleRequest layout.db (layout.ipc client) server = .error mishap ∧ mishap.Stray := by
  rw [handleRequest_eq holds]
  unfold Request.ofPage at indigestible
  simp only
  split at indigestible
  · rename_i isRead
    rw [if_pos isRead]
    cases named : (server.page (layout.ipc client)).bucket with
    | some bucket => exact absurd trivial (indigestible (.read bucket) (by rw [named]; rfl))
    | none =>
      have beyond := Page.bucket_eq_none.mp named
      refine ⟨.outOfBounds (server.page (layout.ipc client) 1).toNat, ?_, .outOfBounds _⟩
      rw [readRequest, Server.lengthOf, if_neg (Nat.not_lt_of_le beyond)]
      rfl
  rename_i notRead
  rw [if_neg notRead]
  split at indigestible
  · rename_i isAppend
    rw [if_pos isAppend]
    cases named : (server.page (layout.ipc client)).bucket with
    | some bucket =>
      rw [Page.bucket_eq_some.mp named]
      obtain ⟨place, runsOut⟩ :=
        appendRequest_fails holds (indigestible (.append bucket _) (by rw [named]; rfl))
      exact ⟨.vmFault place, runsOut, .vmFault place⟩
    | none =>
      have beyond := Page.bucket_eq_none.mp named
      refine ⟨.outOfBounds (server.page (layout.ipc client) 1).toNat, ?_, .outOfBounds _⟩
      rw [appendRequest, (strnlen_payload holds client).1, Server.lengthOf,
        if_neg (Nat.not_lt_of_le beyond)]
      rfl
  rename_i notAppend
  rw [if_neg notAppend]
  split at indigestible
  · rename_i isDelete
    rw [if_pos isDelete]
    cases named : (server.page (layout.ipc client)).bucket with
    | some bucket => exact absurd trivial (indigestible (.delete bucket) (by rw [named]; rfl))
    | none =>
      have beyond := Page.bucket_eq_none.mp named
      refine ⟨.outOfBounds (server.page (layout.ipc client) 1).toNat, ?_, .outOfBounds _⟩
      rw [deleteRequest, Server.setLength, if_neg (Nat.not_lt_of_le beyond)]
      rfl
  · exact absurd trivial (indigestible .unknown rfl)

/-- The server executes the requests it can execute, and no others. -/
theorem handleRequest_meets (holds : server.Holds layout database) (client : Fin 3) :
    Meets (fun request next => Serves layout client database request server next) Mishap.Stray
      (database.request? (server.page (layout.ipc client)))
      (handleRequest layout.db (layout.ipc client) server) := by
  cases accepted : database.request? (server.page (layout.ipc client)) with
  | some request =>
    obtain ⟨isRequest, digestible⟩ := Option.filter_eq_some_iff.mp accepted
    obtain ⟨next, handled, serves⟩ :=
      handleRequest_serves holds isRequest (of_decide_eq_true digestible)
    exact .of_ok handled serves
  | none =>
    have indigestible := Option.filter_eq_none_iff.mp accepted
    obtain ⟨mishap, failed, stray⟩ := handleRequest_fails holds fun request isRequest digestible =>
      indigestible request isRequest (decide_eq_true digestible)
    exact .of_error failed stray

end Dispatch

end Libmicrokitco.Codis
