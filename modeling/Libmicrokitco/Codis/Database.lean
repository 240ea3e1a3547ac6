import Mathlib.Data.BitVec
import Mathlib.Data.List.TakeWhile

/-!
# What the database is for

Buckets of text that clients read, append to and delete, one request at a time.
`Request.ofPage` and `Reply.bytes` are the format of `protocol.h`.
-/

namespace Libmicrokitco.Codis

/-- `N_BUCKETS`. -/
def nBuckets : Nat := 0xFF

/-- `BUCKET_SIZE`, also the size of the page that a client shares with the server. -/
def bucketSize : Nat := 0x1000

/-- `APPEND_CMD_MAX_PAYLOAD_LEN`. -/
def appendCmdMaxPayloadLen : Nat := bucketSize - 2

/-- What a bucket can hold with its terminator. -/
@[ext] structure Text where
  chars : List (BitVec 8)
  nonzero : 0#8 ∉ chars
  fits : chars.length < bucketSize

namespace Text

def empty : Text := ⟨[], by simp, by decide⟩

def length (text : Text) : Nat := text.chars.length

/-- The text with `input` behind it, if a bucket can hold both. -/
def append? (text input : Text) : Option Text :=
  if fits : (text.chars ++ input.chars).length < bucketSize then
    some ⟨text.chars ++ input.chars, by simp [text.nonzero, input.nonzero], fits⟩
  else none

variable {text input both : Text}

theorem chars_of_append? (appended : text.append? input = some both) :
    both.chars = text.chars ++ input.chars := by
  unfold append? at appended
  split at appended
  · cases appended
    rfl
  · cases appended

theorem length_of_append? (appended : text.append? input = some both) :
    both.length = text.length + input.length := by
  rw [length, chars_of_append? appended, List.length_append]
  rfl

theorem append?_eq_none : text.append? input = none ↔ bucketSize ≤ text.length + input.length := by
  unfold append? length
  rw [dite_eq_right_iff, ← List.length_append]
  exact ⟨fun refused => Nat.le_of_not_lt fun fits => Option.some_ne_none _ (refused fits),
    fun long fits => absurd fits (Nat.not_lt_of_le long)⟩

end Text

abbrev Database := Fin nBuckets → Text

inductive Request where
  | read (bucket : Fin nBuckets)
  | append (bucket : Fin nBuckets) (input : Text)
  | delete (bucket : Fin nBuckets)
  | unknown

/-- The bucket that a request may change. -/
def Request.changes : Request → Option (Fin nBuckets)
  | .append bucket _ | .delete bucket => some bucket
  | .read _ | .unknown => none

inductive Reply where
  | contents (text : Text)
  /-- Zero if the bucket could not hold the text. -/
  | newLength (length : Nat)
  | deleted
  | none

def Database.serve (database : Database) : Request → Database × Reply
  | .read bucket => (database, .contents (database bucket))
  | .append bucket input =>
    match (database bucket).append? input with
    | some text => (Function.update database bucket text, .newLength text.length)
    | none => (database, .newLength 0)
  | .delete bucket => (Function.update database bucket .empty, .deleted)
  | .unknown => (database, .none)

/-- The bytes of a shared page, of which the first `bucketSize` count. -/
abbrev Page := Nat → BitVec 8

/-- Bytes up to the first zero byte or the end of the page. -/
def Page.payload (page : Page) : List (BitVec 8) :=
  ((List.range appendCmdMaxPayloadLen).map fun i => page (2 + i)).takeWhile fun c => c ≠ 0#8

theorem Page.length_payload_le (page : Page) : page.payload.length ≤ appendCmdMaxPayloadLen := by
  apply (List.takeWhile_sublist _).length_le.trans
  rw [List.length_map, List.length_range]

theorem Page.zero_notMem_payload (page : Page) : 0#8 ∉ page.payload := by
  intro member
  have passed := List.mem_takeWhile_imp member
  simp at passed

/-- A search for a zero byte in the rest of the page finds the payload. -/
theorem Page.payload_of_search {page : Page} {k : Nat} (within : k ≤ appendCmdMaxPayloadLen)
    (chars : ∀ i < k, page (2 + i) ≠ 0#8) (ends : k = appendCmdMaxPayloadLen ∨ page (2 + k) = 0#8) :
    page.payload = (List.range k).map fun i => page (2 + i) := by
  obtain ⟨rest, split⟩ := Nat.exists_eq_add_of_le within
  rw [Page.payload, split, List.range_add, List.map_append, List.takeWhile_append_of_pos]
  · have nothing : rest = 0 ∨ page (2 + k) = 0#8 := ends.imp (fun all => by omega) id
    cases rest with
    | zero => simp
    | succ rest =>
      have isZero := nothing.resolve_left (Nat.succ_ne_zero rest)
      rw [List.range_succ_eq_map]
      simp [isZero]
  · intro c member
    obtain ⟨i, below, rfl⟩ := List.mem_map.mp member
    simpa using chars i (List.mem_range.mp below)

def Page.input (page : Page) : Text where
  chars := page.payload
  nonzero := page.zero_notMem_payload
  fits := lt_of_le_of_lt page.length_payload_le (by decide)

theorem Page.chars_input (page : Page) : page.input.chars = page.payload := by
  rw [Page.input]

/-- An input as long as the page has no end in it. -/
theorem Page.ne_zero_of_full {page : Page} (full : ¬ page.input.length < appendCmdMaxPayloadLen)
    {i : Nat} (below : i < appendCmdMaxPayloadLen) : page (2 + i) ≠ 0#8 := by
  rw [Text.length, Page.chars_input, Page.payload] at full
  have all := (List.takeWhile_sublist _).eq_of_length_le
    (show ((List.range appendCmdMaxPayloadLen).map fun i => page (2 + i)).length ≤ _ by
      rw [List.length_map, List.length_range]
      exact Nat.le_of_not_lt full)
  have passes := List.takeWhile_eq_self_iff.mp all (page (2 + i))
    (List.mem_map_of_mem (List.mem_range.mpr below))
  simpa using passes

/-- The bucket that a page names. -/
def Page.bucket (page : Page) : Option (Fin nBuckets) :=
  if bounded : (page 1).toNat < nBuckets then some ⟨(page 1).toNat, bounded⟩ else none

theorem Page.bucket_eq_some {page : Page} {bucket : Fin nBuckets} :
    page.bucket = some bucket ↔ (page 1).toNat = bucket := by
  unfold Page.bucket
  split
  · rw [Option.some.injEq, Fin.ext_iff]
  · have bounded := bucket.isLt
    constructor
    · intro none
      cases none
    · omega

theorem Page.bucket_eq_none {page : Page} : page.bucket = none ↔ nBuckets ≤ (page 1).toNat := by
  unfold Page.bucket
  split
  · simp_all
  · simp_all

/-- The request in a page, if it needs no bucket or names one. -/
def Request.ofPage (page : Page) : Option Request :=
  if page 0 = 0#8 then page.bucket.map .read
  else if page 0 = 1#8 then page.bucket.map (.append · page.input)
  else if page 0 = 2#8 then page.bucket.map .delete
  else some .unknown

/-- An input that ends within the page, or is too long for the bucket in any case. -/
def Request.Digestible (database : Database) : Request → Prop
  | .append bucket input =>
    input.length < appendCmdMaxPayloadLen ∨ 2 ≤ (database bucket).length
  | _ => True

instance (database : Database) (request : Request) : Decidable (request.Digestible database) :=
  match request with
  | .append _ _ => inferInstanceAs (Decidable (_ ∨ _))
  | .read _ | .delete _ | .unknown => isTrue trivial

/-- The request in a page, if the server can execute it. -/
def Database.request? (database : Database) (page : Page) : Option Request :=
  (Request.ofPage page).filter fun request => request.Digestible database

/-- A `uint16_t` in memory. -/
def halfword (value : Nat) : List (BitVec 8) := [BitVec.ofNat 8 value, BitVec.ofNat 8 (value / 256)]

/-- What the server writes to the start of the page. -/
def Reply.bytes : Reply → List (BitVec 8)
  | .contents text => text.chars ++ [0#8]
  | .newLength length => halfword length
  | .deleted => halfword 1
  | .none => []

/-- The page after a reply. -/
def Page.replied (page : Page) (reply : Reply) : Page := fun i => reply.bytes.getD i (page i)

/-- What reaches the server from its clients, which write to their pages whenever
they like. -/
inductive Event where
  | written (client : Fin 3) (page : Page)
  | notified (client : Fin 3)

/-- A database with the pages it shares with its clients, and whom it has notified. -/
structure Service where
  database : Database
  pages : Fin 3 → Page
  notifications : List (Fin 3)

namespace Service

def opened (pages : Fin 3 → Page) : Service := ⟨fun _ => .empty, pages, []⟩

/-- A request is served before anything else happens. -/
def served (service : Service) (client : Fin 3) (request : Request) : Service where
  database := (service.database.serve request).1
  pages := Function.update service.pages client
    ((service.pages client).replied (service.database.serve request).2)
  notifications := service.notifications ++ [client]

/-- There is no service any more after a request that cannot be executed. -/
def receive (service : Service) : Event → Option Service
  | .written client page =>
    some { service with pages := Function.update service.pages client page }
  | .notified client =>
    (service.database.request? (service.pages client)).map (service.served client)

end Service

/-- A request depends on the bytes in the page. -/
theorem Request.ofPage_congr {page other : Page} (same : ∀ i < bucketSize, page i = other i) :
    Request.ofPage page = Request.ofPage other := by
  have data : ((List.range appendCmdMaxPayloadLen).map fun i => page (2 + i)) =
      (List.range appendCmdMaxPayloadLen).map fun i => other (2 + i) := by
    refine List.map_congr_left fun i member => same (2 + i) ?_
    exact Nat.add_lt_of_lt_sub' (List.mem_range.mp member)
  have payload : page.payload = other.payload := by
    rw [Page.payload, data, Page.payload]
  have input : page.input = other.input := by
    apply Text.ext
    rw [Page.chars_input, Page.chars_input, payload]
  have bucket : page.bucket = other.bucket := by
    unfold Page.bucket
    rw [same 1 (by decide)]
  unfold Request.ofPage
  rw [same 0 (by decide), input, bucket]

end Libmicrokitco.Codis
