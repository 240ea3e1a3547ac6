import Libmicrokitco.Codis.Database
import Libmicrokitco.Codis.Strings

/-!
# Executing a request

The body of the loop in `client_handler`, between the notification that wakes it
and the one it sends. What it prints is left out. `char` is unsigned on the
targets of the example.
-/

namespace Libmicrokitco.Codis

/-- The data of the server: its memory and the array `data_len`. -/
structure Server where
  space : AddressSpace
  dataLen : Nat → Int

namespace Server

/-- `data_len[bucket]`. -/
def lengthOf (server : Server) (bucket : Nat) : Except Mishap Int :=
  if bucket < nBuckets then .ok (server.dataLen bucket) else .error (.outOfBounds bucket)

def setLength (server : Server) (bucket : Nat) (length : Int) : Except Mishap Server :=
  if bucket < nBuckets then
    .ok { server with dataLen := Function.update server.dataLen bucket length }
  else .error (.outOfBounds bucket)

/-- `*retval = value` for a `uint16_t *retval`, in little-endian order. -/
def setRetval (server : Server) (retval : Address) (value : Int) : Except Mishap Server := do
  let space ← server.space.store retval (BitVec.ofInt 8 value)
  let space ← space.store (retval + 1#64) (BitVec.ofInt 8 (value / 256))
  return { server with space := space }

end Server

def bucketToDbVaddr (db : Address) (bucket : Nat) : Address := db + BitVec.ofNat 64 (bucket * bucketSize)

/-- `READ_CMD`. -/
def readRequest (db ipc : Address) (bucket : Nat) (server : Server) : Except Mishap Server := do
  let length ← server.lengthOf bucket
  let space ← strncpy ipc (bucketToDbVaddr db bucket) (BitVec.ofInt 64 (length + 1)) server.space
  return { server with space := space }

/-- `APPEND_CMD`. -/
def appendRequest (db ipc : Address) (bucket : Nat) (server : Server) : Except Mishap Server := do
  let ipcDataStart := ipc + 2#64
  let inputLen := (← strnlen server.space ipcDataStart (BitVec.ofNat 64 appendCmdMaxPayloadLen)).toNat
  let newBucketLen := (← server.lengthOf bucket) + inputLen
  let newBucketLenWithNull := (← server.lengthOf bucket) + inputLen + 1
  if newBucketLenWithNull > bucketSize then
    server.setRetval ipc 0
  else
    let space ← strcat (bucketToDbVaddr db bucket) ipcDataStart server.space
    let server ← { server with space := space }.setLength bucket newBucketLen
    server.setRetval ipc newBucketLen

/-- `DELETE_CMD`. -/
def deleteRequest (db ipc : Address) (bucket : Nat) (server : Server) : Except Mishap Server := do
  let server ← server.setLength bucket 0
  let space ← server.space.store (bucketToDbVaddr db bucket) 0#8
  { server with space := space }.setRetval ipc 1

def handleRequest (db ipc : Address) (server : Server) : Except Mishap Server := do
  let cmd ← server.space.load ipc
  let bucket := (← server.space.load (ipc + 1#64)).toNat
  if cmd = 0#8 then readRequest db ipc bucket server
  else if cmd = 1#8 then appendRequest db ipc bucket server
  else if cmd = 2#8 then deleteRequest db ipc bucket server
  else return server

end Libmicrokitco.Codis
