import AwsMock.Core.Poco
import AwsMock.Kms.Entity
import AwsMock.Lib.Prog

/-!
# The KMS store

`KMSDatabase` with its two backends, and what the KMS code draws from outside, each call atomic. On MongoDB
`CreateKey` and `UpdateKey` read the record back with a call of its own, and a missing record is
dereferenced unchecked: `none`. `Runtime` holds what the `n`-th call of a run draws.
-/

namespace AwsMock.Kms

open Lib

/-- The clock does not go backwards, and random ids never repeat and are not empty. -/
structure Runtime where
  uuid : Nat → Str
  now : Nat → TimePoint
  aes256Key : Nat → Str × Str
  rsaKeyPair : Nat → Nat → Str × Str
  hmacKey : Nat → Nat → Str
  uuid_ne : ∀ n, uuid n ≠ []
  uuid_inj : ∀ {n m}, uuid n = uuid m → n = m
  now_mono : ∀ {n m}, n ≤ m → now n ≤ now m

/-- A runtime that counts: a day passes from call to call. -/
def Runtime.counting : Runtime where
  uuid n := List.replicate (n + 1) (byte 'u')
  now n := n * 86400000000000
  aes256Key _ := (str "k", str "i")
  rsaKeyPair _ _ := (str "p", str "q")
  hmacKey _ _ := str "h"
  uuid_ne := replicate_u_ne
  uuid_inj := replicate_succ_u_inj
  now_mono h := Int.mul_le_mul_of_nonneg_right (Int.ofNat_le.mpr h) (by decide)

/-- The records by random object id, or the documents by object id. -/
inductive KMSDatabase where
  | memory (keys : OrderedMap Str Key)
  | mongo (documents : OrderedMap Str KeyDocument)

namespace KMSDatabase

/-- The first key of an id, and the first document. -/
def findKey (keys : OrderedMap Str Key) (keyId : Str) : Option (Str × Key) :=
  keys.findIf fun _ key => key.keyId = keyId

/-- `find_one` with a filter for one field. -/
def findOne (documents : OrderedMap Str KeyDocument) (name value : Str) : Option (Str × KeyDocument) :=
  documents.findIf fun _ document => document.string name = some value

def keyExists (db : KMSDatabase) (keyId : Str) : Bool :=
  match db with
  | memory keys => (findKey keys keyId).isSome
  | mongo documents => (findOne documents (str "keyId") keyId).isSome

/-- The common end of the `GetKeyBy…` methods of the in-memory store: the record found is given its key as
    `oid`, in the store as well. -/
def fetchKey (keys : OrderedMap Str Key) (now : TimePoint) : Option (Str × Key) → Key × KMSDatabase
  | some (oid, key) => ({ key with oid := oid }, memory (keys.insert oid { key with oid := oid }))
  | none => ({ scheduledDeletion := now }, memory keys)

def getKeyById (db : KMSDatabase) (oid : Str) (now : TimePoint) : Option (Key × KMSDatabase) :=
  match db with
  | memory keys => some (fetchKey keys now (keys.findIf fun key _ => key = oid))
  | mongo documents => (documents.get? oid).map fun document => (document.toKey oid now, mongo documents)

def getKeyByKeyId (db : KMSDatabase) (keyId : Str) (now : TimePoint) : Option (Key × KMSDatabase) :=
  match db with
  | memory keys => some (fetchKey keys now (findKey keys keyId))
  | mongo documents => (findOne documents (str "keyId") keyId).map fun it => (it.2.toKey it.1 now, mongo documents)

/-- `ListKeys` of all regions. -/
def listKeys (db : KMSDatabase) (now : TimePoint) : List Key :=
  match db with
  | memory keys => keys.values
  | mongo documents => documents.entries.map fun it => it.2.toKey it.1 now

/-- `CreateKey`, on MongoDB up to the insertion. -/
def createKey (db : KMSDatabase) (oid : Str) (key : Key) : Key × KMSDatabase :=
  match db with
  | memory keys => ({ key with oid := oid }, memory (keys.insert oid { key with oid := oid }))
  | mongo documents => ({ key with oid := oid }, mongo (documents.insert oid key.toDocument))

/-- `UpdateKey`, on MongoDB up to the replacement. -/
def updateKey (db : KMSDatabase) (key : Key) : Key × KMSDatabase :=
  match db with
  | memory keys => match findKey keys key.keyId with
    | some it => (key, memory (keys.insert it.1 key))
    | none => (key, memory keys)
  | mongo documents => match findOne documents (str "keyId") key.keyId with
    | some it => (key, mongo (documents.insert it.1 key.toDocument))
    | none => (key, mongo documents)

/-- On MongoDB `delete_one` looks for a field `name`. -/
def deleteKey (db : KMSDatabase) (key : Key) : KMSDatabase :=
  match db with
  | memory keys => memory (keys.eraseIf fun _ k => k.keyId = key.keyId)
  | mongo documents => match findOne documents (str "name") key.keyId with
    | some it => mongo (documents.eraseIf fun oid _ => oid = it.1)
    | none => mongo documents

end KMSDatabase

inductive KmsCall where
  | systemNow
  | createRandom
  | createAes256Key
  | generateRsaKeys (length : Nat)
  | createHmacKey (length : Nat)
  | keyExists (keyId : Str)
  | getKeyById (oid : Str)
  | getKeyByKeyId (keyId : Str)
  | listKeys
  | createKey (key : Key)
  | updateKey (key : Key)
  | deleteKey (key : Key)
  | startCreator (keyId : Str)

/-- What a call returns. -/
abbrev KmsCall.Reply : KmsCall → Type
  | systemNow => TimePoint
  | createRandom | createHmacKey _ => Str
  | createAes256Key | generateRsaKeys _ => Str × Str
  | keyExists _ => Bool
  | getKeyById _ | getKeyByKeyId _ | createKey _ | updateKey _ => Key
  | listKeys => List Key
  | deleteKey _ | startCreator _ => Unit

/-- The process: its store and the number of calls made so far. -/
structure World where
  db : KMSDatabase
  calls : Nat := 0

/-- The `n`-th call of a run. A thread that is started runs beside. -/
def KmsCall.apply (rt : Runtime) (n : Nat) (db : KMSDatabase) : (c : KmsCall) → Option (c.Reply × KMSDatabase)
  | .systemNow => some (rt.now n, db)
  | .createRandom => some (rt.uuid n, db)
  | .createAes256Key => some (rt.aes256Key n, db)
  | .generateRsaKeys length => some (rt.rsaKeyPair n length, db)
  | .createHmacKey length => some (rt.hmacKey n length, db)
  | .keyExists keyId => some (db.keyExists keyId, db)
  | .getKeyById oid => db.getKeyById oid (rt.now n)
  | .getKeyByKeyId keyId => db.getKeyByKeyId keyId (rt.now n)
  | .listKeys => some (db.listKeys (rt.now n), db)
  | .createKey key => some (db.createKey (rt.uuid n) key)
  | .updateKey key => some (db.updateKey key)
  | .deleteKey key => some ((), db.deleteKey key)
  | .startCreator _ => some ((), db)

/-- The meaning of a call in the process. -/
def exec (rt : Runtime) : Prog.Exec KmsCall KmsCall.Reply World := fun c w =>
  (c.apply rt w.calls w.db).map fun r => (r.1, { db := r.2, calls := w.calls + 1 })

end AwsMock.Kms
