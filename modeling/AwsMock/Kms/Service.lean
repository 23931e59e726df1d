import AwsMock.Core.AwsUtils
import AwsMock.Kms.Database

/-!
# The KMS service, its creator and its worker

`KMSService::CreateKey` and `ScheduleKeyDeletion`, the task that `CreateKey` starts and a pass of the worker
as programs over the calls. `useDatabase` tells MongoDB from the in-memory store. Logging and the metrics
timers are left out, and no call throws a `DatabaseException`, which the requests would convert.
-/

namespace AwsMock.Kms

open Lib

abbrev KmsProg := Prog KmsCall KmsCall.Reply Error

/-- One call. -/
abbrev call (c : KmsCall) : KmsProg c.Reply := Prog.perform c

variable (useDatabase : Bool)

/-- `KMSDatabase::CreateKey`. -/
def databaseCreateKey (key : Key) : KmsProg Key := do
  let stored ← call (.createKey key)
  if useDatabase then call (.getKeyById stored.oid) else return stored

/-- `KMSDatabase::UpdateKey`. -/
def databaseUpdateKey (key : Key) : KmsProg Key := do
  let stored ← call (.updateKey key)
  if useDatabase then call (.getKeyByKeyId key.keyId) else return stored

/-! ### Requests and responses -/

structure CreateKeyRequest where
  region : Str
  keySpec : KeySpec
  keyUsage : KeyUsage
  description : Str := []
  tags : OrderedMap Str Str := ∅

/-- The `key` of the response. -/
structure CreateKeyResponse where
  keyId : Str
  arn : Str
  keySpec : KeySpec
  keyUsage : KeyUsage
  keyState : KeyState
  description : Str
  deriving DecidableEq

structure ScheduleKeyDeletionRequest where
  keyId : Str
  pendingWindowInDays : Int := 30

structure ScheduledKeyDeletionResponse where
  keyId : Str
  keyState : Str
  deletionDate : Int
  pendingWindowInDays : Int
  deriving DecidableEq

/-! ### The service -/

/-- `CreateKMSKeyArn`. -/
def createKMSKeyArn (region accountId keyId : Str) : Str :=
  createArn (str "kms") region accountId (str "key/" ++ keyId)

/-- The state stays empty until the creator is done. -/
def createKey (accountId : Str) (request : CreateKeyRequest) : KmsProg CreateKeyResponse := do
  let keyId ← call .createRandom
  let now ← call .systemNow
  let key ← databaseCreateKey useDatabase {
    region := request.region, keyId := keyId, keyUsage := request.keyUsage.toString,
    keySpec := request.keySpec.toString, arn := createKMSKeyArn request.region accountId keyId,
    description := request.description, tags := request.tags, scheduledDeletion := now }
  call (.startCreator keyId)
  return { keyId := key.keyId, arn := key.arn, keySpec := .fromString key.keySpec,
           keyUsage := .fromString key.keyUsage, keyState := .fromString key.keyState,
           description := key.description }

/-- `days`, in nanoseconds. -/
def days (n : Int) : Int := n * 86400000000000

def scheduleKeyDeletion (request : ScheduleKeyDeletionRequest) : KmsProg ScheduledKeyDeletionResponse := do
  if ← call (.keyExists request.keyId) then
    let key ← call (.getKeyByKeyId request.keyId)
    let now ← call .systemNow
    let key ← databaseUpdateKey useDatabase { key with
      pendingWindowInDays := request.pendingWindowInDays,
      scheduledDeletion := now + days request.pendingWindowInDays,
      keyState := KeyState.pendingDeletion.toString }
    return { keyId := request.keyId, keyState := key.keyState, deletionDate := key.scheduledDeletion,
             pendingWindowInDays := request.pendingWindowInDays }
  else .throw (.serviceException (str "Key not found, keyId: " ++ request.keyId))

/-! ### The creator -/

def generateAes256Key (key : Key) : KmsProg Key := do
  let material ← call .createAes256Key
  return { key with aes256Key := material.1, aes256Iv := material.2 }

def createHmacKey (key : Key) (length : Nat) : KmsProg Key := do
  let material ← call (.createHmacKey length)
  return if length = 224 then { key with hmac224Key := material }
    else if length = 256 then { key with hmac256Key := material }
    else if length = 384 then { key with hmac384Key := material }
    else if length = 512 then { key with hmac512Key := material }
    else key

def generateRsaKeyPair (key : Key) (length : Nat) : KmsProg Key := do
  let material ← call (.generateRsaKeys length)
  return { key with rsaPublicKey := material.1, rsaPrivateKey := material.2 }

/-- The material that a specification needs; elliptic curves are not implemented. -/
def generateMaterial (key : Key) : KeySpec → KmsProg Key
  | .symmetricDefault => generateAes256Key key
  | .rsa2048 => generateRsaKeyPair key 2048
  | .rsa3072 => generateRsaKeyPair key 3072
  | .rsa4096 => generateRsaKeyPair key 4096
  | .hmac224 => createHmacKey key 224
  | .hmac256 => createHmacKey key 256
  | .hmac384 => createHmacKey key 384
  | .hmac512 => createHmacKey key 512
  | .eccNistP256 | .eccNistP384 | .eccNistP521 | .eccSecgP256k1 => return key

/-- `KMSCreator::CreateKmsKey`: the copy that is made at first is written back as enabled. -/
def createKmsKey (keyId : Str) : KmsProg Unit := do
  let copy ← call (.getKeyByKeyId keyId)
  let key ← generateMaterial { copy with keyState := KeyState.enabled.toString } (.fromString copy.keySpec)
  let _ ← databaseUpdateKey useDatabase key

/-! ### The worker -/

/-- What the worker does with a key that it has listed. -/
def deleteIfDue (key : Key) : KmsProg Unit := do
  if key.keyState = KeyState.pendingDeletion.toString then
    let now ← call .systemNow
    Prog.when (key.scheduledDeletion < now) (call (.deleteKey key))

/-- `KMSWorker::DeleteKeys`. -/
def deleteKeys : KmsProg Unit := do
  let keys ← call .listKeys
  Prog.forEach keys deleteIfDue

end AwsMock.Kms
