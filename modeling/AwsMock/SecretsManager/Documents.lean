import AwsMock.Lib.Collection
import AwsMock.SecretsManager.Database

/-!
# The documents of secrets

`Secret::ToDocument` and `FromDocument` in the fields that a record has, and `SecretsManagerDatabase` on the collection
of the document database.
-/

namespace AwsMock.SecretsManager

open Lib Bson

def Secret.toDocument (s : Secret) : Document :=
  [(str "region", .string s.region), (str "name", .string s.name), (str "arn", .string s.arn),
    (str "secretId", .string s.secretId), (str "kmsKeyId", .string s.kmsKeyId), (str "versionId", .string s.versionId),
    (str "secretString", .string s.secretString), (str "secretBinary", .string s.secretBinary),
    (str "description", .string s.description), (str "createdDate", .int64 s.createdDate),
    (str "lastAccessedDate", .int64 s.lastAccessedDate), (str "lastChangedDate", .int64 s.lastChangedDate),
    (str "lastRotatedDate", .int64 s.lastRotatedDate)]

def Secret.fromDocument (doc : Document) : Option Secret := do
  let oid ← getOid (element (str "_id") doc)
  let region ← getString (element (str "region") doc)
  let name ← getString (element (str "name") doc)
  let arn ← getString (element (str "arn") doc)
  let secretId ← getString (element (str "secretId") doc)
  let kmsKeyId ← getString (element (str "kmsKeyId") doc)
  let versionId ← getString (element (str "versionId") doc)
  let secretString ← getString (element (str "secretString") doc)
  let secretBinary ← getString (element (str "secretBinary") doc)
  let description ← getString (element (str "description") doc)
  let createdDate ← getInt64 (element (str "createdDate") doc)
  let lastAccessedDate ← getInt64 (element (str "lastAccessedDate") doc)
  let lastChangedDate ← getInt64 (element (str "lastChangedDate") doc)
  let lastRotatedDate ← getInt64 (element (str "lastRotatedDate") doc)
  return {
    oid := oid, region := region, name := name, arn := arn, secretId := secretId, kmsKeyId := kmsKeyId,
    secretString := secretString, secretBinary := secretBinary, versionId := versionId, description := description,
    createdDate := createdDate, lastAccessedDate := lastAccessedDate, lastChangedDate := lastChangedDate,
    lastRotatedDate := lastRotatedDate }

/-- What a document keeps of a record. -/
def Secret.plain (s : Secret) : Secret := { s with oid := [] }

theorem Secret.document_read (s : Secret) (oid : Str) :
    fromDocument ((Collection.idName, .oid oid) :: s.toDocument) = some { s with oid := oid } := rfl

/-! ### Calls -/

structure SecretsManagerMongoDb where
  secrets : Collection := []

namespace SecretsManagerMongoDb

variable (db : SecretsManagerMongoDb)

/-- The filter of a secret by region and name. -/
def nameQuery (region name : Str) : Query := Query.equals [(str "region", region), (str "name", name)]

/-- The filter of a secret by its id. -/
def idQuery (secretId : Str) : Query := Query.equals [(str "secretId", secretId)]

/-- `SecretExists` by region and name. -/
def secretNameExists (region name : Str) : Bool := db.secrets.countDocuments (nameQuery region name) > 0

/-- `SecretExists` by id. -/
def secretExists (secretId : Str) : Bool := db.secrets.countDocuments (idQuery secretId) > 0

/-- `mResult` is dereferenced before it is looked whether there is a document: `none`. -/
def readFound : Option Document → Option Secret
  | some [] => some {}
  | some doc => Secret.fromDocument doc
  | none => none

def getSecretById (oid : Str) : Option Secret := (db.secrets.findById oid).bind Secret.fromDocument

def getSecretByRegionName (region name : Str) : Option Secret := readFound (db.secrets.findOne (nameQuery region name))

def getSecretBySecretId (secretId : Str) : Option Secret := readFound (db.secrets.findOne (idQuery secretId))

def createSecret (oid : Str) (secret : Secret) : Option (Secret × SecretsManagerMongoDb) := do
  let db : SecretsManagerMongoDb := { secrets := db.secrets.insertOne oid secret.toDocument }
  let secret ← db.getSecretById oid
  return (secret, db)

def updateSecret (secret : Secret) : Option (Secret × SecretsManagerMongoDb) := do
  let db : SecretsManagerMongoDb := { secrets := db.secrets.replaceOne (idQuery secret.secretId) secret.toDocument }
  let updated ← db.getSecretBySecretId secret.secretId
  return (updated, db)

def deleteSecret (region name : Str) : SecretsManagerMongoDb :=
  { secrets := db.secrets.deleteOne (nameQuery region name) }

end SecretsManagerMongoDb

/-- The `n`-th call of a run in the process that has a document database, which draws the object ids `oid`. -/
def SecretCall.applyMongo (rt : Runtime) (oid : Nat → Str) (n : Nat) (db : SecretsManagerMongoDb) :
    (c : SecretCall) → Option (c.Reply × SecretsManagerMongoDb)
  | .epochTime => some (rt.now n, db)
  | .createRandom => some (rt.uuid n, db)
  | .generateRandomHexString => some (rt.hexString n, db)
  | .secretNameExists region name => some (db.secretNameExists region name, db)
  | .secretExists secretId => some (db.secretExists secretId, db)
  | .getSecretByRegionName region name => (db.getSecretByRegionName region name).map fun secret => (secret, db)
  | .getSecretBySecretId secretId => (db.getSecretBySecretId secretId).map fun secret => (secret, db)
  | .createSecret secret => db.createSecret (oid n) secret
  | .updateSecret secret => db.updateSecret secret
  | .deleteSecret region name => some ((), db.deleteSecret region name)
  | .aes256DecryptFreed ciphertext => (rt.freed n ciphertext).map fun plaintext => (plaintext, db)

end AwsMock.SecretsManager
