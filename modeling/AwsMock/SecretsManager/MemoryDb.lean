import AwsMock.SecretsManager.Entity

/-!
# The in-memory store of secrets

`SecretsManagerMemoryDb`: a map keyed by a random object id, and one function for each method. A method
of the source that dereferences the end iterator has no defined result: `none`.
-/

namespace AwsMock.SecretsManager

open Lib

structure SecretsManagerMemoryDb where
  secrets : OrderedMap Str Secret := ∅
  deriving DecidableEq

namespace SecretsManagerMemoryDb

/-- The first secret of an id. -/
def find (db : SecretsManagerMemoryDb) (secretId : Str) : Option (Str × Secret) :=
  db.secrets.findIf fun _ secret => secret.secretId = secretId

/-- `SecretExists` by region and name. -/
def secretNameExists (db : SecretsManagerMemoryDb) (region name : Str) : Bool :=
  (db.secrets.findIf fun _ secret => secret.region = region ∧ secret.name = name).isSome

/-- `SecretExists` by id. -/
def secretExists (db : SecretsManagerMemoryDb) (secretId : Str) : Bool := (db.find secretId).isSome

/-- The common end of the `GetSecretBy…` methods: the record found is given its key as `oid`, in the
    store as well, and returned. -/
def fetchSecret (db : SecretsManagerMemoryDb) : Option (Str × Secret) → Secret × SecretsManagerMemoryDb
  | some (oid, secret) =>
    ({ secret with oid := oid }, { db with secrets := db.secrets.insert oid { secret with oid := oid } })
  | none => ({}, db)

def getSecretById (db : SecretsManagerMemoryDb) (oid : Str) : Secret × SecretsManagerMemoryDb :=
  db.fetchSecret (db.secrets.findIf fun key _ => key = oid)

def getSecretByRegionName (db : SecretsManagerMemoryDb) (region name : Str) : Secret × SecretsManagerMemoryDb :=
  db.fetchSecret (db.secrets.findIf fun _ secret => secret.region = region ∧ secret.name = name)

def getSecretBySecretId (db : SecretsManagerMemoryDb) (secretId : Str) : Secret × SecretsManagerMemoryDb :=
  db.fetchSecret (db.find secretId)

def createSecret (db : SecretsManagerMemoryDb) (oid : Str) (secret : Secret) : Secret × SecretsManagerMemoryDb :=
  getSecretById { db with secrets := db.secrets.insert oid secret } oid

/-- The result of the lookup is dereferenced unchecked. -/
def updateSecret (db : SecretsManagerMemoryDb) (secret : Secret) : Option (Secret × SecretsManagerMemoryDb) :=
  (db.find secret.secretId).map fun it => (secret, { db with secrets := db.secrets.insert it.1 secret })

def deleteSecret (db : SecretsManagerMemoryDb) (region name : Str) : SecretsManagerMemoryDb :=
  { db with secrets := db.secrets.eraseIf fun _ secret => secret.region = region ∧ secret.name = name }

end SecretsManagerMemoryDb

end AwsMock.SecretsManager
