import AwsMock.Core.AwsUtils
import AwsMock.SecretsManager.Database

/-!
# The Secrets Manager service

`SecretsManagerService` as programs over the calls, without `DescribeSecret` and `ListSecrets`, which copy
records.
-/

namespace AwsMock.SecretsManager

open Lib

abbrev SecretProg := Prog SecretCall SecretCall.Reply Error

/-- One call. -/
abbrev call (c : SecretCall) : SecretProg c.Reply := Prog.perform c

/-- A block guarded by `catch (Poco::Exception &exc) { throw Core::ServiceException(exc.message()); }`. -/
def guarded {α : Type} (p : SecretProg α) : SecretProg α := p.mapThrow Error.toServiceException

/-- The account of the configuration, AES-256 with the key of the service, and the Base64 encoder. -/
structure Env where
  accountId : Str := str "000000000000"
  aes256Encrypt : Str → Str
  base64Encode : Str → Str

def Env.sample : Env where
  aes256Encrypt s := s.map (· + 1)
  base64Encode := id

/-! ### Requests and responses -/

/-- The description and the key are not read. -/
structure CreateSecretRequest where
  region : Str
  name : Str
  description : Str := []
  kmsKeyId : Str := []
  secretString : Str := []
  secretBinary : Str := []

structure CreateSecretResponse where
  region : Str
  name : Str
  arn : Str
  versionId : Str
  deriving DecidableEq

structure GetSecretValueRequest where
  secretId : Str

structure GetSecretValueResponse where
  name : Str
  arn : Str
  versionId : Str
  secretString : Str := []
  secretBinary : Str := []
  deriving DecidableEq

/-- A field that is omitted is empty. -/
structure UpdateSecretRequest where
  secretId : Str
  kmsKeyId : Str := []
  description : Str := []
  secretString : Str := []
  secretBinary : Str := []

structure UpdateSecretResponse where
  region : Str
  name : Str
  arn : Str
  versionId : Str
  deriving DecidableEq

structure RotateSecretRequest where
  secretId : Str

structure RotateSecretResponse where
  region : Str
  arn : Str
  deriving DecidableEq

structure DeleteSecretRequest where
  region : Str
  name : Str

structure DeleteSecretResponse where
  region : Str
  name : Str
  arn : Str
  deletionDate : Int
  deriving DecidableEq

def secretDoesNotExist (secretId : Str) : Str := str "Secret does not exist, secretId: " ++ secretId

/-! ### The service -/

/-- `CreateSecretArn`. -/
def createSecretArn (region accountId secretId : Str) : Str :=
  createArn (str "secretsmanager") region accountId (str "secret:" ++ secretId)

/-- The string is stored encrypted, up to its first NUL, and the binary as it comes. -/
def createSecret (env : Env) (request : CreateSecretRequest) : SecretProg CreateSecretResponse := do
  if ← call (.secretNameExists request.region request.name) then
    .throw (.serviceException (str "Secret exists already"))
  else if request.secretString ≠ [] ∧ request.secretBinary ≠ [] then
    .throw (.serviceException (str "Secret must not have secretString and secretBinary"))
  else if request.secretString = [] ∧ request.secretBinary = [] then
    .throw (.serviceException (str "Secret must have either secretString or secretBinary"))
  else guarded do
    let versionId ← call .createRandom
    let random ← call .generateRandomHexString
    let secretId := request.name ++ str "-" ++ random
    let arn := createSecretArn request.region env.accountId secretId
    let createdDate ← call .epochTime
    let plaintext := request.secretString.takeWhile (· ≠ 0)
    let secret ← call (.createSecret {
      region := request.region, name := request.name, versionId := versionId, secretId := secretId, arn := arn,
      createdDate := createdDate,
      secretString := if request.secretString ≠ [] then env.base64Encode (env.aes256Encrypt plaintext) else [],
      secretBinary := if request.secretString ≠ [] then [] else request.secretBinary })
    return { region := secret.region, name := secret.name, arn := secret.arn, versionId := secret.versionId }

/-- The whole record is written back, for the date of the access. A binary is not copied to the response. -/
def getSecretValue (request : GetSecretValueRequest) : SecretProg GetSecretValueResponse := do
  if ← call (.secretExists request.secretId) then guarded do
    let secret ← call (.getSecretBySecretId request.secretId)
    let secretString ← if secret.secretString ≠ [] then call (.aes256DecryptFreed secret.secretString) else pure []
    let lastAccessedDate ← call .epochTime
    let _ ← call (.updateSecret { secret with lastAccessedDate := lastAccessedDate })
    return { name := secret.name, arn := secret.arn, versionId := secret.versionId, secretString := secretString }
  else .throw (.serviceException (secretDoesNotExist request.secretId))

/-- Every field of the request is stored as it comes, the omitted ones too. -/
def updateSecret (request : UpdateSecretRequest) : SecretProg UpdateSecretResponse := do
  if ← call (.secretExists request.secretId) then guarded do
    let secret ← call (.getSecretBySecretId request.secretId)
    let lastChangedDate ← call .epochTime
    let secret ← call (.updateSecret { secret with
      kmsKeyId := request.kmsKeyId, secretString := request.secretString, secretBinary := request.secretBinary,
      description := request.description, lastChangedDate := lastChangedDate })
    return { region := secret.region, name := secret.name, arn := secret.arn, versionId := secret.versionId }
  else .throw (.serviceException (secretDoesNotExist request.secretId))

/-- Only the date is changed. A secret that is missing is a `NotFoundException`. -/
def rotateSecret (request : RotateSecretRequest) : SecretProg RotateSecretResponse := do
  if ← call (.secretExists request.secretId) then guarded do
    let secret ← call (.getSecretBySecretId request.secretId)
    let lastRotatedDate ← call .epochTime
    let secret ← call (.updateSecret { secret with lastRotatedDate := lastRotatedDate })
    return { region := secret.region, arn := secret.arn }
  else .throw (.pocoException (secretDoesNotExist request.secretId))

def deleteSecret (request : DeleteSecretRequest) : SecretProg DeleteSecretResponse := do
  if ← call (.secretNameExists request.region request.name) then guarded do
    let secret ← call (.getSecretByRegionName request.region request.name)
    call (.deleteSecret secret.region secret.name)
    let deletionDate ← call .epochTime
    return { region := request.region, name := secret.name, arn := secret.arn, deletionDate := deletionDate }
  else .throw (.serviceException (str "Secret does not exist, name: " ++ request.name))

end AwsMock.SecretsManager
