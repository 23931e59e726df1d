import AwsMock.Lib.Bytes
import AwsMock.Lib.OrderedMap

/-!
# KMS keys

`Database::Entity::KMS::Key` and the names of its states, specifications and usages, without the dates of
creation and modification, which nothing reads.
-/

namespace AwsMock.Kms

open Lib

/-- `system_clock::time_point` in nanoseconds. -/
abbrev TimePoint := Int

inductive KeyState where
  | creating | enabled | disabled | pendingDeletion | pendingImport | pendingReplicationDeletion | unavailable
  | updating
  deriving DecidableEq

namespace KeyState

/-- `KeyStateToString`. -/
def toString : KeyState → Str
  | creating => str "Creating"
  | enabled => str "Enabled"
  | disabled => str "Disabled"
  | pendingDeletion => str "PendingDeletion"
  | pendingImport => str "PendingImport"
  | pendingReplicationDeletion => str "PendingReplicaDeletion"
  | unavailable => str "Unavailable"
  | updating => str "Updating"

/-- `KeyStateFromString`. -/
def fromString (s : Str) : KeyState :=
  ([creating, enabled, disabled, pendingDeletion, pendingImport, pendingReplicationDeletion, unavailable,
    updating].find? fun state => state.toString = s).getD unavailable

end KeyState

inductive KeySpec where
  | rsa2048 | rsa3072 | rsa4096 | eccNistP256 | eccNistP384 | eccNistP521 | eccSecgP256k1 | symmetricDefault
  | hmac224 | hmac256 | hmac384 | hmac512
  deriving DecidableEq

namespace KeySpec

/-- `KeySpecToString`. -/
def toString : KeySpec → Str
  | rsa2048 => str "RSA_2048"
  | rsa3072 => str "RSA_3072"
  | rsa4096 => str "RSA_4096"
  | eccNistP256 => str "ECC_NIST_P256"
  | eccNistP384 => str "ECC_NIST_P384"
  | eccNistP521 => str "ECC_NIST_P521"
  | eccSecgP256k1 => str "ECC_SECG_P256K1"
  | symmetricDefault => str "SYMMETRIC_DEFAULT"
  | hmac224 => str "HMAC_224"
  | hmac256 => str "HMAC_256"
  | hmac384 => str "HMAC_384"
  | hmac512 => str "HMAC_512"

/-- `KeySpecFromString`. -/
def fromString (s : Str) : KeySpec :=
  ([rsa2048, rsa3072, rsa4096, eccNistP256, eccNistP384, eccNistP521, eccSecgP256k1, symmetricDefault, hmac224,
    hmac256, hmac384, hmac512].find? fun spec => spec.toString = s).getD symmetricDefault

end KeySpec

inductive KeyUsage where
  | signVerify | encryptDecrypt | generateVerifyMac
  deriving DecidableEq

namespace KeyUsage

/-- `KeyUsageToString`. -/
def toString : KeyUsage → Str
  | signVerify => str "SIGN_VERIFY"
  | encryptDecrypt => str "ENCRYPT_DECRYPT"
  | generateVerifyMac => str "GENERATE_VERIFY_MAC"

/-- `KeyUsageFromString`. -/
def fromString (s : Str) : KeyUsage :=
  ([signVerify, encryptDecrypt, generateVerifyMac].find? fun usage => usage.toString = s).getD encryptDecrypt

end KeyUsage

/-- `scheduledDeletion` defaults to the time the record is built, which the caller passes in. -/
structure Key where
  oid : Str := []
  region : Str := []
  keyId : Str := []
  keyUsage : Str := []
  keySpec : Str := []
  keyState : Str := []
  arn : Str := []
  description : Str := []
  aes256Key : Str := []
  aes256Iv : Str := []
  rsaPrivateKey : Str := []
  rsaPublicKey : Str := []
  hmac224Key : Str := []
  hmac256Key : Str := []
  hmac384Key : Str := []
  hmac512Key : Str := []
  tags : OrderedMap Str Str := ∅
  pendingWindowInDays : Int := 0
  scheduledDeletion : TimePoint
  deriving DecidableEq

/-- The MongoDB document of a key; dates are in milliseconds. -/
structure KeyDocument where
  region : Str
  arn : Str
  keyId : Str
  keyUsage : Str
  keySpec : Str
  keyState : Str
  aes256Key : Str
  aes256Iv : Str
  hmac224Key : Str
  hmac256Key : Str
  hmac384Key : Str
  hmac512Key : Str
  rsaPrivateKey : Str
  rsaPublicKey : Str
  pendingWindowInDays : Int
  scheduledDeletion : Option Int
  tags : OrderedMap Str Str
  deriving DecidableEq

/-- `ToDocument`: the description is not stored, and a date before the epoch is null. -/
def Key.toDocument (key : Key) : KeyDocument where
  region := key.region
  arn := key.arn
  keyId := key.keyId
  keyUsage := key.keyUsage
  keySpec := key.keySpec
  keyState := key.keyState
  aes256Key := key.aes256Key
  aes256Iv := key.aes256Iv
  hmac224Key := key.hmac224Key
  hmac256Key := key.hmac256Key
  hmac384Key := key.hmac384Key
  hmac512Key := key.hmac512Key
  rsaPrivateKey := key.rsaPrivateKey
  rsaPublicKey := key.rsaPublicKey
  pendingWindowInDays := key.pendingWindowInDays
  scheduledDeletion := if 0 < key.scheduledDeletion then some (key.scheduledDeletion.tdiv 1000000) else none
  tags := key.tags

namespace KeyDocument

/-- `FromDocument` into a record that is built now. -/
def toKey (document : KeyDocument) (oid : Str) (now : TimePoint) : Key where
  oid := oid
  region := document.region
  keyId := document.keyId
  keyUsage := document.keyUsage
  keySpec := document.keySpec
  keyState := document.keyState
  arn := document.arn
  aes256Key := document.aes256Key
  aes256Iv := document.aes256Iv
  rsaPrivateKey := document.rsaPrivateKey
  rsaPublicKey := document.rsaPublicKey
  hmac224Key := document.hmac224Key
  hmac256Key := document.hmac256Key
  hmac384Key := document.hmac384Key
  hmac512Key := document.hmac512Key
  tags := document.tags
  pendingWindowInDays := document.pendingWindowInDays
  scheduledDeletion := document.scheduledDeletion.elim now (· * 1000000)

/-- The string under a name at the top of the document. -/
def string (document : KeyDocument) (name : Str) : Option Str :=
  [(str "region", document.region), (str "arn", document.arn), (str "keyId", document.keyId),
    (str "keyUsage", document.keyUsage), (str "keySpec", document.keySpec), (str "keyState", document.keyState),
    (str "aes256Key", document.aes256Key), (str "aes256Iv", document.aes256Iv),
    (str "hmac224Key", document.hmac224Key), (str "hmac256Key", document.hmac256Key),
    (str "hmac384Key", document.hmac384Key), (str "hmac512Key", document.hmac512Key),
    (str "rsaPrivateKey", document.rsaPrivateKey), (str "rsaPublicKey", document.rsaPublicKey)].lookup name

end KeyDocument

end AwsMock.Kms
