import AwsMock.Lib.Bytes
import AwsMock.Lib.OrderedMap

/-!
# Secrets

`Database::Entity::SecretsManager::Secret`, without the fields that only `ListSecrets` copies.
-/

namespace AwsMock.SecretsManager

open Lib

structure Secret where
  oid : Str := []
  region : Str := []
  name : Str := []
  arn : Str := []
  secretId : Str := []
  kmsKeyId : Str := []
  secretString : Str := []
  secretBinary : Str := []
  versionId : Str := []
  description : Str := []
  createdDate : Int := 0
  lastAccessedDate : Int := 0
  lastChangedDate : Int := 0
  lastRotatedDate : Int := 0
  deriving DecidableEq

end AwsMock.SecretsManager
