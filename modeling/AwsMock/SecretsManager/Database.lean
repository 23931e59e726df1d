import AwsMock.Core.Poco
import AwsMock.Lib.Prog
import AwsMock.SecretsManager.MemoryDb

/-!
# Calls of the Secrets Manager service

What the service asks of its store and draws from outside, each call atomic. `Runtime` holds what the
`n`-th call of a run draws.
-/

namespace AwsMock.SecretsManager

open Lib

/-- `freed n ciphertext` is what `GetSecretValue` gets for a secret string: it decrypts a buffer that is
    already freed, with a length that is not set. This is undefined: any string, or a crash, `none`. -/
structure Runtime where
  uuid : Nat → Str
  hexString : Nat → Str
  now : Nat → Int
  freed : Nat → Str → Option Str
  uuid_inj : ∀ {n m}, uuid n = uuid m → n = m

/-- A runtime that counts, in which reading the freed buffer crashes. -/
def Runtime.counting : Runtime where
  uuid n := List.replicate n (byte 'u')
  hexString n := List.replicate n (byte 'a')
  now n := n
  freed _ _ := none
  uuid_inj := @replicate_u_inj

inductive SecretCall where
  | epochTime
  | createRandom
  | generateRandomHexString
  | secretNameExists (region name : Str)
  | secretExists (secretId : Str)
  | getSecretByRegionName (region name : Str)
  | getSecretBySecretId (secretId : Str)
  | createSecret (secret : Secret)
  | updateSecret (secret : Secret)
  | deleteSecret (region name : Str)
  | aes256DecryptFreed (ciphertext : Str)
  deriving DecidableEq

/-- What a call returns. -/
abbrev SecretCall.Reply : SecretCall → Type
  | epochTime => Int
  | createRandom | generateRandomHexString | aes256DecryptFreed _ => Str
  | secretNameExists .. | secretExists _ => Bool
  | getSecretByRegionName .. | getSecretBySecretId _ | createSecret _ | updateSecret _ => Secret
  | deleteSecret .. => Unit

/-- The process: its store and the number of calls made so far. -/
structure World where
  db : SecretsManagerMemoryDb := {}
  calls : Nat := 0
  deriving DecidableEq

/-- The `n`-th call of a run. -/
def SecretCall.apply (rt : Runtime) (n : Nat) (db : SecretsManagerMemoryDb) :
    (c : SecretCall) → Option (c.Reply × SecretsManagerMemoryDb)
  | .epochTime => some (rt.now n, db)
  | .createRandom => some (rt.uuid n, db)
  | .generateRandomHexString => some (rt.hexString n, db)
  | .secretNameExists region name => some (db.secretNameExists region name, db)
  | .secretExists secretId => some (db.secretExists secretId, db)
  | .getSecretByRegionName region name => some (db.getSecretByRegionName region name)
  | .getSecretBySecretId secretId => some (db.getSecretBySecretId secretId)
  | .createSecret secret => some (db.createSecret (rt.uuid n) secret)
  | .updateSecret secret => db.updateSecret secret
  | .deleteSecret region name => some ((), db.deleteSecret region name)
  | .aes256DecryptFreed ciphertext => (rt.freed n ciphertext).map fun plaintext => (plaintext, db)

/-- The meaning of a call in the process. -/
def exec (rt : Runtime) : Prog.Exec SecretCall SecretCall.Reply World := fun c w =>
  (c.apply rt w.calls w.db).map fun r => (r.1, { db := r.2, calls := w.calls + 1 })

end AwsMock.SecretsManager
