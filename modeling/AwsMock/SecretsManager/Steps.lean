import AwsMock.SecretsManager.Service

/-!
# What the requests do

Closed forms of the store's methods and of the requests that run alone.
-/

namespace AwsMock.SecretsManager

open Lib

namespace SecretsManagerMemoryDb

variable {db : SecretsManagerMemoryDb} {k secretId : Str} {secret : Secret}

theorem find_some (h : db.find secretId = some (k, secret)) :
    db.secrets.get? k = some secret ∧ secret.secretId = secretId := by
  obtain ⟨hget, hid⟩ := OrderedMap.findIf_some h
  exact ⟨hget, of_decide_eq_true hid⟩

theorem secretExists_of_find (h : db.find secretId = some (k, secret)) : db.secretExists secretId = true := by
  rw [secretExists, h]
  rfl

theorem secretExists_eq_false : db.secretExists secretId = false ↔ db.find secretId = none := by
  rw [secretExists, Option.isSome_eq_false_iff, Option.isNone_iff_eq_none]

/-- A record of the same id takes the place of the one found. -/
theorem find_insert (h : db.find secretId = some (k, secret)) (secret' : Secret) (hid : secret'.secretId = secretId) :
    SecretsManagerMemoryDb.find ⟨db.secrets.insert k secret'⟩ secretId = some (k, secret') :=
  OrderedMap.findIf_insert_front (decide_eq_true hid) fun _ _ hget hp => OrderedMap.findIf_le h hget hp

theorem getSecretBySecretId_found (h : db.find secretId = some (k, secret)) :
    db.getSecretBySecretId secretId = ({ secret with oid := k }, ⟨db.secrets.insert k { secret with oid := k }⟩) := by
  rw [getSecretBySecretId, h]
  rfl

theorem updateSecret_found {secret' : Secret} (h : db.find secret'.secretId = some (k, secret)) :
    db.updateSecret secret' = some (secret', ⟨db.secrets.insert k secret'⟩) := by
  rw [updateSecret, h]
  rfl

/-- A record that was read is written back. -/
theorem updateSecret_fetched (h : db.find secretId = some (k, secret)) (secret' : Secret)
    (hid : secret'.secretId = secretId) :
    SecretsManagerMemoryDb.updateSecret ⟨db.secrets.insert k { secret with oid := k }⟩ secret' =
      some (secret', ⟨db.secrets.insert k secret'⟩) := by
  have hfetched := find_insert h { secret with oid := k } (find_some h).2
  rw [← hid] at hfetched
  rw [updateSecret_found hfetched, OrderedMap.insert_insert]

theorem createSecret_eq (db : SecretsManagerMemoryDb) (oid : Str) (secret : Secret) :
    db.createSecret oid secret = ({ secret with oid := oid },
      ⟨db.secrets.insert oid { secret with oid := oid }⟩) := by
  have h : (db.secrets.insert oid secret).get? oid = some secret := by simp
  simp only [createSecret, getSecretById, OrderedMap.findIf_key h, fetchSecret, OrderedMap.insert_insert]

end SecretsManagerMemoryDb

/-! ### Requests that run alone -/

variable {env : Env} {rt : Runtime} {w : World} {k : Str} {secret : Secret}

/-- An update of a stored secret. -/
theorem run_updateSecret {request : UpdateSecretRequest} (h : w.db.find request.secretId = some (k, secret)) :
    (updateSecret request).run (exec rt) w =
      some (.ok { region := secret.region, name := secret.name, arn := secret.arn, versionId := secret.versionId },
        { db := ⟨w.db.secrets.insert k { secret with
            oid := k, kmsKeyId := request.kmsKeyId, secretString := request.secretString,
            secretBinary := request.secretBinary, description := request.description,
            lastChangedDate := rt.now (w.calls + 2) }⟩, calls := w.calls + 4 }) := by
  have hexists := SecretsManagerMemoryDb.secretExists_of_find h
  simp only [updateSecret, Prog.run_perform_bind, exec, SecretCall.apply, hexists, Option.map_some, Option.bind_some,
    if_true, guarded, Prog.run_mapThrow, SecretsManagerMemoryDb.getSecretBySecretId_found h,
    SecretsManagerMemoryDb.updateSecret_fetched h { secret with
      oid := k, kmsKeyId := request.kmsKeyId, secretString := request.secretString,
      secretBinary := request.secretBinary, description := request.description,
      lastChangedDate := rt.now (w.calls + 2) } (SecretsManagerMemoryDb.find_some h).2]
  rfl

theorem run_rotateSecret {request : RotateSecretRequest} (h : w.db.find request.secretId = some (k, secret)) :
    (rotateSecret request).run (exec rt) w = some (.ok { region := secret.region, arn := secret.arn },
      { db := ⟨w.db.secrets.insert k { secret with oid := k, lastRotatedDate := rt.now (w.calls + 2) }⟩,
        calls := w.calls + 4 }) := by
  have hexists := SecretsManagerMemoryDb.secretExists_of_find h
  simp only [rotateSecret, Prog.run_perform_bind, exec, SecretCall.apply, hexists, Option.map_some, Option.bind_some,
    if_true, guarded, Prog.run_mapThrow, SecretsManagerMemoryDb.getSecretBySecretId_found h,
    SecretsManagerMemoryDb.updateSecret_fetched h { secret with
      oid := k, lastRotatedDate := rt.now (w.calls + 2) } (SecretsManagerMemoryDb.find_some h).2]
  rfl

/-- A secret without a string is read back as one without a value. -/
theorem run_getSecretValue_binary {request : GetSecretValueRequest}
    (h : w.db.find request.secretId = some (k, secret)) (hstring : secret.secretString = []) :
    (getSecretValue request).run (exec rt) w =
      some (.ok { name := secret.name, arn := secret.arn, versionId := secret.versionId },
        { db := ⟨w.db.secrets.insert k { secret with oid := k, lastAccessedDate := rt.now (w.calls + 2) }⟩,
          calls := w.calls + 4 }) := by
  have hexists := SecretsManagerMemoryDb.secretExists_of_find h
  have hnone : ¬ secret.secretString ≠ [] := not_not.mpr hstring
  simp only [getSecretValue, Prog.run_perform_bind, exec, SecretCall.apply, hexists, Option.map_some, Option.bind_some,
    if_true, guarded, Prog.run_mapThrow, SecretsManagerMemoryDb.getSecretBySecretId_found h, if_neg hnone,
    Prog.pure_bind,
    SecretsManagerMemoryDb.updateSecret_fetched h { secret with
      oid := k, lastAccessedDate := rt.now (w.calls + 2) } (SecretsManagerMemoryDb.find_some h).2]
  rfl

/-- A secret with a string is read from the freed buffer. -/
theorem run_getSecretValue_string {request : GetSecretValueRequest}
    (h : w.db.find request.secretId = some (k, secret)) (hstring : secret.secretString ≠ []) :
    (getSecretValue request).run (exec rt) w = (rt.freed (w.calls + 2) secret.secretString).map fun plaintext =>
      (.ok { name := secret.name, arn := secret.arn, versionId := secret.versionId, secretString := plaintext },
        { db := ⟨w.db.secrets.insert k { secret with oid := k, lastAccessedDate := rt.now (w.calls + 3) }⟩,
          calls := w.calls + 5 }) := by
  have hexists := SecretsManagerMemoryDb.secretExists_of_find h
  simp only [getSecretValue, Prog.run_perform_bind, exec, SecretCall.apply, hexists, Option.map_some, Option.bind_some,
    if_true, guarded, Prog.run_mapThrow, SecretsManagerMemoryDb.getSecretBySecretId_found h, ne_eq, hstring,
    not_false_eq_true]
  rcases rt.freed (w.calls + 2) secret.secretString with _ | plaintext
  · rfl
  · simp only [Option.map_some, Option.bind_some,
      SecretsManagerMemoryDb.updateSecret_fetched h { secret with
        oid := k, lastAccessedDate := rt.now (w.calls + 3) } (SecretsManagerMemoryDb.find_some h).2]
    rfl

/-- A request for a secret that is not stored. -/
theorem run_getSecretValue_missing {request : GetSecretValueRequest} (h : w.db.secretExists request.secretId = false) :
    (getSecretValue request).run (exec rt) w =
      some (.error (.serviceException (secretDoesNotExist request.secretId)), { w with calls := w.calls + 1 }) := by
  simp only [getSecretValue, Prog.run_perform_bind, exec, SecretCall.apply, h]
  rfl

theorem run_updateSecret_missing {request : UpdateSecretRequest} (h : w.db.secretExists request.secretId = false) :
    (updateSecret request).run (exec rt) w =
      some (.error (.serviceException (secretDoesNotExist request.secretId)), { w with calls := w.calls + 1 }) := by
  simp only [updateSecret, Prog.run_perform_bind, exec, SecretCall.apply, h]
  rfl

theorem run_rotateSecret_missing {request : RotateSecretRequest} (h : w.db.secretExists request.secretId = false) :
    (rotateSecret request).run (exec rt) w =
      some (.error (.pocoException (secretDoesNotExist request.secretId)), { w with calls := w.calls + 1 }) := by
  simp only [rotateSecret, Prog.run_perform_bind, exec, SecretCall.apply, h]
  rfl

/-- The record that a creation stores. -/
def createdSecret (env : Env) (rt : Runtime) (n : Nat) (request : CreateSecretRequest) : Secret where
  oid := rt.uuid (n + 4)
  region := request.region
  name := request.name
  arn := createSecretArn request.region env.accountId (request.name ++ str "-" ++ rt.hexString (n + 2))
  secretId := request.name ++ str "-" ++ rt.hexString (n + 2)
  secretString := if request.secretString ≠ [] then
    env.base64Encode (env.aes256Encrypt (request.secretString.takeWhile (· ≠ 0))) else []
  secretBinary := if request.secretString ≠ [] then [] else request.secretBinary
  versionId := rt.uuid (n + 1)
  createdDate := rt.now (n + 3)

/-- A secret is created with a string or a binary, or the request fails and leaves the store alone. -/
theorem run_createSecret (env : Env) (rt : Runtime) (w : World) (request : CreateSecretRequest) :
    (∃ e, (createSecret env request).run (exec rt) w = some (.error e, { w with calls := w.calls + 1 })) ∨
    (request.secretString ≠ [] ∨ request.secretBinary ≠ []) ∧
      (createSecret env request).run (exec rt) w =
        some (.ok { region := request.region, name := request.name, arn := (createdSecret env rt w.calls request).arn,
                    versionId := (createdSecret env rt w.calls request).versionId },
          { db := ⟨w.db.secrets.insert (rt.uuid (w.calls + 4)) (createdSecret env rt w.calls request)⟩,
            calls := w.calls + 5 }) := by
  simp only [createSecret, Prog.run_perform_bind, exec, SecretCall.apply, Option.map_some, Option.bind_some]
  by_cases hexists : w.db.secretNameExists request.region request.name = true
  · rw [if_pos hexists]
    exact Or.inl ⟨_, rfl⟩
  rw [if_neg hexists]
  by_cases hboth : request.secretString ≠ [] ∧ request.secretBinary ≠ []
  · rw [if_pos hboth]
    exact Or.inl ⟨_, rfl⟩
  rw [if_neg hboth]
  by_cases hnone : request.secretString = [] ∧ request.secretBinary = []
  · rw [if_pos hnone]
    exact Or.inl ⟨_, rfl⟩
  rw [if_neg hnone]
  refine Or.inr ⟨not_and_or.mp hnone, ?_⟩
  simp only [guarded, Prog.run_mapThrow, Prog.run_perform_bind, exec, SecretCall.apply, Option.map_some,
    Option.bind_some, SecretsManagerMemoryDb.createSecret_eq]
  rfl

end AwsMock.SecretsManager
