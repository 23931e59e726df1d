import AwsMock.Lib.Machine
import AwsMock.SecretsManager.Steps

/-!
# Reading secrets back

Requests one after the other, with the value that was last stored under each ARN beside the store. A
secret string is read from a buffer that is freed already, a binary is not returned at all, and an update
stores every field that it omits as an empty one.
-/

namespace AwsMock.SecretsManager

open Lib

inductive SecretRequest where
  | createSecret (request : CreateSecretRequest)
  | getSecretValue (request : GetSecretValueRequest)
  | updateSecret (request : UpdateSecretRequest)
  | rotateSecret (request : RotateSecretRequest)

inductive SecretResponse where
  | created (response : CreateSecretResponse)
  | value (response : GetSecretValueResponse)
  | updated (response : UpdateSecretResponse)
  | rotated (response : RotateSecretResponse)
  deriving DecidableEq

def SecretRequest.program (env : Env) : SecretRequest → SecretProg SecretResponse
  | createSecret request => do return .created (← SecretsManager.createSecret env request)
  | getSecretValue request => do return .value (← SecretsManager.getSecretValue request)
  | updateSecret request => do return .updated (← SecretsManager.updateSecret request)
  | rotateSecret request => do return .rotated (← SecretsManager.rotateSecret request)

/-! ### What was stored last -/

structure SecretValue where
  secretString : Str := []
  secretBinary : Str := []
  deriving DecidableEq

/-- The fields that are given replace the old ones. -/
def UpdateSecretRequest.onto (request : UpdateSecretRequest) (value : SecretValue) : SecretValue where
  secretString := if request.secretString = [] then value.secretString else request.secretString
  secretBinary := if request.secretBinary = [] then value.secretBinary else request.secretBinary

/-- The values stored last, by ARN. -/
abbrev LastValues := Str → Option SecretValue

/-- A request that succeeds stores its value. -/
def remember (last : LastValues) : SecretRequest → Except Error SecretResponse → LastValues
  | .createSecret request, .ok (.created response) =>
    Function.update last response.arn (some ⟨request.secretString, request.secretBinary⟩)
  | .updateSecret request, .ok (.updated response) =>
    Function.update last response.arn (some (request.onto ((last response.arn).getD {})))
  | _, _ => last

/-- The store and the values stored last. -/
structure Session where
  world : World := {}
  last : LastValues := fun _ => none

/-- A request served alone. -/
def serve (env : Env) (rt : Runtime) (request : SecretRequest) (x : Session) : Option Session :=
  ((request.program env).run (exec rt) x.world).map fun r => ⟨r.2, remember x.last request r.1⟩

/-- The fields that an update omits are unchanged. -/
structure KeepsOmitted (request : UpdateSecretRequest) (before after : Secret) : Prop where
  kmsKeyId : request.kmsKeyId = [] → after.kmsKeyId = before.kmsKeyId
  description : request.description = [] → after.description = before.description
  secretString : request.secretString = [] → after.secretString = before.secretString
  secretBinary : request.secretBinary = [] → after.secretBinary = before.secretBinary

/-- What a request has to do: a read that succeeds returns the value stored last, and an update leaves the fields it
    omits unchanged. -/
def Honours (request : SecretRequest) (x : Session) (outcome : Except Error SecretResponse) (w : World) : Prop :=
  match request, outcome with
  | .getSecretValue _, .ok (.value response) =>
    x.last response.arn = some ⟨response.secretString, response.secretBinary⟩
  | .updateSecret request, .ok _ => ∀ before after, x.world.db.find request.secretId = some before →
      w.db.find request.secretId = some after → KeepsOmitted request before.2 after.2
  | _, _ => True

/-- A step that is defined and does what it has to. -/
def ReadsBack (env : Env) (rt : Runtime) (request : SecretRequest) (x : Session) : Prop :=
  ∃ outcome w, (request.program env).run (exec rt) x.world = some (outcome, w) ∧ Honours request x outcome w

/-- The fields that an update omits are empty already. -/
structure OmitsEmpty (request : UpdateSecretRequest) (secret : Secret) : Prop where
  kmsKeyId : request.kmsKeyId = [] → secret.kmsKeyId = []
  description : request.description = [] → secret.description = []
  secretString : request.secretString = [] → secret.secretString = []
  secretBinary : request.secretBinary = [] → secret.secretBinary = []

/-- No stored secret is read, and an update gives every field that its secret has. -/
def Fits (request : SecretRequest) (x : Session) : Prop :=
  match request with
  | .getSecretValue request => x.world.db.secretExists request.secretId = false
  | .updateSecret request => ∀ it, x.world.db.find request.secretId = some it → OmitsEmpty request it.2
  | _ => True

/-! ### The invariant -/

/-- Every stored secret has a value. -/
def Valued (x : Session) : Prop :=
  ∀ k secret, x.world.db.secrets.get? k = some secret → ∃ value, x.last secret.arn = some value ∧
    (value.secretString ≠ [] ∨ value.secretBinary ≠ [])

variable {env : Env} {rt : Runtime} {request : SecretRequest} {x y : Session}

/-- What a served request leaves: the store, but for the `oid`s and dates, and the values; or a new secret with its
    value; or a changed secret and what its update makes of its value. -/
theorem serve_cases (h : serve env rt request x = some y) :
    (y.world.db = x.world.db ∧ y.last = x.last) ∨
    (∃ k secret value, y.world.db = ⟨x.world.db.secrets.insert k secret⟩ ∧
      y.last = Function.update x.last secret.arn (some value) ∧ (value.secretString ≠ [] ∨ value.secretBinary ≠ [])) ∨
    ∃ k secret secret', x.world.db.secrets.get? k = some secret ∧
      y.world.db = ⟨x.world.db.secrets.insert k secret'⟩ ∧ secret'.arn = secret.arn ∧
      (y.last = x.last ∨ ∃ update : UpdateSecretRequest, y.last = Function.update x.last secret.arn
        (some (update.onto ((x.last secret.arn).getD {})))) := by
  obtain ⟨⟨outcome, w⟩, hrun, rfl⟩ := Option.map_eq_some_iff.mp h
  cases request with
  | createSecret request =>
    simp only [SecretRequest.program, Prog.run_bind_pure] at hrun
    rcases run_createSecret env rt x.world request with ⟨e, hrun'⟩ | ⟨hvalue, hrun'⟩ <;> rw [hrun'] at hrun <;>
      cases hrun
    · exact Or.inl ⟨rfl, rfl⟩
    · exact Or.inr (Or.inl ⟨_, _, _, rfl, rfl, hvalue⟩)
  | getSecretValue request =>
    simp only [SecretRequest.program, Prog.run_bind_pure] at hrun
    rcases hfind : x.world.db.find request.secretId with _ | ⟨k, secret⟩
    · rw [run_getSecretValue_missing (SecretsManagerMemoryDb.secretExists_eq_false.mpr hfind)] at hrun
      cases hrun
      exact Or.inl ⟨rfl, rfl⟩
    · have hget := (SecretsManagerMemoryDb.find_some hfind).1
      by_cases hstring : secret.secretString = []
      · rw [run_getSecretValue_binary hfind hstring] at hrun
        cases hrun
        exact Or.inr (Or.inr ⟨k, secret, _, hget, rfl, rfl, Or.inl rfl⟩)
      · rw [run_getSecretValue_string hfind hstring, Option.map_map] at hrun
        obtain ⟨plaintext, -, hrun⟩ := Option.map_eq_some_iff.mp hrun
        cases hrun
        exact Or.inr (Or.inr ⟨k, secret, _, hget, rfl, rfl, Or.inl rfl⟩)
  | updateSecret request =>
    simp only [SecretRequest.program, Prog.run_bind_pure] at hrun
    rcases hfind : x.world.db.find request.secretId with _ | ⟨k, secret⟩
    · rw [run_updateSecret_missing (SecretsManagerMemoryDb.secretExists_eq_false.mpr hfind)] at hrun
      cases hrun
      exact Or.inl ⟨rfl, rfl⟩
    · rw [run_updateSecret hfind] at hrun
      cases hrun
      exact Or.inr (Or.inr ⟨k, secret, _, (SecretsManagerMemoryDb.find_some hfind).1, rfl, rfl,
        Or.inr ⟨request, rfl⟩⟩)
  | rotateSecret request =>
    simp only [SecretRequest.program, Prog.run_bind_pure] at hrun
    rcases hfind : x.world.db.find request.secretId with _ | ⟨k, secret⟩
    · rw [run_rotateSecret_missing (SecretsManagerMemoryDb.secretExists_eq_false.mpr hfind)] at hrun
      cases hrun
      exact Or.inl ⟨rfl, rfl⟩
    · rw [run_rotateSecret hfind] at hrun
      cases hrun
      exact Or.inr (Or.inr ⟨k, secret, _, (SecretsManagerMemoryDb.find_some hfind).1, rfl, rfl, Or.inl rfl⟩)

/-- An update leaves a value. -/
theorem onto_ne {value : SecretValue} (h : value.secretString ≠ [] ∨ value.secretBinary ≠ [])
    (update : UpdateSecretRequest) : (update.onto value).secretString ≠ [] ∨ (update.onto value).secretBinary ≠ [] := by
  rcases h with h | h
  · refine Or.inl ?_
    simp only [UpdateSecretRequest.onto]
    split_ifs with hgiven
    · exact h
    · exact hgiven
  · refine Or.inr ?_
    simp only [UpdateSecretRequest.onto]
    split_ifs with hgiven
    · exact h
    · exact hgiven

/-- A value under an ARN leaves the values. -/
theorem Valued.update (hx : Valued x) {db : SecretsManagerMemoryDb} {calls : Nat} {arn : Str} {value : SecretValue}
    (hvalue : value.secretString ≠ [] ∨ value.secretBinary ≠ [])
    (hdb : ∀ k secret, db.secrets.get? k = some secret → secret.arn = arn ∨
      ∃ old, x.world.db.secrets.get? k = some old ∧ secret.arn = old.arn) :
    Valued ⟨⟨db, calls⟩, Function.update x.last arn (some value)⟩ := by
  intro k secret hget
  rcases eq_or_ne secret.arn arn with harn | harn
  · exact ⟨value, (congrArg _ harn).trans (Function.update_self ..), hvalue⟩
  · obtain ⟨old, hold, hsame⟩ := (hdb k secret hget).resolve_left harn
    obtain ⟨value', hlast, hvalue'⟩ := hx k old hold
    exact ⟨value', (Function.update_of_ne harn _ _).trans (by rw [hsame]; exact hlast), hvalue'⟩

theorem Valued.step (hx : Valued x) (h : serve env rt request x = some y) : Valued y := by
  obtain ⟨⟨db, calls⟩, last⟩ := y
  rcases serve_cases h with ⟨hdb, hlast⟩ | ⟨k, secret, value, hdb, hlast, hvalue⟩ |
    ⟨k, secret, secret', hget, hdb, harn, hlast⟩
  · obtain rfl := hdb
    obtain rfl := hlast
    exact hx
  · obtain rfl := hdb
    obtain rfl := hlast
    refine hx.update hvalue fun j record hrecord => ?_
    rw [OrderedMap.get?_insert] at hrecord
    split at hrecord
    · cases hrecord
      exact Or.inl rfl
    · exact Or.inr ⟨record, hrecord, rfl⟩
  · obtain rfl := hdb
    have hkept : ∀ j record, (x.world.db.secrets.insert k secret').get? j = some record →
        ∃ old, x.world.db.secrets.get? j = some old ∧ record.arn = old.arn := by
      intro j record hrecord
      rw [OrderedMap.get?_insert] at hrecord
      split at hrecord
      · next hj =>
        cases hrecord
        exact ⟨secret, hj ▸ hget, harn⟩
      · exact ⟨record, hrecord, rfl⟩
    rcases hlast with rfl | ⟨update, rfl⟩
    · intro j record hrecord
      obtain ⟨old, hold, hsame⟩ := hkept j record hrecord
      rw [hsame]
      exact hx j old hold
    · obtain ⟨value, hvalue, hne⟩ := hx k secret hget
      refine hx.update ?_ fun j record hrecord => Or.inr (hkept j record hrecord)
      rw [hvalue]
      exact onto_ne hne update

/-! ### One request -/

/-- What the freed buffer holds does not matter to a request that does not read it. -/
theorem serve_congr (h : Fits request x) (freed : Nat → Str → Option Str) :
    serve env { rt with freed := freed } request x = serve env rt request x := by
  have hsame : ∀ c (w : World), (∀ ciphertext, c ≠ .aes256DecryptFreed ciphertext) →
      exec { rt with freed := freed } c w = exec rt c w := by
    intro c w hc
    cases c with
    | aes256DecryptFreed ciphertext => exact absurd rfl (hc ciphertext)
    | _ => rfl
  refine congrArg (Option.map _) ?_
  cases request with
  | getSecretValue request =>
    simp only [SecretRequest.program, Prog.run_bind_pure, run_getSecretValue_missing h]
  | createSecret request =>
    refine Prog.Only.run_congr (fun c w hc => hsame c w hc) (Prog.only_bind ?_ fun _ => Prog.only_pure _) _
    refine Prog.only_bind (Prog.only_perform nofun) fun found => ?_
    split
    · exact Prog.only_throw _
    split
    · exact Prog.only_throw _
    split
    · exact Prog.only_throw _
    · refine Prog.only_mapThrow (Prog.only_bind (Prog.only_perform nofun) fun _ => ?_)
      refine Prog.only_bind (Prog.only_perform nofun) fun _ => Prog.only_bind (Prog.only_perform nofun) fun _ => ?_
      exact Prog.only_bind (Prog.only_perform nofun) fun _ => Prog.only_pure _
  | updateSecret request =>
    refine Prog.Only.run_congr (fun c w hc => hsame c w hc) (Prog.only_bind ?_ fun _ => Prog.only_pure _) _
    refine Prog.only_bind (Prog.only_perform nofun) fun found => ?_
    split_ifs
    · refine Prog.only_mapThrow (Prog.only_bind (Prog.only_perform nofun) fun _ => ?_)
      refine Prog.only_bind (Prog.only_perform nofun) fun _ => Prog.only_bind (Prog.only_perform nofun) fun _ => ?_
      exact Prog.only_pure _
    · exact Prog.only_throw _
  | rotateSecret request =>
    refine Prog.Only.run_congr (fun c w hc => hsame c w hc) (Prog.only_bind ?_ fun _ => Prog.only_pure _) _
    refine Prog.only_bind (Prog.only_perform nofun) fun found => ?_
    split_ifs
    · refine Prog.only_mapThrow (Prog.only_bind (Prog.only_perform nofun) fun _ => ?_)
      refine Prog.only_bind (Prog.only_perform nofun) fun _ => Prog.only_bind (Prog.only_perform nofun) fun _ => ?_
      exact Prog.only_pure _
    · exact Prog.only_throw _

theorem readsBack_of_fits (h : Fits request x) : ReadsBack env rt request x := by
  unfold ReadsBack
  cases request with
  | createSecret request =>
    simp only [SecretRequest.program, Prog.run_bind_pure]
    rcases run_createSecret env rt x.world request with ⟨e, hrun⟩ | ⟨-, hrun⟩
    · rw [hrun]
      exact ⟨_, _, rfl, trivial⟩
    · rw [hrun]
      exact ⟨_, _, rfl, trivial⟩
  | getSecretValue request =>
    simp only [SecretRequest.program, Prog.run_bind_pure]
    rw [run_getSecretValue_missing h]
    exact ⟨_, _, rfl, trivial⟩
  | updateSecret request =>
    simp only [SecretRequest.program, Prog.run_bind_pure]
    rcases hfind : x.world.db.find request.secretId with _ | ⟨k, secret⟩
    · rw [run_updateSecret_missing (SecretsManagerMemoryDb.secretExists_eq_false.mpr hfind)]
      exact ⟨_, _, rfl, trivial⟩
    · rw [run_updateSecret hfind]
      refine ⟨_, _, rfl, fun before after hbefore hafter => ?_⟩
      obtain rfl : (k, secret) = before := Option.some_inj.mp (hfind.symm.trans hbefore)
      have hstored := SecretsManagerMemoryDb.find_insert hfind { secret with
        oid := k, kmsKeyId := request.kmsKeyId, secretString := request.secretString,
        secretBinary := request.secretBinary, description := request.description,
        lastChangedDate := rt.now (x.world.calls + 2) } (SecretsManagerMemoryDb.find_some hfind).2
      obtain rfl := Option.some_inj.mp (hstored.symm.trans hafter)
      have homits := h _ hfind
      exact ⟨fun hnil => hnil.trans (homits.kmsKeyId hnil).symm, fun hnil => hnil.trans (homits.description hnil).symm,
        fun hnil => hnil.trans (homits.secretString hnil).symm, fun hnil => hnil.trans (homits.secretBinary hnil).symm⟩
  | rotateSecret request =>
    simp only [SecretRequest.program, Prog.run_bind_pure]
    rcases hfind : x.world.db.find request.secretId with _ | ⟨k, secret⟩
    · rw [run_rotateSecret_missing (SecretsManagerMemoryDb.secretExists_eq_false.mpr hfind)]
      exact ⟨_, _, rfl, trivial⟩
    · rw [run_rotateSecret hfind]
      exact ⟨_, _, rfl, trivial⟩

/-- Where the buffer cannot be read, no stored secret is read back. -/
theorem fits_of_readsBack (hx : Valued x) (h : ReadsBack env { rt with freed := fun _ _ => none } request x) :
    Fits request x := by
  obtain ⟨outcome, w, hrun, hhonours⟩ := h
  cases request with
  | createSecret request => trivial
  | rotateSecret request => trivial
  | getSecretValue request =>
    refine SecretsManagerMemoryDb.secretExists_eq_false.mpr ?_
    rcases hfind : x.world.db.find request.secretId with _ | ⟨k, secret⟩
    · rfl
    simp only [SecretRequest.program, Prog.run_bind_pure] at hrun
    by_cases hstring : secret.secretString = []
    · rw [run_getSecretValue_binary hfind hstring] at hrun
      cases hrun
      -- the response has no value, the secret has one
      obtain ⟨value, hlast, hne⟩ := hx k secret (SecretsManagerMemoryDb.find_some hfind).1
      cases hlast.symm.trans hhonours
      simp at hne
    · rw [run_getSecretValue_string hfind hstring] at hrun
      cases hrun
  | updateSecret request =>
    intro it hit
    obtain ⟨k, secret⟩ := it
    simp only [SecretRequest.program, Prog.run_bind_pure, run_updateSecret hit, Option.map_some] at hrun
    cases hrun
    have hkept := hhonours _ _ hit (SecretsManagerMemoryDb.find_insert hit _ (SecretsManagerMemoryDb.find_some hit).2)
    exact ⟨fun hnil => (hkept.kmsKeyId hnil).symm.trans hnil, fun hnil => (hkept.description hnil).symm.trans hnil,
      fun hnil => (hkept.secretString hnil).symm.trans hnil, fun hnil => (hkept.secretBinary hnil).symm.trans hnil⟩

/-! ### Every sequence of requests -/

theorem valued_start : Valued {} := by
  intro k secret hget
  cases hget

/-- Whatever the freed buffer holds, every read returns the value stored last and every update leaves the fields it
    omits unchanged: exactly when no stored secret is read, and no update omits a field that its secret has. -/
theorem secret_readBack_iff (env : Env) (rt : Runtime) (requests : List SecretRequest) :
    (∀ freed, Along (serve env { rt with freed := freed }) (ReadsBack env { rt with freed := freed }) requests {}) ↔
      Along (serve env rt) Fits requests {} := by
  constructor
  · intro h
    have hfits : Along (serve env { rt with freed := fun _ _ => none }) Fits requests {} :=
      along_of_along (I := Valued) (fun _ hstep hx => hx.step hstep) (fun hread hx => fits_of_readsBack hx hread)
        (h fun _ _ => none) valued_start
    exact (along_congr fun hfit => serve_congr hfit _).mp hfits
  · intro h freed
    exact along_of_along (I := fun _ => True) (fun _ _ _ => trivial) (fun hfit _ => readsBack_of_fits hfit)
      ((along_congr fun hfit => serve_congr hfit _).mpr h) trivial

/-! ### Values that are lost -/

/-- The first secret has the id `s-aa`. -/
def sampleCreation : SecretRequest :=
  .createSecret { region := str "eu", name := str "s", secretBinary := str "AQID" }

/-- The binary is not returned, and an update of the description alone loses it. -/
theorem secret_value_lost :
    ¬ Along (serve .sample .counting) (ReadsBack .sample .counting)
        [sampleCreation, .getSecretValue { secretId := str "s-aa" }] {} ∧
    ¬ Along (serve .sample .counting) (ReadsBack .sample .counting)
        [sampleCreation, .updateSecret { secretId := str "s-aa", description := str "d" }] {} := by
  constructor
  · intro h
    obtain ⟨outcome, w, hrun, hhonours⟩ := (h.2 _ rfl).1
    cases hrun
    have hlast : some (SecretValue.mk [] (str "AQID")) = some {} := hhonours
    exact absurd hlast (by decide)
  · intro h
    obtain ⟨outcome, w, hrun, hhonours⟩ := (h.2 _ rfl).1
    cases hrun
    have hkept : [] = str "AQID" := (hhonours _ _ rfl rfl).secretBinary rfl
    exact absurd hkept (by decide)

end AwsMock.SecretsManager
