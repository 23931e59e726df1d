import AwsMock.Lib.Edits
import AwsMock.Lib.Mirror
import AwsMock.Lib.Twin
import AwsMock.SecretsManager.Documents
import AwsMock.SecretsManager.Steps

/-!
# The two backends of the secrets manager

The requests to `SecretsManagerService` on the in-memory store and on the document database. The database asks more of
its callers: a secret that is read has to be there, and one deletion takes away one of several secrets of a name. The
service never gets that far.
-/

namespace AwsMock.SecretsManager

open Lib OrderedMap

/-! ### Requests -/

structure DescribeSecretRequest where
  secretId : Str

structure DescribeSecretResponse where
  region : Str
  name : Str
  arn : Str
  deriving DecidableEq

/-- A secret that is missing is a `NotFoundException`. -/
def describeSecret (request : DescribeSecretRequest) : SecretProg DescribeSecretResponse := do
  if ← call (.secretExists request.secretId) then guarded do
    let secret ← call (.getSecretBySecretId request.secretId)
    return { region := secret.region, name := secret.name, arn := secret.arn }
  else .throw (.pocoException (secretDoesNotExist request.secretId))

inductive ServiceRequest where
  | createSecret (request : CreateSecretRequest)
  | describeSecret (request : DescribeSecretRequest)
  | getSecretValue (request : GetSecretValueRequest)
  | updateSecret (request : UpdateSecretRequest)
  | rotateSecret (request : RotateSecretRequest)
  | deleteSecret (request : DeleteSecretRequest)

inductive ServiceResponse where
  | created (response : CreateSecretResponse)
  | described (response : DescribeSecretResponse)
  | value (response : GetSecretValueResponse)
  | updated (response : UpdateSecretResponse)
  | rotated (response : RotateSecretResponse)
  | deleted (response : DeleteSecretResponse)
  deriving DecidableEq

def ServiceRequest.program (env : Env) : ServiceRequest → SecretProg ServiceResponse
  | createSecret request => do return .created (← SecretsManager.createSecret env request)
  | describeSecret request => do return .described (← SecretsManager.describeSecret request)
  | getSecretValue request => do return .value (← SecretsManager.getSecretValue request)
  | updateSecret request => do return .updated (← SecretsManager.updateSecret request)
  | rotateSecret request => do return .rotated (← SecretsManager.rotateSecret request)
  | deleteSecret request => do return .deleted (← SecretsManager.deleteSecret request)

/-! ### The service on either store -/

/-- What the processes draw, by the number of calls made so far. `plaintext` is what a freed buffer that can still be
    read gives, the same in both. The id of a new secret is not that of an earlier one. -/
structure BackendRuntime where
  ids : ObjectIds
  hexString : Nat → Str
  now : Nat → Int
  plaintext : Nat → Str → Str
  secretId_inj : ∀ {name name' n m}, name ++ str "-" ++ hexString n = name' ++ str "-" ++ hexString m → n = m

def BackendRuntime.toRuntime (rt : BackendRuntime) : Runtime where
  uuid := rt.ids.map
  hexString := rt.hexString
  now := rt.now
  freed n ciphertext := some (rt.plaintext n ciphertext)
  uuid_inj := rt.ids.map_inj

structure MongoWorld where
  db : SecretsManagerMongoDb := {}
  calls : Nat := 0

/-- The meaning of a call in the process that has a document database. -/
def mongoExec (rt : BackendRuntime) : Prog.Exec SecretCall SecretCall.Reply MongoWorld := fun c w =>
  (c.applyMongo rt.toRuntime rt.ids.collection w.calls w.db).map fun r => (r.1, { db := r.2, calls := w.calls + 1 })

/-! ### What the stores have in common -/

def secretKeeping : Keeping Secret where
  keeps s := s.plain = s
  write s := some s.toDocument

theorem reads_secrets : secretKeeping.Reads Secret.fromDocument Secret.plain := by
  intro s oid fields hkeeps hwrite
  obtain rfl := Option.some.inj hwrite
  exact ⟨_, s.document_read oid, hkeeps⟩

theorem selects_name (region name : Str) : secretKeeping.Selects (SecretsManagerMongoDb.nameQuery region name)
    fun s => s.region = region ∧ s.name = name := by
  intro s oid fields _ hwrite
  obtain rfl := Option.some.inj hwrite
  rw [SecretsManagerMongoDb.nameQuery, Query.meets_equals_cons (by decide) (s := s.region) rfl,
    Query.meets_equals_cons (by decide) (s := s.name) rfl]
  simp [Query.equals]

theorem selects_id (secretId : Str) : secretKeeping.Selects (SecretsManagerMongoDb.idQuery secretId)
    fun s => s.secretId = secretId := by
  intro s oid fields _ hwrite
  obtain rfl := Option.some.inj hwrite
  rw [SecretsManagerMongoDb.idQuery, Query.meets_equals_cons (by decide) (s := s.secretId) rfl]
  simp [Query.equals]

/-- The name of a secret in its region, and its id. -/
def secretName (s : Secret) : (Str × Str) × Str := ((s.region, s.name), s.secretId)

/-- An id that was made with the string that the `i`-th call drew. -/
def SecretIdOf (rt : BackendRuntime) (i : Nat) (secretId : Str) : Prop :=
  ∃ name, secretId = name ++ str "-" ++ rt.hexString i

theorem SecretIdOf.inj {rt : BackendRuntime} {i j : Nat} {secretId : Str} (h : SecretIdOf rt i secretId)
    (h' : SecretIdOf rt j secretId) : i = j := by
  obtain ⟨name, hid⟩ := h
  obtain ⟨name', hid'⟩ := h'
  exact rt.secretId_inj (hid.symm.trans hid')

/-- Every secret is the only one of its name and of its id; the ids are from the first `n` calls. -/
structure Named (rt : BackendRuntime) (n : Nat) (secrets : OrderedMap Str Secret) : Prop where
  names : UniqueBy (fun s => (secretName s).1) secrets
  ids : UniqueBy (fun s => (secretName s).2) secrets
  drawn : ∀ oid s, secrets.get? oid = some s → ∃ i < n, SecretIdOf rt i (secretName s).2

/-- A secret of a new name, with an id that is drawn now. -/
def NewSecret (rt : BackendRuntime) (n n' : Nat) (secrets : OrderedMap Str Secret) (s : Secret) : Prop :=
  (∀ oid s', secrets.get? oid = some s' → (secretName s').1 ≠ (secretName s).1) ∧
    ∃ i, n ≤ i ∧ i < n' ∧ SecretIdOf rt i s.secretId

theorem Named.edit {rt : BackendRuntime} {n n' : Nat} {secrets secrets' : OrderedMap Str Secret}
    (h : Named rt n secrets) (hn : n ≤ n') (hedit : Edit secretName (NewSecret rt n n' secrets) secrets secrets') :
    Named rt n' secrets' where
  names := hedit.uniqueBy Prod.fst h.names fun _ hnew => hnew.1
  ids := hedit.uniqueBy_drawn Prod.snd (SecretIdOf rt) SecretIdOf.inj h.ids h.drawn fun _ hnew => hnew.2
  drawn := hedit.drawn Prod.snd (SecretIdOf rt) hn h.drawn fun _ hnew => hnew.2

theorem Named.one_name {rt : BackendRuntime} {n : Nat} {secrets : OrderedMap Str Secret} (h : Named rt n secrets)
    {region name k k' : Str} {s s' : Secret} (hs : secrets.get? k = some s) (hs' : secrets.get? k' = some s')
    (hname : decide (s.region = region ∧ s.name = name) = true)
    (hname' : decide (s'.region = region ∧ s'.name = name) = true) : k = k' := by
  obtain ⟨hregion, hname⟩ := of_decide_eq_true hname
  obtain ⟨hregion', hname'⟩ := of_decide_eq_true hname'
  exact h.names k k' s s' hs hs' (Prod.ext (hregion.trans hregion'.symm) (hname.trans hname'.symm))

theorem Named.one_id {rt : BackendRuntime} {n : Nat} {secrets : OrderedMap Str Secret} (h : Named rt n secrets)
    {secretId k k' : Str} {s s' : Secret} (hs : secrets.get? k = some s) (hs' : secrets.get? k' = some s')
    (hid : decide (s.secretId = secretId) = true) (hid' : decide (s'.secretId = secretId) = true) : k = k' :=
  h.ids k k' s s' hs hs' ((of_decide_eq_true hid).trans (of_decide_eq_true hid').symm)

/-- The stores have the same secrets, whose ids are from the first `n` calls. -/
structure Inv (rt : BackendRuntime) (n : Nat) (w : World) (w' : MongoWorld) : Prop where
  calls : w'.calls = w.calls
  started : n ≤ w.calls
  mirrors : Mirrors secretKeeping Secret.plain rt.ids w.calls w.db.secrets w'.db.secrets
  named : Named rt n w.db.secrets

/-- The stores have the same secrets, each with a name and an id of its own. -/
def InStep (rt : BackendRuntime) (w : World) (w' : MongoWorld) : Prop := ∃ n, Inv rt n w w'

/-- The same secret, but for the id of its record. -/
def Secret.Same (s s' : Secret) : Prop := ∃ oid, s' = { s with oid := oid }

theorem Secret.same_of_plain {s s' : Secret} (h : s.plain = s'.plain) : s.Same s' := by
  cases s
  cases s'
  simp only [Secret.plain, Secret.mk.injEq] at h
  obtain ⟨-, rfl, rfl, rfl, rfl, rfl, rfl, rfl, rfl, rfl, rfl, rfl, rfl, rfl⟩ := h
  exact ⟨_, rfl⟩

/-! ### The calls -/

section Calls

variable {rt : BackendRuntime} {n : Nat} {S : World → MongoWorld → Prop}

/-- What a call replies on the two stores, from states in `S`. -/
abbrev Answered (rt : BackendRuntime) (S : World → MongoWorld → Prop) (c c' : SecretCall) (P : c.Reply → c'.Reply → Prop)
    (Q : c.Reply → World → MongoWorld → Prop) : Prop :=
  Prog.Replies (exec rt.toRuntime) (mongoExec rt) S c c' P Q

theorem answered {c c' : SecretCall} {P : c.Reply → c'.Reply → Prop} {Q : c.Reply → World → MongoWorld → Prop}
    (hS : ∀ w w', S w w' → w'.calls = w.calls ∧ ∃ r r', c.apply rt.toRuntime w.calls w.db = some r ∧
      c'.applyMongo rt.toRuntime rt.ids.collection w.calls w'.db = some r' ∧ P r.1 r'.1 ∧
      Q r.1 { db := r.2, calls := w.calls + 1 } { db := r'.2, calls := w.calls + 1 }) : Answered rt S c c' P Q := by
  intro w w' hw
  obtain ⟨hcalls, r, r', hr, hr', hP, hQ⟩ := hS w w' hw
  refine ⟨(r.1, { db := r.2, calls := w.calls + 1 }), (r'.1, { db := r'.2, calls := w.calls + 1 }), ?_, ?_, hP, hQ⟩
  · rw [exec, hr, Option.map_some]
  · rw [mongoExec, hcalls, hr', Option.map_some]

/-- A value that is drawn: nothing is known of the stores but what was known before. -/
theorem answered_draw {c : SecretCall} (value : Nat → c.Reply)
    (happly : ∀ n db, c.apply rt.toRuntime n db = some (value n, db))
    (hmongo : ∀ n db, c.applyMongo rt.toRuntime rt.ids.collection n db = some (value n, db))
    (hS : ∀ w w', S w w' → Inv rt n w w' ∧ S { w with calls := w.calls + 1 } { w' with calls := w.calls + 1 }) :
    Answered rt S c c (· = ·) fun r w w' => S w w' ∧ ∃ i, n ≤ i ∧ i < w.calls ∧ r = value i := by
  refine answered fun w w' hw => ?_
  obtain ⟨hinv, hnext⟩ := hS w w' hw
  exact ⟨hinv.calls, _, _, happly _ _, hmongo _ _, rfl, hnext, w.calls, hinv.started, Nat.lt_succ_self _, rfl⟩

theorem Inv.tick {w : World} {w' : MongoWorld} (h : Inv rt n w w') :
    Inv rt n { w with calls := w.calls + 1 } { w' with calls := w.calls + 1 } :=
  ⟨rfl, Nat.le_succ_of_le h.started, h.mirrors.mono (Nat.le_succ _), h.named⟩

theorem answered_nameExists (region name : Str) :
    Answered rt (Inv rt n) (.secretNameExists region name) (.secretNameExists region name) (· = ·)
      fun r w w' => Inv rt n w w' ∧ w.db.secretNameExists region name = r :=
  answered fun _ _ h => ⟨h.calls, _, _, rfl, rfl,
    h.mirrors.findIf_isSome (selects_name region name) fun _ _ => rfl, h.tick, rfl⟩

theorem answered_exists (secretId : Str) :
    Answered rt (Inv rt n) (.secretExists secretId) (.secretExists secretId) (· = ·)
      fun r w w' => Inv rt n w w' ∧ w.db.secretExists secretId = r :=
  answered fun _ _ h => ⟨h.calls, _, _, rfl, rfl,
    h.mirrors.findIf_isSome (selects_id secretId) fun _ _ => rfl, h.tick, rfl⟩

/-- Both find the secret that is there. -/
theorem Inv.found {w : World} {w' : MongoWorld} {query : Query} {p : Secret → Bool} (h : Inv rt n w w')
    (hq : secretKeeping.Selects query p) (hp : ∀ s : Secret, p s.plain = p s)
    (hunique : ∀ k k' s s', w.db.secrets.get? k = some s → w.db.secrets.get? k' = some s' → p s = true →
      p s' = true → k = k')
    (hsome : (w.db.secrets.findIf fun _ s => p s).isSome = true) :
    ∃ oid s s', (w.db.secrets.findIf fun _ s => p s) = some (oid, s) ∧
      SecretsManagerMongoDb.readFound (w'.db.secrets.findOne query) = some s' ∧ s.Same s' ∧
      Inv rt n { db := ⟨w.db.secrets.insert oid { s with oid := oid }⟩, calls := w.calls + 1 }
        { w' with calls := w.calls + 1 } := by
  have hfirst := sameFirst_of_unique h.mirrors hq (fun v _ => hp v) reads_secrets hunique
  obtain ⟨⟨oid, s⟩, hfind⟩ := Option.isSome_iff_exists.mp hsome
  have hget := (findIf_some hfind).1
  rw [hfind, SameFirst, Option.map_some] at hfirst
  obtain ⟨s', hread, hplain⟩ := Option.map_eq_some_iff.mp hfirst.symm
  obtain ⟨doc, hdoc, hread⟩ := Option.bind_eq_some_iff.mp hread
  have hmirrors : Mirrors secretKeeping Secret.plain rt.ids w.calls (w.db.secrets.insert oid { s with oid := oid })
      w'.db.secrets := h.mirrors.touch hget rfl
  refine ⟨oid, s, s', hfind, ?_, Secret.same_of_plain hplain.symm, rfl, Nat.le_succ_of_le h.started,
    hmirrors.mono (Nat.le_succ _), h.named.edit (Nat.le_refl n) (.replace oid s _ hget rfl)⟩
  rw [hdoc]
  cases doc with
  | nil => cases hread
  | cons field doc => exact hread

theorem answered_getById (secretId : Str)
    (hS : ∀ w w', S w w' → Inv rt n w w' ∧ w.db.secretExists secretId = true) :
    Answered rt S (.getSecretBySecretId secretId) (.getSecretBySecretId secretId) Secret.Same
      fun r w w' => Inv rt n w w' ∧ ∃ oid, w.db.secrets.get? oid = some r := by
  refine answered fun w w' hw => ?_
  obtain ⟨hinv, hexists⟩ := hS w w' hw
  obtain ⟨oid, s, s', hfind, hread, hsame, hnext⟩ := hinv.found (selects_id secretId) (fun _ => rfl)
    (fun _ _ _ _ => hinv.named.one_id) hexists
  have hfind : w.db.find secretId = some (oid, s) := hfind
  refine ⟨hinv.calls, _, (s', w'.db), congrArg some (SecretsManagerMemoryDb.getSecretBySecretId_found hfind), ?_, ?_,
    hnext, oid, get?_insert_self ..⟩
  · rw [SecretCall.applyMongo, SecretsManagerMongoDb.getSecretBySecretId, hread, Option.map_some]
  · obtain ⟨oid', rfl⟩ := hsame
    exact ⟨oid', rfl⟩

theorem answered_getByName (region name : Str)
    (hS : ∀ w w', S w w' → Inv rt n w w' ∧ w.db.secretNameExists region name = true) :
    Answered rt S (.getSecretByRegionName region name) (.getSecretByRegionName region name) Secret.Same
      fun _ w w' => Inv rt n w w' := by
  refine answered fun w w' hw => ?_
  obtain ⟨hinv, hexists⟩ := hS w w' hw
  obtain ⟨oid, s, s', hfind, hread, ⟨oid', rfl⟩, hnext⟩ := hinv.found (selects_name region name) (fun _ => rfl)
    (fun _ _ _ _ => hinv.named.one_name) hexists
  refine ⟨hinv.calls, ({ s with oid := oid }, ⟨w.db.secrets.insert oid { s with oid := oid }⟩), (_, w'.db), ?_, ?_,
    ⟨oid', rfl⟩, hnext⟩
  · rw [SecretCall.apply, SecretsManagerMemoryDb.getSecretByRegionName, hfind]
    rfl
  · rw [SecretCall.applyMongo, SecretsManagerMongoDb.getSecretByRegionName, hread, Option.map_some]

theorem answered_createSecret {secret : Secret}
    (hS : ∀ w w', S w w' → Inv rt n w w' ∧ w.db.secretNameExists secret.region secret.name = false ∧
      ∃ i, n ≤ i ∧ i < w.calls ∧ SecretIdOf rt i secret.secretId) :
    Answered rt S (.createSecret secret) (.createSecret secret) Secret.Same fun _ => InStep rt := by
  refine answered fun w w' hw => ?_
  obtain ⟨hinv, habsent, i, hn, hi, hid⟩ := hS w w' hw
  let created : Secret := { secret with oid := rt.ids.map w.calls }
  have hmirrors : Mirrors secretKeeping Secret.plain rt.ids (w.calls + 1)
      (w.db.secrets.insert (rt.ids.map w.calls) created)
      (w'.db.secrets.insertOne (rt.ids.collection w.calls) secret.toDocument) := hinv.mirrors.insertOne rfl rfl
  have hnamed : Named rt (i + 1) (w.db.secrets.insert (rt.ids.map w.calls) created) := by
    refine hinv.named.edit (Nat.le_succ_of_le hn) (.create _ _ ⟨fun oid s hs heq => ?_, i, hn, Nat.lt_succ_self i, hid⟩)
    exact ne_of_not_found habsent hs (Prod.mk.inj heq)
  refine ⟨hinv.calls, _, ({ secret with oid := rt.ids.collection w.calls },
    ⟨w'.db.secrets.insertOne (rt.ids.collection w.calls) secret.toDocument⟩),
    congrArg some (SecretsManagerMemoryDb.createSecret_eq ..), ?_, ⟨rt.ids.collection w.calls, rfl⟩, i + 1,
    rfl, Nat.le_succ_of_le hi, hmirrors, hnamed⟩
  rw [SecretCall.applyMongo, SecretsManagerMongoDb.createSecret, SecretsManagerMongoDb.getSecretById,
    hinv.mirrors.findById_insertOne, Option.bind_some, Secret.document_read]
  rfl

/-- The record that is replaced is the one that was read. -/
theorem answered_updateSecret {s s' : Secret} (hsame : s.Same s')
    (hS : ∀ w w', S w w' → Inv rt n w w' ∧
      ∃ oid old, w.db.secrets.get? oid = some old ∧ secretName old = secretName s) :
    Answered rt S (.updateSecret s) (.updateSecret s') Secret.Same fun _ w w' => Inv rt n w w' := by
  obtain ⟨oid', rfl⟩ := hsame
  refine answered fun w w' hw => ?_
  obtain ⟨hinv, oid, old, hget, hname⟩ := hS w w' hw
  have hunique : ∀ k k' (v v' : Secret), w.db.secrets.get? k = some v → w.db.secrets.get? k' = some v' →
      decide (v.secretId = s.secretId) = true → decide (v'.secretId = s.secretId) = true → k = k' :=
    fun _ _ _ _ => hinv.named.one_id
  have hid : old.secretId = s.secretId := congrArg Prod.snd hname
  have hfind : w.db.find s.secretId = some (oid, old) := by
    have hsome : (w.db.secrets.findIf fun _ v => decide (v.secretId = s.secretId)).isSome = true :=
      findIf_isSome.mpr ⟨oid, old, hget, decide_eq_true hid⟩
    obtain ⟨⟨k, v⟩, hfound⟩ := Option.isSome_iff_exists.mp hsome
    obtain ⟨hv, heq⟩ := findIf_some hfound
    obtain rfl := hunique k oid v old hv hget heq (decide_eq_true hid)
    obtain rfl := Option.some.inj (hv.symm.trans hget)
    exact hfound
  have hfirst : SameFirst Secret.plain Secret.fromDocument (w.db.find s.secretId)
      (w'.db.secrets.findOne (SecretsManagerMongoDb.idQuery s.secretId)) :=
    sameFirst_of_unique hinv.mirrors (selects_id s.secretId) (fun _ _ => rfl) reads_secrets hunique
  rw [hfind, SameFirst, Option.map_some] at hfirst
  obtain ⟨read, hread, hplain⟩ := Option.map_eq_some_iff.mp hfirst.symm
  obtain ⟨doc, hdoc, hread⟩ := Option.bind_eq_some_iff.mp hread
  have hmirrors : Mirrors secretKeeping Secret.plain rt.ids w.calls (w.db.secrets.insert oid s)
      (w'.db.secrets.replaceOne (SecretsManagerMongoDb.idQuery s.secretId) s.toDocument) :=
    hinv.mirrors.replaceOne reads_secrets hget hdoc hread hplain rfl rfl
  obtain ⟨id, hagain⟩ := findOne_replaced hinv.mirrors (selects_id s.secretId) (fun _ _ => rfl) hdoc
    fun oid => (selects_id s.secretId s.plain oid s.toDocument rfl rfl).trans (decide_eq_true rfl)
  refine ⟨hinv.calls, _, ({ s with oid := id }, ⟨w'.db.secrets.replaceOne (SecretsManagerMongoDb.idQuery s.secretId)
    s.toDocument⟩), SecretsManagerMemoryDb.updateSecret_found hfind, ?_, ⟨id, rfl⟩, rfl,
    Nat.le_succ_of_le hinv.started, hmirrors.mono (Nat.le_succ _),
    hinv.named.edit (Nat.le_refl n) (.replace oid old s hget hname.symm)⟩
  change (SecretsManagerMongoDb.readFound ((w'.db.secrets.replaceOne (SecretsManagerMongoDb.idQuery s.secretId)
    s.toDocument).findOne (SecretsManagerMongoDb.idQuery s.secretId))).bind _ = _
  rw [hagain]
  rfl

/-- There are no two secrets of a name, so that the deletion of one is that of all. -/
theorem answered_deleteSecret (region name : Str) :
    Answered rt (Inv rt n) (.deleteSecret region name) (.deleteSecret region name) (· = ·)
      fun _ w w' => Inv rt n w w' := by
  refine answered fun w w' hinv => ?_
  have hcount : w'.db.secrets.countDocuments (SecretsManagerMongoDb.nameQuery region name) ≤ 1 := by
    rw [hinv.mirrors.countDocuments (selects_name region name) fun _ _ => rfl]
    exact countP_values_le_one fun _ _ _ _ => hinv.named.one_name
  refine ⟨hinv.calls, _, _, rfl, rfl, rfl, rfl, Nat.le_succ_of_le hinv.started, ?_,
    hinv.named.edit (Nat.le_refl n) (.erase fun _ (s : Secret) => s.region = region ∧ s.name = name)⟩
  rw [SecretsManagerMongoDb.deleteSecret, Collection.deleteOne_eq_deleteMany hcount]
  exact (hinv.mirrors.deleteMany (selects_name region name) fun _ _ => rfl).mono (Nat.le_succ _)

end Calls

/-! ### The requests -/

/-- From states in `S` a request comes to the same response on both stores. -/
abbrev Agreed {α : Type} (rt : BackendRuntime) (S : World → MongoWorld → Prop) (p p' : SecretProg α) : Prop :=
  Prog.Corresponds (exec rt.toRuntime) (mongoExec rt) S p p' (· = ·) (InStep rt)

section Requests

open Prog

variable {rt : BackendRuntime} {n : Nat} {α : Type}

/-- The time is drawn, and the secret that was read is written back with it. -/
theorem agreed_written {s s' : Secret} (change : Secret → Int → Secret) (f : Secret → α) (hs : s.Same s')
    (hname : ∀ s date, secretName (change s date) = secretName s)
    (hchange : ∀ s oid date, change { s with oid := oid } date = { change s date with oid := oid })
    (hf : ∀ s oid, f { s with oid := oid } = f s) :
    Agreed rt (fun w w' => Inv rt n w w' ∧ ∃ oid, w.db.secrets.get? oid = some s)
      (call .epochTime >>= fun date => call (.updateSecret (change s date)) >>= fun r => pure (f r))
      (call .epochTime >>= fun date => call (.updateSecret (change s' date)) >>= fun r => pure (f r)) := by
  refine corresponds_call (answered_draw (n := n) (c := .epochTime) rt.now (fun _ _ => rfl) (fun _ _ => rfl)
    fun _ _ h => ⟨h.1, h.1.tick, h.2⟩) ?_
  rintro date _ rfl
  obtain ⟨oid, rfl⟩ := hs
  refine corresponds_call (answered_updateSecret (n := n) ⟨oid, hchange s oid date⟩ fun w w' h => ?_) fun r r' hr => ?_
  · obtain ⟨⟨hinv, oid, hget⟩, -⟩ := h
    exact ⟨hinv, oid, s, hget, (hname s date).symm⟩
  · obtain ⟨oid, rfl⟩ := hr
    exact corresponds_ret (hf r oid).symm fun _ _ h => ⟨n, h⟩

/-- A request that reads a secret by its id and goes on with it, and fails when it is not there. -/
theorem agreed_found {secretId : Str} {f : Secret → SecretProg α} {e : Error}
    (hf : ∀ s s', s.Same s' → Agreed rt (fun w w' => Inv rt n w w' ∧ ∃ oid, w.db.secrets.get? oid = some s) (f s) (f s')) :
    Agreed rt (Inv rt n)
      (call (.secretExists secretId) >>= fun b =>
        if b = true then guarded (call (.getSecretBySecretId secretId) >>= f) else .throw e)
      (call (.secretExists secretId) >>= fun b =>
        if b = true then guarded (call (.getSecretBySecretId secretId) >>= f) else .throw e) := by
  refine corresponds_call (answered_exists secretId) ?_
  rintro b _ rfl
  refine corresponds_ite Iff.rfl (fun hb => Corresponds.mapThrow ?_) fun _ => corresponds_throw fun _ _ h => ⟨n, h.1⟩
  exact corresponds_call (answered_getById secretId fun w w' h => ⟨h.1, h.2.trans hb⟩) hf

theorem describeSecret_agreed (request : DescribeSecretRequest) :
    Agreed rt (Inv rt n) (describeSecret request) (describeSecret request) :=
  agreed_found fun s s' hs => by
    obtain ⟨oid, rfl⟩ := hs
    exact corresponds_ret rfl fun _ _ h => ⟨n, h.1⟩

theorem updateSecret_agreed (request : UpdateSecretRequest) :
    Agreed rt (Inv rt n) (updateSecret request) (updateSecret request) :=
  agreed_found fun _ _ hs => agreed_written
    (fun s date => { s with
      kmsKeyId := request.kmsKeyId, secretString := request.secretString, secretBinary := request.secretBinary,
      description := request.description, lastChangedDate := date })
    (fun s => UpdateSecretResponse.mk s.region s.name s.arn s.versionId) hs (fun _ _ => rfl) (fun _ _ _ => rfl)
    fun _ _ => rfl

theorem rotateSecret_agreed (request : RotateSecretRequest) :
    Agreed rt (Inv rt n) (rotateSecret request) (rotateSecret request) :=
  agreed_found fun _ _ hs => agreed_written (fun s date => { s with lastRotatedDate := date })
    (fun s => RotateSecretResponse.mk s.region s.arn) hs (fun _ _ => rfl) (fun _ _ _ => rfl) fun _ _ => rfl

/-- The freed buffer is read before the time is drawn. -/
theorem getSecretValue_agreed (request : GetSecretValueRequest) :
    Agreed rt (Inv rt n) (getSecretValue request) (getSecretValue request) := by
  refine agreed_found fun s s' hs => ?_
  have hwritten (plaintext : Str) : Agreed rt (fun w w' => Inv rt n w w' ∧ ∃ oid, w.db.secrets.get? oid = some s)
      (call .epochTime >>= fun date => call (.updateSecret { s with lastAccessedDate := date }) >>= fun _ =>
        pure (GetSecretValueResponse.mk s.name s.arn s.versionId plaintext []))
      (call .epochTime >>= fun date => call (.updateSecret { s' with lastAccessedDate := date }) >>= fun _ =>
        pure (GetSecretValueResponse.mk s.name s.arn s.versionId plaintext [])) :=
    agreed_written (fun s date => { s with lastAccessedDate := date })
      (fun _ => GetSecretValueResponse.mk s.name s.arn s.versionId plaintext []) hs (fun _ _ => rfl) (fun _ _ _ => rfl)
      fun _ _ => rfl
  obtain ⟨oid, rfl⟩ := hs
  by_cases hstring : s.secretString ≠ []
  · simp only [if_pos hstring]
    refine corresponds_call (answered_draw (n := n) (c := .aes256DecryptFreed s.secretString)
      (fun i => rt.plaintext i s.secretString) (fun _ _ => rfl) (fun _ _ => rfl) fun _ _ h => ⟨h.1, h.1.tick, h.2⟩) ?_
    rintro plaintext _ rfl
    exact (hwritten plaintext).weaken (fun _ _ h => h.1) fun _ _ h => h
  · simp only [if_neg hstring]
    exact hwritten []

theorem createSecret_agreed (env : Env) (request : CreateSecretRequest) :
    Agreed rt (Inv rt n) (createSecret env request) (createSecret env request) := by
  unfold createSecret
  refine corresponds_call (answered_nameExists request.region request.name) ?_
  rintro b _ rfl
  refine corresponds_ite Iff.rfl (fun _ => corresponds_throw fun _ _ h => ⟨n, h.1⟩) fun hb => ?_
  refine corresponds_ite Iff.rfl (fun _ => corresponds_throw fun _ _ h => ⟨n, h.1⟩) fun _ => ?_
  refine corresponds_ite Iff.rfl (fun _ => corresponds_throw fun _ _ h => ⟨n, h.1⟩) fun _ => ?_
  refine Corresponds.mapThrow ?_
  refine corresponds_call (answered_draw (n := n) (c := .createRandom) rt.ids.map (fun _ _ => rfl) (fun _ _ => rfl)
    fun _ _ h => ⟨h.1, h.1.tick, h.2⟩) ?_
  rintro versionId _ rfl
  refine Corresponds.weaken ?_ (fun _ _ h => h.1) fun _ _ h => h
  refine corresponds_call (answered_draw (n := n) (c := .generateRandomHexString) rt.hexString (fun _ _ => rfl)
    (fun _ _ => rfl) fun _ _ h => ⟨h.1, h.1.tick, h.2⟩) ?_
  rintro random _ rfl
  refine corresponds_call (answered_draw (n := n) (c := .epochTime) rt.now (fun _ _ => rfl) (fun _ _ => rfl)
    fun w w' h => ?_) ?_
  · obtain ⟨⟨hinv, habsent⟩, i, hn, hi, hrandom⟩ := h
    exact ⟨hinv, ⟨hinv.tick, habsent⟩, i, hn, Nat.lt_succ_of_lt hi, hrandom⟩
  rintro createdDate _ rfl
  refine corresponds_call (answered_createSecret (n := n) fun w w' h => ?_) fun s s' hs => ?_
  · obtain ⟨⟨⟨hinv, habsent⟩, i, hn, hi, hrandom⟩, -⟩ := h
    exact ⟨hinv, habsent.trans (Bool.eq_false_of_not_eq_true hb), i, hn, hi, request.name, by rw [hrandom]⟩
  · obtain ⟨oid, rfl⟩ := hs
    exact corresponds_ret rfl fun _ _ h => h

theorem deleteSecret_agreed (request : DeleteSecretRequest) :
    Agreed rt (Inv rt n) (deleteSecret request) (deleteSecret request) := by
  refine corresponds_call (answered_nameExists request.region request.name) ?_
  rintro b _ rfl
  refine corresponds_ite Iff.rfl (fun hb => Corresponds.mapThrow ?_) fun _ => corresponds_throw fun _ _ h => ⟨n, h.1⟩
  refine corresponds_call (answered_getByName request.region request.name fun w w' h => ⟨h.1, h.2.trans hb⟩)
    fun s s' hs => ?_
  obtain ⟨oid, rfl⟩ := hs
  refine corresponds_call (answered_deleteSecret s.region s.name) ?_
  rintro _ _ rfl
  refine corresponds_call (answered_draw (n := n) (c := .epochTime) rt.now (fun _ _ => rfl) (fun _ _ => rfl)
    fun w w' h => ⟨h, h.tick⟩) ?_
  rintro date _ rfl
  exact corresponds_ret rfl fun _ _ h => ⟨n, h.1⟩

/-- The response to a request is its result. -/
theorem respond {p : SecretProg α} {f : α → ServiceResponse} (h : Agreed rt (Inv rt n) p p) :
    Agreed rt (Inv rt n) (p >>= fun a => pure (f a)) (p >>= fun a => pure (f a)) :=
  h.bind (fun _ _ h => h) fun _ _ heq => corresponds_ret (congrArg f heq) fun _ _ h => h

theorem program_agreed (env : Env) (request : ServiceRequest) :
    Agreed rt (Inv rt n) (request.program env) (request.program env) := by
  cases request with
  | createSecret request => exact respond (createSecret_agreed env request)
  | describeSecret request => exact respond (describeSecret_agreed request)
  | getSecretValue request => exact respond (getSecretValue_agreed request)
  | updateSecret request => exact respond (updateSecret_agreed request)
  | rotateSecret request => exact respond (rotateSecret_agreed request)
  | deleteSecret request => exact respond (deleteSecret_agreed request)

end Requests

/-! ### Runs -/

section Runs

open Prog

variable (rt : BackendRuntime) (env : Env)

abbrev ServiceReply (_ : ServiceRequest) : Type := Except Error ServiceResponse

def memoryService : Store ServiceRequest ServiceReply World := fun _ request w =>
  (request.program env).run (exec rt.toRuntime) w

def mongoService : Store ServiceRequest ServiceReply MongoWorld := fun _ request w =>
  (request.program env).run (mongoExec rt) w

/-- The stores hold the same secrets. -/
def StoresAgree (w : World) (w' : MongoWorld) : Prop :=
  SameContents Secret.plain Secret.fromDocument w.db.secrets w'.db.secrets

/-- Both services answer the request, with the same response or both with an exception, and their stores hold the same
    secrets. -/
def ServicesAgree (request : ServiceRequest) (s : Twin World MongoWorld) : Prop :=
  Twin.Agrees (memoryService rt env) (mongoService rt env) (fun _ => Outcomes (· = ·)) StoresAgree request s

variable {rt}

theorem InStep.storesAgree {w : World} {w' : MongoWorld} (h : InStep rt w w') : StoresAgree w w' := by
  obtain ⟨n, hinv⟩ := h
  exact sameContents_of_mirrors hinv.mirrors reads_secrets

theorem services_judged : Twin.Judged (memoryService rt env) (mongoService rt env) (fun _ => Outcomes (· = ·))
    StoresAgree (fun s => InStep rt s.left s.right) fun _ _ => True where
  serves := by
    rintro request s ⟨n, hinv⟩ -
    obtain ⟨x, y, hx, hy, hsame, hnext⟩ := program_agreed env request s.left s.right hinv
    exact ⟨(x, y), Twin.both_of_eq_some hx hy, hsame, hnext⟩
  conforms _ _ := trivial
  alike := InStep.storesAgree

theorem inStep_empty : InStep rt {} {} :=
  ⟨0, rfl, Nat.le_refl 0, .nil, uniqueBy_empty, uniqueBy_empty, fun _ _ hs => by cases hs⟩

/-- From empty stores the services on the two backends answer every request of a run alike: both fail, or both give the
    same response. After each the stores hold the same secrets. -/
theorem secrets_agree (requests : List ServiceRequest) :
    Along (Twin.next (memoryService rt env) (mongoService rt env)) (ServicesAgree rt env) requests
        { left := {}, right := {} } ∧
      ∃ s, steps (Twin.next (memoryService rt env) (mongoService rt env)) requests { left := {}, right := {} } = some s ∧
        StoresAgree s.left s.right :=
  (services_judged env).agrees (fun _ => trivial) inStep_empty

/-- The string that is drawn stands behind the last hyphen. -/
theorem counted_inj {name name' : Str} {n m : Nat} (h : name ++ str "-" ++ List.replicate n (byte 'h') =
    name' ++ str "-" ++ List.replicate m (byte 'h')) : n = m := by
  rw [List.append_assoc, List.append_assoc] at h
  exact replicate_suffix_inj (a := byte '-') (b := byte 'h') (by decide) h

/-- Draws that are counted. -/
def BackendRuntime.counting : BackendRuntime where
  ids := {
    map n := List.replicate n (byte 'u'), collection n := List.replicate n (byte 'u')
    map_inj := @replicate_u_inj, collection_inj := @replicate_u_inj }
  hexString n := List.replicate n (byte 'h')
  now n := n
  plaintext _ ciphertext := ciphertext
  secretId_inj := counted_inj

/-- An update that omits the secret string takes it away, in both stores. -/
example :
    ((steps (Twin.next (memoryService .counting .sample) (mongoService .counting .sample))
      [.createSecret { region := str "eu", name := str "a", secretString := str "s" },
        .updateSecret { secretId := str "a-hh", description := str "d" }] { left := {}, right := {} }).bind fun s =>
      (Twin.both (memoryService .counting .sample) (mongoService .counting .sample)
        (.getSecretValue { secretId := str "a-hh" }) s).map fun r =>
          (r.1.1.toOption.map (fun | .value v => v.secretString | _ => str "none"),
            r.2.1.toOption.map (fun | .value v => v.secretString | _ => str "none"))) = some (some [], some []) := by
  decide +kernel

end Runs

end AwsMock.SecretsManager
