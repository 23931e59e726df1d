import AwsMock.Lib.Protocol
import AwsMock.Lib.Threads
import AwsMock.SecretsManager.Steps

/-!
# Concurrent requests for secrets

`GetSecretValue`, `UpdateSecret`, `RotateSecret` and `DeleteSecret` side by side, in every order of their
calls. Each of the first three writes the whole record back that it has read, and the store writes
without looking whether the record is still there.
-/

namespace AwsMock.SecretsManager

open Lib

/-! ### Requests -/

/-- What an update sets. -/
structure Content where
  kmsKeyId : Str
  description : Str
  secretString : Str
  secretBinary : Str
  deriving DecidableEq

def Secret.content (secret : Secret) : Content :=
  ⟨secret.kmsKeyId, secret.description, secret.secretString, secret.secretBinary⟩

def UpdateSecretRequest.content (request : UpdateSecretRequest) : Content :=
  ⟨request.kmsKeyId, request.description, request.secretString, request.secretBinary⟩

inductive SecretTask where
  | getSecretValue (request : GetSecretValueRequest)
  | updateSecret (request : UpdateSecretRequest)
  | rotateSecret (request : RotateSecretRequest)
  | deleteSecret (request : DeleteSecretRequest)

namespace SecretTask

def program : SecretTask → SecretProg Unit
  | getSecretValue request => do let _ ← SecretsManager.getSecretValue request
  | updateSecret request => do let _ ← SecretsManager.updateSecret request
  | rotateSecret request => do let _ ← SecretsManager.rotateSecret request
  | deleteSecret request => do let _ ← SecretsManager.deleteSecret request

/-- The secret whose record is written back. -/
def target : SecretTask → Option Str
  | getSecretValue request => some request.secretId
  | updateSecret request => some request.secretId
  | rotateSecret request => some request.secretId
  | deleteSecret _ => none

/-- What an update makes of the content; the others leave it. -/
def write : SecretTask → Content → Content
  | updateSecret request, _ => request.content
  | _, content => content

def isUpdate : SecretTask → Bool
  | updateSecret _ => true
  | _ => false

end SecretTask

/-! ### The threads and what they should leave -/

/-- The content of the secret of an id. -/
def SecretsManagerMemoryDb.contentOf (db : SecretsManagerMemoryDb) (secretId : Str) : Option Content :=
  (db.find secretId).map fun it => it.2.content

/-- The process, the record that each thread has read, and the contents that the updates and deletions so far should
    have left. -/
structure Shared where
  world : World
  read : Nat → Option Secret
  expected : Str → Option Content

abbrev SecretThread := Thread SecretTask SecretCall SecretCall.Reply Error Unit

abbrev SecretPool := Thread.Pool SecretTask SecretCall SecretCall.Reply Error Unit Shared

/-- What is expected after a call of the `i`-th thread. An update sets its content; a secret that is deleted leaves
    what the store still has under its id. -/
def expect (tasks : List SecretTask) (i : Nat) (s : Shared) : SecretCall → Str → Option Content
  | .updateSecret _ => match tasks[i]? with
    | some (.updateSecret request) => Function.update s.expected request.secretId (some request.content)
    | _ => s.expected
  | .deleteSecret region name => fun secretId =>
    if (s.world.db.find secretId).any fun it => it.2.region = region ∧ it.2.name = name then
      (s.world.db.deleteSecret region name).contentOf secretId
    else s.expected secretId
  | _ => s.expected

/-- The record a call reads. -/
def readBy : (c : SecretCall) → c.Reply → Option Secret → Option Secret
  | .getSecretBySecretId _, secret, _ => some secret
  | _, _, read => read

def threadExec (rt : Runtime) (tasks : List SecretTask) :
    Thread.Exec SecretTask SecretCall SecretCall.Reply Error Unit Shared := fun i c s =>
  (exec rt c s.world).map fun r => .goes r.1
    { world := r.2, read := Function.update s.read i (readBy c r.1 (s.read i)), expected := expect tasks i s c } []

/-- All requests start on a store, which is as expected. -/
def begin (tasks : List SecretTask) (db : SecretsManagerMemoryDb) : SecretPool :=
  (tasks.map fun task => ⟨task, task.program⟩, { world := { db := db }, read := fun _ => none, expected := db.contentOf })

abbrev turn (rt : Runtime) (tasks : List SecretTask) := Thread.turn (threadExec rt tasks)

/-- Every secret has the content of the update last made, and a deleted one has none. -/
def Faithful (x : SecretPool) : Prop := ∀ secretId, x.2.world.db.contentOf secretId = x.2.expected secretId

/-- The thread is about to write a record that is not there. -/
def WritesDeleted (i : Nat) (x : SecretPool) : Prop :=
  ∃ t secret, x.1[i]? = some t ∧ t.prog.next = some (.updateSecret secret) ∧
    x.2.world.db.find secret.secretId = none

/-- The thread, if it writes, finds its secret, which has not been updated since it was read unless the thread is an
    update. -/
def Timely (i : Nat) (x : SecretPool) : Prop :=
  ∀ t secret, x.1[i]? = some t → t.prog.next = some (.updateSecret secret) → ∀ secretId, t.label.target = some secretId →
    ∃ content, x.2.world.db.contentOf secretId = some content ∧
      (t.label.isUpdate = false → ∀ read, x.2.read i = some read → read.content = content)

/-! ### The protocol of a thread -/

/-- The record that is written is the one read, but for the content that an update sets and the dates. -/
def writingBack (task : SecretTask) : Prog.Protocol SecretCall SecretCall.Reply (Option Secret) where
  law read c := match c with
    | .getSecretBySecretId secretId => task.target = some secretId
    | .updateSecret secret => ∃ r, read = some r ∧ secret.secretId = r.secretId ∧
        secret.content = task.write r.content ∧ task.target.isSome
    | .createSecret _ => False
    | _ => True
  next read c r := readBy c r read

theorem follows_task (task : SecretTask) :
    task.program.Follows (writingBack task) (fun _ _ => True) none := by
  cases task with
  | getSecretValue request =>
    refine Prog.follows_bind ?_
    refine Prog.follows_perform_bind trivial fun found => ?_
    split
    · refine Prog.follows_mapThrow (Prog.follows_perform_bind rfl fun secret => ?_)
      dsimp only
      split
      · refine Prog.follows_perform_bind trivial fun plaintext => ?_
        refine Prog.follows_perform_bind trivial fun now => ?_
        exact Prog.follows_perform_bind ⟨secret, rfl, rfl, rfl, rfl⟩ fun _ => trivial
      · refine Prog.follows_perform_bind trivial fun now => ?_
        exact Prog.follows_perform_bind ⟨secret, rfl, rfl, rfl, rfl⟩ fun _ => trivial
    · trivial
  | updateSecret request =>
    refine Prog.follows_bind ?_
    refine Prog.follows_perform_bind trivial fun found => ?_
    split
    · refine Prog.follows_mapThrow (Prog.follows_perform_bind rfl fun secret => ?_)
      refine Prog.follows_perform_bind trivial fun now => ?_
      exact Prog.follows_perform_bind ⟨secret, rfl, rfl, rfl, rfl⟩ fun _ => trivial
    · trivial
  | rotateSecret request =>
    refine Prog.follows_bind ?_
    refine Prog.follows_perform_bind trivial fun found => ?_
    split
    · refine Prog.follows_mapThrow (Prog.follows_perform_bind rfl fun secret => ?_)
      refine Prog.follows_perform_bind trivial fun now => ?_
      exact Prog.follows_perform_bind ⟨secret, rfl, rfl, rfl, rfl⟩ fun _ => trivial
    · trivial
  | deleteSecret request =>
    refine Prog.follows_bind ?_
    refine Prog.follows_perform_bind trivial fun found => ?_
    split
    · refine Prog.follows_mapThrow (Prog.follows_perform_bind trivial fun secret => ?_)
      refine Prog.follows_perform_bind trivial fun _ => ?_
      exact Prog.follows_perform_bind trivial fun _ => trivial
    · trivial

/-! ### What the calls do to the contents -/

namespace SecretsManagerMemoryDb

variable {db db' : SecretsManagerMemoryDb} {k secretId secretId' region name : Str} {secret secret' : Secret}

theorem contentOf_eq_none : db.contentOf secretId = none ↔ db.find secretId = none := Option.map_eq_none_iff

/-- A record with the same id and content. -/
theorem contentOf_rewrite (hget : db.secrets.get? k = some secret) (hid : secret'.secretId = secret.secretId)
    (hcontent : secret'.content = secret.content) :
    contentOf ⟨db.secrets.insert k secret'⟩ secretId = db.contentOf secretId := by
  unfold contentOf find
  rw [OrderedMap.findIf_insert_of_same hget (by simp only [hid]), Option.map_map]
  rcases hit : db.secrets.findIf fun _ record => decide (record.secretId = secretId) with _ | ⟨j, record⟩
  · rfl
  · refine congrArg some ?_
    simp only [Function.comp_apply]
    split
    · next hj =>
      have hrecord := (OrderedMap.findIf_some hit).1
      rw [hj, hget] at hrecord
      cases hrecord
      exact hcontent
    · rfl

theorem contentOf_fetchSecret {it : Option (Str × Secret)}
    (hit : ∀ e, it = some e → db.secrets.get? e.1 = some e.2) :
    (db.fetchSecret it).2.contentOf secretId = db.contentOf secretId := by
  rcases it with _ | ⟨k, secret⟩
  · rfl
  · exact contentOf_rewrite (hit _ rfl) rfl rfl

theorem contentOf_write (h : db.find secretId = some (k, secret)) (hid : secret'.secretId = secretId) :
    contentOf ⟨db.secrets.insert k secret'⟩ secretId = some secret'.content := by
  rw [contentOf, find_insert h _ hid]
  rfl

/-- A record under another id. -/
theorem contentOf_write_of_ne (h : db.find secretId = some (k, secret)) (hid : secret'.secretId = secretId)
    (hne : secretId' ≠ secretId) : contentOf ⟨db.secrets.insert k secret'⟩ secretId' = db.contentOf secretId' := by
  obtain ⟨hget, hold⟩ := find_some h
  refine congrArg (Option.map _) (OrderedMap.findIf_congr fun j record hrecord => ?_)
  have hrecord : record.secretId = secretId' := of_decide_eq_true hrecord
  rw [OrderedMap.get?_insert]
  split
  · next hj =>
    -- neither the new nor the old record has this id
    rw [hj, hget]
    refine iff_of_false ?_ ?_
    · rintro hnew
      cases hnew
      exact hne (hrecord.symm.trans hid)
    · rintro hnew
      cases hnew
      exact hne (hrecord.symm.trans hold)
  · rfl

theorem contentOf_deleteSecret_kept
    (h : (db.find secretId).any (fun it => it.2.region = region ∧ it.2.name = name) = false) :
    (db.deleteSecret region name).contentOf secretId = db.contentOf secretId := by
  have hfind : (db.deleteSecret region name).find secretId = db.find secretId := by
    unfold find deleteSecret
    refine OrderedMap.findIf_eraseIf (m := db.secrets) (p := fun _ secret => decide (secret.secretId = secretId))
      (q := fun _ secret => decide (secret.region = region ∧ secret.name = name)) fun e he => ?_
    rw [find, he] at h
    exact h
  rw [contentOf, hfind, contentOf]

theorem contentOf_deleteSecret_none (h : db.contentOf secretId = none) :
    (db.deleteSecret region name).contentOf secretId = none := by
  rw [contentOf_deleteSecret_kept, h]
  rw [contentOf_eq_none.mp h]
  rfl

theorem updateSecret_cases {r : Secret × SecretsManagerMemoryDb} (h : db.updateSecret secret = some r) :
    ∃ k old, db.find secret.secretId = some (k, old) ∧ r = (secret, ⟨db.secrets.insert k secret⟩) := by
  obtain ⟨⟨k, old⟩, hfind, rfl⟩ := Option.map_eq_some_iff.mp h
  exact ⟨k, old, hfind, rfl⟩

end SecretsManagerMemoryDb

open SecretsManagerMemoryDb

variable {rt : Runtime} {tasks : List SecretTask} {w : World} {c : SecretCall} {r : c.Reply × World}

/-- The calls that leave the contents alone. -/
def SecretCall.Reads : SecretCall → Prop
  | .createSecret _ | .updateSecret _ | .deleteSecret .. => False
  | _ => True

theorem contentOf_reads (hc : c.Reads) (h : exec rt c w = some r) (secretId : Str) :
    r.2.db.contentOf secretId = w.db.contentOf secretId := by
  obtain ⟨x, hr, rfl⟩ := Option.map_eq_some_iff.mp h
  cases c with
  | createSecret | updateSecret | deleteSecret => exact hc.elim
  | getSecretByRegionName region name =>
    cases hr
    exact contentOf_fetchSecret fun e he => (OrderedMap.findIf_some he).1
  | getSecretBySecretId secretId' =>
    cases hr
    exact contentOf_fetchSecret fun e he => (OrderedMap.findIf_some he).1
  | aes256DecryptFreed ciphertext =>
    obtain ⟨plaintext, -, hr⟩ := Option.map_eq_some_iff.mp hr
    cases hr
    rfl
  | _ =>
    cases hr
    rfl

/-- A secret that is missing stays missing. -/
theorem contentOf_none_stays (hc : ∀ secret, c ≠ .createSecret secret) (h : exec rt c w = some r) {secretId : Str}
    (hnone : w.db.contentOf secretId = none) : r.2.db.contentOf secretId = none := by
  cases c with
  | createSecret secret => exact absurd rfl (hc secret)
  | deleteSecret region name =>
    cases h
    exact contentOf_deleteSecret_none hnone
  | updateSecret secret =>
    obtain ⟨x, hx, rfl⟩ := Option.map_eq_some_iff.mp h
    obtain ⟨k, old, hfind, rfl⟩ := updateSecret_cases hx
    have hne : secretId ≠ secret.secretId := by
      rintro rfl
      rw [contentOf_eq_none, hfind] at hnone
      cases hnone
    exact (contentOf_write_of_ne hfind rfl hne).trans hnone
  | _ =>
    refine (contentOf_reads ?_ h secretId).trans hnone
    trivial

/-- What is read by id has this id, or the secret is missing. -/
theorem getSecretBySecretId_read {secretId : Str} {r : Secret × World}
    (h : exec rt (.getSecretBySecretId secretId) w = some r) :
    r.1.secretId = secretId ∨ w.db.contentOf secretId = none := by
  obtain ⟨x, hx, rfl⟩ := Option.map_eq_some_iff.mp h
  cases hx
  rcases hfind : w.db.find secretId with _ | ⟨k, secret⟩
  · exact .inr (contentOf_eq_none.mpr hfind)
  · rw [getSecretBySecretId_found hfind]
    exact .inl (find_some hfind).2

/-! ### The invariant -/

/-- Each thread follows the protocol, what it has read is its secret unless this is gone, and the contents are as
    expected. -/
structure Sound (tasks : List SecretTask) (x : SecretPool) : Prop where
  follows : ∀ (j : Nat) (t : SecretThread), x.1[j]? = some t →
    t.prog.Follows (writingBack t.label) (fun _ _ => True) (x.2.read j)
  label : ∀ (j : Nat) (t : SecretThread), x.1[j]? = some t → tasks[j]? = some t.label
  read : ∀ (j : Nat) (t : SecretThread) (r : Secret) (secretId : Str), x.1[j]? = some t → x.2.read j = some r →
    t.label.target = some secretId → r.secretId = secretId ∨ x.2.world.db.contentOf secretId = none
  faithful : Faithful x

variable {x y : SecretPool} {i : Nat}

theorem sound_begin (tasks : List SecretTask) (db : SecretsManagerMemoryDb) : Sound tasks (begin tasks db) where
  follows j t ht := by
    obtain ⟨task, -, rfl⟩ := List.mem_map.mp (List.mem_of_getElem? ht)
    exact follows_task task
  label j t ht := by
    simp only [begin, List.getElem?_map, Option.map_eq_some_iff] at ht
    obtain ⟨task, htask, rfl⟩ := ht
    exact htask
  read j t r secretId ht hr := by cases hr
  faithful _ := rfl

/-- The `i`-th thread makes a call. -/
structure Goes (rt : Runtime) (tasks : List SecretTask) (i : Nat) (x y : SecretPool) (label : SecretTask) (c : SecretCall)
    (k : c.Reply → SecretProg Unit) (r : c.Reply) : Prop where
  before : x.1[i]? = some ⟨label, .call c k⟩
  exec : exec rt c x.2.world = some (r, y.2.world)
  after : y.1 = x.1.set i ⟨label, k r⟩
  read : y.2.read = Function.update x.2.read i (readBy c r (x.2.read i))
  expected : y.2.expected = expect tasks i x.2 c

theorem turn_goes (h : turn rt tasks i x = some y) : y = x ∨ ∃ label c k r, Goes rt tasks i x y label c k r := by
  rcases Thread.turn_cases h with rfl | ⟨label, c, k, r, started, hi, hexec, hy⟩
  · exact .inl rfl
  · obtain ⟨x', hx', hgoes⟩ := Option.map_eq_some_iff.mp hexec
    simp only [Turn.goes.injEq] at hgoes
    obtain ⟨rfl, hs, rfl⟩ := hgoes
    refine .inr ⟨label, c, k, _, hi, ?_, by rw [hy, List.append_nil], by rw [← hs], by rw [← hs]⟩
    rw [hx', ← hs]

namespace Goes

variable {label : SecretTask} {k : c.Reply → SecretProg Unit} {r : c.Reply} (h : Goes rt tasks i x y label c k r)
  (hx : Sound tasks x)

include h hx

theorem law : (writingBack label).law (x.2.read i) c := (hx.follows i _ h.before).1

theorem not_creates (secret : Secret) : c ≠ .createSecret secret := by
  rintro rfl
  exact h.law hx

/-- A call after which the contents are as expected. -/
theorem sound (hfaithful : ∀ secretId, y.2.world.db.contentOf secretId = expect tasks i x.2 c secretId) :
    Sound tasks y := by
  have hthread : ∀ (j : Nat) (t : SecretThread), y.1[j]? = some t →
      j = i ∧ t = ⟨label, k r⟩ ∨ j ≠ i ∧ x.1[j]? = some t := by
    intro j t ht
    rw [h.after] at ht
    rcases Thread.getElem?_moved (by rwa [List.append_nil]) with hself | hother | ⟨hnew, -⟩
    · exact .inl hself
    · exact .inr hother
    · cases hnew
  refine ⟨fun j t ht => ?_, fun j t ht => ?_, fun j t read secretId ht hread htarget => ?_, fun secretId => ?_⟩
  · rw [h.read]
    rcases hthread j t ht with ⟨rfl, rfl⟩ | ⟨hne, hold⟩
    · rw [Function.update_self]
      exact (hx.follows j _ h.before).2 r
    · rw [Function.update_of_ne hne]
      exact hx.follows j t hold
  · rcases hthread j t ht with ⟨rfl, rfl⟩ | ⟨-, hold⟩
    · have hlabel := hx.label j _ h.before
      exact hlabel
    · exact hx.label j t hold
  · have hstays : x.2.world.db.contentOf secretId = none → _ := contentOf_none_stays (h.not_creates hx) h.exec
    rw [h.read] at hread
    rcases hthread j t ht with ⟨rfl, rfl⟩ | ⟨hne, hold⟩
    · rw [Function.update_self] at hread
      have hlaw := h.law hx
      cases c with
      | getSecretBySecretId secretId' =>
        cases hread
        cases htarget.symm.trans hlaw
        exact (getSecretBySecretId_read h.exec).imp id hstays
      | _ => exact (hx.read j _ read secretId h.before hread htarget).imp id hstays
    · rw [Function.update_of_ne hne] at hread
      exact (hx.read j t read secretId hold hread htarget).imp id hstays
  · rw [h.expected]
    exact hfaithful secretId

/-- A call that leaves the contents alone. -/
theorem sound_reads (hc : c.Reads) : Sound tasks y := by
  refine h.sound hx fun secretId => ?_
  have hexpect : expect tasks i x.2 c = x.2.expected := by
    cases c with
    | createSecret | updateSecret | deleteSecret => exact hc.elim
    | _ => rfl
  rw [contentOf_reads hc h.exec, hexpect]
  exact hx.faithful secretId

omit h in
theorem sound_deleteSecret {region name : Str} {k : Unit → SecretProg Unit}
    (h : Goes rt tasks i x y label (.deleteSecret region name) k ()) : Sound tasks y := by
  refine h.sound hx fun secretId => ?_
  obtain ⟨r, hr, hw⟩ := Option.map_eq_some_iff.mp h.exec
  cases hr
  rw [← (Prod.mk.inj hw).2]
  dsimp only [expect]
  split
  · rfl
  · next hkept => rw [contentOf_deleteSecret_kept (by simpa using hkept), hx.faithful secretId]

omit h in
/-- A write in time sets the content that is expected. -/
theorem sound_updateSecret {secret : Secret} {k : Secret → SecretProg Unit} {r : Secret}
    (h : Goes rt tasks i x y label (.updateSecret secret) k r) (htimely : Timely i x) : Sound tasks y := by
  obtain ⟨read, hread, hid, hcontent, htarget⟩ := h.law hx
  obtain ⟨secretId, htarget⟩ := Option.isSome_iff_exists.mp htarget
  obtain ⟨content, hstored, hfresh⟩ := htimely _ secret h.before rfl secretId htarget
  -- the secret is there, so it is the one that was read
  have hread_id : read.secretId = secretId := by
    refine (hx.read i _ read secretId h.before hread htarget).resolve_right fun hnone => ?_
    rw [hstored] at hnone
    cases hnone
  have hsecret : secret.secretId = secretId := hid.trans hread_id
  obtain ⟨x', hx', hw⟩ := Option.map_eq_some_iff.mp h.exec
  obtain ⟨key, old, hfind, rfl⟩ := updateSecret_cases hx'
  rw [hsecret] at hfind
  refine h.sound hx fun other => ?_
  rw [← (Prod.mk.inj hw).2]
  have hlabel : tasks[i]? = some label := hx.label i _ h.before
  rcases eq_or_ne other secretId with rfl | hne
  · refine (contentOf_write hfind hsecret).trans ?_
    rw [hcontent]
    cases label with
    | updateSecret request =>
      cases htarget
      simp only [expect, hlabel, Function.update_self, SecretTask.write]
    | deleteSecret request => cases htarget
    | getSecretValue request | rotateSecret request =>
      simp only [expect, hlabel, SecretTask.write]
      rw [hfresh rfl read hread, ← hstored]
      exact hx.faithful other
  · refine (contentOf_write_of_ne hfind hsecret hne).trans ((hx.faithful other).trans ?_)
    cases label with
    | updateSecret request =>
      cases htarget
      simp only [expect, hlabel, Function.update_of_ne hne]
    | _ => simp only [expect, hlabel]

end Goes

/-- One turn in time. -/
theorem Sound.step (hx : Sound tasks x) (htimely : Timely i x) (h : turn rt tasks i x = some y) : Sound tasks y := by
  rcases turn_goes h with rfl | ⟨label, c, k, r, hgoes⟩
  · exact hx
  · cases c with
    | createSecret secret => exact absurd rfl (hgoes.not_creates hx secret)
    | updateSecret secret => exact Goes.sound_updateSecret hx hgoes htimely
    | deleteSecret region name => exact Goes.sound_deleteSecret hx hgoes
    | _ => exact hgoes.sound_reads hx trivial

theorem Sound.not_writesDeleted (hx : Sound tasks x) (htimely : Timely i x) : ¬ WritesDeleted i x := by
  rintro ⟨⟨label, prog⟩, secret, hi, hnext, hnone⟩
  cases prog with
  | ret a => cases hnext
  | throw e => cases hnext
  | call c k =>
    cases hnext
    obtain ⟨read, hread, hid, -, htarget⟩ := (hx.follows i _ hi).1
    obtain ⟨secretId, htarget⟩ := Option.isSome_iff_exists.mp htarget
    obtain ⟨content, hstored, -⟩ := htimely _ secret hi rfl secretId htarget
    rcases hx.read i _ read secretId hi hread htarget with hsame | hgone
    · rw [contentOf, ← hsame, ← hid, hnone] at hstored
      cases hstored
    · rw [hstored] at hgone
      cases hgone

/-! ### Every run -/

/-- In every order of the calls of any such requests: as long as every write is in time, no deleted secret is
    written, and every secret always has the content of the update last made. -/
theorem secret_updates_kept (rt : Runtime) (tasks : List SecretTask) (db : SecretsManagerMemoryDb) (sched : List Nat)
    (htimely : Along (turn rt tasks) Timely sched (begin tasks db)) :
    Along (turn rt tasks) (fun i x => ¬ WritesDeleted i x) sched (begin tasks db) ∧
    ∀ y, steps (turn rt tasks) sched (begin tasks db) = some y → Faithful y := by
  constructor
  · exact along_of_along (I := Sound tasks) (fun htimely h hx => hx.step htimely h)
      (fun htimely hx => hx.not_writesDeleted htimely) htimely (sound_begin tasks db)
  · intro y hrun
    exact (steps_along (I := Sound tasks) (fun htimely h hx => hx.step htimely h) htimely hrun
      (sound_begin tasks db)).faithful

/-! ### Sample runs -/

/-- Whether a step is in time. -/
def checkTimely (i : Nat) (x : SecretPool) : Bool :=
  match x.1[i]? with
  | none => true
  | some t => match t.prog.next, t.label.target with
    | some (.updateSecret _), some secretId => (x.2.world.db.contentOf secretId).any fun content =>
      t.label.isUpdate || (x.2.read i).all fun read => read.content = content
    | _, _ => true

theorem timely_of_check (h : checkTimely i x = true) : Timely i x := by
  intro t secret ht hnext secretId htarget
  simp only [checkTimely, ht, hnext, htarget, Option.any_eq_true, Bool.or_eq_true] at h
  obtain ⟨content, hstored, hfresh⟩ := h
  refine ⟨content, hstored, fun hlabel read hread => ?_⟩
  rw [hlabel, hread] at hfresh
  simpa using hfresh

instance (i : Nat) (x : SecretPool) : Decidable (WritesDeleted i x) :=
  decidable_of_iff ((x.1[i]?.any fun t => t.prog.next.any fun
    | .updateSecret secret => (x.2.world.db.find secret.secretId).isNone
    | _ => false) = true) <| by
    simp only [WritesDeleted, Option.any_eq_true]
    constructor
    · rintro ⟨t, ht, c, hc, hmissing⟩
      cases c with
      | updateSecret secret => exact ⟨t, secret, ht, hc, Option.isNone_iff_eq_none.mp hmissing⟩
      | _ => cases hmissing
    · rintro ⟨t, secret, ht, hc, hmissing⟩
      exact ⟨t, ht, _, hc, Option.isNone_iff_eq_none.mpr hmissing⟩

/-- One secret with a binary. -/
def sampleStore : SecretsManagerMemoryDb :=
  { secrets := .ofList [(str "o", {
      region := str "eu", name := str "n", secretId := str "s", secretBinary := str "AQID" })] }

def sampleGet : SecretTask := .getSecretValue { secretId := str "s" }
def sampleUpdate : SecretTask := .updateSecret { secretId := str "s", secretBinary := str "BAUG" }
def sampleRotation : SecretTask := .rotateSecret { secretId := str "s" }
def sampleDeletion : SecretTask := .deleteSecret { region := str "eu", name := str "n" }

/-- Each reads the secret after the one before it has written. -/
theorem secret_updates_kept_in_turn :
    Along (turn .counting [sampleGet, sampleUpdate, sampleRotation]) (fun i x => ¬ WritesDeleted i x)
      [0, 1, 0, 0, 0, 2, 1, 1, 1, 2, 2, 2] (begin [sampleGet, sampleUpdate, sampleRotation] sampleStore) ∧
    ∀ y, steps (turn .counting [sampleGet, sampleUpdate, sampleRotation]) [0, 1, 0, 0, 0, 2, 1, 1, 1, 2, 2, 2]
      (begin [sampleGet, sampleUpdate, sampleRotation] sampleStore) = some y → Faithful y :=
  secret_updates_kept .counting [sampleGet, sampleUpdate, sampleRotation] sampleStore _
    (along_of_along (I := fun _ => True) (C := fun i x => checkTimely i x = true) (fun _ _ _ => trivial)
      (fun h _ => timely_of_check h) (by decide +kernel) trivial)

/-- A read that began before the update reverts it, and an update writes to a secret that is deleted. -/
theorem secret_update_reverted :
    (¬ ∀ y, steps (turn .counting [sampleGet, sampleUpdate]) [0, 0, 0, 1, 1, 1, 1, 0]
      (begin [sampleGet, sampleUpdate] sampleStore) = some y → Faithful y) ∧
    ¬ Along (turn .counting [sampleUpdate, sampleDeletion]) (fun i x => ¬ WritesDeleted i x) [0, 0, 0, 1, 1, 1, 0]
      (begin [sampleUpdate, sampleDeletion] sampleStore) := by
  refine ⟨fun h => ?_, by decide +kernel⟩
  have hfaithful := h _ (Option.some_get (by decide +kernel)).symm (str "s")
  exact absurd hfaithful (by decide +kernel)

end AwsMock.SecretsManager
