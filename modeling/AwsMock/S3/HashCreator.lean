import AwsMock.Lib.Alike
import AwsMock.Lib.Threads
import AwsMock.S3.Steps

/-!
# The hash creator

`S3HashCreator`, which a write of an object starts beside the requests, with a copy of the record. When the hash is
there it writes the whole copy back, over the first record of the bucket name and key. No request looks at the hashes.
-/

namespace AwsMock.S3

open Lib OrderedMap

/-! ### The threads -/

/-- The file is looked for in the data directory itself, and an MD5 sum goes into the SHA256 field. -/
def s3HashCreator (env : Env) (algorithm : Str) (object : Object) : S3Prog Unit := do
  let object ←
    if algorithm = str "SHA1" then do
      let content ← call (.readDataFile object.internalName)
      pure { object with sha1sum := env.sha1 content }
    else if algorithm = str "SHA256" then do
      let content ← call (.readDataFile object.internalName)
      pure { object with sha256sum := env.sha256 content }
    else if algorithm = str "MD5" then do
      let content ← call (.readDataFile object.internalName)
      pure { object with sha256sum := env.md5 content }
    else pure object
  let _ ← call (.updateObject object)
  return ()

inductive S3Task where
  | putObject (request : PutObjectRequest) (body : Str) (chunkEncoding : Bool)
  | deleteObject (request : DeleteObjectRequest)
  | completeMultipartUpload (request : CompleteMultipartUploadRequest)
  | createHash (algorithm : Str) (object : Object)

def S3Task.program (env : Env) : S3Task → S3Prog Unit
  | putObject request body chunkEncoding => do
    let _ ← S3.putObject env request body chunkEncoding
    return ()
  | deleteObject request => S3.deleteObject env request
  | completeMultipartUpload request => do
    let _ ← S3.completeMultipartUpload env request
    return ()
  | createHash algorithm object => s3HashCreator env algorithm object

abbrev S3Thread := Thread S3Task S3Call S3Call.Reply S3Error Unit

abbrev S3Pool := Thread.Pool S3Task S3Call S3Call.Reply S3Error Unit World

def S3Task.thread (env : Env) (task : S3Task) : S3Thread := ⟨task, task.program env⟩

/-- The thread that a call starts. -/
def S3Call.started (env : Env) : S3Call → List S3Thread
  | .startHashCreator algorithm object => [(S3Task.createHash algorithm object).thread env]
  | _ => []

/-- The first `n` threads are the requests. What is drawn from outside is numbered by their calls; the hash creator
    draws nothing. -/
def hashExec (env : Env) (rt : Runtime) (n : Nat) : Thread.Exec S3Task S3Call S3Call.Reply S3Error Unit World :=
  fun i c w =>
    if i < n then (exec env rt c w).map fun r => .goes r.1 r.2 (c.started env)
    else (c.apply env rt w.calls w).map fun r => .goes r.1 r.2 []

abbrev hashTurn (env : Env) (rt : Runtime) (n : Nat) := Thread.turn (hashExec env rt n)

def startRequests (env : Env) (requests : List S3Task) (w : World) : S3Pool :=
  (requests.map fun task => task.thread env, w)

namespace S3Task

def IsRequest : S3Task → Prop
  | createHash .. => False
  | _ => True

end S3Task

/-! ### Records up to their hashes -/

/-- What tells the versions of objects apart. -/
abbrev VersionName := Str × Str × Str × Str

namespace Object

def versionName (object : Object) : VersionName := (object.region, object.bucket, object.key, object.versionId)

/-- What was written of a version, without its hashes and the id that lookups write into it. -/
def asWritten (object : Object) : Object := { object with oid := [], sha1sum := [], sha256sum := [] }

/-- Without the hashes, if it is one of the versions. -/
def unhashed (hashed : VersionName → Bool) (object : Object) : Object :=
  if hashed object.versionName then { object with sha1sum := [], sha256sum := [] } else object

/-- Without the id that lookups write into it as well. -/
def stored (hashed : VersionName → Bool) (object : Object) : Object := { object.unhashed hashed with oid := [] }

end Object

/-- The versions for which a hash creator was started. -/
def hashedVersions (x : S3Pool) (name : VersionName) : Bool :=
  x.1.any fun t => match t.label with
    | .createHash _ object => object.versionName = name
    | _ => false

/-- The processes are the same but for the hashes of some versions and the ids that lookups write. -/
structure SameButHashes (hashed : VersionName → Bool) (w w' : World) : Prop where
  buckets : w.db.buckets = w'.db.buckets
  objects : (w.db.objects.mapVal fun _ => Object.stored hashed) = w'.db.objects.mapVal fun _ => Object.stored hashed
  files : w.files = w'.files
  uploads : w.uploads = w'.uploads
  calls : w.calls = w'.calls

/-- The record that a thread is about to write over another. -/
def pendingUpdate (i : Nat) (x : S3Pool) : Option Object := do
  let t ← x.1[i]?
  match t.prog.next with
  | some (.updateObject object) => some object
  | _ => none

/-- A hash creator that is about to write finds its version as the first record of the bucket name and key, as it was
    written. -/
def FindsVersion (n i : Nat) (x : S3Pool) : Prop :=
  n ≤ i → ∀ object ∈ pendingUpdate i x,
    ∃ it ∈ x.2.db.objects.findIf fun _ o => o.isKeyed object.bucket object.key, it.2.asWritten = object.asWritten

instance (n i : Nat) (x : S3Pool) : Decidable (FindsVersion n i x) :=
  inferInstanceAs (Decidable (n ≤ i → ∀ object ∈ pendingUpdate i x,
    ∃ it ∈ x.2.db.objects.findIf fun _ o => o.isKeyed object.bucket object.key, it.2.asWritten = object.asWritten))

/-! ### Calls that do alike -/

variable {hashed : VersionName → Bool} {object object' : Object}

namespace Object

theorem versionName_eq (h : object.asWritten = object'.asWritten) : object.versionName = object'.versionName := by
  change object.asWritten.versionName = object'.asWritten.versionName
  rw [h]

theorem asWritten_eq_of_unhashed (h : object.unhashed hashed = object'.unhashed hashed) :
    object.asWritten = object'.asWritten := by
  have hunhashed : ∀ object : Object, (object.unhashed hashed).asWritten = object.asWritten := by
    intro object
    unfold unhashed
    split <;> rfl
  rw [← hunhashed object, h, hunhashed]

theorem place_eq (h : object.asWritten = object'.asWritten) :
    object.bucket = object'.bucket ∧ object.key = object'.key := by
  have hbucket := congrArg Object.bucket h
  have hkey := congrArg Object.key h
  exact ⟨hbucket, hkey⟩

theorem content_eq (h : object.asWritten = object'.asWritten) :
    object.size = object'.size ∧ object.internalName = object'.internalName := by
  have hsize := congrArg Object.size h
  have hinternalName := congrArg Object.internalName h
  exact ⟨hsize, hinternalName⟩

/-- Of a version of which the hashes are left out, only what was written counts. -/
theorem stored_eq_of_asWritten (hname : hashed object.versionName = true)
    (h : object.asWritten = object'.asWritten) : object.stored hashed = object'.stored hashed := by
  have hname' : hashed object'.versionName = true := versionName_eq h ▸ hname
  simp only [stored, unhashed, hname, hname', if_true]
  exact h

/-- With the same id. -/
theorem unhashed_eq_of_stored (oid : Str) (h : object.stored hashed = object'.stored hashed) :
    { object with oid := oid }.unhashed hashed = { object' with oid := oid }.unhashed hashed := by
  have hoid : ∀ object : Object, { object with oid := oid }.unhashed hashed =
      { object.stored hashed with oid := oid } := by
    intro object
    unfold stored unhashed
    by_cases hname : hashed object.versionName = true
    · rw [if_pos hname]
      exact if_pos hname
    · rw [if_neg hname]
      exact if_neg hname
  rw [hoid, h, ← hoid]

@[simp] theorem stored_isAt (region bucket key : Str) (object : Object) :
    (object.stored hashed).isAt region bucket key = object.isAt region bucket key := by
  unfold stored unhashed
  split <;> rfl

@[simp] theorem stored_isKeyed (bucket key : Str) (object : Object) :
    (object.stored hashed).isKeyed bucket key = object.isKeyed bucket key := by
  unfold stored unhashed
  split <;> rfl

@[simp] theorem stored_md5sum (object : Object) : (object.stored hashed).md5sum = object.md5sum := by
  unfold stored unhashed
  split <;> rfl

@[simp] theorem unhashed_oid (object : Object) : (object.unhashed hashed).oid = object.oid := by
  unfold unhashed
  split <;> rfl

/-- With another content. -/
theorem unhashed_rewrite (h : object.unhashed hashed = object'.unhashed hashed) (size : Int)
    (md5sum internalName : Str) :
    { object with size := size, md5sum := md5sum, internalName := internalName }.unhashed hashed =
      { object' with size := size, md5sum := md5sum, internalName := internalName }.unhashed hashed := by
  have hrewrite : ∀ object : Object,
      { object with size := size, md5sum := md5sum, internalName := internalName }.unhashed hashed =
        { object.unhashed hashed with size := size, md5sum := md5sum, internalName := internalName } := by
    intro object
    unfold unhashed
    by_cases hname : hashed object.versionName = true
    · rw [if_pos hname]
      exact if_pos hname
    · rw [if_neg hname]
      exact if_neg hname
  rw [hrewrite, h, ← hrewrite]

theorem stored_eq_of_unhashed (h : object.unhashed hashed = object'.unhashed hashed) :
    object.stored hashed = object'.stored hashed := congrArg (fun o : Object => { o with oid := [] }) h

end Object

/-- Calls that the requests make and to which no record of an object is a reply. -/
def S3Call.plain : S3Call → Bool
  | .clockNow | .createRandom | .createS3FileName | .createS3VersionId | .bucketExists .. | .getBucketByRegionName ..
  | .objectExists .. | .deleteObject .. | .writeFile .. | .fileSize .. | .readFile .. | .deleteFile .. | .encryptFile ..
  | .listParts .. | .appendParts .. | .deleteUploadDirectory .. | .deleteTransferFile .. | .send .. | .stackBuffer .. =>
    true
  | _ => false

/-- The calls of a request, in a process with a hash creator and in one without. -/
inductive SameCall (hashed : VersionName → Bool) : Prog.Likeness S3Call S3Call.Reply
  | plain {c : S3Call} : c.plain = true → SameCall hashed c c Eq
  | getObject (region bucket key : Str) : SameCall hashed (.getObject region bucket key) (.getObject region bucket key)
      fun (o o' : Object) => o.unhashed hashed = o'.unhashed hashed
  | getObjectMd5 (region bucket key md5sum : Str) : SameCall hashed (.getObjectMd5 region bucket key md5sum)
      (.getObjectMd5 region bucket key md5sum) fun (o o' : Object) => o.unhashed hashed = o'.unhashed hashed
  | createObject {object object' : Object} : object.unhashed hashed = object'.unhashed hashed →
      SameCall hashed (.createObject object) (.createObject object')
        fun (o o' : Object) => o.unhashed hashed = o'.unhashed hashed
  | updateObject {object object' : Object} : object.unhashed hashed = object'.unhashed hashed →
      SameCall hashed (.updateObject object) (.updateObject object')
        fun (o o' : Object) => o.unhashed hashed = o'.unhashed hashed
  | startHashCreator (algorithm : Str) (object object' : Object) :
      SameCall hashed (.startHashCreator algorithm object) (.startHashCreator algorithm object') fun _ _ => True

section Exec

variable {env : Env} {rt : Runtime} {w w' : World}

def World.withObjects (w : World) (objects : OrderedMap Str Object) : World :=
  { w with db := { w.db with objects := objects } }

theorem SameButHashes.eq_withObjects (h : SameButHashes hashed w w') : w' = w.withObjects w'.db.objects := by
  obtain ⟨hbuckets, -, hfiles, huploads, hcalls⟩ := h
  obtain ⟨⟨buckets', objects'⟩, files', uploads', calls'⟩ := w'
  cases hbuckets
  cases hfiles
  cases huploads
  cases hcalls
  rfl

theorem SameButHashes.withObjects {objects objects' : OrderedMap Str Object}
    (h : (objects.mapVal fun _ => Object.stored hashed) = objects'.mapVal fun _ => Object.stored hashed) :
    SameButHashes hashed (w.withObjects objects) (w.withObjects objects') := ⟨rfl, h, rfl, rfl, rfl⟩

/-- The calls that do not look at the records of objects. -/
def S3Call.blind (c : S3Call) : Bool := c.plain && !(match c with
  | .objectExists .. | .deleteObject .. => true
  | _ => false)

theorem apply_blind {c : S3Call} (hc : c.blind = true) (n : Nat) (w : World) (objects : OrderedMap Str Object) :
    c.apply env rt n (w.withObjects objects) = (c.apply env rt n w).map fun r => (r.1, r.2.withObjects objects) := by
  cases c with
  | getBucketByRegionName region name =>
    simp only [S3Call.apply, S3MemoryDb.getBucketByRegionName, World.withObjects]
    rcases w.db.buckets.findIf fun _ bucket => bucket.isNamed region name with _ | it <;> rfl
  | deleteFile name =>
    simp only [S3Call.apply, World.deleteFile, World.withObjects]
    split <;> rfl
  | encryptFile name keyId =>
    simp only [S3Call.apply, World.encryptFile, World.withObjects]
    rcases w.files.get? name with _ | content <;> rfl
  | listParts uploadId =>
    simp only [S3Call.apply, World.withObjects]
    rcases w.uploads.get? uploadId with _ | files
    · rfl
    · rcases hnames : listFilesByPrefix files uploadId with _ | names <;> simp only [hnames] <;> rfl
  | send target notification record =>
    simp only [S3Call.apply]
    split <;> rfl
  | stackBuffer size =>
    simp only [S3Call.apply]
    split <;> rfl
  | clockNow | createRandom | createS3FileName | createS3VersionId | bucketExists | fileSize | readFile
  | deleteTransferFile | writeFile | appendParts | deleteUploadDirectory => rfl
  | _ => cases hc

theorem SameButHashes.objectExists (h : SameButHashes hashed w w') (region bucket key : Str) :
    w.db.objectExists region bucket key = w'.db.objectExists region bucket key := by
  have hfound := congrArg Option.isSome
    (findIf_of_mapVal_eq h.objects fun _ object => Object.stored_isAt region bucket key object)
  rwa [Option.isSome_map, Option.isSome_map] at hfound

theorem SameButHashes.deleteObject (h : SameButHashes hashed w w') (bucket key : Str) :
    SameButHashes hashed { w with db := w.db.deleteObject bucket key }
      { w' with db := w'.db.deleteObject bucket key } where
  buckets := h.buckets
  objects := by
    have hkeyed : ∀ (_ : Str) (object : Object),
        (object.stored hashed).isKeyed bucket key = object.isKeyed bucket key :=
      fun _ object => Object.stored_isKeyed bucket key object
    have herase := fun o : OrderedMap Str Object => mapVal_eraseIf o hkeyed
    rw [S3MemoryDb.deleteObject, S3MemoryDb.deleteObject, herase, herase, h.objects]
  files := h.files
  uploads := h.uploads
  calls := h.calls

/-- A lookup by what the stored records have in common. -/
theorem SameButHashes.fetchObject (h : SameButHashes hashed w w') {p : Str → Object → Bool}
    (hp : ∀ k object, p k (object.stored hashed) = p k object) (now : TimePoint) :
    (w.db.fetchObject now (w.db.objects.findIf p)).1.unhashed hashed =
        (w'.db.fetchObject now (w'.db.objects.findIf p)).1.unhashed hashed ∧
      SameButHashes hashed { w with db := (w.db.fetchObject now (w.db.objects.findIf p)).2 }
        { w' with db := (w'.db.fetchObject now (w'.db.objects.findIf p)).2 } := by
  have hfound := findIf_of_mapVal_eq h.objects hp
  rcases hit : w.db.objects.findIf p with _ | ⟨k, object⟩ <;>
    rcases hit' : w'.db.objects.findIf p with _ | ⟨k', object'⟩ <;>
    rw [hit, hit'] at hfound
  · exact ⟨rfl, h⟩
  · cases hfound
  · cases hfound
  · obtain ⟨rfl, hstored⟩ := Prod.mk.inj (Option.some.inj hfound)
    have hunhashed := Object.unhashed_eq_of_stored k hstored
    refine ⟨hunhashed, h.buckets, ?_, h.files, h.uploads, h.calls⟩
    simp only [S3MemoryDb.fetchObject, mapVal_insert, h.objects, Object.stored_eq_of_unhashed hunhashed]

theorem SameButHashes.createObject (h : SameButHashes hashed w w')
    (hobject : object.unhashed hashed = object'.unhashed hashed) (oid : Str) (now : TimePoint) :
    (w.db.createObject oid object now).1.unhashed hashed = (w'.db.createObject oid object' now).1.unhashed hashed ∧
      SameButHashes hashed { w with db := (w.db.createObject oid object now).2 }
        { w' with db := (w'.db.createObject oid object' now).2 } := by
  have hunhashed := Object.unhashed_eq_of_stored oid (Object.stored_eq_of_unhashed hobject)
  rw [S3MemoryDb.createObject_eq, S3MemoryDb.createObject_eq]
  refine ⟨hunhashed, h.buckets, ?_, h.files, h.uploads, h.calls⟩
  rw [mapVal_insert, mapVal_insert, h.objects, Object.stored_eq_of_unhashed hunhashed]

theorem SameButHashes.updateObject (h : SameButHashes hashed w w')
    (hobject : object.unhashed hashed = object'.unhashed hashed) {r : Object × S3MemoryDb}
    (hrun : w.db.updateObject object = some r) :
    ∃ r', w'.db.updateObject object' = some r' ∧ r.1.unhashed hashed = r'.1.unhashed hashed ∧
      SameButHashes hashed { w with db := r.2 } { w' with db := r'.2 } := by
  obtain ⟨hbucket, hkey⟩ := Object.place_eq (Object.asWritten_eq_of_unhashed hobject)
  obtain ⟨⟨k, old⟩, hit, rfl⟩ := Option.map_eq_some_iff.mp hrun
  have hfound := findIf_of_mapVal_eq h.objects fun _ o => Object.stored_isKeyed object.bucket object.key o
  rw [hit] at hfound
  obtain ⟨⟨k', old'⟩, hit', hsame⟩ := Option.map_eq_some_iff.mp hfound.symm
  obtain ⟨rfl, -⟩ := Prod.mk.inj hsame
  refine ⟨(object', { w'.db with objects := w'.db.objects.insert k' object' }), ?_, hobject, h.buckets, ?_, h.files,
    h.uploads, h.calls⟩
  · rw [S3MemoryDb.updateObject, ← hbucket, ← hkey, hit']
    rfl
  · simp only [mapVal_insert, h.objects, Object.stored_eq_of_unhashed hobject]

/-- Alike calls have alike replies and leave the processes the same but for the hashes. -/
theorem SameButHashes.apply (h : SameButHashes hashed w w') {c c' : S3Call} {Q : c.Reply → c'.Reply → Prop}
    (hcall : SameCall hashed c c' Q) (n : Nat) {r : c.Reply × World} (hrun : c.apply env rt n w = some r) :
    ∃ r', c'.apply env rt n w' = some r' ∧ Q r.1 r'.1 ∧ SameButHashes hashed r.2 r'.2 := by
  cases hcall with
  | plain hplain =>
    by_cases hblind : c.blind = true
    · have hself : w = w.withObjects w.db.objects := rfl
      rw [h.eq_withObjects, apply_blind hblind, hrun]
      rw [hself, apply_blind hblind, Option.map_eq_some_iff] at hrun
      obtain ⟨r₀, hr₀, rfl⟩ := hrun
      exact ⟨_, rfl, rfl, .withObjects h.objects⟩
    · cases c with
      | objectExists region bucket key =>
        cases hrun
        exact ⟨_, rfl, h.objectExists region bucket key, h⟩
      | deleteObject bucket key =>
        cases hrun
        exact ⟨_, rfl, rfl, h.deleteObject bucket key⟩
      | _ => simp_all [S3Call.blind, S3Call.plain]
  | getObject region bucket key =>
    cases hrun
    obtain ⟨hreply, hsame⟩ := h.fetchObject (fun _ o => Object.stored_isAt region bucket key o) (rt.now n)
    exact ⟨_, rfl, hreply, hsame⟩
  | getObjectMd5 region bucket key md5sum =>
    cases hrun
    obtain ⟨hreply, hsame⟩ := h.fetchObject (p := fun _ o => o.isAt region bucket key ∧ o.md5sum = md5sum)
      (fun _ o => by rw [Object.stored_isAt, Object.stored_md5sum]) (rt.now n)
    exact ⟨_, rfl, hreply, hsame⟩
  | createObject hobject =>
    cases hrun
    obtain ⟨hreply, hsame⟩ := h.createObject hobject (rt.uuid n) (rt.now n)
    exact ⟨_, rfl, hreply, hsame⟩
  | updateObject hobject =>
    obtain ⟨r₀, hr₀, rfl⟩ := Option.map_eq_some_iff.mp hrun
    obtain ⟨r', hr', hreply, hsame⟩ := h.updateObject hobject hr₀
    refine ⟨(r'.1, { w' with db := r'.2 }), ?_, hreply, hsame⟩
    rw [S3Call.apply, hr']
    rfl
  | startHashCreator algorithm object object' =>
    cases hrun
    exact ⟨_, rfl, trivial, h⟩

theorem SameButHashes.exec (h : SameButHashes hashed w w') {c c' : S3Call} {Q : c.Reply → c'.Reply → Prop}
    (hcall : SameCall hashed c c' Q) {r : c.Reply × World} (hrun : exec env rt c w = some r) :
    ∃ r', exec env rt c' w' = some r' ∧ Q r.1 r'.1 ∧ SameButHashes hashed r.2 r'.2 := by
  obtain ⟨v, hv, rfl⟩ := Option.map_eq_some_iff.mp hrun
  obtain ⟨v', hv', hreply, hsame⟩ := h.apply hcall w.calls hv
  refine ⟨(v'.1, { v'.2 with calls := w'.calls + 1 }), ?_, hreply, hsame.buckets, hsame.objects, hsame.files,
    hsame.uploads, congrArg Nat.succ h.calls⟩
  rw [S3.exec, ← h.calls, hv']
  rfl

end Exec

/-! ### The requests -/

section Requests

variable {env : Env} {rt : Runtime}

open Prog

theorem same_plain (c : S3Call) (hc : c.plain = true) : SameCall hashed c c Eq := .plain hc

theorem plain_notify (target : Target) (bucket : Bucket) (region key : Str) (size : Int) (event : Str) :
    (notify target bucket region key size event).Only fun c => c.plain = true := by
  unfold notify
  split
  · exact only_pure _
  · refine only_when fun _ => only_bind (only_perform rfl) fun _ => ?_
    exact only_bind (only_perform rfl) fun sent => only_ofExcept sent

theorem plain_checkNotifications (region bucket key : Str) (size : Int) (event : Str) :
    (checkNotifications region bucket key size event).Only fun c => c.plain = true :=
  only_bind (only_perform rfl) fun _ => only_bind (plain_notify ..) fun _ =>
    only_bind (plain_notify ..) fun _ => plain_notify ..

theorem plain_checkEncryption (bucket : Bucket) (object : Object) :
    (checkEncryption bucket object).Only fun c => c.plain = true := only_when fun _ => only_perform rfl

theorem plain_receiveContent (body : Str) (chunkEncoding : Bool) :
    (receiveContent body chunkEncoding).Only fun c => c.plain = true := by
  unfold receiveContent
  split
  · dsimp only
    split
    · exact only_throw _
    · exact only_bind (only_perform rfl) fun _ => only_pure _
  · exact only_pure _

theorem plain_deleteObjectFiles (bucket key internalName : Str) :
    (deleteObjectFiles env bucket key internalName).Only fun c => c.plain = true :=
  only_bind (only_perform rfl) fun deleted => only_bind (only_ofExcept deleted) fun _ =>
    only_when fun _ => only_bind (only_perform rfl) fun deleted => only_ofExcept deleted

theorem alike_startHashing (algorithm : Str) (object object' : Object) :
    Alike (SameCall hashed) Eq (startHashing algorithm object) (startHashing algorithm object') := by
  unfold startHashing Prog.when
  split
  · exact .call (.startHashCreator algorithm object object') fun _ _ _ => .ret rfl
  · exact .ret rfl

theorem alike_createOrUpdateObject (object : Object) :
    Alike (SameCall hashed) (fun o o' => o.unhashed hashed = o'.unhashed hashed) (createOrUpdateObject object)
      (createOrUpdateObject object) := by
  refine alike_same (.plain rfl) fun found => ?_
  split
  · exact .call (.updateObject rfl) fun _ _ h => .ret h
  · exact .call (.createObject rfl) fun _ _ h => .ret h

/-- The end of a write: the file is encrypted, and the notifications are sent. -/
theorem alike_afterWrite {bucket : Bucket} {region name key event : Str} {α : Type} {A : α → α → Prop}
    (h : object.unhashed hashed = object'.unhashed hashed) {f f' : Unit → S3Prog α}
    (hf : Alike (SameCall hashed) A (f ()) (f' ())) :
    Alike (SameCall hashed) A
      (do checkEncryption bucket object
          let u ← checkNotifications region name key object.size event
          f u)
      (do checkEncryption bucket object'
          let u ← checkNotifications region name key object'.size event
          f' u) := by
  obtain ⟨hsize, hname⟩ := Object.content_eq (Object.asWritten_eq_of_unhashed h)
  have hencryption : checkEncryption bucket object' = checkEncryption bucket object := by
    rw [checkEncryption, checkEncryption, hname]
  rw [hencryption, ← hsize]
  refine ((plain_checkEncryption bucket object).alike same_plain).bind fun _ _ _ => ?_
  exact ((plain_checkNotifications region name key object.size event).alike same_plain).bind fun _ _ _ => hf

theorem alike_saveUnversionedObject (request : PutObjectRequest) (bucket : Bucket) (body : Str) (chunkEncoding : Bool) :
    Alike (SameCall hashed) (fun _ _ => True) (saveUnversionedObject env request bucket body chunkEncoding)
      (saveUnversionedObject env request bucket body chunkEncoding) := by
  refine alike_same (.plain rfl) fun fileName => ?_
  refine ((plain_receiveContent body chunkEncoding).alike same_plain).bind ?_
  rintro content _ rfl
  refine alike_same (.plain rfl) fun _ => ?_
  refine alike_same (.plain rfl) fun size => ?_
  refine alike_same (.plain rfl) fun now => ?_
  refine alike_same (.plain rfl) fun stored => ?_
  refine (alike_startHashing _ _ _).bind fun _ _ _ => ?_
  refine (alike_createOrUpdateObject _).bind fun object object' h => ?_
  exact alike_afterWrite h (.ret trivial)

theorem alike_createVersion (request : PutObjectRequest) (bucket : Bucket) (fileName : Str) (size : Int) :
    Alike (SameCall hashed) (fun _ _ => True) (createVersion env request bucket fileName size)
      (createVersion env request bucket fileName size) := by
  refine alike_same (.plain rfl) fun versionId => ?_
  refine alike_same (.plain rfl) fun now => ?_
  refine alike_same (.plain rfl) fun stored => ?_
  refine alike_perform (.createObject rfl) fun object object' h => ?_
  refine (alike_startHashing _ _ _).bind fun _ _ _ => ?_
  exact alike_afterWrite h (.ret trivial)

theorem alike_saveVersionedObject (request : PutObjectRequest) (bucket : Bucket) (body : Str) :
    Alike (SameCall hashed) (fun _ _ => True) (saveVersionedObject env request bucket body)
      (saveVersionedObject env request bucket body) := by
  refine alike_same (.plain rfl) fun fileName => ?_
  refine alike_same (.plain rfl) fun _ => ?_
  refine alike_same (.plain rfl) fun size => ?_
  refine alike_same (.plain rfl) fun now => ?_
  refine alike_perform (.getObjectMd5 ..) fun existing existing' h => ?_
  have hoid : existing.oid = existing'.oid := by
    rw [← Object.unhashed_oid existing, h, Object.unhashed_oid]
  rw [hoid]
  dsimp only
  split
  · refine (alike_createVersion request bucket fileName size).bind fun object object' _ => ?_
    exact alike_same (.plain rfl) fun _ => .ret trivial
  · refine alike_same (.plain rfl) fun deleted => ?_
    refine (alike_ofExcept deleted).bind fun _ _ _ => ?_
    exact alike_same (.plain rfl) fun _ => .ret trivial

theorem alike_putObject (request : PutObjectRequest) (body : Str) (chunkEncoding : Bool) :
    Alike (SameCall hashed) (fun _ _ => True) (S3.putObject env request body chunkEncoding)
      (S3.putObject env request body chunkEncoding) := by
  refine alike_same (.plain rfl) fun found => ?_
  split
  · refine Alike.mapThrow (alike_same (.plain rfl) fun bucket => ?_)
    split
    · exact alike_saveVersionedObject request bucket body
    · exact alike_saveUnversionedObject request bucket body chunkEncoding
  · exact .throw _

theorem alike_deleteObject (request : DeleteObjectRequest) :
    Alike (SameCall hashed) Eq (S3.deleteObject env request) (S3.deleteObject env request) := by
  refine alike_same (.plain rfl) fun found => ?_
  split
  · refine alike_same (.plain rfl) fun found => ?_
    split
    · refine Alike.mapThrow (alike_perform (.getObject ..) fun object object' h => ?_)
      obtain ⟨hbucket, hkey⟩ := Object.place_eq (Object.asWritten_eq_of_unhashed h)
      obtain ⟨-, hname⟩ := Object.content_eq (Object.asWritten_eq_of_unhashed h)
      rw [← hbucket, ← hkey, ← hname]
      refine alike_same (.plain rfl) fun _ => ?_
      refine ((plain_deleteObjectFiles _ _ _).alike same_plain).bind fun _ _ _ => ?_
      exact (plain_checkNotifications ..).alike same_plain
    · exact .ret rfl
  · exact .throw _

theorem alike_completeMultipartUpload (request : CompleteMultipartUploadRequest) :
    Alike (SameCall hashed) (fun _ _ => True) (S3.completeMultipartUpload env request)
      (S3.completeMultipartUpload env request) := by
  refine alike_same (.plain rfl) fun listed => ?_
  refine (alike_ofExcept listed).bind ?_
  rintro files _ rfl
  refine alike_same (.plain rfl) fun filename => ?_
  refine alike_same (.plain rfl) fun fileSize => ?_
  refine alike_same (.plain rfl) fun stored => ?_
  refine alike_perform (.getObject ..) fun object object' h => ?_
  refine alike_perform (.updateObject ?_) fun object object' h => ?_
  · exact Object.unhashed_rewrite h _ _ _
  · obtain ⟨hsize, -⟩ := Object.content_eq (Object.asWritten_eq_of_unhashed h)
    refine (alike_startHashing _ _ _).bind fun _ _ _ => ?_
    refine alike_same (.plain rfl) fun _ => ?_
    rw [← hsize]
    exact ((plain_checkNotifications ..).alike same_plain).bind fun _ _ _ => .ret trivial

/-- What a request does has nothing to do with the hashes. -/
theorem alike_request {task : S3Task} (h : task.IsRequest) :
    Alike (SameCall hashed) Eq (task.program env) (task.program env) := by
  cases task with
  | putObject request body chunkEncoding =>
    exact (alike_putObject request body chunkEncoding).bind fun _ _ _ => .ret rfl
  | deleteObject request => exact alike_deleteObject request
  | completeMultipartUpload request => exact (alike_completeMultipartUpload request).bind fun _ _ _ => .ret rfl
  | createHash => exact h.elim

end Requests

end AwsMock.S3
