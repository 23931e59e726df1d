import AwsMock.S3.Requests

/-!
# What `GetObject` answers

The settings of a bucket stay what they are until a call changes them, and `GetObject` answers with the
record and the data file it finds.
-/

namespace AwsMock.S3

open Lib

/-- The bucket and the record a `GetObject` finds. -/
def Finds (w : World) (request : GetObjectRequest) (bucket : Bucket) (object : Object) : Prop :=
  (∃ k, (w.db.buckets.findIf fun _ b => b.isNamed request.region request.bucket) = some (k, bucket)) ∧
  ∃ k, (w.db.objects.findIf fun _ o => o.isAt request.region request.bucket request.key) =
    some (k, object)

/-- The number of calls a `GetObject` makes before it decrypts. -/
def GetObjectRequest.lookups (request : GetObjectRequest) : Nat := if request.key = [] then 3 else 4

/-- The bucket of a name is there, under whatever key. -/
def HasBucket (region name : Str) (bucket : Bucket) (w : World) : Prop :=
  ∃ k oid, (w.db.buckets.findIf fun _ b => b.isNamed region name) = some (k, { bucket with oid := oid })

/-- The bucket of a name is there, with these settings. -/
def HasSettings (region name : Str) (versioned encrypted : Bool) (w : World) : Prop :=
  ∃ k bucket, (w.db.buckets.findIf fun _ b => b.isNamed region name) = some (k, bucket) ∧
    bucket.isVersioned = versioned ∧ bucket.hasEncryption = encrypted

/-- The calls that create, change or delete a bucket. -/
def S3Call.touchesBuckets : S3Call → Bool
  | .createBucket .. | .updateBucket .. | .deleteBucket .. => true
  | _ => false

variable {env : Env} {rt : Runtime} {w w' : World} {c : S3Call} {x : c.Reply}
  {request : GetObjectRequest} {bucket : Bucket} {object : Object}

/-- A bucket stays what it is until a call changes one. -/
theorem hasBucket_of_call {region name : Str} (hc : c.touchesBuckets = false)
    (h : exec env rt c w = some (x, w')) (hw : HasBucket region name bucket w) :
    HasBucket region name bucket w' := by
  rcases htouch : c.touchesDb with _ | _
  · rwa [HasBucket, db_of_call htouch h]
  obtain ⟨v, hr, rfl⟩ := exec_eq_some.mp h
  change HasBucket region name bucket v
  cases c with
  | createBucket | updateBucket | deleteBucket => cases hc
  | createObject object =>
    simp only [S3Call.apply, S3MemoryDb.createObject_eq, Option.some.injEq, Prod.mk.injEq] at hr
    obtain ⟨-, rfl⟩ := hr
    exact hw
  | updateObject object =>
    obtain ⟨y, hy, he⟩ := Option.map_eq_some_iff.mp hr
    obtain ⟨it, -, rfl⟩ := Option.map_eq_some_iff.mp hy
    cases he
    exact hw
  | deleteObject | deleteObjects => cases hr; exact hw
  | getObject | getObjectMd5 =>
    cases hr
    change HasBucket region name bucket { w with db := (w.db.fetchObject _ _).2 }
    unfold HasBucket
    rw [S3MemoryDb.fetchObject_buckets]
    exact hw
  | getBucketByRegionName region' name' =>
    cases hr
    change HasBucket region name bucket
      { w with db := (w.db.fetchBucket _ (w.db.buckets.findIf _)).2 }
    rcases hit : w.db.buckets.findIf fun _ b => b.isNamed region' name' with _ | ⟨k', bucket'⟩
    · exact hw
    · -- The bucket found is given its key, and nothing else.
      obtain ⟨k, oid, hfind⟩ := hw
      have hsame : (w.db.buckets.insert k' { bucket' with oid := k' }).findIf
          (fun _ b => b.isNamed region name) = _ :=
        OrderedMap.findIf_insert_of_same (OrderedMap.findIf_some hit).1 rfl
      rw [hfind, Option.map_some] at hsame
      by_cases hk : k = k'
      · subst hk
        have hold := (OrderedMap.findIf_some hfind).1
        rw [(OrderedMap.findIf_some hit).1, Option.some.injEq] at hold
        subst hold
        rw [if_pos rfl] at hsame
        exact ⟨k, k, hsame⟩
      · rw [if_neg hk] at hsame
        exact ⟨k, oid, hsame⟩
  | _ => cases htouch

theorem hasSettings_iff {region name : Str} {versioned encrypted : Bool} :
    HasSettings region name versioned encrypted w ↔ ∃ bucket, HasBucket region name bucket w ∧
      bucket.isVersioned = versioned ∧ bucket.hasEncryption = encrypted := by
  constructor
  · rintro ⟨k, bucket, hfind, hsettings⟩
    exact ⟨bucket, ⟨k, bucket.oid, hfind⟩, hsettings⟩
  · rintro ⟨bucket, ⟨k, oid, hfind⟩, hsettings⟩
    exact ⟨k, _, hfind, hsettings⟩

/-- Settings stay until a call changes a bucket. -/
theorem hasSettings_of_call {region name : Str} {versioned encrypted : Bool}
    (hc : c.touchesBuckets = false) (h : exec env rt c w = some (x, w'))
    (hw : HasSettings region name versioned encrypted w) :
    HasSettings region name versioned encrypted w' := by
  obtain ⟨bucket, hbucket, hsettings⟩ := hasSettings_iff.mp hw
  exact hasSettings_iff.mpr ⟨bucket, hasBucket_of_call hc h hbucket, hsettings⟩

/-- The bucket that is looked up has its settings. -/
theorem hasSettings_lookup {region name : Str} {versioned encrypted : Bool} {entity : Bucket}
    (hw : HasSettings region name versioned encrypted w)
    (h : exec env rt (.getBucketByRegionName region name) w = some (entity, w')) :
    entity.isVersioned = versioned ∧ entity.hasEncryption = encrypted := by
  obtain ⟨k, bucket, hfind, hversioned, hencrypted⟩ := hw
  obtain ⟨v, hr, -⟩ := exec_eq_some.mp h
  simp only [S3Call.apply, S3MemoryDb.getBucketByRegionName, hfind, S3MemoryDb.fetchBucket,
    Option.some.injEq, Prod.mk.injEq] at hr
  obtain ⟨rfl, -⟩ := hr
  exact ⟨hversioned, hencrypted⟩

theorem HasSettings.exists {region name : Str} {versioned encrypted : Bool}
    (hw : HasSettings region name versioned encrypted w) : w.db.bucketExists region name = true := by
  obtain ⟨k, bucket, hfind, -⟩ := hw
  rw [S3MemoryDb.bucketExists, hfind]
  rfl

theorem getBucketByRegionName_run (env : Env) (rt : Runtime) {region name k : Str}
    (h : (w.db.buckets.findIf fun _ b => b.isNamed region name) = some (k, bucket)) :
    ∃ w', exec env rt (.getBucketByRegionName region name) w = some ({ bucket with oid := k }, w') ∧
      w'.db.objects = w.db.objects ∧ w'.files = w.files ∧ w'.calls = w.calls + 1 := by
  refine ⟨{ w with
    db := { w.db with buckets := w.db.buckets.insert k { bucket with oid := k } }
    calls := w.calls + 1 }, ?_, rfl, rfl, rfl⟩
  simp [exec, S3Call.apply, S3MemoryDb.getBucketByRegionName, h, S3MemoryDb.fetchBucket]

theorem getObject_run (env : Env) (rt : Runtime) {region name key k : Str}
    (h : (w.db.objects.findIf fun _ o => o.isAt region name key) = some (k, object)) :
    ∃ w', exec env rt (.getObject region name key) w = some ({ object with oid := k }, w') ∧
      w'.files = w.files ∧ w'.calls = w.calls + 1 := by
  refine ⟨{ w with
    db := { w.db with objects := w.db.objects.insert k { object with oid := k } }
    calls := w.calls + 1 }, ?_, rfl, rfl⟩
  simp [exec, S3Call.apply, S3MemoryDb.getObject, h, S3MemoryDb.fetchObject]

/-- The file `GetObject` answers with holds the data file of the object, decrypted if the bucket is
    encrypted now. -/
theorem fetchObject_run (env : Env) (rt : Runtime) (h : Finds w request bucket object)
    (hversion : bucket.isVersioned → request.versionId = []) {stored : Str}
    (hfile : w.files.get? object.internalName = some stored) :
    ∃ response w', (fetchObject request).run (exec env rt) w = some (.ok response, w') ∧
      w'.read response.filename = (if bucket.hasEncryption
        then env.decrypt (rt.aes256Key (w.calls + 2) bucket.bucketEncryption.kmsKeyId) stored
        else stored) ∧
      response.size = object.size ∧ response.md5sum = object.md5sum := by
  obtain ⟨⟨kb, hbucket⟩, ko, hobject⟩ := h
  obtain ⟨w₁, hlookup, hobjects, hfiles, hcalls⟩ := getBucketByRegionName_run env rt hbucket
  rw [← hobjects] at hobject
  obtain ⟨w₂, hget, hfiles₂, hcalls₂⟩ := getObject_run env rt hobject
  have hversioned : ¬ (Bucket.isVersioned { bucket with oid := kb } = true ∧ request.versionId ≠ []) :=
    fun hv => hv.2 (hversion hv.1)
  have hkey : Bucket.hasEncryption { bucket with oid := kb } = bucket.hasEncryption := rfl
  have hstored : w₂.files.get? object.internalName = some stored := by rw [hfiles₂, hfiles, hfile]
  have hcall : w₂.calls = w.calls + 2 := by omega
  unfold fetchObject
  rw [Prog.run_perform_bind_some hlookup]
  dsimp only
  rw [if_neg hversioned, Prog.run_perform_bind_some hget]
  unfold checkDecryption
  rw [hkey]
  split
  · have hdecrypt : exec env rt (.decryptFile object.internalName bucket.bucketEncryption.kmsKeyId) w₂ =
        some ((), { w₂ with
          files := w₂.files.insert (World.plainName object.internalName)
            (env.decrypt (rt.aes256Key w₂.calls bucket.bucketEncryption.kmsKeyId) stored)
          calls := w₂.calls + 1 }) := by
      simp [exec, S3Call.apply, World.decryptFile, hstored]
    refine ⟨_, _, Prog.run_perform_bind_some hdecrypt, ?_, rfl, rfl⟩
    simp [World.read, hcall]
  · refine ⟨_, _, rfl, ?_, rfl, rfl⟩
    simp [World.read, hstored]


/-- The response is that of the record found, and its body is the data file, decrypted if the bucket is
    encrypted now. -/
theorem handleGetObject_run (env : Env) (rt : Runtime) (h : Finds w request bucket object)
    (hversion : bucket.isVersioned → request.versionId = []) {stored : Str}
    (hfile : w.files.get? object.internalName = some stored) :
    ∃ response w', (handleGetObject request).run (exec env rt) w = some (.ok (response,
      if bucket.hasEncryption then env.decrypt (rt.aes256Key (w.calls + request.lookups)
        bucket.bucketEncryption.kmsKeyId) stored else stored), w') ∧
      response.size = object.size ∧ response.md5sum = object.md5sum := by
  obtain ⟨⟨kb, hbucket⟩, ko, hobject⟩ := id h
  have hexists : w.db.bucketExists request.region request.bucket = true := by
    rw [S3MemoryDb.bucketExists, hbucket]
    rfl
  have hfound : w.db.objectExists request.region request.bucket request.key = true := by
    rw [S3MemoryDb.objectExists, hobject]
    rfl
  have hfetch : ∀ n, _ := fun n =>
    fetchObject_run (w := { w with calls := n }) env rt h hversion hfile
  have hanswer : ∃ response w', (getObject request).run (exec env rt) w = some (.ok response, w') ∧
      w'.read response.filename = (if bucket.hasEncryption then env.decrypt (rt.aes256Key
        (w.calls + request.lookups) bucket.bucketEncryption.kmsKeyId) stored else stored) ∧
      response.size = object.size ∧ response.md5sum = object.md5sum := by
    have hbucketExists : exec env rt (.bucketExists request.region request.bucket) w =
        some (true, { w with calls := w.calls + 1 }) := by simp [exec, S3Call.apply, hexists]
    unfold getObject
    rw [Prog.run_perform_bind_some hbucketExists, if_pos rfl]
    by_cases hkey : request.key = []
    · obtain ⟨response, w', hrun, hcontent⟩ := hfetch (w.calls + 1)
      refine ⟨response, w', ?_, ?_⟩
      · rw [if_pos hkey, guarded, Prog.run_mapThrow, hrun]
        rfl
      · rw [GetObjectRequest.lookups, if_pos hkey]
        exact hcontent
    · have hobjectExists : exec env rt (.objectExists request.region request.bucket request.key)
          { w with calls := w.calls + 1 } =
          some (true, { w with calls := w.calls + 2 }) := by simp [exec, S3Call.apply, hfound]
      obtain ⟨response, w', hrun, hcontent⟩ := hfetch (w.calls + 2)
      refine ⟨response, w', ?_, ?_⟩
      · rw [if_neg hkey, Prog.run_perform_bind_some hobjectExists, if_pos rfl, guarded,
          Prog.run_mapThrow, hrun]
        rfl
      · rw [GetObjectRequest.lookups, if_neg hkey]
        exact hcontent
  obtain ⟨response, w', hrun, hcontent, hresponse⟩ := hanswer
  refine ⟨response, { w' with calls := w'.calls + 1 }, ?_, hresponse⟩
  unfold handleGetObject
  rw [Prog.run_bind, hrun]
  simp [Prog.run_perform_bind, exec, S3Call.apply, hcontent]

/-- Without a record `GetObject` fails. -/
theorem handleGetObject_missing (env : Env) (rt : Runtime)
    (hbucket : w.db.bucketExists request.region request.bucket = true) (hkey : request.key ≠ [])
    (hmissing : w.db.objectExists request.region request.bucket request.key = false) :
    ∃ e w', (handleGetObject request).run (exec env rt) w = some (.error e, w') := by
  refine ⟨.notFoundException (str "Object does not exist"), { w with calls := w.calls + 2 }, ?_⟩
  have hbucketExists : exec env rt (.bucketExists request.region request.bucket) w =
      some (true, { w with calls := w.calls + 1 }) := by simp [exec, S3Call.apply, hbucket]
  have hobjectExists : exec env rt (.objectExists request.region request.bucket request.key)
      { w with calls := w.calls + 1 } =
      some (false, { w with calls := w.calls + 2 }) := by simp [exec, S3Call.apply, hmissing]
  have hanswer : (getObject request).run (exec env rt) w =
      some (.error (.notFoundException (str "Object does not exist")), { w with calls := w.calls + 2 }) := by
    unfold getObject
    rw [Prog.run_perform_bind_some hbucketExists, if_pos rfl, if_neg hkey,
      Prog.run_perform_bind_some hobjectExists, if_neg (by simp)]
    rfl
  unfold handleGetObject
  rw [Prog.run_bind, hanswer]
  rfl

end AwsMock.S3
