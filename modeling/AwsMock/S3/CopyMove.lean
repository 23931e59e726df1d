import AwsMock.S3.Answers
import AwsMock.S3.NotificationDispatch
import AwsMock.S3.UnversionedBucket

/-!
# Copies and moves

What `CopyObject` and `MoveObject` leave to be read at the source and at the target. Both put a new record
beside those that the target has, with a copy of the data file as it is, and neither deletes anything.
-/

namespace AwsMock.S3

open Lib

/-! ### What is read -/

/-- What a data file is read as in a bucket, by a request that decrypts it in its `n`-th call. -/
def Bucket.reads (env : Env) (rt : Runtime) (bucket : Bucket) (stored : Str) (n : Nat) : Str :=
  if bucket.hasEncryption then env.decrypt (rt.aes256Key n bucket.bucketEncryption.kmsKeyId) stored
  else stored

/-- What `GetObject` reads of the object that it finds. -/
def World.content (env : Env) (rt : Runtime) (w : World) (request : GetObjectRequest) : Option (Nat → Str) :=
  (w.db.buckets.findIf fun _ b => b.isNamed request.region request.bucket).bind fun bucket =>
    (w.db.objects.findIf fun _ o => o.isAt request.region request.bucket request.key).bind fun object =>
      (w.files.get? object.2.internalName).map (bucket.2.reads env rt)

/-- The store with a further record and a data file. -/
def World.put (w : World) (id : Str) (object : Object) (stored : Str) : World :=
  { w with
    db := { w.db with objects := w.db.objects.insert id object }
    files := w.files.insert object.internalName stored }

namespace CopyObjectRequest

def target (request : CopyObjectRequest) : GetObjectRequest where
  region := request.region
  bucket := request.targetBucket
  key := request.targetKey

/-- The source and the bucket of the target are found, and the data file of the source is there. -/
structure Reaches (request : CopyObjectRequest) (w : World) (sourceBucket : Bucket) (source : Object)
    (targetBucket : Bucket) (stored : Str) : Prop where
  found : Finds w request.source sourceBucket source
  into : ∃ k, (w.db.buckets.findIf fun _ b => b.isNamed request.region request.targetBucket) =
    some (k, targetBucket)
  file : w.files.get? source.internalName = some stored

/-- The call that puts the record of the target, in a copy that begins with the `n`-th. -/
def creation (n : Nat) (targetBucket : Bucket) : Nat := n + if targetBucket.isVersioned then 9 else 8

/-- The record of the target. -/
def record (request : CopyObjectRequest) (rt : Runtime) (n : Nat) (targetBucket : Bucket)
    (source : Object) : Object where
  oid := rt.uuid (creation n targetBucket)
  region := request.region
  bucket := request.targetBucket
  key := request.targetKey
  owner := source.owner
  size := source.size
  md5sum := source.md5sum
  sha1sum := source.sha1sum
  sha256sum := source.sha256sum
  contentType := source.contentType
  metadata := request.metadata
  internalName := rt.fileName (n + 5)
  versionId := if targetBucket.isVersioned then rt.versionId (n + 8) else []
  created := rt.now (n + 7)
  modified := rt.now (n + 7)

/-- The store with the record of the target and its data file. -/
def result (request : CopyObjectRequest) (rt : Runtime) (n : Nat) (w : World) (targetBucket : Bucket)
    (source : Object) (stored : Str) : World :=
  w.put (rt.uuid (creation n targetBucket)) (request.record rt n targetBucket source) stored

/-- A record of the target stays in front of the new one. -/
def Shadowed (request : CopyObjectRequest) (rt : Runtime) (w : World) (targetBucket : Bucket) : Prop :=
  ∃ k object, (w.db.objects.findIf fun _ o =>
    o.isAt request.region request.targetBucket request.targetKey) = some (k, object) ∧
      k < rt.uuid (creation w.calls targetBucket)

/-- The record that is found at the target then reads as the source does. -/
def Shows (request : CopyObjectRequest) (env : Env) (rt : Runtime) (w : World) (sourceBucket targetBucket : Bucket)
    (stored : Str) : Prop :=
  (request.Shadowed rt w targetBucket → w.content env rt request.target = w.content env rt request.source) ∧
  (¬ request.Shadowed rt w targetBucket → targetBucket.reads env rt stored = sourceBucket.reads env rt stored)

/-- What a copy has to leave: the source as it was, and the same at the target. -/
def Copied (request : CopyObjectRequest) (env : Env) (rt : Runtime) (w w' : World) : Prop :=
  (w.content env rt request.source).isSome ∧
  w'.content env rt request.source = w.content env rt request.source ∧
  w'.content env rt request.target = w.content env rt request.source

/-- What a move has to leave: what the source was at the target, and the source nowhere else. -/
def Moved (request : CopyObjectRequest) (env : Env) (rt : Runtime) (w w' : World) : Prop :=
  (w.content env rt request.source).isSome ∧
  w'.content env rt request.target = w.content env rt request.source ∧
  ((request.sourceBucket, request.sourceKey) ≠ (request.targetBucket, request.targetKey) →
    w'.db.objectExists request.region request.sourceBucket request.sourceKey = false)

end CopyObjectRequest

/-- A request that succeeds leaves what it has to, and one that fails leaves everything as it was. -/
def Meets {α : Type} (env : Env) (rt : Runtime) (p : S3Prog α) (done : World → Prop) (w : World) : Prop :=
  ∃ y w', p.run (exec env rt) w = some (y, w') ∧ Outcome (fun _ => done) (Alike w) y w'

/-- The services take the notifications, two calls for each; the name of a lambda function is the seventh
    part of its ARN. -/
def Accepted (rt : Runtime) (record : Notification → Str → EventRecord) :
    Nat → List (Target × Notification) → Prop
  | _, [] => True
  | n, (target, notification) :: sent =>
    ¬ (target = .lambda ∧ (split (byte ':') notification.arn).length < 7) ∧
      rt.send (n + 1) target notification (record notification (rt.uuid n)) = .ok () ∧
        Accepted rt record (n + 2) sent

/-- The record of an event on a key of a bucket. -/
def eventRecord (region bucket key : Str) (size : Int) (event : Str) (notification : Notification)
    (etag : Str) : EventRecord where
  region := region
  eventName := event
  configurationId := notification.id
  bucket := bucket
  key := key
  size := size
  etag := etag

/-- The notifications of a copy are taken. -/
def CopyObjectRequest.Announced (request : CopyObjectRequest) (rt : Runtime) (w : World) (targetBucket : Bucket)
    (source : Object) : Prop :=
  Accepted rt (eventRecord request.region request.targetBucket request.targetKey source.size (str "ObjectCreated"))
    (creation w.calls targetBucket + 2) (sentOf targetBucket.notifications (str "ObjectCreated") request.targetKey)

variable {env : Env} {rt : Runtime} {w w' : World} {request : CopyObjectRequest} {sourceBucket targetBucket : Bucket}
  {source : Object} {stored : Str}

/-- `GetObject` answers with the content. -/
theorem handleGetObject_content {request : GetObjectRequest} {read : Nat → Str}
    (h : w.content env rt request = some read) (hversion : request.versionId = []) (n : Nat) :
    ∃ response w', (handleGetObject request).run (exec env rt) (w.atCall n) =
      some (.ok (response, read (n + request.lookups)), w') := by
  obtain ⟨⟨kb, bucket⟩, hbucket, h⟩ := Option.bind_eq_some_iff.mp h
  obtain ⟨⟨ko, object⟩, hobject, h⟩ := Option.bind_eq_some_iff.mp h
  obtain ⟨stored, hfile, rfl⟩ := Option.map_eq_some_iff.mp h
  have hfinds : Finds (w.atCall n) request bucket object := ⟨⟨kb, hbucket⟩, ko, hobject⟩
  obtain ⟨response, w', hrun, -⟩ := handleGetObject_run env rt hfinds (fun _ => hversion) hfile
  exact ⟨response, w', hrun⟩

/-- Stores that are alike are read alike. -/
theorem Alike.content (h : Alike w w') (request : GetObjectRequest) :
    w'.content env rt request = w.content env rt request := by
  have hbare : ∀ v : World, v.content env rt request =
      ((v.db.buckets.findIf fun _ => Bucket.isNamed request.region request.bucket).map
        fun e => (e.1, e.2.bare)).bind fun bucket =>
          ((v.db.objects.findIf fun _ => Object.isAt request.region request.bucket request.key).map
            fun e => (e.1, e.2.bare)).bind fun object =>
              (v.files.get? object.2.internalName).map (bucket.2.reads env rt) := by
    intro v
    rw [Option.bind_map]
    simp only [Option.bind_map, World.content]
    rfl
  rw [hbare, hbare, h.files, h.findObject fun _ => rfl, h.findBucket fun _ => rfl]

/-! ### Notifications -/

theorem accepted_append {record : Notification → Str → EventRecord} {sent' : List (Target × Notification)} :
    ∀ {sent : List (Target × Notification)} {n : Nat}, Accepted rt record n (sent ++ sent') ↔
      Accepted rt record n sent ∧ Accepted rt record (n + 2 * sent.length) sent' := by
  intro sent
  induction sent with
  | nil => simp [Accepted]
  | cons it sent ih =>
    intro n
    have hlength : n + 2 * (it :: sent).length = n + 2 + 2 * sent.length := by
      simp only [List.length_cons]
      omega
    rw [List.cons_append, Accepted, Accepted, ih, hlength, and_assoc, and_assoc]

/-- A part of `CheckNotifications` returns when its notification is taken. -/
theorem notify_eq_ok (target : Target) (entity : Bucket) (region key : Str) (size : Int) (event : Str) {u : Unit} :
    (notify target entity region key size event).run (exec env rt) w = some (.ok u, w') ↔
      Accepted rt (eventRecord region entity.name key size event) w.calls
        ((sentTo event key (entity.notifications target)).map (Prod.mk target)) ∧
      w' = w.atCall (w.calls +
        2 * ((sentTo event key (entity.notifications target)).map (Prod.mk target)).length) := by
  have hfor : (fun n : Notification => decide (event ∈ n.events)) = Notification.isFor event := by
    funext n
    simp [Notification.isFor]
  have hsame : w = w' ↔ w' = w.atCall w.calls := eq_comm
  unfold notify sentTo
  rw [hfor]
  rcases (entity.notifications target).find? (Notification.isFor event) with _ | notification
  · simp [Accepted, hsame]
  by_cases hfits : notification.checkFilter key = true
  swap
  · simp [Prog.when, hfits, Accepted, hsame]
  have hrandom : exec env rt .createRandom w = some (rt.uuid w.calls, w.atCall (w.calls + 1)) := rfl
  have hone : ([notification].filter fun n => n.checkFilter key) = [notification] := by simp [hfits]
  simp only [Option.toList_some, Prog.when, if_pos hfits, hone]
  rw [Prog.run_perform_bind_some hrandom]
  by_cases harn : target = .lambda ∧ (split (byte ':') notification.arn).length < 7
  · simp [Prog.run_perform_bind, exec, S3Call.apply, harn, Accepted]
  · have hsent : ∀ r : EventRecord, exec env rt (.send target notification r) (w.atCall (w.calls + 1)) =
        some (rt.send (w.calls + 1) target notification r, w.atCall (w.calls + 2)) := by
      intro r
      simp only [exec, S3Call.apply, if_neg harn]
      rfl
    rw [Prog.run_perform_bind_some (hsent _), Prog.run_ofExcept, Option.some.injEq, Prod.mk.injEq,
      eq_comm (b := w')]
    simp [Accepted, harn, eventRecord]

/-- Stores that are alike have the same buckets. -/
theorem Alike.hasBucket {region name : Str} {bucket : Bucket} (h : Alike w w')
    (hw : HasBucket region name bucket w) : HasBucket region name bucket w' := by
  obtain ⟨k, oid, hfound⟩ := hw
  have hfind := h.findBucket (p := Bucket.isNamed region name) fun _ => rfl
  rw [hfound, Option.map_some, Option.map_eq_some_iff] at hfind
  obtain ⟨⟨k', bucket'⟩, hfound', hsame⟩ := hfind
  obtain ⟨rfl, hbare⟩ := Prod.mk.inj hsame
  have hbucket : bucket' = { bucket with oid := bucket'.oid } :=
    congrArg (fun b : Bucket => { b with oid := bucket'.oid }) hbare
  rw [hbucket] at hfound'
  exact ⟨k', bucket'.oid, hfound'⟩

theorem checkNotifications_ok_iff (env : Env) (rt : Runtime) {region name : Str} {bucket : Bucket}
    (hbucket : HasBucket region name bucket w) (key : Str) (size : Int) (event : Str) :
    (∃ w', (checkNotifications region name key size event).run (exec env rt) w = some (.ok (), w')) ↔
      Accepted rt (eventRecord region name key size event) (w.calls + 1)
        (sentOf bucket.notifications event key) := by
  obtain ⟨k, oid, hfound⟩ := hbucket
  obtain ⟨w₁, hlookup, -, -, hcalls⟩ := getBucketByRegionName_run env rt hfound
  have hname : bucket.name = name := by
    have hnamed := (OrderedMap.findIf_some hfound).2
    simp only [Bucket.isNamed, decide_eq_true_eq] at hnamed
    exact hnamed.2
  have hlists : sentOf bucket.notifications event key =
      (sentTo event key (bucket.notifications .queue)).map (Prod.mk .queue) ++
        ((sentTo event key (bucket.notifications .topic)).map (Prod.mk .topic) ++
          (sentTo event key (bucket.notifications .lambda)).map (Prod.mk .lambda)) := by
    simp [sentOf, Target.all]
  unfold checkNotifications
  rw [Prog.run_perform_bind_some hlookup, ← hcalls, hlists, accepted_append, accepted_append]
  simp only [Prog.run_bind_eq_ok, notify_eq_ok, hname]
  constructor
  · rintro ⟨w', _, _, ⟨hqueue, rfl⟩, _, _, ⟨htopic, rfl⟩, hlambda, rfl⟩
    exact ⟨hqueue, htopic, hlambda⟩
  · rintro ⟨hqueue, htopic, hlambda⟩
    exact ⟨_, (), _, ⟨hqueue, rfl⟩, (), _, ⟨htopic, rfl⟩, hlambda, rfl⟩

/-! ### The run of a copy -/

theorem Alike.put {id stored : Str} {object : Object} (h : Alike w w') :
    Alike (w.put id object stored) (w'.put id object stored) where
  buckets := h.buckets
  objects := by
    simp only [World.put, OrderedMap.mapVal_insert, h.objects]
  files := by
    simp only [World.put, h.files]

/-- The part of a copy after its lookups. -/
def storeCopy (request : CopyObjectRequest) (targetBucket : Bucket) (sourceObject : Object) : S3Prog Object := do
  let targetFile ← call .createS3FileName
  let copied ← call (.copyTo sourceObject.internalName targetFile)
  .ofExcept copied
  let now ← call .clockNow
  let versionId ← if targetBucket.isVersioned then call .createS3VersionId else pure []
  let targetObject ← call (.createObject {
    region := request.region, bucket := request.targetBucket, key := request.targetKey,
    owner := sourceObject.owner, size := sourceObject.size, md5sum := sourceObject.md5sum,
    sha1sum := sourceObject.sha1sum, sha256sum := sourceObject.sha256sum,
    contentType := sourceObject.contentType, metadata := request.metadata,
    internalName := targetFile, versionId := versionId, created := now, modified := now })
  checkNotifications targetObject.region targetObject.bucket targetObject.key
    targetObject.size (str "ObjectCreated")
  return targetObject

/-- The lookups leave the store as it is. -/
theorem copyTo_lookups (env : Env) (rt : Runtime) (missingTarget : S3Error)
    (hfound : Finds w request.source sourceBucket source)
    (hinto : ∃ k, (w.db.buckets.findIf fun _ b => b.isNamed request.region request.targetBucket) =
      some (k, targetBucket)) :
    ∃ v, Alike w v ∧ v.calls = w.calls + 5 ∧ (copyTo missingTarget request).run (exec env rt) w =
      (guarded (storeCopy request targetBucket source)).run (exec env rt) v := by
  obtain ⟨⟨ks, hsource⟩, ko, hobject⟩ := hfound
  obtain ⟨kt, hinto⟩ := hinto
  have h₁ : exec env rt (.bucketExists request.region request.sourceBucket) w =
      some (true, w.atCall (w.calls + 1)) := by
    have hexists : w.db.bucketExists request.region request.sourceBucket = true := by
      rw [S3MemoryDb.bucketExists]
      exact congrArg Option.isSome hsource
    simp [exec, S3Call.apply, hexists, World.atCall]
  have h₂ : exec env rt (.objectExists request.region request.sourceBucket request.sourceKey)
      (w.atCall (w.calls + 1)) = some (true, w.atCall (w.calls + 2)) := by
    have hexists : w.db.objectExists request.region request.sourceBucket request.sourceKey = true := by
      rw [S3MemoryDb.objectExists]
      exact congrArg Option.isSome hobject
    simp [exec, S3Call.apply, hexists, World.atCall]
  have h₃ : exec env rt (.bucketExists request.region request.targetBucket) (w.atCall (w.calls + 2)) =
      some (true, w.atCall (w.calls + 3)) := by
    have hexists : w.db.bucketExists request.region request.targetBucket = true := by
      rw [S3MemoryDb.bucketExists, hinto]
      rfl
    simp [exec, S3Call.apply, hexists, World.atCall]
  obtain ⟨w₄, h₄, hobjects₄, -, hcalls₄⟩ :=
    getBucketByRegionName_run (w := w.atCall (w.calls + 3)) env rt hinto
  rw [← show (w.atCall (w.calls + 3)).db.objects = w.db.objects from rfl, ← hobjects₄] at hobject
  obtain ⟨w₅, h₅, -, hcalls₅⟩ := getObject_run env rt hobject
  have hlook₄ := alike_of_call
    (show S3Call.Inspects (.getBucketByRegionName request.region request.targetBucket) from trivial) h₄
  have hlook₅ := alike_of_call
    (show S3Call.Inspects (.getObject request.region request.sourceBucket request.sourceKey) from trivial) h₅
  refine ⟨w₅, .trans ⟨hlook₄.buckets, hlook₄.objects, hlook₄.files⟩ hlook₅, ?_, ?_⟩
  · rw [hcalls₅, hcalls₄]
    rfl
  · unfold copyTo
    rw [Prog.run_perform_bind_some h₁, if_pos rfl, Prog.run_perform_bind_some h₂, if_pos rfl, guarded, guarded,
      Prog.run_mapThrow, Prog.run_mapThrow, Prog.run_perform_bind_some h₃, if_pos rfl,
      Prog.run_perform_bind_some h₄]
    refine congrArg (Option.map _) ?_
    exact Prog.run_perform_bind_some h₅

/-- Without its data file nothing is stored. -/
theorem storeCopy_missing (env : Env) (rt : Runtime) (request : CopyObjectRequest) (targetBucket : Bucket)
    (hfile : w.files.get? source.internalName = none) :
    ∃ e w', (storeCopy request targetBucket source).run (exec env rt) w = some (.error e, w') ∧ Alike w w' := by
  have hname : exec env rt .createS3FileName w = some (rt.fileName w.calls, w.atCall (w.calls + 1)) := rfl
  have hcopied : exec env rt (.copyTo source.internalName (rt.fileName w.calls)) (w.atCall (w.calls + 1)) =
      some (.error (.pocoException (World.path env source.internalName)), w.atCall (w.calls + 2)) := by
    simp [exec, S3Call.apply, World.copyTo, hfile, World.atCall]
  refine ⟨.pocoException (World.path env source.internalName), w.atCall (w.calls + 2), ?_, rfl, rfl, rfl⟩
  unfold storeCopy
  rw [Prog.run_perform_bind_some hname, Prog.run_perform_bind_some hcopied]
  rfl

/-- The record of a copy, its data file, and then the notifications. -/
theorem storeCopy_run (env : Env) (rt : Runtime) (request : CopyObjectRequest) (targetBucket : Bucket)
    {n : Nat} (hcalls : w.calls = n + 5) (hfile : w.files.get? source.internalName = some stored) :
    (storeCopy request targetBucket source).run (exec env rt) w = (do
      checkNotifications request.region request.targetBucket request.targetKey source.size (str "ObjectCreated")
      return request.record rt n targetBucket source : S3Prog Object).run (exec env rt)
        ((request.result rt n w targetBucket source stored).atCall
          (CopyObjectRequest.creation n targetBucket + 1)) := by
  have hname : exec env rt .createS3FileName w = some (rt.fileName (n + 5), w.atCall (n + 6)) := by
    simp [exec, S3Call.apply, hcalls, World.atCall]
  have hcopied : exec env rt (.copyTo source.internalName (rt.fileName (n + 5))) (w.atCall (n + 6)) =
      some (.ok (), { w with files := w.files.insert (rt.fileName (n + 5)) stored, calls := n + 7 }) := by
    simp [exec, S3Call.apply, World.copyTo, hfile, World.atCall]
  have hnow : ∀ v : World, exec env rt .clockNow v = some (rt.now v.calls, v.atCall (v.calls + 1)) :=
    fun _ => rfl
  have hversion : ∀ v : World, exec env rt .createS3VersionId v =
      some (rt.versionId v.calls, v.atCall (v.calls + 1)) := fun _ => rfl
  have hcreated : ∀ (v : World) (object : Object), exec env rt (.createObject object) v =
      some ({ object with oid := rt.uuid v.calls }, { v with
        db := { v.db with objects := v.db.objects.insert (rt.uuid v.calls) { object with oid := rt.uuid v.calls } }
        calls := v.calls + 1 }) := by
    intro v object
    simp [exec, S3Call.apply, S3MemoryDb.createObject_eq]
  unfold storeCopy
  rw [Prog.run_perform_bind_some hname, Prog.run_perform_bind_some hcopied, Prog.ofExcept_ok_bind,
    Prog.run_perform_bind_some (hnow _)]
  unfold CopyObjectRequest.result CopyObjectRequest.record CopyObjectRequest.creation
  rcases targetBucket.isVersioned with _ | _
  · simp only [Bool.false_eq_true, if_false, Prog.pure_bind]
    rw [Prog.run_perform_bind_some (hcreated _ _)]
    rfl
  · simp only [if_true]
    rw [Prog.run_perform_bind_some (hversion _), Prog.run_perform_bind_some (hcreated _ _)]
    rfl

theorem bucketExists_iff {region name : Str} : w.db.bucketExists region name = true ↔
    ∃ k bucket, (w.db.buckets.findIf fun _ b => b.isNamed region name) = some (k, bucket) := by
  rw [S3MemoryDb.bucketExists, Option.isSome_iff_exists, Prod.exists]

/-- A copy that does not reach its data file changes nothing. -/
theorem copyTo_refused (env : Env) (rt : Runtime) (missingTarget : S3Error)
    (h : ∀ sourceBucket source targetBucket stored, ¬ request.Reaches w sourceBucket source targetBucket stored) :
    ∃ e w', (copyTo missingTarget request).run (exec env rt) w = some (.error e, w') ∧ Alike w w' := by
  have hexists₁ : exec env rt (.bucketExists request.region request.sourceBucket) w =
      some (w.db.bucketExists request.region request.sourceBucket, w.atCall (w.calls + 1)) := rfl
  have hexists₂ : exec env rt (.objectExists request.region request.sourceBucket request.sourceKey)
      (w.atCall (w.calls + 1)) =
        some (w.db.objectExists request.region request.sourceBucket request.sourceKey, w.atCall (w.calls + 2)) := rfl
  have hexists₃ : exec env rt (.bucketExists request.region request.targetBucket) (w.atCall (w.calls + 2)) =
      some (w.db.bucketExists request.region request.targetBucket, w.atCall (w.calls + 3)) := rfl
  rcases hsource : w.db.bucketExists request.region request.sourceBucket with _ | _
  · refine ⟨.notFoundException (str "Source bucket does not exist"), w.atCall (w.calls + 1), ?_, rfl, rfl, rfl⟩
    unfold copyTo
    rw [Prog.run_perform_bind_some hexists₁, hsource]
    rfl
  rcases hobject : w.db.objectExists request.region request.sourceBucket request.sourceKey with _ | _
  · refine ⟨.notFoundException (str "Source object does not exist"), w.atCall (w.calls + 2), ?_, rfl, rfl, rfl⟩
    unfold copyTo
    rw [Prog.run_perform_bind_some hexists₁, hsource, if_pos rfl, Prog.run_perform_bind_some hexists₂, hobject]
    rfl
  rcases hinto : w.db.bucketExists request.region request.targetBucket with _ | _
  · refine ⟨missingTarget.toServiceException, w.atCall (w.calls + 3), ?_, rfl, rfl, rfl⟩
    unfold copyTo
    rw [Prog.run_perform_bind_some hexists₁, hsource, if_pos rfl, Prog.run_perform_bind_some hexists₂, hobject,
      if_pos rfl, guarded, Prog.run_mapThrow, Prog.run_perform_bind_some hexists₃, hinto]
    rfl
  -- What is left is a data file that is missing.
  obtain ⟨ks, sourceBucket, hsource⟩ := bucketExists_iff.mp hsource
  obtain ⟨⟨ko, source⟩, hobject⟩ := Option.isSome_iff_exists.mp hobject
  obtain ⟨kt, targetBucket, hinto⟩ := bucketExists_iff.mp hinto
  have hfound : Finds w request.source sourceBucket source := ⟨⟨ks, hsource⟩, ko, hobject⟩
  obtain ⟨v, hlook, -, hrun⟩ := copyTo_lookups env rt missingTarget hfound ⟨kt, hinto⟩
  have hfile : v.files.get? source.internalName = none := by
    rw [hlook.files]
    rcases hstored : w.files.get? source.internalName with _ | stored
    · rfl
    · exact absurd ⟨hfound, ⟨kt, hinto⟩, hstored⟩ (h sourceBucket source targetBucket stored)
  obtain ⟨e, w', hmissing, halike⟩ := storeCopy_missing env rt request targetBucket hfile
  refine ⟨e.toServiceException, w', ?_, hlook.trans halike⟩
  rw [hrun, guarded, Prog.run_mapThrow, hmissing]
  rfl

/-- A copy that reaches it leaves the new record, and succeeds when the notifications are taken. -/
theorem copyTo_reaches (env : Env) (rt : Runtime) (missingTarget : S3Error)
    (h : request.Reaches w sourceBucket source targetBucket stored) :
    (∀ y w', (copyTo missingTarget request).run (exec env rt) w = some (y, w') →
      Alike (request.result rt w.calls w targetBucket source stored) w') ∧
    ((∃ object w', (copyTo missingTarget request).run (exec env rt) w = some (.ok object, w')) ↔
      request.Announced rt w targetBucket source) := by
  obtain ⟨v, hlook, hcalls, hrun⟩ := copyTo_lookups env rt missingTarget h.found h.into
  have hfile : v.files.get? source.internalName = some stored := by
    rw [hlook.files]
    exact h.file
  rw [hrun, guarded, Prog.run_mapThrow, storeCopy_run env rt request targetBucket hcalls hfile]
  have hresult : Alike (request.result rt w.calls w targetBucket source stored)
      ((request.result rt w.calls v targetBucket source stored).atCall
        (CopyObjectRequest.creation w.calls targetBucket + 1)) :=
    ⟨hlook.put.buckets, hlook.put.objects, hlook.put.files⟩
  constructor
  · intro y w' h'
    obtain ⟨⟨y', v'⟩, hnotified, heq⟩ := Option.map_eq_some_iff.mp h'
    obtain ⟨-, rfl⟩ := Prod.mk.inj heq
    have honly : (do
        checkNotifications request.region request.targetBucket request.targetKey source.size (str "ObjectCreated")
        return request.record rt w.calls targetBucket source : S3Prog Object).Only S3Call.Inspects :=
      Prog.only_bind (checkNotifications_only (fun _ _ => trivial) ⟨rfl, rfl⟩ (fun _ _ _ => ⟨rfl, rfl⟩)
        _ _ _ _ _) fun _ => Prog.only_pure _
    have hkept : ∀ (c : S3Call) u (r : c.Reply × World), c.Inspects →
        Alike (request.result rt w.calls w targetBucket source stored) u → exec env rt c u = some r →
        Alike (request.result rt w.calls w targetBucket source stored) r.2 :=
      fun c u r hc hu hr => hu.trans (alike_of_call hc hr)
    exact honly.invariant hkept hresult hnotified
  · obtain ⟨kt, hinto⟩ := h.into
    have hbucket : HasBucket request.region request.targetBucket targetBucket
        (request.result rt w.calls w targetBucket source stored) := ⟨kt, targetBucket.oid, hinto⟩
    have hnotified := checkNotifications_ok_iff env rt (hresult.hasBucket hbucket) request.targetKey source.size
      (str "ObjectCreated")
    refine Iff.trans ?_ hnotified
    constructor
    · rintro ⟨object, w', h'⟩
      obtain ⟨⟨y, v'⟩, hnotified, heq⟩ := Option.map_eq_some_iff.mp h'
      obtain ⟨heq, rfl⟩ := Prod.mk.inj heq
      rcases y with e | a
      · cases heq
      · obtain ⟨u, v'', hok, -⟩ := Prog.run_bind_eq_ok.mp hnotified
        exact ⟨v'', hok⟩
    · rintro ⟨w', hok⟩
      refine ⟨request.record rt w.calls targetBucket source, w', ?_⟩
      rw [Prog.run_bind_eq_ok.mpr ⟨(), w', hok, rfl⟩]
      rfl

/-! ### What the result of a copy shows -/

section Result

variable {id : Str} {object : Object}

/-- The record that is found is the one from before. -/
theorem content_put_of_same {request : GetObjectRequest}
    (hname : ∀ {k o}, w.db.objects.get? k = some o → o.internalName ≠ object.internalName)
    (hsame : ((w.put id object stored).db.objects.findIf fun _ o => o.isAt request.region request.bucket request.key) =
      w.db.objects.findIf fun _ o => o.isAt request.region request.bucket request.key) :
    (w.put id object stored).content env rt request = w.content env rt request := by
  unfold World.content
  rw [hsame]
  refine Option.bind_congr fun bucket _ => Option.bind_congr fun found hfound => ?_
  have hother := hname (OrderedMap.findIf_some hfound).1
  change Option.map _ ((w.files.insert object.internalName stored).get? found.2.internalName) = _
  rw [OrderedMap.get?_insert_of_ne _ _ hother]

/-- The new record is found. -/
theorem content_put_of_new {request : GetObjectRequest} {k : Str} {bucket : Bucket}
    (hbucket : (w.db.buckets.findIf fun _ b => b.isNamed request.region request.bucket) = some (k, bucket))
    (hnew : ((w.put id object stored).db.objects.findIf fun _ o => o.isAt request.region request.bucket request.key) =
      some (id, object)) : (w.put id object stored).content env rt request = some (bucket.reads env rt stored) := by
  have hfile : (w.put id object stored).files.get? object.internalName = some stored :=
    OrderedMap.get?_insert_self _ _ _
  unfold World.content
  rw [hnew, show (w.put id object stored).db.buckets = w.db.buckets from rfl, hbucket, Option.bind_some,
    Option.bind_some, hfile]
  rfl

end Result

/-- The name and the key of the new record are new. -/
theorem WellFormed.result_new (hw : WellFormed rt w) (request : CopyObjectRequest) (targetBucket : Bucket)
    (source : Object) : w.db.objects.get? (rt.uuid (CopyObjectRequest.creation w.calls targetBucket)) = none ∧
      ∀ {k o}, w.db.objects.get? k = some o →
        o.internalName ≠ (request.record rt w.calls targetBucket source).internalName := by
  constructor
  · rw [Option.eq_none_iff_forall_ne_some]
    intro o ho
    obtain ⟨i, hi, he⟩ := hw.drawn.objects ho
    have hlate : w.calls ≤ CopyObjectRequest.creation w.calls targetBucket := Nat.le_add_right _ _
    have hsame := rt.uuid_inj he
    omega
  · intro k o ho hname
    rcases hw.names ho with hnone | ⟨i, hi, hdrawn⟩
    · exact rt.fileName_ne (w.calls + 5) (hname.symm.trans hnone)
    · have hsame := rt.fileName_inj (hname.symm.trans hdrawn)
      omega

/-- A change is seen: the key of the new record is new. -/
theorem result_not_alike (hw : WellFormed rt w) :
    ¬ Alike w (request.result rt w.calls w targetBucket source stored) := by
  intro halike
  obtain ⟨hfresh, -⟩ := hw.result_new request targetBucket source
  have hget := congrArg (·.get? (rt.uuid (CopyObjectRequest.creation w.calls targetBucket))) halike.objects
  simp only [OrderedMap.get?_mapVal, hfresh, CopyObjectRequest.result, World.put, OrderedMap.get?_insert_self] at hget
  cases hget

theorem record_isAt (request : CopyObjectRequest) (rt : Runtime) (n : Nat) (targetBucket : Bucket)
    (source : Object) (region bucket key : Str) :
    (request.record rt n targetBucket source).isAt region bucket key = true ↔
      request.region = region ∧ request.targetBucket = bucket ∧ request.targetKey = key := by
  unfold Object.isAt CopyObjectRequest.record
  exact decide_eq_true_iff

/-- Behind another record of the target the new one is not found. -/
theorem content_result_of_shadowed (hw : WellFormed rt w) (hshadowed : request.Shadowed rt w targetBucket)
    (request' : GetObjectRequest) :
    (request.result rt w.calls w targetBucket source stored).content env rt request' =
      w.content env rt request' := by
  obtain ⟨hfresh, hname⟩ := hw.result_new request targetBucket source
  refine content_put_of_same hname ?_
  by_cases hat : (request.record rt w.calls targetBucket source).isAt request'.region request'.bucket request'.key
  · obtain ⟨k, object, hfound, hlt⟩ := hshadowed
    obtain ⟨hregion, hbucket, hkey⟩ := (record_isAt ..).mp hat
    rw [hregion, hbucket, hkey] at hfound
    rw [hfound]
    exact OrderedMap.findIf_insert_behind hfound hlt
  · exact OrderedMap.findIf_insert_of_not hfresh (Bool.not_eq_true _ ▸ hat)

/-- In front of the others it is. -/
theorem content_result_of_front (h : request.Reaches w sourceBucket source targetBucket stored)
    (hfront : ¬ request.Shadowed rt w targetBucket) :
    (request.result rt w.calls w targetBucket source stored).content env rt request.target =
      some (targetBucket.reads env rt stored) := by
  obtain ⟨k, hinto⟩ := h.into
  refine content_put_of_new hinto (OrderedMap.findIf_insert_front ?_ fun k' o hget hat => ?_)
  · exact (record_isAt ..).mpr ⟨rfl, rfl, rfl⟩
  · have hsome : (w.db.objects.findIf fun _ o =>
        o.isAt request.region request.targetBucket request.targetKey).isSome :=
      OrderedMap.findIf_isSome.mpr ⟨k', o, hget, hat⟩
    obtain ⟨⟨first, o'⟩, hfound⟩ := Option.isSome_iff_exists.mp hsome
    have hle := OrderedMap.findIf_le hfound hget hat
    by_contra hlt
    exact hfront ⟨first, o', hfound, lt_of_le_of_lt hle (not_le.mp hlt)⟩

/-- The content of the source. -/
theorem CopyObjectRequest.Reaches.content (h : request.Reaches w sourceBucket source targetBucket stored) :
    w.content env rt request.source = some (sourceBucket.reads env rt stored) := by
  obtain ⟨⟨ks, hsource⟩, ko, hobject⟩ := h.found
  unfold World.content
  rw [hsource, hobject, Option.bind_some, Option.bind_some, h.file]
  rfl

/-- The source reads as before where the target does as it should. -/
theorem copied_result_iff (hw : WellFormed rt w) (h : request.Reaches w sourceBucket source targetBucket stored) :
    request.Copied env rt w (request.result rt w.calls w targetBucket source stored) ↔
      request.Shows env rt w sourceBucket targetBucket stored := by
  have hcontent : w.content env rt request.source = _ := h.content
  have hsome : (w.content env rt request.source).isSome := by
    rw [hcontent]
    rfl
  by_cases hshadowed : request.Shadowed rt w targetBucket
  · simp [CopyObjectRequest.Copied, CopyObjectRequest.Shows, content_result_of_shadowed hw hshadowed, hshadowed, hsome]
  have htarget : (request.result rt w.calls w targetBucket source stored).content env rt request.target = _ :=
    content_result_of_front h hshadowed
  have hsource : targetBucket.reads env rt stored = sourceBucket.reads env rt stored →
      (request.result rt w.calls w targetBucket source stored).content env rt request.source =
        w.content env rt request.source := by
    intro hreads
    by_cases hat : request.targetBucket = request.sourceBucket ∧ request.targetKey = request.sourceKey
    · have hsame : request.source = request.target := by
        simp only [CopyObjectRequest.source, CopyObjectRequest.target, hat]
      rw [hcontent, hsame, htarget, hreads]
    · obtain ⟨hfresh, hname⟩ := hw.result_new request targetBucket source
      refine content_put_of_same hname (OrderedMap.findIf_insert_of_not hfresh ?_)
      exact Bool.not_eq_true _ ▸ fun h => hat ((record_isAt ..).mp h).2
  rw [CopyObjectRequest.Copied, CopyObjectRequest.Shows, htarget, hcontent, Option.some.injEq]
  constructor
  · rintro ⟨-, -, hreads⟩
    exact ⟨fun h => absurd h hshadowed, fun _ => hreads⟩
  · rintro ⟨-, hreads⟩
    exact ⟨rfl, hcontent ▸ hsource (hreads hshadowed), hreads hshadowed⟩

/-- The source stays, so a move is one to the same place. -/
theorem moved_result_iff (hw : WellFormed rt w) (h : request.Reaches w sourceBucket source targetBucket stored) :
    request.Moved env rt w (request.result rt w.calls w targetBucket source stored) ↔
      request.sourceBucket = request.targetBucket ∧ request.sourceKey = request.targetKey := by
  obtain ⟨hfresh, -⟩ := hw.result_new request targetBucket source
  constructor
  · rintro ⟨-, -, hgone⟩
    by_contra hne
    have hdiffer : (request.sourceBucket, request.sourceKey) ≠ (request.targetBucket, request.targetKey) :=
      fun heq => hne (Prod.mk.inj heq)
    obtain ⟨-, ko, hobject⟩ := h.found
    obtain ⟨hget, hat⟩ := OrderedMap.findIf_some hobject
    have hstays : (request.result rt w.calls w targetBucket source stored).db.objectExists request.region
        request.sourceBucket request.sourceKey := by
      refine S3MemoryDb.objectExists_iff.mpr ⟨ko, source, ?_, hat⟩
      have hkey : ko ≠ rt.uuid (CopyObjectRequest.creation w.calls targetBucket) := by
        rintro rfl
        rw [hfresh] at hget
        cases hget
      exact (OrderedMap.get?_insert_of_ne _ _ hkey).trans hget
    rw [hgone hdiffer] at hstays
    cases hstays
  · rintro ⟨hbucket, hkey⟩
    have hsame : request.target = request.source := by
      simp only [CopyObjectRequest.source, CopyObjectRequest.target, hbucket, hkey]
    have hbuckets : targetBucket = sourceBucket := by
      obtain ⟨⟨ks, hsource⟩, -⟩ := h.found
      obtain ⟨kt, hinto⟩ := h.into
      rw [← hbucket] at hinto
      exact (Prod.mk.inj (Option.some.inj (hinto.symm.trans hsource))).2
    have hshows : request.Shows env rt w sourceBucket targetBucket stored :=
      ⟨fun _ => by rw [hsame], fun _ => by rw [hbuckets]⟩
    obtain ⟨hsome, -, htarget⟩ := (copied_result_iff hw h).mpr hshows
    refine ⟨hsome, htarget, fun hdiffer => ?_⟩
    rw [hbucket, hkey] at hdiffer
    exact absurd rfl hdiffer

/-! ### The claim -/

/-- What is asked of a store that does not depend on the keys that lookups write is asked of the result. -/
theorem copyTo_meets_iff (env : Env) (hw : WellFormed rt w) (missingTarget : S3Error) {done : World → Prop}
    (hdone : ∀ {v v'}, Alike v v' → done v → done v') :
    Meets env rt (copyTo missingTarget request) done w ↔
      ∀ sourceBucket source targetBucket stored, request.Reaches w sourceBucket source targetBucket stored →
        request.Announced rt w targetBucket source ∧
          done (request.result rt w.calls w targetBucket source stored) := by
  constructor
  · rintro ⟨y, w', hrun, houtcome⟩ sourceBucket source targetBucket stored h
    obtain ⟨halike, hannounced⟩ := copyTo_reaches env rt missingTarget h
    have hresult := halike y w' hrun
    cases y with
    | ok object => exact ⟨hannounced.mp ⟨object, w', hrun⟩, hdone hresult.symm houtcome⟩
    | error e => exact absurd (houtcome.trans hresult.symm) (result_not_alike hw)
  · intro h
    by_cases hreaches : ∃ sourceBucket source targetBucket stored,
      request.Reaches w sourceBucket source targetBucket stored
    · obtain ⟨sourceBucket, source, targetBucket, stored, hreaches⟩ := hreaches
      obtain ⟨halike, hannounced⟩ := copyTo_reaches env rt missingTarget hreaches
      obtain ⟨htaken, hresult⟩ := h _ _ _ _ hreaches
      obtain ⟨object, w', hrun⟩ := hannounced.mpr htaken
      exact ⟨.ok object, w', hrun, hdone (halike _ _ hrun) hresult⟩
    · simp only [not_exists] at hreaches
      obtain ⟨e, w', hrun, halike⟩ := copyTo_refused env rt missingTarget hreaches
      exact ⟨.error e, w', hrun, halike⟩

/-- A copy does what it has to when all notifications are taken and the record found at the target reads as
    the source; a move only from an object to itself. -/
theorem copy_move_iff (env : Env) (hw : WellFormed rt w) (request : CopyObjectRequest) :
    (Meets env rt (copyObject request) (request.Copied env rt w) w ↔
      ∀ sourceBucket source targetBucket stored, request.Reaches w sourceBucket source targetBucket stored →
        request.Announced rt w targetBucket source ∧
          request.Shows env rt w sourceBucket targetBucket stored) ∧
    (Meets env rt (moveObject request) (request.Moved env rt w) w ↔
      ∀ sourceBucket source targetBucket stored, request.Reaches w sourceBucket source targetBucket stored →
        request.Announced rt w targetBucket source ∧
          request.sourceBucket = request.targetBucket ∧ request.sourceKey = request.targetKey) := by
  have hcopied : ∀ {v v'}, Alike v v' → request.Copied env rt w v → request.Copied env rt w v' := by
    rintro v v' h ⟨hsome, hsource, htarget⟩
    exact ⟨hsome, (h.content _).trans hsource, (h.content _).trans htarget⟩
  have hmoved : ∀ {v v'}, Alike v v' → request.Moved env rt w v → request.Moved env rt w v' := by
    rintro v v' h ⟨hsome, htarget, hgone⟩
    exact ⟨hsome, (h.content _).trans htarget, fun hne => (h.objectExists _ _ _).trans (hgone hne)⟩
  constructor
  · rw [copyObject, copyTo_meets_iff env hw _ hcopied]
    refine forall₄_congr fun sourceBucket source targetBucket stored => forall_congr' fun h => ?_
    rw [copied_result_iff hw h]
  · rw [moveObject, copyTo_meets_iff env hw _ hmoved]
    refine forall₄_congr fun sourceBucket source targetBucket stored => forall_congr' fun h => ?_
    rw [moved_result_iff hw h]

/-- A bucket with two objects. -/
def copySampleRun : List S3Request :=
  [.createBucket { region := str "eu", name := str "b" },
    .putObject { region := str "eu", bucket := str "b", key := str "k" } (str "x") false,
    .putObject { region := str "eu", bucket := str "b", key := str "l" } (str "y") false]

def copySample : World := ((session Env.sample copySampleRun).run (exec Env.sample .counting) {}).elim {} Prod.snd

def copyRequest (targetKey : Str) : CopyObjectRequest where
  region := str "eu"
  sourceBucket := str "b"
  sourceKey := str "k"
  targetBucket := str "b"
  targetKey := targetKey

theorem copySample_wellFormed : WellFormed .counting copySample := by
  rcases hrun : (session Env.sample copySampleRun).run (exec Env.sample .counting) {} with _ | ⟨y, w⟩
  · rw [copySample, hrun]
    exact wellFormed_empty _
  · rw [copySample, hrun]
    exact session_wellFormed _ (wellFormed_empty _) hrun

/-- In a bucket without notifications. -/
theorem copySample_announced {key : Str}
    (h : (copyRequest key).Reaches copySample sourceBucket source targetBucket stored) :
    (copyRequest key).Announced .counting copySample targetBucket source := by
  obtain ⟨k, hinto⟩ := h.into
  have hnone : ∀ e ∈ copySample.db.buckets.entries, ∀ target, e.2.notifications target = [] := by
    have hall : ∀ e ∈ copySample.db.buckets.entries, e.2.queueNotifications = [] ∧ e.2.topicNotifications = [] ∧
        e.2.lambdaNotifications = [] := by decide +kernel
    intro e he target
    obtain ⟨hqueue, htopic, hlambda⟩ := hall e he
    cases target <;> assumption
  have hnotifications := hnone _ (OrderedMap.get?_eq_some.mp (OrderedMap.findIf_some hinto).1)
  have hsent : sentOf targetBucket.notifications (str "ObjectCreated") key = [] := by
    simp only [sentOf, sentTo, hnotifications]
    rfl
  rw [CopyObjectRequest.Announced, show (copyRequest key).targetKey = key from rfl, hsent]
  trivial

/-- A copy to a new key and a move to the same one. -/
theorem copy_move_sample :
    Meets Env.sample .counting (copyObject (copyRequest (str "m")))
      ((copyRequest (str "m")).Copied Env.sample .counting copySample) copySample ∧
    Meets Env.sample .counting (moveObject (copyRequest (str "k")))
      ((copyRequest (str "k")).Moved Env.sample .counting copySample) copySample := by
  constructor
  · refine (copy_move_iff Env.sample copySample_wellFormed (copyRequest (str "m"))).1.mpr ?_
    intro sourceBucket source targetBucket stored h
    refine ⟨copySample_announced h, fun hshadowed => ?_, fun _ => ?_⟩
    · obtain ⟨k, object, hfound, -⟩ := hshadowed
      have hnone : (copySample.db.objects.findIf fun _ o => o.isAt (str "eu") (str "b") (str "m")) = none := by
        decide +kernel
      cases hnone.symm.trans hfound
    · obtain ⟨⟨ks, hsource⟩, -⟩ := h.found
      obtain ⟨kt, hinto⟩ := h.into
      rw [(Prod.mk.inj (Option.some.inj (hinto.symm.trans hsource))).2]
  · refine (copy_move_iff Env.sample copySample_wellFormed (copyRequest (str "k"))).2.mpr ?_
    intro sourceBucket source targetBucket stored h
    exact ⟨copySample_announced h, rfl, rfl⟩

/-- A move leaves its source, and a copy to a key that is taken is not what is read there. -/
theorem move_leaves_source :
    ¬ Meets Env.sample .counting (moveObject (copyRequest (str "m")))
      ((copyRequest (str "m")).Moved Env.sample .counting copySample) copySample ∧
    ¬ Meets Env.sample .counting (copyObject (copyRequest (str "l")))
      ((copyRequest (str "l")).Copied Env.sample .counting copySample) copySample := by
  constructor
  · rintro ⟨y, w', hrun, houtcome⟩
    have hstays : ((moveObject (copyRequest (str "m"))).run (exec Env.sample .counting) copySample).map
        (fun r => (r.1.isOk, r.2.db.objectExists (str "eu") (str "b") (str "k"))) = some (true, true) := by
      decide +kernel
    rw [hrun, Option.map_some, Option.some.injEq, Prod.mk.injEq] at hstays
    obtain ⟨hok, hexists⟩ := hstays
    cases y with
    | error => cases hok
    | ok =>
      have hgone := houtcome.2.2 (by decide)
      cases hexists.symm.trans hgone
  · rintro ⟨y, w', hrun, houtcome⟩
    have hold : ((copyObject (copyRequest (str "l"))).run (exec Env.sample .counting) copySample).map
        (fun r => (r.1.isOk, (r.2.content Env.sample .counting (copyRequest (str "l")).target).map (· 0))) =
          some (true, some (str "y")) := by
      decide +kernel
    have hsource : (copySample.content Env.sample .counting (copyRequest (str "l")).source).map (· 0) =
        some (str "x") := by
      decide +kernel
    rw [hrun, Option.map_some, Option.some.injEq, Prod.mk.injEq] at hold
    obtain ⟨hok, htarget⟩ := hold
    cases y with
    | error => cases hok
    | ok =>
      rw [houtcome.2.2, hsource] at htarget
      revert htarget
      decide

end AwsMock.S3
