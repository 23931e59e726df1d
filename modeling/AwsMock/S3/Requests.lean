import AwsMock.S3.Steps

/-!
# S3 requests

The requests of the service as one type, and which calls their programs make.
-/

namespace AwsMock.S3

open Lib

inductive S3Request
  | createBucket (request : CreateBucketRequest)
  | deleteBucket (request : DeleteBucketRequest)
  | putBucketEncryption (request : PutBucketEncryptionRequest)
  | putBucketVersioning (request : PutBucketVersioningRequest)
  | putObject (request : PutObjectRequest) (body : Str) (chunkEncoding : Bool)
  | getObject (request : GetObjectRequest)
  | copyObject (request : CopyObjectRequest)
  | moveObject (request : CopyObjectRequest)
  | deleteObject (request : DeleteObjectRequest)
  | deleteObjects (request : DeleteObjectsRequest)
  | createMultipartUpload (request : CreateMultipartUploadRequest)
  | uploadPart (body : Str) (part : Int) (uploadId : Str)
  | uploadPartCopy (request : UploadPartCopyRequest)
  | completeMultipartUpload (request : CompleteMultipartUploadRequest)

/-- Serve a request, up to the response. -/
def serve (env : Env) : S3Request → S3Prog Unit
  | .createBucket request => do let _ ← createBucket request
  | .deleteBucket request => deleteBucket request
  | .putBucketEncryption request => putBucketEncryption request
  | .putBucketVersioning request => putBucketVersioning request
  | .putObject request body chunkEncoding => do let _ ← putObject env request body chunkEncoding
  | .getObject request => do let _ ← handleGetObject request
  | .copyObject request => do let _ ← copyObject request
  | .moveObject request => do let _ ← moveObject request
  | .deleteObject request => deleteObject env request
  | .deleteObjects request => deleteObjects env request
  | .createMultipartUpload request => do let _ ← createMultipartUpload request
  | .uploadPart body part uploadId => do let _ ← uploadPart env body part uploadId
  | .uploadPartCopy request => do let _ ← uploadPartCopy env request
  | .completeMultipartUpload request => do let _ ← completeMultipartUpload env request

/-- Serve requests one after another, whatever their outcomes. -/
def session (env : Env) (run : List S3Request) : S3Prog Unit :=
  Prog.forEach run fun request => do let _ ← (serve env request).attempt

/-- What every request keeps holds after a run of requests. -/
theorem session_invariant {env : Env} {rt : Runtime} {I : World → Prop}
    (hserve : ∀ {request w y w'}, I w → (serve env request).run (exec env rt) w = some (y, w') → I w')
    (run : List S3Request) {y : Except S3Error Unit} : ∀ {w w' : World}, I w →
      (session env run).run (exec env rt) w = some (y, w') → I w' := by
  induction run with
  | nil =>
    intro w w' hw h
    cases h
    exact hw
  | cons request run ih =>
    intro w w' hw h
    change ((do let _ ← (serve env request).attempt : S3Prog Unit) >>= fun _ =>
      session env run).run (exec env rt) w = _ at h
    rw [Prog.run_bind, Prog.run_attempt_ignored] at h
    rcases hr : (serve env request).run (exec env rt) w with _ | ⟨z, v⟩
    · rw [hr] at h
      cases h
    · rw [hr] at h
      exact ih (hserve hw hr) h

section Calls

variable {P : S3Call → Prop}

/-- `CheckNotifications` reads the bucket and talks to the other services. -/
theorem checkNotifications_only (hget : ∀ region name, P (.getBucketByRegionName region name))
    (hrandom : P .createRandom) (hsend : ∀ t n e, P (.send t n e)) (region bucket key : Str)
    (size : Int) (event : Str) : (checkNotifications region bucket key size event).Only P := by
  have hnotify : ∀ (target : Target) (b : Bucket), (notify target b region key size event).Only P := by
    intro target b
    unfold notify
    split
    · exact Prog.only_pure _
    · exact Prog.only_when fun _ => Prog.only_bind (Prog.only_perform hrandom) fun _ =>
        Prog.only_bind (Prog.only_perform (hsend _ _ _)) fun _ => Prog.only_ofExcept _
  exact Prog.only_bind (Prog.only_perform (hget _ _)) fun b =>
    Prog.only_bind (hnotify .queue b) fun _ => Prog.only_bind (hnotify .topic b) fun _ =>
      hnotify .lambda b

theorem checkEncryption_only (h : ∀ name keyId, P (.encryptFile name keyId)) (bucket : Bucket)
    (object : Object) : (checkEncryption bucket object).Only P :=
  Prog.only_when fun _ => Prog.only_perform (h _ _)

theorem startHashing_only (h : ∀ algorithm object, P (.startHashCreator algorithm object))
    (algorithm : Str) (object : Object) : (startHashing algorithm object).Only P :=
  Prog.only_when fun _ => Prog.only_perform (h _ _)

theorem receiveContent_only (h : ∀ size, P (.stackBuffer size)) (body : Str) (chunkEncoding : Bool) :
    (receiveContent body chunkEncoding).Only P := by
  unfold receiveContent
  split
  · dsimp only
    split
    · exact Prog.only_throw _
    · exact Prog.only_bind (Prog.only_perform (h _)) fun _ => Prog.only_pure _
  · exact Prog.only_pure _

theorem createOrUpdateObject_only {object : Object} (hexists : ∀ region bucket key, P (.objectExists region bucket key))
    (hupdate : P (.updateObject object)) (hcreate : P (.createObject object)) :
    (createOrUpdateObject object).Only P := by
  refine Prog.only_bind (Prog.only_perform (hexists _ _ _)) fun exists_ => ?_
  split
  · exact Prog.only_perform hupdate
  · exact Prog.only_perform hcreate

theorem deleteObjectFiles_only (hfile : ∀ name, P (.deleteFile name))
    (htransfer : ∀ key, P (.deleteTransferFile key)) (env : Env) (bucket key internalName : Str) :
    (deleteObjectFiles env bucket key internalName).Only P :=
  Prog.only_bind (Prog.only_perform (hfile _)) fun _ => Prog.only_bind (Prog.only_ofExcept _) fun _ =>
    Prog.only_when fun _ => Prog.only_bind (Prog.only_perform (htransfer _)) fun _ =>
      Prog.only_ofExcept _

theorem uploadPart_only (hwrite : ∀ id part content, P (.writePart id part content))
    (hread : ∀ id part, P (.readPart id part)) (env : Env) (body : Str) (part : Int) (uploadId : Str) :
    (uploadPart env body part uploadId).Only P :=
  Prog.only_bind (Prog.only_perform (hwrite _ _ _)) fun _ =>
    Prog.only_bind (Prog.only_perform (hread _ _)) fun _ => Prog.only_pure _

end Calls

/-- The calls of the requests that create a bucket or change its settings. -/
def S3Call.OfBuckets : S3Call → Prop
  | .clockNow | .bucketExists .. | .getBucketByRegionName .. | .createBucket .. | .updateBucket .. => True
  | _ => False

theorem createBucket_only (request : CreateBucketRequest) :
    (createBucket request).Only S3Call.OfBuckets := by
  refine Prog.only_bind (Prog.only_perform trivial) fun exists_ => ?_
  split
  · exact Prog.only_bind (Prog.only_perform trivial) fun _ => Prog.only_pure _
  · exact Prog.only_mapThrow <| Prog.only_bind (Prog.only_perform trivial) fun _ =>
      Prog.only_bind (Prog.only_perform trivial) fun _ => Prog.only_pure _

theorem putBucketEncryption_only (request : PutBucketEncryptionRequest) :
    (putBucketEncryption request).Only S3Call.OfBuckets := by
  refine Prog.only_bind (Prog.only_perform trivial) fun exists_ => ?_
  split
  · exact Prog.only_mapThrow <| Prog.only_bind (Prog.only_perform trivial) fun _ =>
      Prog.only_bind (Prog.only_perform trivial) fun _ => Prog.only_pure _
  · exact Prog.only_throw _

theorem putBucketVersioning_only (request : PutBucketVersioningRequest) :
    (putBucketVersioning request).Only S3Call.OfBuckets := by
  refine Prog.only_bind (Prog.only_perform trivial) fun exists_ => ?_
  split
  · exact Prog.only_bind (Prog.only_perform trivial) fun _ =>
      Prog.only_bind (Prog.only_perform trivial) fun _ => Prog.only_pure _
  · exact Prog.only_throw _

/-- The calls of `GetObject`. -/
def S3Call.OfRead : S3Call → Prop
  | .bucketExists .. | .objectExists .. | .getBucketByRegionName .. | .getObject ..
  | .getObjectVersion .. | .decryptFile .. | .readFile .. => True
  | _ => False

theorem handleGetObject_only (request : GetObjectRequest) :
    (handleGetObject request).Only S3Call.OfRead := by
  have hfetch : (fetchObject request).Only S3Call.OfRead := by
    refine Prog.only_bind (Prog.only_perform trivial) fun bucketEntity => ?_
    have hend : ∀ object : Object, (checkDecryption bucketEntity object).Only S3Call.OfRead := by
      intro object
      unfold checkDecryption
      split
      · exact Prog.only_bind (Prog.only_perform trivial) fun _ => Prog.only_pure _
      · exact Prog.only_pure _
    dsimp only
    split
    all_goals
      refine Prog.only_bind ?_ fun object => Prog.only_bind (hend object) fun _ => Prog.only_pure _
    · refine Prog.only_bind (Prog.only_perform trivial) fun object => ?_
      split
      · exact Prog.only_throw _
      · exact Prog.only_pure _
    · exact Prog.only_perform trivial
  refine Prog.only_bind ?_ fun response =>
    Prog.only_bind (Prog.only_perform trivial) fun body => Prog.only_pure _
  refine Prog.only_bind (Prog.only_perform trivial) fun exists_ => ?_
  split
  · split
    · exact Prog.only_mapThrow hfetch
    · refine Prog.only_bind (Prog.only_perform trivial) fun exists_ => ?_
      split
      · exact Prog.only_mapThrow hfetch
      · exact Prog.only_throw _
  · exact Prog.only_throw _

/-! ### The directories of uploads -/

/-- The calls a request makes on the directories of uploads meet `P`. -/
def S3Request.OnUploads (P : S3Call → Prop) : S3Request → Prop
  | .createMultipartUpload _ => ∀ uploadId, P (.createUploadDirectory uploadId)
  | .uploadPart _ part uploadId => ∀ content, P (.writePart uploadId part content)
  | .uploadPartCopy request => ∀ source start length,
    P (.copyPart request.uploadId request.partNumber source start length)
  | .completeMultipartUpload request => P (.deleteUploadDirectory request.uploadId)
  | .deleteBucket request => P (.deleteBucketDirectory request.bucket)
  | _ => True

section OnUploads

variable {P : S3Call → Prop} {env : Env}

theorem saveUnversionedObject_only (hP : ∀ c : S3Call, c.onUploads = false → P c) (request : PutObjectRequest)
    (bucket : Bucket) (body : Str) (chunkEncoding : Bool) :
    (saveUnversionedObject env request bucket body chunkEncoding).Only P := by
  refine Prog.only_bind (Prog.only_perform (hP _ rfl)) fun fileName => ?_
  refine Prog.only_bind (receiveContent_only (fun _ => hP _ rfl) _ _) fun content => ?_
  refine Prog.only_bind (Prog.only_perform (hP _ rfl)) fun _ => ?_
  refine Prog.only_bind (Prog.only_perform (hP _ rfl)) fun size => ?_
  refine Prog.only_bind (Prog.only_perform (hP _ rfl)) fun now => ?_
  refine Prog.only_bind (Prog.only_perform (hP _ rfl)) fun stored => ?_
  refine Prog.only_bind (startHashing_only (fun _ _ => hP _ rfl) _ _) fun _ => ?_
  refine Prog.only_bind (createOrUpdateObject_only (fun _ _ _ => hP _ rfl) (hP _ rfl) (hP _ rfl)) fun object => ?_
  refine Prog.only_bind (checkEncryption_only (fun _ _ => hP _ rfl) _ _) fun _ => ?_
  refine Prog.only_bind (checkNotifications_only (fun _ _ => hP _ rfl) (hP _ rfl) (fun _ _ _ => hP _ rfl)
    _ _ _ _ _) fun _ => ?_
  exact Prog.only_pure _

theorem createVersion_only (hP : ∀ c : S3Call, c.onUploads = false → P c) (request : PutObjectRequest)
    (bucket : Bucket) (fileName : Str) (size : Int) : (createVersion env request bucket fileName size).Only P := by
  refine Prog.only_bind (Prog.only_perform (hP _ rfl)) fun versionId => ?_
  refine Prog.only_bind (Prog.only_perform (hP _ rfl)) fun now => ?_
  refine Prog.only_bind (Prog.only_perform (hP _ rfl)) fun stored => ?_
  refine Prog.only_bind (Prog.only_perform (hP _ rfl)) fun object => ?_
  refine Prog.only_bind (startHashing_only (fun _ _ => hP _ rfl) _ _) fun _ => ?_
  refine Prog.only_bind (checkEncryption_only (fun _ _ => hP _ rfl) _ _) fun _ => ?_
  refine Prog.only_bind (checkNotifications_only (fun _ _ => hP _ rfl) (hP _ rfl) (fun _ _ _ => hP _ rfl)
    _ _ _ _ _) fun _ => ?_
  exact Prog.only_pure _

theorem saveVersionedObject_only (hP : ∀ c : S3Call, c.onUploads = false → P c) (request : PutObjectRequest)
    (bucket : Bucket) (body : Str) : (saveVersionedObject env request bucket body).Only P := by
  refine Prog.only_bind (Prog.only_perform (hP _ rfl)) fun fileName => ?_
  refine Prog.only_bind (Prog.only_perform (hP _ rfl)) fun _ => ?_
  refine Prog.only_bind (Prog.only_perform (hP _ rfl)) fun size => ?_
  refine Prog.only_bind (Prog.only_perform (hP _ rfl)) fun now => ?_
  refine Prog.only_bind (Prog.only_perform (hP _ rfl)) fun existingObject => ?_
  dsimp only
  split
  · exact Prog.only_bind (createVersion_only hP _ _ _ _) fun object =>
      Prog.only_bind (Prog.only_perform (hP _ rfl)) fun stored => Prog.only_pure _
  · exact Prog.only_bind (Prog.only_perform (hP _ rfl)) fun _ => Prog.only_bind (Prog.only_ofExcept _) fun _ =>
      Prog.only_bind (Prog.only_pure _) fun object =>
        Prog.only_bind (Prog.only_perform (hP _ rfl)) fun stored => Prog.only_pure _

theorem putObject_only (hP : ∀ c : S3Call, c.onUploads = false → P c) (request : PutObjectRequest) (body : Str)
    (chunkEncoding : Bool) : (putObject env request body chunkEncoding).Only P := by
  refine Prog.only_bind (Prog.only_perform (hP _ rfl)) fun exists_ => ?_
  split
  · refine Prog.only_mapThrow (Prog.only_bind (Prog.only_perform (hP _ rfl)) fun bucket => ?_)
    split
    · exact saveVersionedObject_only hP _ _ _
    · exact saveUnversionedObject_only hP _ _ _ _
  · exact Prog.only_throw _

theorem copyTo_only (hP : ∀ c : S3Call, c.onUploads = false → P c) (missingTarget : S3Error)
    (request : CopyObjectRequest) : (copyTo missingTarget request).Only P := by
  refine Prog.only_bind (Prog.only_perform (hP _ rfl)) fun exists_ => ?_
  split
  swap
  · exact Prog.only_throw _
  refine Prog.only_bind (Prog.only_perform (hP _ rfl)) fun exists_ => ?_
  split
  swap
  · exact Prog.only_throw _
  refine Prog.only_mapThrow (Prog.only_bind (Prog.only_perform (hP _ rfl)) fun exists_ => ?_)
  split
  swap
  · exact Prog.only_throw _
  refine Prog.only_bind (Prog.only_perform (hP _ rfl)) fun targetBucket => ?_
  refine Prog.only_bind (Prog.only_perform (hP _ rfl)) fun sourceObject => ?_
  refine Prog.only_bind (Prog.only_perform (hP _ rfl)) fun targetFile => ?_
  refine Prog.only_bind (Prog.only_perform (hP _ rfl)) fun copied => ?_
  refine Prog.only_bind (Prog.only_ofExcept _) fun _ => ?_
  refine Prog.only_bind (Prog.only_perform (hP _ rfl)) fun now => ?_
  dsimp only
  split
  all_goals
    refine Prog.only_bind ?_ fun versionId => Prog.only_bind (Prog.only_perform (hP _ rfl)) fun targetObject =>
      Prog.only_bind (checkNotifications_only (fun _ _ => hP _ rfl) (hP _ rfl) (fun _ _ _ => hP _ rfl)
        _ _ _ _ _) fun _ => Prog.only_pure _
  · exact Prog.only_perform (hP _ rfl)
  · exact Prog.only_pure _

theorem deleteObject_only (hP : ∀ c : S3Call, c.onUploads = false → P c) (request : DeleteObjectRequest) :
    (deleteObject env request).Only P := by
  refine Prog.only_bind (Prog.only_perform (hP _ rfl)) fun exists_ => ?_
  split
  swap
  · exact Prog.only_throw _
  refine Prog.only_bind (Prog.only_perform (hP _ rfl)) fun exists_ => ?_
  split
  swap
  · exact Prog.only_pure _
  refine Prog.only_mapThrow (Prog.only_bind (Prog.only_perform (hP _ rfl)) fun object => ?_)
  refine Prog.only_bind (Prog.only_perform (hP _ rfl)) fun _ => ?_
  refine Prog.only_bind (deleteObjectFiles_only (fun _ => hP _ rfl) (fun _ => hP _ rfl) _ _ _ _) fun _ => ?_
  exact checkNotifications_only (fun _ _ => hP _ rfl) (hP _ rfl) (fun _ _ _ => hP _ rfl) _ _ _ _ _

theorem deleteObjects_only (hP : ∀ c : S3Call, c.onUploads = false → P c) (request : DeleteObjectsRequest) :
    (deleteObjects env request).Only P := by
  refine Prog.only_bind (Prog.only_perform (hP _ rfl)) fun exists_ => ?_
  split
  swap
  · exact Prog.only_throw _
  refine Prog.only_mapThrow (Prog.only_bind (Prog.only_forEach fun key _ => ?_) fun _ =>
    Prog.only_perform (hP _ rfl))
  refine Prog.only_bind (Prog.only_perform (hP _ rfl)) fun object => ?_
  refine Prog.only_bind (deleteObjectFiles_only (fun _ => hP _ rfl) (fun _ => hP _ rfl) _ _ _ _) fun _ => ?_
  exact checkNotifications_only (fun _ _ => hP _ rfl) (hP _ rfl) (fun _ _ _ => hP _ rfl) _ _ _ _ _

theorem deleteBucket_only (hP : ∀ c : S3Call, c.onUploads = false → P c) (request : DeleteBucketRequest)
    (h : P (.deleteBucketDirectory request.bucket)) : (deleteBucket request).Only P := by
  refine Prog.only_bind (Prog.only_perform (hP _ rfl)) fun exists_ => ?_
  split
  swap
  · exact Prog.only_throw _
  refine Prog.only_bind (Prog.only_perform (hP _ rfl)) fun exists_ => ?_
  split
  · exact Prog.only_throw _
  · exact Prog.only_mapThrow (Prog.only_bind (Prog.only_perform h) fun _ => Prog.only_perform (hP _ rfl))

theorem createMultipartUpload_only (hP : ∀ c : S3Call, c.onUploads = false → P c)
    (request : CreateMultipartUploadRequest) (h : ∀ uploadId, P (.createUploadDirectory uploadId)) :
    (createMultipartUpload request).Only P := by
  refine Prog.only_bind (Prog.only_perform (hP _ rfl)) fun exists_ => ?_
  split
  swap
  · exact Prog.only_throw _
  refine Prog.only_bind (Prog.only_perform (hP _ rfl)) fun uploadId => ?_
  refine Prog.only_bind (Prog.only_perform (h _)) fun _ => ?_
  refine Prog.only_bind (Prog.only_perform (hP _ rfl)) fun now => ?_
  refine Prog.only_bind (createOrUpdateObject_only (fun _ _ _ => hP _ rfl) (hP _ rfl) (hP _ rfl)) fun object => ?_
  exact Prog.only_pure _

theorem completeMultipartUpload_only (hP : ∀ c : S3Call, c.onUploads = false → P c)
    (request : CompleteMultipartUploadRequest) (h : P (.deleteUploadDirectory request.uploadId)) :
    (completeMultipartUpload env request).Only P := by
  refine Prog.only_bind (Prog.only_perform (hP _ rfl)) fun listed => ?_
  refine Prog.only_bind (Prog.only_ofExcept _) fun files => ?_
  refine Prog.only_bind (Prog.only_perform (hP _ rfl)) fun filename => ?_
  refine Prog.only_bind (Prog.only_perform (hP _ rfl)) fun fileSize => ?_
  refine Prog.only_bind (Prog.only_perform (hP _ rfl)) fun stored => ?_
  refine Prog.only_bind (Prog.only_perform (hP _ rfl)) fun object => ?_
  refine Prog.only_bind (Prog.only_perform (hP _ rfl)) fun object => ?_
  refine Prog.only_bind (startHashing_only (fun _ _ => hP _ rfl) _ _) fun _ => ?_
  refine Prog.only_bind (Prog.only_perform h) fun _ => ?_
  refine Prog.only_bind (checkNotifications_only (fun _ _ => hP _ rfl) (hP _ rfl) (fun _ _ _ => hP _ rfl)
    _ _ _ _ _) fun _ => ?_
  exact Prog.only_pure _

/-- The calls of a request, apart from those on the directories of uploads. -/
theorem serve_only (hP : ∀ c : S3Call, c.onUploads = false → P c) (request : S3Request)
    (h : request.OnUploads P) : (serve env request).Only P := by
  have hbuckets : ∀ c : S3Call, c.OfBuckets → P c := fun c hc => hP c (by cases c <;> first | rfl | cases hc)
  have hreads : ∀ c : S3Call, c.OfRead → P c := fun c hc => hP c (by cases c <;> first | rfl | cases hc)
  have hignored : ∀ {α : Type} {p : S3Prog α}, p.Only P → (do let _ ← p : S3Prog Unit).Only P :=
    fun hp => Prog.only_bind hp fun _ => Prog.only_pure _
  cases request with
  | createBucket r => exact hignored ((createBucket_only r).mono hbuckets)
  | deleteBucket r => exact deleteBucket_only hP r h
  | putBucketEncryption r => exact (putBucketEncryption_only r).mono hbuckets
  | putBucketVersioning r => exact (putBucketVersioning_only r).mono hbuckets
  | putObject r body chunkEncoding => exact hignored (putObject_only hP _ _ _)
  | getObject r => exact hignored ((handleGetObject_only r).mono hreads)
  | copyObject r => exact hignored (copyTo_only hP _ _)
  | moveObject r => exact hignored (copyTo_only hP _ _)
  | deleteObject r => exact deleteObject_only hP r
  | deleteObjects r => exact deleteObjects_only hP r
  | createMultipartUpload r => exact hignored (createMultipartUpload_only hP r h)
  | uploadPart body part uploadId =>
    refine hignored (Prog.only_bind (Prog.only_perform (h _)) fun _ =>
      Prog.only_bind (Prog.only_perform (hP _ rfl)) fun _ => Prog.only_pure _)
  | uploadPartCopy r =>
    refine hignored (Prog.only_bind (Prog.only_perform (hP _ rfl)) fun _ =>
      Prog.only_bind (Prog.only_perform (h _ _ _)) fun _ =>
        Prog.only_bind (Prog.only_perform (hP _ rfl)) fun _ => Prog.only_pure _)
  | completeMultipartUpload r => exact hignored (completeMultipartUpload_only hP r h)

end OnUploads

end AwsMock.S3
