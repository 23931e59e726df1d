import AwsMock.S3.Requests

/-!
# Referential integrity

Every object record names an existing bucket. `CompleteMultipartUpload` writes the record it looked up
back through an update that does not check that there is one, so it is the one request that needs a
condition.
-/

namespace AwsMock.S3

open Lib

/-- Every object record's region and bucket name an existing bucket. -/
def Refers (w : World) : Prop :=
  ∀ k object, w.db.objects.get? k = some object → w.db.bucketExists object.region object.bucket

/-- An update finds a record to replace; otherwise it writes through the end iterator. -/
def FindsRecord : S3Call → World → Prop
  | .updateObject object, w => ∃ k o, w.db.objects.get? k = some o ∧ o.isKeyed object.bucket object.key
  | _, _ => True

/-- Deleting a bucket leaves every object record, and every bucket of another region. -/
def SparesOthers : S3Request → World → World → Prop
  | .deleteBucket request, w, w' => w'.db.objects = w.db.objects ∧
      ∀ k bucket, w.db.buckets.get? k = some bucket → bucket.region ≠ request.region →
        w'.db.buckets.get? k = some bucket
  | _, _, _ => True

variable (env : Env) (rt : Runtime)

/-- Along a run of requests every record refers to a bucket, no update writes through the end iterator,
    and a bucket that is deleted takes no record of another region with it. -/
def Intact : List S3Request → World → Prop
  | [], w => Refers w
  | request :: run, w => Refers w ∧ (serve env request).Ensures (exec env rt) FindsRecord
      (fun x w' => (x = .ok () → SparesOthers request w w') ∧ Intact run w') w

/-- The upload of a completion has ended, or its record is still there. -/
def Completable : S3Request → World → Prop
  | .completeMultipartUpload request, w => (w.uploads.get? request.uploadId).isSome →
      w.db.objectExists request.region request.bucket request.key
  | _, _ => True

/-- Every completion of a run finds its record. -/
def CompletesRecords : List S3Request → World → Prop
  | [], _ => True
  | request :: run, w => Completable request w ∧
      ∀ x w', (serve env request).run (exec env rt) w = some (x, w') → CompletesRecords run w'

/-- What the requests keep. -/
structure Sound (w : World) : Prop where
  drawn : Drawn rt w
  refers : Refers w

/-- What they keep while they work on a bucket. -/
structure SoundAt (region bucket : Str) (w : World) : Prop extends Sound rt w where
  bucketExists : w.db.bucketExists region bucket

/-- The calls that put no record into the store and keep its buckets. -/
def Quiet : S3Call → Prop
  | .createObject .. | .updateObject .. | .deleteBucket .. => False
  | _ => True

/-- Those, and the calls that put a record into a bucket. -/
def Into (region bucket : Str) : S3Call → Prop
  | .createObject object | .updateObject object => object.region = region ∧ object.bucket = bucket
  | c => Quiet c

variable {env rt} {w w' : World} {c : S3Call} {x : c.Reply} {region bucket : Str}

theorem Quiet.findsRecord (hc : Quiet c) (w : World) : FindsRecord c w := by
  cases c with
  | updateObject => cases hc
  | _ => trivial

/-- Records are put only into buckets that exist. -/
theorem Sound.step (hw : Sound rt w) (hdelete : ∀ r n, c ≠ .deleteBucket r n)
    (hwrites : ∀ object, c.Writes object → w.db.bucketExists object.region object.bucket)
    (h : exec env rt c w = some (x, w')) : Sound rt w' := by
  refine ⟨hw.drawn.step h, fun k object' ho => bucketExists_of_call hw.drawn h (hdelete _ _) ?_⟩
  rcases objects_of_call h ho with ⟨object, hold, hsame⟩ | ⟨hput, -⟩
  · rw [hsame]
    exact hw.refers k object hold
  · exact hwrites object' hput

theorem Sound.quiet (hw : Sound rt w) (h : exec env rt c w = some (x, w')) (hc : Quiet c) :
    Sound rt w' := by
  refine hw.step ?_ ?_ h
  · rintro r n rfl
    exact hc
  · intro object hput
    cases c with
    | createObject | updateObject => cases hc
    | _ => cases hput

theorem SoundAt.step (hw : SoundAt rt region bucket w) (h : exec env rt c w = some (x, w'))
    (hc : Into region bucket c) : SoundAt rt region bucket w' := by
  have hdelete : ∀ r n, c ≠ .deleteBucket r n := by
    rintro r n rfl
    exact hc
  refine { hw.toSound.step hdelete ?_ h with
    bucketExists := bucketExists_of_call hw.drawn h (hdelete _ _) hw.bucketExists }
  intro object hput
  cases c with
  | createObject o =>
    have ho : object = { o with oid := object.oid } := hput
    rw [ho]
    exact hc.1 ▸ hc.2 ▸ hw.bucketExists
  | updateObject o =>
    have ho : o = object := hput
    exact ho ▸ hc.1 ▸ hc.2 ▸ hw.bucketExists
  | _ => cases hput

/-! ### Programs on a bucket -/

section Programs

variable {α : Type}

/-- Calls into a bucket that exists, without an update. -/
def Adds (region bucket : Str) : S3Call → Prop
  | .updateObject .. => False
  | c => Into region bucket c

theorem Adds.into (hc : Adds region bucket c) : Into region bucket c := by
  cases c with
  | updateObject => cases hc
  | _ => exact hc

theorem Adds.findsRecord (hc : Adds region bucket c) (w : World) : FindsRecord c w := by
  cases c with
  | updateObject => cases hc
  | _ => trivial

theorem adds_ensures {p : S3Prog α} (hp : p.Only (Adds region bucket))
    (hw : SoundAt rt region bucket w) :
    p.Ensures (exec env rt) FindsRecord (fun _ => SoundAt rt region bucket) w :=
  hp.ensures (fun _ w hc _ => hc.findsRecord w) (fun _ _ _ hc hw h => hw.step h hc.into) hw

theorem quiet_ensures {p : S3Prog α} (hp : p.Only Quiet) (hw : Sound rt w) :
    p.Ensures (exec env rt) FindsRecord (fun _ => Sound rt) w :=
  hp.ensures (fun _ w hc _ => hc.findsRecord w) (fun _ _ _ hc hw h => hw.quiet h hc) hw

theorem SoundAt.bind {β : Type} {p : S3Prog α} {f : α → S3Prog β}
    (hp : p.Ensures (exec env rt) FindsRecord (fun _ => SoundAt rt region bucket) w)
    (hf : ∀ a w, SoundAt rt region bucket w →
      (f a).Ensures (exec env rt) FindsRecord (fun _ => SoundAt rt region bucket) w) :
    (p >>= f).Ensures (exec env rt) FindsRecord (fun _ => SoundAt rt region bucket) w :=
  Prog.ensures_bind_of hp hf fun _ _ h => h

/-- The update comes after a look at the store that found the record. -/
theorem createOrUpdateObject_ensures {object : Object} (hregion : object.region = region)
    (hbucket : object.bucket = bucket) (hw : SoundAt rt region bucket w) :
    (createOrUpdateObject object).Ensures (exec env rt) FindsRecord
      (fun _ => SoundAt rt region bucket) w := by
  refine Prog.ensures_perform_bind trivial fun r hr => ?_
  have hw' : SoundAt rt region bucket r.2 := hw.step hr trivial
  cases hr
  split
  · next hexists =>
    obtain ⟨k, o, ho, hat⟩ := S3MemoryDb.objectExists_iff.mp hexists
    simp only [Object.isAt, decide_eq_true_eq] at hat
    refine Prog.ensures_perform ⟨k, o, ho, by simp [Object.isKeyed, hat]⟩ fun r hr => ?_
    exact hw'.step hr ⟨hregion, hbucket⟩
  · exact Prog.ensures_perform trivial fun r hr => hw'.step hr ⟨hregion, hbucket⟩

/-- A request that starts with a look for its bucket. -/
theorem bucket_ensures {p q : S3Prog α} (hw : Sound rt w)
    (hp : ∀ w, SoundAt rt region bucket w →
      p.Ensures (exec env rt) FindsRecord (fun _ => Sound rt) w)
    (hq : q.Only Quiet) :
    (do if ← call (.bucketExists region bucket) then p else q).Ensures (exec env rt) FindsRecord
      (fun _ => Sound rt) w := by
  refine Prog.ensures_perform_bind trivial fun r hr => ?_
  have hw' : Sound rt r.2 := hw.quiet hr trivial
  cases hr
  split
  · next hexists => exact hp _ { hw' with bucketExists := hexists }
  · exact quiet_ensures hq hw'

theorem checkNotifications_quiet (region bucket key : Str) (size : Int) (event : Str) :
    (checkNotifications region bucket key size event).Only Quiet :=
  checkNotifications_only (fun _ _ => trivial) trivial (fun _ _ _ => trivial) _ _ _ _ _

theorem Quiet.adds (hc : Quiet c) : Adds region bucket c := by
  cases c with
  | createObject | updateObject => cases hc
  | _ => exact hc

/-! ### The requests -/

theorem saveUnversionedObject_ensures (request : PutObjectRequest) (entity : Bucket) (body : Str)
    (chunkEncoding : Bool) (hw : SoundAt rt request.region request.bucket w) :
    (saveUnversionedObject env request entity body chunkEncoding).Ensures (exec env rt) FindsRecord
      (fun _ => SoundAt rt request.region request.bucket) w := by
  have hcall : ∀ {c : S3Call} {w}, Adds request.region request.bucket c →
      SoundAt rt request.region request.bucket w → (call c).Ensures (exec env rt) FindsRecord
        (fun _ => SoundAt rt request.region request.bucket) w :=
    fun hc hw => adds_ensures (Prog.only_perform hc) hw
  refine SoundAt.bind (hcall trivial hw) fun fileName w hw => ?_
  refine SoundAt.bind (adds_ensures (receiveContent_only (fun _ => trivial) _ _) hw) fun content w hw => ?_
  refine SoundAt.bind (hcall trivial hw) fun _ w hw => ?_
  refine SoundAt.bind (hcall trivial hw) fun size w hw => ?_
  refine SoundAt.bind (hcall trivial hw) fun now w hw => ?_
  refine SoundAt.bind (hcall trivial hw) fun stored w hw => ?_
  refine SoundAt.bind (adds_ensures (startHashing_only (fun _ _ => trivial) _ _) hw) fun _ w hw => ?_
  refine SoundAt.bind (createOrUpdateObject_ensures rfl rfl hw) fun object w hw => ?_
  refine adds_ensures ?_ hw
  exact Prog.only_bind (checkEncryption_only (fun _ _ => trivial) _ _) fun _ =>
    Prog.only_bind ((checkNotifications_quiet _ _ _ _ _).mono fun _ => Quiet.adds) fun _ =>
      Prog.only_pure _

theorem saveVersionedObject_adds (request : PutObjectRequest) (entity : Bucket) (body : Str) :
    (saveVersionedObject env request entity body).Only (Adds request.region request.bucket) := by
  have hcreate : ∀ fileName size, (createVersion env request entity fileName size).Only
      (Adds request.region request.bucket) := fun fileName size =>
    Prog.only_bind (Prog.only_perform trivial) fun versionId =>
      Prog.only_bind (Prog.only_perform trivial) fun now =>
        Prog.only_bind (Prog.only_perform trivial) fun stored =>
          Prog.only_bind (Prog.only_perform ⟨rfl, rfl⟩) fun object =>
            Prog.only_bind (startHashing_only (fun _ _ => trivial) _ _) fun _ =>
              Prog.only_bind (checkEncryption_only (fun _ _ => trivial) _ _) fun _ =>
                Prog.only_bind ((checkNotifications_quiet _ _ _ _ _).mono fun _ => Quiet.adds)
                  fun _ => Prog.only_pure _
  refine Prog.only_bind (Prog.only_perform trivial) fun fileName => ?_
  refine Prog.only_bind (Prog.only_perform trivial) fun _ => ?_
  refine Prog.only_bind (Prog.only_perform trivial) fun size => ?_
  refine Prog.only_bind (Prog.only_perform trivial) fun now => ?_
  refine Prog.only_bind (Prog.only_perform trivial) fun existingObject => ?_
  dsimp only
  split
  · exact Prog.only_bind (hcreate fileName size) fun object =>
      Prog.only_bind (Prog.only_perform trivial) fun stored => Prog.only_pure _
  · exact Prog.only_bind (Prog.only_perform trivial) fun _ =>
      Prog.only_bind (Prog.only_ofExcept _) fun _ => Prog.only_bind (Prog.only_pure _) fun object =>
        Prog.only_bind (Prog.only_perform trivial) fun stored => Prog.only_pure _

theorem putObject_ensures (request : PutObjectRequest) (body : Str) (chunkEncoding : Bool)
    (hw : Sound rt w) : (putObject env request body chunkEncoding).Ensures (exec env rt) FindsRecord
      (fun _ => Sound rt) w := by
  refine bucket_ensures hw (fun w hw => Prog.ensures_mapThrow ?_) (Prog.only_throw _)
  refine Prog.Ensures.mono (fun _ _ h => SoundAt.toSound h)
    (SoundAt.bind (adds_ensures (Prog.only_perform trivial) hw) fun entity w hw => ?_)
  split
  · exact adds_ensures (saveVersionedObject_adds _ _ _) hw
  · exact saveUnversionedObject_ensures _ _ _ _ hw

theorem copyTo_ensures (missingTarget : S3Error) (request : CopyObjectRequest) (hw : Sound rt w) :
    (copyTo missingTarget request).Ensures (exec env rt) FindsRecord (fun _ => Sound rt) w := by
  refine bucket_ensures hw (fun w hw => ?_) (Prog.only_throw _)
  refine Prog.ensures_perform_bind trivial fun r hr => ?_
  have hw' : Sound rt r.2 := hw.quiet hr trivial
  split
  · refine Prog.ensures_mapThrow (bucket_ensures hw' (fun w hw => ?_) (Prog.only_throw _))
    refine (adds_ensures ?_ hw).mono fun _ _ h => h.toSound
    refine Prog.only_bind (Prog.only_perform trivial) fun targetBucket => ?_
    refine Prog.only_bind (Prog.only_perform trivial) fun sourceObject => ?_
    refine Prog.only_bind (Prog.only_perform trivial) fun targetFile => ?_
    refine Prog.only_bind (Prog.only_perform trivial) fun copied => ?_
    refine Prog.only_bind (Prog.only_ofExcept _) fun _ => ?_
    refine Prog.only_bind (Prog.only_perform trivial) fun now => ?_
    dsimp only
    split
    all_goals
      refine Prog.only_bind ?_ fun versionId =>
        Prog.only_bind (Prog.only_perform ⟨rfl, rfl⟩) fun targetObject =>
          Prog.only_bind ((checkNotifications_quiet _ _ _ _ _).mono fun _ => Quiet.adds) fun _ =>
            Prog.only_pure _
    · exact Prog.only_perform trivial
    · exact Prog.only_pure _
  · exact quiet_ensures (Prog.only_throw _) hw'

theorem quiet_of_ofBuckets {p : S3Prog α} (hp : p.Only S3Call.OfBuckets) : p.Only Quiet :=
  hp.mono fun c hc => by cases c <;> trivial

theorem quiet_of_ofRead {p : S3Prog α} (hp : p.Only S3Call.OfRead) : p.Only Quiet :=
  hp.mono fun c hc => by cases c <;> trivial

theorem deleteObjectFiles_quiet (bucket key internalName : Str) :
    (deleteObjectFiles env bucket key internalName).Only Quiet :=
  deleteObjectFiles_only (fun _ => trivial) (fun _ => trivial) _ _ _ _

theorem deleteObject_quiet (request : DeleteObjectRequest) :
    (deleteObject env request).Only Quiet := by
  refine Prog.only_bind (Prog.only_perform trivial) fun exists_ => ?_
  split
  · refine Prog.only_bind (Prog.only_perform trivial) fun exists_ => ?_
    split
    · exact Prog.only_mapThrow <| Prog.only_bind (Prog.only_perform trivial) fun object =>
        Prog.only_bind (Prog.only_perform trivial) fun _ =>
          Prog.only_bind (deleteObjectFiles_quiet _ _ _) fun _ => checkNotifications_quiet _ _ _ _ _
    · exact Prog.only_pure _
  · exact Prog.only_throw _

theorem deleteObjects_quiet (request : DeleteObjectsRequest) :
    (deleteObjects env request).Only Quiet := by
  refine Prog.only_bind (Prog.only_perform trivial) fun exists_ => ?_
  split
  · refine Prog.only_mapThrow <| Prog.only_bind (Prog.only_forEach fun key _ => ?_) fun _ =>
      Prog.only_perform trivial
    exact Prog.only_bind (Prog.only_perform trivial) fun object =>
      Prog.only_bind (deleteObjectFiles_quiet _ _ _) fun _ => checkNotifications_quiet _ _ _ _ _
  · exact Prog.only_throw _

theorem createMultipartUpload_ensures (request : CreateMultipartUploadRequest) (hw : Sound rt w) :
    (createMultipartUpload request).Ensures (exec env rt) FindsRecord (fun _ => Sound rt) w := by
  refine bucket_ensures hw (fun w hw => ?_) (Prog.only_throw _)
  refine Prog.Ensures.mono (fun _ _ h => SoundAt.toSound h)
    (SoundAt.bind (adds_ensures (Prog.only_perform trivial) hw) fun uploadId w hw => ?_)
  refine SoundAt.bind (adds_ensures (Prog.only_perform trivial) hw) fun _ w hw => ?_
  refine SoundAt.bind (adds_ensures (Prog.only_perform trivial) hw) fun now w hw => ?_
  exact SoundAt.bind (createOrUpdateObject_ensures rfl rfl hw) fun _ w hw =>
    adds_ensures (Prog.only_pure _) hw

theorem uploadPartCopy_quiet (request : UploadPartCopyRequest) :
    (uploadPartCopy env request).Only Quiet :=
  Prog.only_bind (Prog.only_perform trivial) fun _ => Prog.only_bind (Prog.only_perform trivial) fun _ =>
    Prog.only_bind (Prog.only_perform trivial) fun _ => Prog.only_pure _

/-- The completion of an upload replaces the record that it has looked up. -/
theorem completeMultipartUpload_ensures (request : CompleteMultipartUploadRequest)
    (hw : Sound rt w) (hc : Completable (.completeMultipartUpload request) w) :
    (completeMultipartUpload env request).Ensures (exec env rt) FindsRecord (fun _ => Sound rt) w := by
  refine Prog.ensures_perform_bind trivial fun r hr => ?_
  have hlisted : Sound rt r.2 := hw.quiet hr trivial
  rcases hfiles : r.1 with e | files
  · exact hlisted
  have hupload : (w.uploads.get? request.uploadId).isSome := by
    obtain ⟨v, hv, -⟩ := exec_eq_some.mp hr
    rcases hget : w.uploads.get? request.uploadId with _ | names
    · simp only [S3Call.apply, hget, Option.some.injEq, Prod.mk.injEq] at hv
      rw [← hv.1] at hfiles
      cases hfiles
    · rfl
  have hexists : r.2.db.objectExists request.region request.bucket request.key := by
    rw [db_of_call rfl hr]
    exact hc hupload
  -- Until the record is looked up the store stays as it is.
  let J := fun w => Sound rt w ∧ w.db.objectExists request.region request.bucket request.key
  have hcall : ∀ {c : S3Call} {w : World}, c.touchesDb = false → Quiet c → J w →
      (call c).Ensures (exec env rt) FindsRecord (fun _ => J) w := fun hdb hc hw =>
    Prog.ensures_perform (hc.findsRecord _) fun r hr =>
      ⟨hw.1.quiet hr hc, by rw [db_of_call hdb hr]; exact hw.2⟩
  have hnext : ∀ {c : S3Call} {f : c.Reply → S3Prog CompleteMultipartUploadResult} {w : World},
      c.touchesDb = false → Quiet c → J w →
      (∀ a w, J w → (f a).Ensures (exec env rt) FindsRecord (fun _ => Sound rt) w) →
      (call c >>= f).Ensures (exec env rt) FindsRecord (fun _ => Sound rt) w :=
    fun hdb hc hw hf => Prog.ensures_bind_of (hcall hdb hc hw) hf fun _ _ h => h.1
  refine hnext rfl trivial ⟨hlisted, hexists⟩ fun filename w hw => ?_
  refine hnext rfl trivial hw fun fileSize w hw => ?_
  refine hnext rfl trivial hw fun stored w hw => ?_
  obtain ⟨k, object, hget, hat, hlookup⟩ := S3MemoryDb.getObject_eq hw.2 (rt.now w.calls)
  simp only [Object.isAt, decide_eq_true_eq] at hat
  have hbucket := hw.1.refers k object hget
  refine Prog.ensures_perform_bind trivial fun r hr => ?_
  have hr' := SoundAt.step { hw.1 with bucketExists := hbucket } hr trivial
  obtain ⟨v, hv, he⟩ := exec_eq_some.mp hr
  simp only [S3Call.apply, hlookup, Option.some.injEq, Prod.mk.injEq] at hv
  obtain ⟨hobject, rfl⟩ := hv
  refine Prog.ensures_perform_bind ?_ fun r' hupdate => ?_
  · refine ⟨k, { object with oid := k }, ?_, ?_⟩
    · rw [he]
      exact OrderedMap.get?_insert_self _ _ _
    · rw [← hobject]
      simp [Object.isKeyed]
  · have hw' := hr'.step hupdate (by rw [← hobject]; exact ⟨rfl, rfl⟩)
    refine quiet_ensures ?_ hw'.toSound
    exact Prog.only_bind (startHashing_only (fun _ _ => trivial) _ _) fun _ =>
      Prog.only_bind (Prog.only_perform trivial) fun _ =>
        Prog.only_bind (checkNotifications_quiet _ _ _ _ _) fun _ => Prog.only_pure _

/-- A bucket is deleted only when no record refers to it. -/
theorem deleteBucket_ensures (request : DeleteBucketRequest) (hw : Sound rt w) :
    (deleteBucket request).Ensures (exec env rt) FindsRecord (fun x w' => Sound rt w' ∧
      (x = .ok () → SparesOthers (.deleteBucket request) w w')) w := by
  refine Prog.ensures_perform_bind trivial fun r hr => ?_
  have hw₁ : Sound rt r.2 := hw.quiet hr trivial
  cases hr
  split
  swap
  · exact ⟨hw₁, fun h => by cases h⟩
  refine Prog.ensures_perform_bind trivial fun r hr => ?_
  have hw₂ : Sound rt r.2 := hw₁.quiet hr trivial
  cases hr
  split
  · exact ⟨hw₂, fun h => by cases h⟩
  next hempty =>
    refine Prog.ensures_mapThrow (Prog.ensures_perform_bind trivial fun r hr => ?_)
    have hw₃ : Sound rt r.2 := hw₂.quiet hr trivial
    have hdb := db_of_call (c := .deleteBucketDirectory request.bucket) rfl hr
    change r.2.db = w.db at hdb
    refine Prog.ensures_perform trivial fun r' hr' => ?_
    have hempty := S3MemoryDb.hasObjects_eq_false.mp (Bool.not_eq_true _ ▸ hempty)
    have hdb' : r'.2.db = w.db.deleteBucket request.region request.bucket := by
      cases hr'
      exact congrArg (S3MemoryDb.deleteBucket · request.region request.bucket) hdb
    have hobjects : r'.2.db.objects = w.db.objects := by rw [hdb']; rfl
    refine ⟨⟨hw₃.drawn.step hr', ?_⟩, fun _ => ⟨hobjects, ?_⟩⟩
    · intro k object hget
      rw [hobjects] at hget
      refine bucketExists_of_call hw₃.drawn hr' ?_ (hw₃.refers k object (hdb ▸ hget))
      intro he
      obtain ⟨hregion, hbucket⟩ := S3Call.deleteBucket.inj he
      exact hempty k object hget hregion.symm hbucket.symm
    · intro k b hget hregion
      rw [hdb']
      simp [S3MemoryDb.deleteBucket, Bucket.isNamed, hget, hregion]

/-- What serving a request keeps. -/
theorem serve_ensures (request : S3Request) (hw : Sound rt w) (hc : Completable request w) :
    (serve env request).Ensures (exec env rt) FindsRecord (fun x w' => Sound rt w' ∧
      (x = .ok () → SparesOthers request w w')) w := by
  -- Most requests answer with something that is left out here.
  have hanswer : ∀ {α : Type} {p : S3Prog α}, p.Ensures (exec env rt) FindsRecord (fun _ => Sound rt) w →
      (do let _ ← p : S3Prog Unit).Ensures (exec env rt) FindsRecord (fun _ => Sound rt) w := fun hp =>
    Prog.ensures_bind_of hp (fun _ _ h => h) fun _ _ h => h
  cases request with
  | deleteBucket request => exact deleteBucket_ensures request hw
  | createBucket request =>
    exact (hanswer (quiet_ensures (quiet_of_ofBuckets (createBucket_only request)) hw)).mono
      fun _ _ h => ⟨h, fun _ => trivial⟩
  | putBucketEncryption request =>
    exact (quiet_ensures (quiet_of_ofBuckets (putBucketEncryption_only request)) hw).mono
      fun _ _ h => ⟨h, fun _ => trivial⟩
  | putBucketVersioning request =>
    exact (quiet_ensures (quiet_of_ofBuckets (putBucketVersioning_only request)) hw).mono
      fun _ _ h => ⟨h, fun _ => trivial⟩
  | putObject request body chunkEncoding =>
    exact (hanswer (putObject_ensures request body chunkEncoding hw)).mono
      fun _ _ h => ⟨h, fun _ => trivial⟩
  | getObject request =>
    exact (hanswer (quiet_ensures (quiet_of_ofRead (handleGetObject_only request)) hw)).mono
      fun _ _ h => ⟨h, fun _ => trivial⟩
  | copyObject request | moveObject request =>
    exact (hanswer (copyTo_ensures _ request hw)).mono fun _ _ h => ⟨h, fun _ => trivial⟩
  | deleteObject request =>
    exact (quiet_ensures (deleteObject_quiet request) hw).mono fun _ _ h => ⟨h, fun _ => trivial⟩
  | deleteObjects request =>
    exact (quiet_ensures (deleteObjects_quiet request) hw).mono fun _ _ h => ⟨h, fun _ => trivial⟩
  | createMultipartUpload request =>
    exact (hanswer (createMultipartUpload_ensures request hw)).mono fun _ _ h => ⟨h, fun _ => trivial⟩
  | uploadPart body part uploadId =>
    exact (hanswer (quiet_ensures (uploadPart_only (fun _ _ _ => trivial) (fun _ _ => trivial) _ _ _ _)
      hw)).mono fun _ _ h => ⟨h, fun _ => trivial⟩
  | uploadPartCopy request =>
    exact (hanswer (quiet_ensures (uploadPartCopy_quiet request) hw)).mono
      fun _ _ h => ⟨h, fun _ => trivial⟩
  | completeMultipartUpload request =>
    exact (hanswer (completeMultipartUpload_ensures request hw hc)).mono
      fun _ _ h => ⟨h, fun _ => trivial⟩

end Programs

/-! ### Runs -/

theorem intact_of_completesRecords : ∀ {run : List S3Request} {w : World},
    Sound rt w → CompletesRecords env rt run w → Intact env rt run w
  | [], _, hw, _ => hw.refers
  | request :: run, w, hw, ⟨hc, hrun⟩ => by
    refine ⟨hw.refers, (serve_ensures request hw hc).attained.mono fun x w' h => ?_⟩
    obtain ⟨⟨hw', hspares⟩, hends⟩ := h
    exact ⟨hspares, intact_of_completesRecords hw' (hrun x w' hends)⟩

/-- From the empty store, a run in which every completion finds its record keeps the store intact. -/
theorem referential_integrity {run : List S3Request} (h : CompletesRecords env rt run {}) :
    Intact env rt run {} :=
  intact_of_completesRecords ⟨drawn_empty, fun _ _ h => nomatch h⟩ h

/-- An upload that is completed and whose object is deleted, with the bucket, afterwards. -/
theorem referential_integrity_upload :
    Intact Env.sample .counting
      [.createBucket { region := str "eu", name := str "b" },
        .createMultipartUpload { region := str "eu", bucket := str "b", key := str "k" },
        .uploadPart (str "x") 1 (letters 'u' 4),
        .completeMultipartUpload
          { region := str "eu", bucket := str "b", key := str "k", uploadId := letters 'u' 4 },
        .deleteObject { region := str "eu", bucket := str "b", key := str "k" },
        .deleteBucket { region := str "eu", bucket := str "b" }] {} := by
  refine referential_integrity ⟨trivial, fun x w h => ?_⟩
  cases h
  refine ⟨trivial, fun x w h => ?_⟩
  cases h
  refine ⟨trivial, fun x w h => ?_⟩
  cases h
  refine ⟨fun _ => rfl, fun x w h => ?_⟩
  cases h
  refine ⟨trivial, fun x w h => ?_⟩
  cases h
  refine ⟨trivial, fun x w h => ?_⟩
  trivial

/-- A completion that comes after its bucket was deleted writes through the end iterator. Where there is an
    object without bucket and key names, it is replaced by a record of no region instead. -/
theorem referential_integrity_completion :
    ¬ Intact Env.sample .counting
      [.createBucket { region := str "eu", name := str "b" },
        .createMultipartUpload { region := str "eu", bucket := str "b", key := str "k" },
        .deleteObject { region := str "eu", bucket := str "b", key := str "k" },
        .deleteBucket { region := str "eu", bucket := str "b" },
        .completeMultipartUpload
          { region := str "eu", bucket := str "b", key := str "k", uploadId := letters 'u' 4 }] {} ∧
    ∃ w, (session Env.sample
      [.createBucket { region := str "eu", name := [] },
        .putObject { region := str "eu", bucket := [], key := [] } (str "x") false,
        .createBucket { region := str "eu", name := str "b" },
        .createMultipartUpload { region := str "eu", bucket := str "b", key := str "k" },
        .deleteObject { region := str "eu", bucket := str "b", key := str "k" },
        .deleteBucket { region := str "eu", bucket := str "b" },
        .completeMultipartUpload
          { region := str "eu", bucket := str "b", key := str "k", uploadId := letters 'u' 17 }]).run
        (exec Env.sample .counting) {} = some (.ok (), w) ∧ ¬ Refers w := by
  constructor
  · intro h
    have h := (h.2.of_run rfl).2
    have h := (h.2.of_run rfl).2
    have h := (h.2.of_run rfl).2
    have h := (h.2.of_run rfl).2
    obtain ⟨k, o, hget, -⟩ := (((((h.2.2 _ rfl).2 _ rfl).2 _ rfl).2 _ rfl).2 _ rfl).1
    cases hget
  · refine ⟨_, rfl, fun h => ?_⟩
    have hdangling := h (letters 'i' 11) _ rfl
    cases hdangling

end AwsMock.S3
