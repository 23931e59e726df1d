import AwsMock.Lib.Machine
import AwsMock.S3.Answers

/-!
# Uploads that are not completed

What the requests of an upload show before it is completed, and what a completion leaves that has no upload
or no object. `CreateMultipartUpload` puts an empty record in the place of the object.
-/

namespace AwsMock.S3

open Lib

/-! ### Requests before the completion -/

inductive MultipartRequest where
  | createMultipartUpload (request : CreateMultipartUploadRequest)
  | uploadPart (body : Str) (part : Int) (uploadId : Str)
  | uploadPartCopy (request : UploadPartCopyRequest)
  | abortMultipartUpload (bucket key uploadId : Str)

/-- Serve a request. The handler of an abort does nothing but answer. -/
def serveMultipart (env : Env) : MultipartRequest → S3Prog Unit
  | .createMultipartUpload request => do let _ ← createMultipartUpload request
  | .uploadPart body part uploadId => do let _ ← uploadPart env body part uploadId
  | .uploadPartCopy request => do let _ ← uploadPartCopy env request
  | .abortMultipartUpload .. => pure ()

/-- The world after a request, whatever its outcome. -/
def multipartStep (env : Env) (rt : Runtime) (request : MultipartRequest) (w : World) : Option World :=
  ((serveMultipart env request).run (exec env rt) w).map Prod.snd

/-- The record that is put where an upload starts. -/
def CreateMultipartUploadRequest.placeholder (request : CreateMultipartUploadRequest) (now : TimePoint) : Object where
  region := request.region
  bucket := request.bucket
  key := request.key
  owner := request.user
  metadata := request.metadata
  created := now
  modified := now

/-- A start without a bucket, or one that finds the very record it puts. -/
def MultipartRequest.Idle (rt : Runtime) : MultipartRequest → World → Prop
  | .createMultipartUpload request, w =>
    w.db.bucketExists request.region request.bucket = false ∨
      ∃ k object, w.db.objects.findIf (fun _ o => o.isKeyed request.bucket request.key) = some (k, object) ∧
        object.bare = request.placeholder (rt.now (w.calls + 3))
  | _, _ => True

/-- The calls of the requests for parts. -/
def S3Call.OfParts : S3Call → Prop
  | .getObject .. | .writePart .. | .copyPart .. | .readPart .. => True
  | _ => False

variable {env : Env} {rt : Runtime} {w w₀ : World}

/-- They are always defined, and show nothing. -/
theorem ofParts_step {c : S3Call} (hc : c.OfParts) (h : Alike w₀ w) :
    ∃ r, exec env rt c w = some r ∧ Alike w₀ r.2 := by
  have hinspects : c.Inspects := by
    cases c <;> trivial
  obtain ⟨r, hr⟩ : ∃ r, exec env rt c w = some r := by
    cases c <;> first | exact ⟨_, rfl⟩ | cases hc
  exact ⟨r, hr, h.trans (alike_of_call hinspects hr)⟩

theorem ofParts_run {α : Type} {p : S3Prog α} (hp : p.Only S3Call.OfParts) (h : Alike w₀ w) :
    ∃ y w', p.run (exec env rt) w = some (y, w') ∧ Alike w₀ w' := by
  have hstep : ∀ (c : S3Call) s, c.OfParts → Alike w₀ s → ∃ r, exec env rt c s = some r ∧ Alike w₀ r.2 :=
    fun c s hc hs => ofParts_step hc hs
  obtain ⟨⟨y, w'⟩, hrun, halike⟩ := hp.run hstep h
  exact ⟨y, w', hrun, halike⟩

/-- Without its bucket the start of an upload is refused. -/
theorem createMultipartUpload_refused (env : Env) (rt : Runtime) {request : CreateMultipartUploadRequest}
    (hbucket : w.db.bucketExists request.region request.bucket = false) :
    ∃ e, (createMultipartUpload request).run (exec env rt) w = some (.error e, { w with calls := w.calls + 1 }) := by
  refine ⟨.notFoundException (str "Bucket does not exist, region: " ++ request.region ++ str " bucket: " ++
    request.bucket), ?_⟩
  have hexists : exec env rt (.bucketExists request.region request.bucket) w =
      some (false, { w with calls := w.calls + 1 }) := by simp [exec, S3Call.apply, hbucket]
  unfold createMultipartUpload
  rw [Prog.run_perform_bind_some hexists]
  rfl

/-- A record at a key of a bucket that is the first of its region. -/
theorem objectExists_of_keyed {request : CreateMultipartUploadRequest} {k : Str} {object : Object} {now : TimePoint}
    (hfound : w.db.objects.findIf (fun _ o => o.isKeyed request.bucket request.key) = some (k, object))
    (hbare : object.bare = request.placeholder now) :
    w.db.objectExists request.region request.bucket request.key := by
  refine S3MemoryDb.objectExists_iff.mpr ⟨k, object, (OrderedMap.findIf_some hfound).1, ?_⟩
  have hat : object.bare.isAt request.region request.bucket request.key := by
    rw [hbare]
    simp [Object.isAt, CreateMultipartUploadRequest.placeholder]
  exact hat

/-- The record is put over itself. -/
theorem createMultipartUpload_again (env : Env) {request : CreateMultipartUploadRequest} {k : Str} {object : Object}
    (hbucket : w.db.bucketExists request.region request.bucket = true)
    (hfound : w.db.objects.findIf (fun _ o => o.isKeyed request.bucket request.key) = some (k, object))
    (hbare : object.bare = request.placeholder (rt.now (w.calls + 3))) :
    ∃ y w', (createMultipartUpload request).run (exec env rt) w = some (y, w') ∧ Alike w w' := by
  have hexists := objectExists_of_keyed hfound hbare
  have hrun : (createMultipartUpload request).run (exec env rt) w = some (.ok (rt.uploadId (w.calls + 1)),
      { w with
        db := { w.db with objects := w.db.objects.insert k (request.placeholder (rt.now (w.calls + 3))) }
        uploads := w.uploads.insert (rt.uploadId (w.calls + 1)) (w.directory (rt.uploadId (w.calls + 1)))
        calls := w.calls + 6 }) := by
    simp [createMultipartUpload, createOrUpdateObject, Prog.run_bind, exec, S3Call.apply, World.directory,
      hbucket, hexists, S3MemoryDb.updateObject, hfound, CreateMultipartUploadRequest.placeholder]
  refine ⟨_, _, hrun, rfl, ?_, rfl⟩
  have hsame : (request.placeholder (rt.now (w.calls + 3))).bare = object.bare := by
    rw [hbare]
    rfl
  exact OrderedMap.mapVal_insert_of_eq (OrderedMap.findIf_some hfound).1 hsame

theorem multipartStep_alike {request : MultipartRequest} (hidle : request.Idle rt w) (h : Alike w₀ w) :
    ∃ w', multipartStep env rt request w = some w' ∧ Alike w₀ w' := by
  have hignored : ∀ {α : Type} {p : S3Prog α}, (∃ y w', p.run (exec env rt) w = some (y, w') ∧ Alike w₀ w') →
      ∃ w', ((do let _ ← p : S3Prog Unit).run (exec env rt) w).map Prod.snd = some w' ∧ Alike w₀ w' := by
    rintro α p ⟨y, w', hrun, halike⟩
    refine ⟨w', ?_, halike⟩
    change ((p >>= fun _ => pure ()).run (exec env rt) w).map Prod.snd = some w'
    rw [Prog.run_bind, hrun]
    cases y <;> rfl
  cases request with
  | createMultipartUpload request =>
    refine hignored ?_
    rcases hbucket : w.db.bucketExists request.region request.bucket with _ | _
    · obtain ⟨e, hrun⟩ := createMultipartUpload_refused env rt hbucket
      exact ⟨_, _, hrun, h.buckets, h.objects, h.files⟩
    · rcases hidle with hmissing | ⟨k, object, hfound, hbare⟩
      · rw [hbucket] at hmissing
        cases hmissing
      · obtain ⟨y, w', hrun, halike⟩ := createMultipartUpload_again env hbucket hfound hbare
        exact ⟨y, w', hrun, h.trans halike⟩
  | uploadPart body part uploadId =>
    exact hignored (ofParts_run (uploadPart_only (fun _ _ _ => trivial) (fun _ _ => trivial) env body part
      uploadId) h)
  | uploadPartCopy request =>
    refine hignored (ofParts_run (Prog.only_bind (Prog.only_perform trivial) fun _ =>
      Prog.only_bind (Prog.only_perform trivial) fun _ =>
        Prog.only_bind (Prog.only_perform trivial) fun _ => Prog.only_pure _) h)
  | abortMultipartUpload => exact ⟨w, rfl, h⟩

/-! ### Completions without an upload or an object -/

/-- The completion ends in an exception, and nothing has changed. -/
def FailsUnchanged (env : Env) (rt : Runtime) (request : CompleteMultipartUploadRequest) (w : World) : Prop :=
  ∃ e w', (completeMultipartUpload env request).run (exec env rt) w = some (.error e, w') ∧
    w'.db = w.db ∧ w'.files = w.files ∧ w'.uploads = w.uploads

/-- The directory of the upload is missing, or the name of a part in it has no number. -/
def ListingFails (w : World) (uploadId : Str) : Prop :=
  ∀ files, w.uploads.get? uploadId = some files → ∃ e, listFilesByPrefix files uploadId = some (.error e)

/-- What comes behind the deletion of the directory leaves it deleted. -/
theorem complete_rest_uploads {region bucket key uploadId : Str} {size : Int} {event : Str} {α : Type} {a : α}
    {y : Except S3Error α} {w' : World} (hw : w.uploads.get? uploadId = none)
    (h : (do checkNotifications region bucket key size event; pure a : S3Prog α).run (exec env rt) w =
      some (y, w')) : w'.uploads.get? uploadId = none := by
  have honly : (do checkNotifications region bucket key size event; pure a : S3Prog α).Only
      fun c => c.onUploads = false :=
    Prog.only_bind (checkNotifications_only (P := fun c => c.onUploads = false) (fun _ _ => rfl) rfl
      (fun _ _ _ => rfl) _ _ _ _ _) fun _ => Prog.only_pure _
  have hkept : ∀ c v (r : c.Reply × World), c.onUploads = false → v.uploads.get? uploadId = none →
      exec env rt c v = some r → r.2.uploads.get? uploadId = none := by
    intro c v r hc hv hr
    rw [uploads_of_call hc hr]
    exact hv
  exact honly.invariant (I := fun v => v.uploads.get? uploadId = none) hkept hw h

/-- A listing that fails ends the completion. -/
theorem failsUnchanged_of_listing {request : CompleteMultipartUploadRequest}
    (h : ListingFails w request.uploadId) : FailsUnchanged env rt request w := by
  have hlisted : ∃ e, exec env rt (.listParts request.uploadId) w =
      some (.error e, { w with calls := w.calls + 1 }) := by
    rcases hfiles : w.uploads.get? request.uploadId with _ | files
    · exact ⟨_, by simp [exec, S3Call.apply, hfiles]; rfl⟩
    · obtain ⟨e, he⟩ := h files hfiles
      exact ⟨e, by simp [exec, S3Call.apply, hfiles, he]⟩
  obtain ⟨e, hlisted⟩ := hlisted
  refine ⟨e, { w with calls := w.calls + 1 }, ?_, rfl, rfl, rfl⟩
  unfold completeMultipartUpload
  rw [Prog.run_perform_bind_some hlisted]
  rfl

/-- Any other completion deletes the directory, or has no defined end. -/
theorem listing_of_failsUnchanged {request : CompleteMultipartUploadRequest}
    (h : FailsUnchanged env rt request w) : ListingFails w request.uploadId := by
  intro files hfiles
  obtain ⟨e, w', h, -, -, huploads⟩ := h
  unfold completeMultipartUpload at h
  obtain ⟨⟨listed, w₁⟩, hlist, h⟩ := Prog.run_perform_bind_eq_some.mp h
  have hlisted : listFilesByPrefix files request.uploadId = some listed := by
    obtain ⟨v, hv, -⟩ := exec_eq_some.mp hlist
    simp only [S3Call.apply, hfiles, Option.map_eq_some_iff] at hv
    obtain ⟨names, hnames, heq⟩ := hv
    rw [hnames, (Prod.mk.inj heq).1]
  rcases listed with e' | names
  · exact ⟨e', hlisted⟩
  exfalso
  dsimp only at h
  rw [Prog.ofExcept_ok_bind] at h
  obtain ⟨⟨filename, w₂⟩, -, h⟩ := Prog.run_perform_bind_eq_some.mp h
  obtain ⟨⟨fileSize, w₃⟩, -, h⟩ := Prog.run_perform_bind_eq_some.mp h
  obtain ⟨⟨stored, w₄⟩, -, h⟩ := Prog.run_perform_bind_eq_some.mp h
  obtain ⟨⟨found, w₅⟩, -, h⟩ := Prog.run_perform_bind_eq_some.mp h
  obtain ⟨⟨object, w₆⟩, -, h⟩ := Prog.run_perform_bind_eq_some.mp h
  dsimp only at h
  rw [Prog.run_bind] at h
  obtain ⟨⟨hashed, w₇⟩, hhash, h⟩ := Option.bind_eq_some_iff.mp h
  have hok : hashed = .ok () := by
    unfold startHashing Prog.when at hhash
    split at hhash
    · rw [Prog.run_perform] at hhash
      obtain ⟨r, -, heq⟩ := Option.map_eq_some_iff.mp hhash
      exact (Prod.mk.inj heq).1.symm
    · exact (Prod.mk.inj (Option.some.inj hhash)).1.symm
  subst hok
  obtain ⟨⟨deleted, w₈⟩, hdelete, h⟩ := Prog.run_perform_bind_eq_some.mp h
  have hgone : w₈.uploads.get? request.uploadId = none := by
    obtain ⟨v, hv, rfl⟩ := exec_eq_some.mp hdelete
    cases hv
    change (w₇.uploads.eraseIf _).get? _ = none
    rw [OrderedMap.get?_eraseIf_key, if_pos rfl]
  have hend := complete_rest_uploads hgone h
  rw [huploads, hfiles] at hend
  cases hend

/-! ### The claim -/

/-- A run of requests of which none puts a new record shows what was shown before it, and a completion fails
    without a change exactly when its parts cannot be listed. -/
theorem multipart_frame (env : Env) (rt : Runtime) :
    (∀ run w, Along (multipartStep env rt) (MultipartRequest.Idle rt) run w →
      ∃ w', steps (multipartStep env rt) run w = some w' ∧ SameAnswers env rt w w') ∧
    ∀ w request, FailsUnchanged env rt request w ↔ ListingFails w request.uploadId := by
  constructor
  · intro run w hidle
    obtain ⟨w', hsteps, halike⟩ := steps_along_total (I := Alike w)
      (fun hC hI => multipartStep_alike hC hI) hidle (.refl w)
    exact ⟨w', hsteps, halike.sameAnswers⟩
  · intro w request
    exact ⟨listing_of_failsUnchanged, failsUnchanged_of_listing⟩

/-- A bucket with an object, and an upload for another key. -/
def frameSample : World :=
  ((session Env.sample [.createBucket { region := str "eu", name := str "b" },
    .putObject { region := str "eu", bucket := str "b", key := str "k" } (str "x") false,
    .createMultipartUpload { region := str "eu", bucket := str "b", key := str "o" }]).run
      (exec Env.sample .counting) {}).elim {} Prod.snd

/-- In another region nothing is started, and without its upload nothing is completed. -/
theorem multipart_frame_sample :
    (∃ w', steps (multipartStep Env.sample .counting)
      [.createMultipartUpload { region := str "us", bucket := str "b", key := str "k" },
        .uploadPart (str "y") 1 (str "u"), .abortMultipartUpload (str "b") (str "k") (str "u")]
      frameSample = some w' ∧ SameAnswers Env.sample .counting frameSample w') ∧
    FailsUnchanged Env.sample .counting
      { region := str "eu", bucket := str "b", key := str "k", uploadId := str "none" } frameSample := by
  obtain ⟨hrun, hcomplete⟩ := multipart_frame Env.sample .counting
  refine ⟨hrun _ _ ⟨.inl (by decide +kernel), fun _ _ => ⟨trivial, fun _ _ => ⟨trivial, fun _ _ => trivial⟩⟩⟩, ?_⟩
  refine (hcomplete _ _).mpr fun files hfiles => ?_
  have hnone : frameSample.uploads.get? (str "none") = none := by decide +kernel
  rw [hnone] at hfiles
  cases hfiles

/-- The start of an upload takes an object away, and a completion without its object has no defined end. -/
theorem multipart_start_visible :
    (∃ w', steps (multipartStep Env.sample .counting)
      [.createMultipartUpload { region := str "eu", bucket := str "b", key := str "k" }] frameSample =
        some w' ∧ ¬ SameAnswers Env.sample .counting frameSample w') ∧
    frameSample.db.objectExists (str "eu") (str "b") (str "none") = false ∧
    ∃ id, (frameSample.uploads.get? id).isSome ∧ ¬ FailsUnchanged Env.sample .counting
      { region := str "eu", bucket := str "b", key := str "none", uploadId := id } frameSample := by
  refine ⟨⟨_, rfl, fun h => ?_⟩, by decide +kernel, ?_⟩
  · exact absurd (h.listBucket (str "b") []) (by decide +kernel)
  · obtain ⟨id, hid⟩ : ∃ id, frameSample.uploads.get? id = some ∅ := by
      refine ⟨(frameSample.uploads.entries.map Prod.fst).headD [], ?_⟩
      decide +kernel
    refine ⟨id, by rw [hid]; rfl, fun h => ?_⟩
    obtain ⟨e, he⟩ := listing_of_failsUnchanged h ∅ hid
    cases he

end AwsMock.S3
