import AwsMock.S3.DataFiles
import AwsMock.S3.Parts
import AwsMock.S3.Reads
import Mathlib.Logic.Relation

/-!
# Multipart uploads

The requests between the start of an upload and its completion, beside a map of what was uploaded last
for each part. `UploadPart` writes a content without its white space, and `UploadPartCopy` writes over the
file that is there. Where neither shows, the object completed has the contents in the order of their numbers.
-/

namespace AwsMock.S3

open Lib

/-- What was uploaded last for each part of an upload. -/
abbrev Uploaded := OrderedMap Int Str

/-- Note what a request uploads. -/
def Uploaded.note (uploaded : Uploaded) : Option (Int × Str) → Uploaded
  | some (part, content) => uploaded.insert part content
  | none => uploaded

/-- The bytes from `min` up to `max`. -/
def range (min max : Int) (content : Str) : Str := (content.drop min.toNat).take (max - min + 1).toNat

namespace UploadPartCopyRequest

def source (request : UploadPartCopyRequest) : GetObjectRequest where
  region := request.region
  bucket := request.sourceBucket
  key := request.sourceKey

/-- The range is one of the source's content, in an unencrypted bucket, and no shorter than what was
    uploaded for the part before. -/
def Fits (request : UploadPartCopyRequest) (uploaded : Uploaded) (w : World) : Prop :=
  ∃ bucket object content, Finds w request.source bucket object ∧ bucket.hasEncryption = false ∧
    w.files.get? object.internalName = some content ∧
    0 ≤ request.min ∧ request.min ≤ request.max ∧ request.max < 9223372036854775807 ∧
    (range request.min request.max content).length ≤ sendfileLimit ∧
    ∀ old, uploaded.get? request.partNumber = some old →
      old.length ≤ (range request.min request.max content).length

end UploadPartCopyRequest

/-- What a request uploads to an upload, and for which part. What is copied is the range of what the
    source is read as. -/
def S3Request.uploads (env : Env) (rt : Runtime) (w : World) (uploadId : Str) :
    S3Request → Option (Int × Str)
  | .uploadPart body part id => if id = uploadId then some (part, body) else none
  | .uploadPartCopy request =>
    if request.uploadId = uploadId then
      match (handleGetObject request.source).run (exec env rt) w with
      | some (.ok (_, body), _) => some (request.partNumber, range request.min request.max body)
      | _ => none
    else none
  | _ => none

/-- A request is served, and what it uploads is noted. -/
inductive Uploads (env : Env) (rt : Runtime) (uploadId : Str) (P : Uploaded × World → S3Request → Prop) :
    Uploaded × World → Uploaded × World → Prop
  | serve {s : Uploaded × World} {y : Except S3Error Unit} {w' : World} (request : S3Request)
      (hrequest : P s request) (hrun : (serve env request).run (exec env rt) s.2 = some (y, w')) :
      Uploads env rt uploadId P s (s.1.note (request.uploads env rt s.2 uploadId), w')

/-- The calls that leave the directory of an upload. -/
def Spares (uploadId : Str) : S3Call → Prop
  | .writePart id .. | .copyPart id .. | .deleteUploadDirectory id => id ≠ uploadId
  | .deleteBucketDirectory name => name ≠ str ".."
  | _ => True

/-- The call takes the last record of a key away. -/
def erasing (env : Env) (rt : Runtime) (region bucket key : Str) (c : S3Call) (w : World) : Bool :=
  w.db.objectExists region bucket key &&
    (exec env rt c w).any fun r => !r.2.db.objectExists region bucket key

/-- What is uploaded to the upload has no white space and fits into its part; other requests leave the
    directory of the upload, and the record it was started for. -/
def S3Request.Fits (env : Env) (rt : Runtime) (uploadId region bucket key : Str) (s : Uploaded × World) :
    S3Request → Prop
  | .uploadPart body part id => id = uploadId →
    0 ≤ part ∧ (∀ c ∈ body, isSpace c = false) ∧ body.length ≤ sendfileLimit
  | .uploadPartCopy request => request.uploadId = uploadId →
    0 ≤ request.partNumber ∧ request.Fits s.1 s.2
  | request => request.OnUploads (Spares uploadId) ∧
    ¬ (serve env request).Makes (exec env rt) (fun c w => erasing env rt region bucket key c w = true) s.2

/-- An object has a content, with its size and digest. -/
def HasContent (env : Env) (region bucket key content : Str) (w : World) : Prop :=
  ∃ k object, w.db.objects.get? k = some object ∧ object.isAt region bucket key ∧
    w.files.get? object.internalName = some content ∧ object.size = content.length ∧
    object.md5sum = env.md5 content

/-! ### What stays true -/

/-- The upload ids in use were drawn before. -/
structure UploadsDrawn (rt : Runtime) (w : World) : Prop where
  drawn : ∀ {id files}, w.uploads.get? id = some files → ∃ i < w.calls, id = rt.uploadId i

/-- The files of an upload are those of its parts. -/
structure PartFiles (uploadId : Str) (uploaded : Uploaded) (files : OrderedMap Str Str) : Prop where
  fits : ∀ {part content}, uploaded.get? part = some content → 0 ≤ part ∧ content.length ≤ sendfileLimit
  names : ∀ {name content}, files.get? name = some content ↔
    ∃ part, name = partName uploadId part ∧ uploaded.get? part = some content

/-- An upload under way. -/
structure Uploading (rt : Runtime) (uploadId region bucket key : Str) (s : Uploaded × World) : Prop where
  wellFormed : WellFormed rt s.2
  record : s.2.db.objectExists region bucket key
  parts : ∃ files, s.2.uploads.get? uploadId = some files ∧ PartFiles uploadId s.1 files

variable {env : Env} {rt : Runtime} {w w' : World} {c : S3Call} {x : c.Reply}
  {region bucket key uploadId : Str} {uploaded : Uploaded}

theorem UploadsDrawn.step (hw : UploadsDrawn rt w) (h : exec env rt c w = some (x, w'))
    (hc : ∀ id, c = .createUploadDirectory id → ∃ i < w.calls, id = rt.uploadId i) : UploadsDrawn rt w' := by
  refine ⟨fun {id files} hget => ?_⟩
  rw [calls_of_call h]
  suffices hold : (∃ files, w.uploads.get? id = some files) ∨ c = .createUploadDirectory id by
    rcases hold with ⟨files, hold⟩ | hold
    · obtain ⟨i, hi, hid⟩ := hw.drawn hold
      exact ⟨i, by omega, hid⟩
    · obtain ⟨i, hi, hid⟩ := hc id hold
      exact ⟨i, by omega, hid⟩
  rcases hon : c.onUploads with _ | _
  · rw [uploads_of_call hon h] at hget
    exact Or.inl ⟨files, hget⟩
  obtain ⟨v, hv, rfl⟩ := exec_eq_some.mp h
  change v.uploads.get? id = some files at hget
  have hchange : ∀ {id' : Str} {f : OrderedMap Str Str → OrderedMap Str Str},
      (w.changeUpload id' f).uploads.get? id = some files → ∃ files, w.uploads.get? id = some files := by
    intro id' f hget
    unfold World.changeUpload at hget
    split at hget
    · next old hold =>
      by_cases hid : id = id'
      · exact ⟨old, hid ▸ hold⟩
      · rw [OrderedMap.get?_insert_of_ne _ _ hid] at hget
        exact ⟨files, hget⟩
    · exact ⟨files, hget⟩
  cases c with
  | createUploadDirectory id' =>
    cases hv
    by_cases hid : id = id'
    · exact Or.inr (hid ▸ rfl)
    · rw [OrderedMap.get?_insert_of_ne _ _ hid] at hget
      exact Or.inl ⟨files, hget⟩
  | writePart | copyPart => cases hv; exact Or.inl (hchange hget)
  | deleteUploadDirectory id' =>
    cases hv
    rw [OrderedMap.get?_eraseIf_key] at hget
    split at hget
    · cases hget
    · exact Or.inl ⟨files, hget⟩
  | deleteBucketDirectory name =>
    cases hv
    unfold World.deleteBucketDirectory at hget
    split at hget
    · exact Or.inl ⟨files, hget⟩
    · split at hget
      · cases hget
      · exact Or.inl ⟨files, hget⟩
  | _ => cases hon

/-- A call that spares an upload leaves its directory as it is. -/
theorem directory_of_call (hc : Spares uploadId c) (h : exec env rt c w = some (x, w'))
    {files : OrderedMap Str Str} (hget : w.uploads.get? uploadId = some files) :
    w'.uploads.get? uploadId = some files := by
  rcases hon : c.onUploads with _ | _
  · rw [uploads_of_call hon h, hget]
  obtain ⟨v, hv, rfl⟩ := exec_eq_some.mp h
  change v.uploads.get? uploadId = some files
  have hchange : ∀ {id : Str} {f : OrderedMap Str Str → OrderedMap Str Str}, id ≠ uploadId →
      (w.changeUpload id f).uploads.get? uploadId = some files := by
    intro id f hid
    unfold World.changeUpload
    split
    · rw [OrderedMap.get?_insert_of_ne _ _ hid.symm, hget]
    · exact hget
  cases c with
  | createUploadDirectory id =>
    cases hv
    by_cases hid : uploadId = id
    · subst hid
      rw [OrderedMap.get?_insert_self, World.directory, hget]
      rfl
    · rw [OrderedMap.get?_insert_of_ne _ _ hid, hget]
  | writePart | copyPart => cases hv; exact hchange hc
  | deleteUploadDirectory id =>
    cases hv
    rw [OrderedMap.get?_eraseIf_key, if_neg (Ne.symm hc), hget]
  | deleteBucketDirectory name =>
    cases hv
    unfold World.deleteBucketDirectory
    split
    · exact hget
    · rw [if_neg hc]
      exact hget
  | _ => cases hon

/-! ### The start of an upload -/

/-- The calls that start no upload. -/
def Unstarting (c : S3Call) : Prop := ∀ id, c ≠ .createUploadDirectory id

/-- A program that starts no upload. -/
theorem uploadsDrawn_of_only {α : Type} {p : S3Prog α} (hp : p.Only Unstarting) (hw : UploadsDrawn rt w) :
    p.Ensures (exec env rt) (fun _ _ => True) (fun _ => UploadsDrawn rt) w := by
  have hstep : ∀ c v (r : c.Reply × World), Unstarting c → UploadsDrawn rt v → exec env rt c v = some r →
      UploadsDrawn rt r.2 := fun c v r hc hv hr => hv.step hr fun id he => absurd he (hc id)
  exact hp.ensures (fun _ _ _ _ => trivial) hstep hw

theorem createOrUpdateObject_stored (object : Object) :
    (createOrUpdateObject object).Ensures (exec env rt) (fun _ _ => True)
      (fun _ w' => w'.uploads = w.uploads ∧
        w'.db.objectExists object.region object.bucket object.key) w := by
  have hat : object.isAt object.region object.bucket object.key := by simp [Object.isAt]
  refine Prog.ensures_perform_bind trivial fun r hr => ?_
  have huploads := uploads_of_call rfl hr
  split
  · refine ⟨trivial, fun r' hr' => ⟨?_, ?_⟩⟩
    · rw [uploads_of_call rfl hr', huploads]
    · obtain ⟨v, hv, hw'⟩ := exec_eq_some.mp hr'
      obtain ⟨y, hy, he⟩ := Option.map_eq_some_iff.mp hv
      obtain ⟨it, -, rfl⟩ := Option.map_eq_some_iff.mp hy
      rw [hw', ← (Prod.mk.inj he).2, S3MemoryDb.objectExists_iff]
      exact ⟨it.1, object, OrderedMap.get?_insert_self _ _ _, hat⟩
  · refine ⟨trivial, fun r' hr' => ⟨?_, ?_⟩⟩
    · rw [uploads_of_call rfl hr', huploads]
    · obtain ⟨v, hv, hw'⟩ := exec_eq_some.mp hr'
      simp only [S3Call.apply, S3MemoryDb.createObject_eq, Option.some.injEq, Prod.mk.injEq] at hv
      rw [hw', ← hv.2, S3MemoryDb.objectExists_iff]
      exact ⟨_, _, OrderedMap.get?_insert_self _ _ _, hat⟩

/-- The id of a new upload was not in use, and its directory is empty. -/
theorem createMultipartUpload_starts (request : CreateMultipartUploadRequest) (hw : UploadsDrawn rt w) :
    (createMultipartUpload request).Ensures (exec env rt) (fun _ _ => True)
      (fun y w' => UploadsDrawn rt w' ∧ ∀ id, y = .ok id → byte '-' ∉ id ∧
        w'.uploads.get? id = some ∅ ∧ w'.db.objectExists request.region request.bucket request.key) w := by
  refine Prog.ensures_perform_bind trivial fun r₁ h₁ => ?_
  have hw₁ := hw.step h₁ fun _ he => by cases he
  split
  swap
  · exact ⟨hw₁, fun _ he => by cases he⟩
  refine Prog.ensures_perform_bind trivial fun r₂ h₂ => ?_
  obtain ⟨v, hv, -⟩ := exec_eq_some.mp h₂
  have hid : rt.uploadId r₁.2.calls = r₂.1 := (Prod.mk.inj (Option.some.inj hv)).1
  have hw₂ := hw₁.step h₂ fun _ he => by cases he
  have hfresh : r₂.2.uploads.get? r₂.1 = none := by
    rw [uploads_of_call rfl h₂, Option.eq_none_iff_forall_ne_some]
    intro files hget
    obtain ⟨i, hi, hname⟩ := hw₁.drawn hget
    rw [← hid] at hname
    have := rt.uploadId_inj hname
    omega
  refine Prog.ensures_perform_bind trivial fun r₃ h₃ => ?_
  have hw₃ : UploadsDrawn rt r₃.2 := by
    refine hw₂.step h₃ fun id he => ⟨r₁.2.calls, ?_, ?_⟩
    · rw [calls_of_call h₂]
      omega
    · cases he
      exact hid.symm
  have hempty : r₃.2.uploads.get? r₂.1 = some ∅ := by
    obtain ⟨v, hv, hr₃⟩ := exec_eq_some.mp h₃
    cases hv
    rw [hr₃]
    change (r₂.2.uploads.insert r₂.1 (r₂.2.directory r₂.1)).get? r₂.1 = some ∅
    rw [OrderedMap.get?_insert_self, World.directory, hfresh]
    rfl
  refine Prog.ensures_perform_bind trivial fun r₄ h₄ => ?_
  have hw₄ := hw₃.step h₄ fun _ he => by cases he
  have hplain : ∀ object, (createOrUpdateObject object).Only Unstarting :=
    fun object => createOrUpdateObject_only (fun _ _ _ _ he => by cases he)
      (fun _ he => by cases he) fun _ he => by cases he
  refine Prog.ensures_bind_of ((createOrUpdateObject_stored _).and (uploadsDrawn_of_only (hplain _) hw₄)) ?_ fun e w' h => ⟨h.2, fun _ he => by cases he⟩
  rintro object w₅ ⟨⟨huploads, hexists⟩, hw₅⟩
  refine ⟨hw₅, fun id he => ?_⟩
  cases he
  refine ⟨hid ▸ rt.uploadId_dash _, ?_, hexists⟩
  rw [huploads, uploads_of_call rfl h₄, hempty]

theorem uploadsDrawn_serve {request : S3Request} {y : Except S3Error Unit} (hw : UploadsDrawn rt w)
    (h : (serve env request).run (exec env rt) w = some (y, w')) : UploadsDrawn rt w' := by
  have hother : request.OnUploads Unstarting → UploadsDrawn rt w' := fun hon =>
    (uploadsDrawn_of_only (serve_only (fun c hc id he => by rw [he] at hc; cases hc) request hon) hw).of_run h
  cases request with
  | createMultipartUpload r =>
    have hdrawn : (do let _ ← createMultipartUpload r : S3Prog Unit).Ensures (exec env rt)
        (fun _ _ => True) (fun _ => UploadsDrawn rt) w :=
      Prog.ensures_bind_of (createMultipartUpload_starts r hw) (fun _ _ h => h.1) fun _ _ h => h.1
    exact hdrawn.of_run h
  | uploadPart | uploadPartCopy | completeMultipartUpload | deleteBucket => exact hother nofun
  | _ => exact hother trivial

theorem uploadsDrawn_empty (rt : Runtime) : UploadsDrawn rt {} where
  drawn h := nomatch h

theorem session_uploadsDrawn (run : List S3Request) {y : Except S3Error Unit}
    (h : (session env run).run (exec env rt) {} = some (y, w)) : UploadsDrawn rt w :=
  session_invariant uploadsDrawn_serve run (uploadsDrawn_empty rt) h

/-! ### The requests to an upload -/

/-- What is written for a part replaces what was there. -/
theorem PartFiles.insert {files : OrderedMap Str Str} (hfiles : PartFiles uploadId uploaded files)
    (hdash : byte '-' ∉ uploadId) {part : Int} {content : Str} (hpart : 0 ≤ part)
    (hshort : content.length ≤ sendfileLimit) :
    PartFiles uploadId (uploaded.insert part content) (files.insert (partName uploadId part) content) where
  fits {part' content'} h := by
    by_cases hp : part' = part
    · subst hp
      rw [OrderedMap.get?_insert_self, Option.some.injEq] at h
      exact ⟨hpart, h ▸ hshort⟩
    · rw [OrderedMap.get?_insert_of_ne _ _ hp] at h
      exact hfiles.fits h
  names {name content'} := by
    by_cases hname : name = partName uploadId part
    · subst hname
      rw [OrderedMap.get?_insert_self]
      constructor
      · intro h
        exact ⟨part, rfl, by rw [OrderedMap.get?_insert_self, h]⟩
      · rintro ⟨part', hname, h⟩
        by_cases hp : part' = part
        · rwa [hp, OrderedMap.get?_insert_self] at h
        · rw [OrderedMap.get?_insert_of_ne _ _ hp] at h
          exact absurd (partName_inj hdash hpart (hfiles.fits h).1 hname).symm hp
    · rw [OrderedMap.get?_insert_of_ne _ _ hname, hfiles.names]
      constructor
      · rintro ⟨part', rfl, h⟩
        refine ⟨part', rfl, ?_⟩
        rw [OrderedMap.get?_insert_of_ne _ _ ?_, h]
        rintro rfl
        exact hname rfl
      · rintro ⟨part', rfl, h⟩
        refine ⟨part', rfl, ?_⟩
        rwa [OrderedMap.get?_insert_of_ne _ _ ?_] at h
        rintro rfl
        exact hname rfl

/-- A range that is not too long is copied whole. -/
theorem sendfile_range {min max : Int} {content : Str} (hmin : 0 ≤ min) (hle : min ≤ max)
    (hmax : max < 9223372036854775807) (hshort : (range min max content).length ≤ sendfileLimit) :
    sendfile content min (max - min + 1) = range min max content := by
  have hlength : (max - min + 1) % 18446744073709551616 = max - min + 1 :=
    Int.emod_eq_of_lt (by omega) (by omega)
  rw [sendfile, if_neg (by omega), hlength]
  simp only [range, List.length_take] at hshort ⊢
  rw [List.take_eq_take_iff]
  omega

/-- The calls that take no record away. -/
def S3Call.KeepsRecords : S3Call → Prop
  | .createObject .. | .updateObject .. | .deleteObject .. | .deleteObjects .. => False
  | _ => True

theorem objectExists_of_call (hc : c.KeepsRecords) (h : exec env rt c w = some (x, w')) :
    w'.db.objectExists region bucket key = w.db.objectExists region bucket key := by
  have hfetch : ∀ {p : Object → Bool} {now : TimePoint},
      (w.db.fetchObject now (w.db.objects.findIf fun _ o => p o)).2.objectExists region bucket key =
        w.db.objectExists region bucket key := by
    intro p now
    rcases hit : w.db.objects.findIf fun _ o => p o with _ | ⟨k, object⟩
    · rfl
    · have hsame : (w.db.objects.insert k { object with oid := k }).findIf
          (fun _ o => o.isAt region bucket key) = _ :=
        OrderedMap.findIf_insert_of_same (OrderedMap.findIf_some hit).1 rfl
      simp only [S3MemoryDb.fetchObject, S3MemoryDb.objectExists, hsame, Option.isSome_map]
  rcases htouch : c.touchesObjects with _ | _
  · simp only [S3MemoryDb.objectExists, objects_eq_of_call htouch h]
  obtain ⟨v, hv, rfl⟩ := exec_eq_some.mp h
  cases c with
  | getObject | getObjectMd5 => cases hv; exact hfetch
  | createObject | updateObject | deleteObject | deleteObjects => cases hc
  | _ => cases htouch

/-- The copied range is what is uploaded. -/
theorem uploads_uploadPartCopy {request : UploadPartCopyRequest} {bucket : Bucket} {object : Object}
    {content : Str} (hupload : request.uploadId = uploadId) (hfinds : Finds w request.source bucket object)
    (hplain : bucket.hasEncryption = false) (hfile : w.files.get? object.internalName = some content) :
    S3Request.uploads env rt w uploadId (.uploadPartCopy request) =
      some (request.partNumber, range request.min request.max content) := by
  obtain ⟨response, w', hrun, -⟩ := handleGetObject_run env rt hfinds (fun _ => rfl) hfile
  rw [hplain, if_neg (by simp)] at hrun
  simp only [S3Request.uploads, if_pos hupload, hrun]

theorem uploadPart_run {body : Str} {part : Int} {y : Except S3Error Unit}
    (h : (serve env (.uploadPart body part uploadId)).run (exec env rt) w = some (y, w'))
    {files : OrderedMap Str Str} (hget : w.uploads.get? uploadId = some files) :
    w'.uploads.get? uploadId =
      some (files.insert (partName uploadId part) (body.filter fun c => !isSpace c)) := by
  have hrun : (serve env (.uploadPart body part uploadId)).run (exec env rt) w =
      some (.ok (), { w.changeUpload uploadId fun files =>
        files.insert (partName uploadId part) (body.filter fun c => !isSpace c) with calls := w.calls + 2 }) := rfl
  rw [hrun, Option.some.injEq, Prod.mk.injEq] at h
  rw [← h.2]
  simp [World.changeUpload, hget]

theorem uploadPartCopy_run {request : UploadPartCopyRequest} {object : Object} {content : Str}
    {y : Except S3Error Unit}
    (h : (serve env (.uploadPartCopy request)).run (exec env rt) w = some (y, w')) {k : Str}
    (hfind : (w.db.objects.findIf fun _ o =>
      o.isAt request.region request.sourceBucket request.sourceKey) = some (k, object))
    (hfile : w.files.get? object.internalName = some content)
    {files : OrderedMap Str Str} (hget : w.uploads.get? request.uploadId = some files) :
    w'.uploads.get? request.uploadId = some (files.insert (partName request.uploadId request.partNumber)
      (overwrite ((files.get? (partName request.uploadId request.partNumber)).getD [])
        (sendfile content request.min (request.max - request.min + 1)))) := by
  obtain ⟨w₁, hobject, hfiles, -⟩ := getObject_run env rt hfind
  have hget₁ : w₁.uploads.get? request.uploadId = some files := by rw [uploads_of_call rfl hobject, hget]
  have hread : w₁.read object.internalName = content := by rw [World.read, hfiles, hfile]; rfl
  have hrun : (serve env (.uploadPartCopy request)).run (exec env rt) w =
      some (.ok (), { w₁.changeUpload request.uploadId fun files =>
        files.insert (partName request.uploadId request.partNumber) (overwrite
          ((files.get? (partName request.uploadId request.partNumber)).getD [])
          (sendfile (w₁.read object.internalName) request.min (request.max - request.min + 1)))
        with calls := w₁.calls + 2 }) := by
    change ((uploadPartCopy env request) >>= fun _ => pure ()).run (exec env rt) w = _
    rw [Prog.run_bind, uploadPartCopy, Prog.run_perform_bind_some hobject]
    rfl
  rw [hrun, Option.some.injEq, Prod.mk.injEq] at h
  rw [← h.2]
  simp [World.changeUpload, hget₁, hread]

/-- A request between the start and the completion. -/
theorem Uploading.step {s s' : Uploaded × World} (hdash : byte '-' ∉ uploadId)
    (hs : Uploading rt uploadId region bucket key s)
    (h : Uploads env rt uploadId (S3Request.Fits env rt uploadId region bucket key) s s') :
    Uploading rt uploadId region bucket key s' := by
  obtain ⟨files, hget, hfiles⟩ := hs.parts
  cases h with
  | @serve y w' request hrequest hrun =>
  have hwell : WellFormed rt w' :=
    wellFormed_of_follows (serve_follows True request fun _ => trivial) hs.wellFormed hrun
  have hspares : request.OnUploads (Spares uploadId) → w'.uploads.get? uploadId = some files := by
    intro hon
    have hoff : ∀ c : S3Call, c.onUploads = false → Spares uploadId c := by
      intro c hc
      cases c with
      | createUploadDirectory | writePart | copyPart | deleteUploadDirectory | deleteBucketDirectory => cases hc
      | _ => trivial
    have hstep : ∀ c v (r : c.Reply × World), Spares uploadId c → v.uploads.get? uploadId = some files →
        exec env rt c v = some r → r.2.uploads.get? uploadId = some files :=
      fun c v r hc hv hr => directory_of_call hc hr hv
    exact (serve_only hoff request hon).invariant hstep hget hrun
  have hrecord : (serve env request).Only S3Call.KeepsRecords → w'.db.objectExists region bucket key := by
    intro honly
    have hstep : ∀ c v (r : c.Reply × World), c.KeepsRecords → v.db.objectExists region bucket key →
        exec env rt c v = some r → r.2.db.objectExists region bucket key :=
      fun c v r hc hv hr => by rw [objectExists_of_call hc hr]; exact hv
    exact honly.invariant hstep hs.record hrun
  have hother : request.OnUploads (Spares uploadId) ∧ ¬ (serve env request).Makes (exec env rt)
        (fun c w => erasing env rt region bucket key c w = true) s.2 →
      s.1.note (request.uploads env rt s.2 uploadId) = s.1 →
      Uploading rt uploadId region bucket key (s.1.note (request.uploads env rt s.2 uploadId), w') := by
    rintro ⟨hon, hmakes⟩ hnote
    rw [hnote]
    refine ⟨hwell, ?_, files, hspares hon, hfiles⟩
    rw [← Prog.run_without hmakes] at hrun
    refine Prog.run_invariant (I := fun w => w.db.objectExists region bucket key) ?_ hs.record hrun
    intro c v r hv hr
    obtain ⟨herasing, hr⟩ := Prog.without_eq_some.mp hr
    simpa [erasing, hv, hr] using herasing
  cases request with
  | uploadPart body part id =>
    have hkept := hrecord (Prog.only_bind (uploadPart_only (fun _ _ _ => trivial) (fun _ _ => trivial)
      _ _ _ _) fun _ => Prog.only_pure _)
    by_cases hid : id = uploadId
    · subst hid
      obtain ⟨hpart, hspace, hshort⟩ := hrequest rfl
      have hfilter : body.filter (fun c => !isSpace c) = body := by
        rw [List.filter_eq_self]
        intro c hc
        rw [hspace c hc]
        rfl
      have hrun' := uploadPart_run hrun hget
      rw [hfilter] at hrun'
      simp only [S3Request.uploads, if_true, Uploaded.note]
      exact ⟨hwell, hkept, _, hrun', hfiles.insert hdash hpart hshort⟩
    · simp only [S3Request.uploads, if_neg hid, Uploaded.note]
      exact ⟨hwell, hkept, files, hspares fun _ => hid, hfiles⟩
  | uploadPartCopy request =>
    have hkept := hrecord (Prog.only_bind (Prog.only_bind (Prog.only_perform trivial) fun _ =>
      Prog.only_bind (Prog.only_perform trivial) fun _ => Prog.only_bind (Prog.only_perform trivial) fun _ =>
        Prog.only_pure _) fun _ => Prog.only_pure _)
    by_cases hid : request.uploadId = uploadId
    · subst hid
      obtain ⟨hpart, entity, object, content, hfinds, hplain, hfile, hmin, hle, hmax, hshort, hold⟩ :=
        hrequest rfl
      obtain ⟨-, k, hfind⟩ := id hfinds
      have hrun' := uploadPartCopy_run hrun hfind hfile hget
      rw [sendfile_range hmin hle hmax hshort] at hrun'
      have hover : overwrite ((files.get? (partName request.uploadId request.partNumber)).getD [])
          (range request.min request.max content) = range request.min request.max content := by
        rcases hfound : files.get? (partName request.uploadId request.partNumber) with _ | old
        · simp [overwrite]
        · obtain ⟨part, hname, hnoted⟩ := hfiles.names.mp hfound
          obtain rfl := partName_inj hdash hpart (hfiles.fits hnoted).1 hname
          simp [overwrite, List.drop_of_length_le (hold old hnoted)]
      rw [hover] at hrun'
      rw [uploads_uploadPartCopy rfl hfinds hplain hfile]
      exact ⟨hwell, hkept, _, hrun', hfiles.insert hdash hpart hshort⟩
    · simp only [S3Request.uploads, if_neg hid, Uploaded.note]
      exact ⟨hwell, hkept, files, hspares fun _ _ _ => hid, hfiles⟩
  | _ => exact hother hrequest rfl

/-! ### The completion -/

/-- The calls that leave the records and the data files as they are. -/
def S3Call.KeepsContents (c : S3Call) : Prop := c.touchesObjects = false ∧ c.touchesFiles = false

theorem HasContent.keep {content : Str} (hw : HasContent env region bucket key content w)
    (hc : c.KeepsContents) (h : exec env rt c w = some (x, w')) :
    HasContent env region bucket key content w' := by
  unfold HasContent
  rw [objects_eq_of_call hc.1 h, files_of_call hc.2 h]
  exact hw

/-- The record of a key is updated: the first one of its bucket name and key is replaced. -/
theorem updateObject_run (env : Env) (rt : Runtime) (object : Object) {found : Object} {k : Str}
    (hfind : w.db.objects.get? k = some found) (hkeyed : found.isKeyed object.bucket object.key) :
    ∃ k' w', exec env rt (.updateObject object) w = some (object, w') ∧
      w'.db.objects.get? k' = some object ∧ w'.files = w.files := by
  obtain ⟨it, hit⟩ : ∃ it, (w.db.objects.findIf fun _ o => o.isKeyed object.bucket object.key) = some it := by
    rw [← Option.isSome_iff_exists, OrderedMap.findIf_isSome]
    exact ⟨k, found, hfind, hkeyed⟩
  refine ⟨it.1, { w with
    db := { w.db with objects := w.db.objects.insert it.1 object }
    calls := w.calls + 1 }, ?_, OrderedMap.get?_insert_self _ _ _, rfl⟩
  simp [exec, S3Call.apply, S3MemoryDb.updateObject, hit]

theorem Uploading.complete {s : Uploaded × World} (hdash : byte '-' ∉ uploadId)
    (hs : Uploading rt uploadId region bucket key s) (algorithm : Str) :
    (completeMultipartUpload env { region := region, bucket := bucket, key := key, uploadId := uploadId,
                                   checksumAlgorithm := algorithm }).Establishes (exec env rt)
      (HasContent env region bucket key s.1.values.flatten) s.2 := by
  obtain ⟨files, hget, hfiles⟩ := hs.parts
  have hdirectory : s.2.directory uploadId = files := by rw [World.directory, hget]; rfl
  -- The parts are listed in the order of their numbers, and appended to a new file.
  have hlist := listFilesByPrefix_parts hdash (fun h => (hfiles.fits h).1) hfiles.names
  have hpart : ∀ e ∈ s.1.entries, files.get? (partName uploadId e.1) = some e.2 := fun e he =>
    hfiles.names.mpr ⟨e.1, rfl, OrderedMap.get?_eq_some.mpr he⟩
  generalize hnames : (s.1.entries.map fun e => partName uploadId e.1) = names at hlist
  have hvalues : (names.map fun name => (files.get? name).getD []) = s.1.values := by
    rw [← hnames, List.map_map]
    refine List.map_congr_left fun e he => ?_
    rw [Function.comp_apply, hpart e he]
    rfl
  have hthere : ∀ name ∈ names, ∃ content, files.get? name = some content ∧
      content.length ≤ sendfileLimit := by
    intro name hname
    rw [← hnames] at hname
    obtain ⟨e, he, rfl⟩ := List.mem_map.mp hname
    exact ⟨e.2, hpart e he, (hfiles.fits (OrderedMap.get?_eq_some.mpr he)).2⟩
  have hfresh : s.2.files.get? (rt.fileName (s.2.calls + 1)) = none := by
    rw [Option.eq_none_iff_forall_ne_some]
    intro content hfile
    obtain ⟨i, hi, hname⟩ := hs.wellFormed.files hfile
    rw [dataFileOf_fileName] at hname
    have := rt.fileName_inj hname
    omega
  let w₂ : World := { s.2 with calls := s.2.calls + 2 }
  have hdirectory₂ : w₂.directory uploadId = files := hdirectory
  have happend : w₂.appendParts (rt.fileName (s.2.calls + 1)) uploadId names = _ :=
    appendParts_eq hfresh (by rw [hdirectory₂]; exact hthere)
  rw [hdirectory₂, hvalues] at happend
  let w₃ : World := { w₂ with
    files := w₂.files.insert (rt.fileName (s.2.calls + 1)) s.1.values.flatten
    calls := s.2.calls + 3 }
  have h₁ : exec env rt (.listParts uploadId) s.2 =
      some (.ok names, { s.2 with calls := s.2.calls + 1 }) := by
    simp [exec, S3Call.apply, hget, hlist]
  refine Prog.Establishes.call h₁ ?_
  refine Prog.Establishes.call (r := (rt.fileName (s.2.calls + 1), w₂)) rfl ?_
  have h₃ : exec env rt (.appendParts (rt.fileName (s.2.calls + 1)) uploadId names) w₂ =
      some ((s.1.values.flatten.length : Int), w₃) := by
    simp only [exec, S3Call.apply, happend, Option.map_some]
    rfl
  refine Prog.Establishes.call h₃ ?_
  have hcontent : w₃.files.get? (rt.fileName (s.2.calls + 1)) = some s.1.values.flatten :=
    OrderedMap.get?_insert_self _ _ _
  have hread : w₃.read (rt.fileName (s.2.calls + 1)) = s.1.values.flatten := by
    rw [World.read, hcontent]
    rfl
  refine Prog.Establishes.call (r := (w₃.read (rt.fileName (s.2.calls + 1)), { w₃ with calls := s.2.calls + 4 }))
    rfl ?_
  -- The record is looked up, and put with the new file.
  obtain ⟨⟨k, found⟩, hfind⟩ := Option.isSome_iff_exists.mp hs.record
  have hat := (OrderedMap.findIf_some hfind).2
  simp only [Object.isAt, decide_eq_true_eq] at hat
  obtain ⟨w₅, h₅, hfiles₅, -⟩ := getObject_run (w := { w₃ with calls := s.2.calls + 4 }) env rt hfind
  refine Prog.Establishes.call h₅ ?_
  have hexists₅ : w₅.db.objectExists region bucket key := by
    have hkeeps : S3Call.KeepsRecords (.getObject region bucket key) := trivial
    rw [objectExists_of_call hkeeps h₅]
    exact hs.record
  obtain ⟨k', old, hget₅, hat₅⟩ := S3MemoryDb.objectExists_iff.mp hexists₅
  simp only [Object.isAt, decide_eq_true_eq] at hat₅
  obtain ⟨k₆, w₆, h₆, hget₆, hfiles₆⟩ := updateObject_run env rt
    { found with
      oid := k
      size := s.1.values.flatten.length
      md5sum := env.md5 (w₃.read (rt.fileName (s.2.calls + 1)))
      internalName := rt.fileName (s.2.calls + 1) }
    hget₅ (by simp [Object.isKeyed, hat, hat₅])
  refine Prog.establishes_of_only (A := S3Call.KeepsContents) h₆ ?_
    (fun c v r hc hv hr => HasContent.keep hv hc hr) ?_
  · refine ⟨k₆, _, hget₆, by simp [Object.isAt, hat], ?_, rfl, congrArg env.md5 hread⟩
    rw [hfiles₆, hfiles₅]
    exact hcontent
  · exact Prog.only_bind (startHashing_only (fun _ _ => ⟨rfl, rfl⟩) _ _) fun _ =>
      Prog.only_bind (Prog.only_perform ⟨rfl, rfl⟩) fun _ =>
        Prog.only_bind (checkNotifications_only (fun _ _ => ⟨rfl, rfl⟩) ⟨rfl, rfl⟩ (fun _ _ _ => ⟨rfl, rfl⟩)
          _ _ _ _ _) fun _ => Prog.only_pure _

/-- Whatever is uploaded to an upload, as long as every request fits, its completion stores an object whose
    content is what was uploaded last for each part, in the order of the parts, with its size and digest. -/
theorem multipart_content {earlier : List S3Request} {y : Except S3Error Unit}
    (hw : (session env earlier).run (exec env rt) {} = some (y, w))
    {request : CreateMultipartUploadRequest}
    (hcreate : (createMultipartUpload request).run (exec env rt) w = some (.ok uploadId, w'))
    {s : Uploaded × World}
    (hrun : Relation.ReflTransGen (Uploads env rt uploadId
      (S3Request.Fits env rt uploadId request.region request.bucket request.key)) (∅, w') s)
    (algorithm : Str) :
    (completeMultipartUpload env
      { region := request.region, bucket := request.bucket, key := request.key, uploadId := uploadId,
        checksumAlgorithm := algorithm }).Establishes (exec env rt)
      (HasContent env request.region request.bucket request.key s.1.values.flatten) s.2 := by
  obtain ⟨-, hstarted⟩ := (createMultipartUpload_starts request (session_uploadsDrawn earlier hw)).of_run hcreate
  obtain ⟨hdash, hget, hrecord⟩ := hstarted uploadId rfl
  have hfollows : (createMultipartUpload request).Follows (drafting True) _ .none :=
    createMultipartUpload_follows request
  have hwell : WellFormed rt w' :=
    wellFormed_of_follows hfollows (session_wellFormed earlier (wellFormed_empty rt) hw) hcreate
  have hstart : Uploading rt uploadId request.region request.bucket request.key (∅, w') := by
    refine ⟨hwell, hrecord, ∅, hget, ?_, ?_⟩
    · intro part content h
      cases h
    · intro name content
      simp
  have hs : Uploading rt uploadId request.region request.bucket request.key s := by
    induction hrun with
    | refl => exact hstart
    | tail _ hstep ih => exact ih.step hdash hstep
  exact hs.complete hdash algorithm

/-- A bucket. -/
def sampleBucketWorld : World :=
  (((session Env.sample [.createBucket { region := str "eu", name := str "b" }]).run
    (exec Env.sample .counting) {}).map Prod.snd).getD {}

theorem sampleBucketWorld_run : (session Env.sample [.createBucket { region := str "eu", name := str "b" }]).run
    (exec Env.sample .counting) {} = some (.ok (), sampleBucketWorld) := rfl

def sampleCreate : CreateMultipartUploadRequest where
  region := str "eu"
  bucket := str "b"
  key := str "k"

/-- An upload has been started. -/
def sampleUploading : World :=
  (((createMultipartUpload sampleCreate).run (exec Env.sample .counting) sampleBucketWorld).map Prod.snd).getD {}

/-- Its upload id. -/
def sampleUploadId : Str := Runtime.counting.uploadId 4

theorem sampleUploading_run : (createMultipartUpload sampleCreate).run (exec Env.sample .counting)
    sampleBucketWorld = some (.ok sampleUploadId, sampleUploading) := rfl

/-- The state after a request. -/
def sampleServed (s : Uploaded × World) (request : S3Request) : Uploaded × World :=
  (s.1.note (request.uploads Env.sample .counting s.2 sampleUploadId),
    (((serve Env.sample request).run (exec Env.sample .counting) s.2).map Prod.snd).getD {})

/-- The second part is uploaded before and after the first one, at last with a shorter content. -/
def sampleParts : Uploaded × World :=
  sampleServed (sampleServed (sampleServed (∅, sampleUploading) (.uploadPart (str "bcd") 10 sampleUploadId))
    (.uploadPart (str "a") 9 sampleUploadId)) (.uploadPart (str "e") 10 sampleUploadId)

theorem multipart_content_twice : sampleParts.1.values.flatten = str "ae" ∧
    (completeMultipartUpload Env.sample
      { region := str "eu", bucket := str "b", key := str "k", uploadId := sampleUploadId,
        checksumAlgorithm := [] }).Establishes (exec Env.sample .counting)
      (HasContent Env.sample (str "eu") (str "b") (str "k") sampleParts.1.values.flatten) sampleParts.2 := by
  have hstep : ∀ (s : Uploaded × World) (body : Str) (part : Int), 0 ≤ part →
      (body.all fun c => !isSpace c) = true → body.length ≤ sendfileLimit →
      Uploads Env.sample .counting sampleUploadId (S3Request.Fits Env.sample .counting sampleUploadId
        (str "eu") (str "b") (str "k")) s (sampleServed s (.uploadPart body part sampleUploadId)) :=
    fun s body part hpart hspace hshort => .serve _ (fun _ => ⟨hpart, fun c hc => by
      simpa using List.all_eq_true.mp hspace c hc, hshort⟩) rfl
  refine ⟨rfl, multipart_content sampleBucketWorld_run sampleUploading_run ?_ []⟩
  exact ((Relation.ReflTransGen.single (hstep _ _ _ (by decide) (by decide) (by decide))).tail
    (hstep _ _ _ (by decide) (by decide) (by decide))).tail (hstep _ _ _ (by decide) (by decide) (by decide))

/-- A part with a blank is uploaded. -/
def sampleBlank : Uploaded × World :=
  sampleServed (∅, sampleUploading) (.uploadPart (str "a b") 1 sampleUploadId)

def sampleComplete : CompleteMultipartUploadRequest where
  region := str "eu"
  bucket := str "b"
  key := str "k"
  uploadId := sampleUploadId

def sampleCompleted : World :=
  (((completeMultipartUpload Env.sample sampleComplete).run (exec Env.sample .counting)
    sampleBlank.2).map Prod.snd).getD {}

/-- The blank is lost. -/
theorem multipart_content_blank : ¬ ∀ s, Relation.ReflTransGen (Uploads Env.sample .counting sampleUploadId
      fun _ _ => True) (∅, sampleUploading) s →
    (completeMultipartUpload Env.sample sampleComplete).Establishes (exec Env.sample .counting)
      (HasContent Env.sample (str "eu") (str "b") (str "k") s.1.values.flatten) s.2 := by
  intro h
  have hserve : Uploads Env.sample .counting sampleUploadId (fun _ _ => True) (∅, sampleUploading)
      sampleBlank := .serve _ trivial rfl
  obtain ⟨k, object, hget, -, -, hsize, -⟩ :=
    (h _ (Relation.ReflTransGen.single hserve)).2 (.ok _) sampleCompleted rfl
  have hsizes : ∀ e ∈ sampleCompleted.db.objects.entries, e.2.size ≠ 3 := by decide
  exact hsizes _ (OrderedMap.get?_eq_some.mp hget) hsize

end AwsMock.S3
