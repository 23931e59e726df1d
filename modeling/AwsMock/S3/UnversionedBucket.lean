import AwsMock.S3.ChunkedUpload
import AwsMock.S3.Parts
import AwsMock.S3.Serving
import Mathlib.Logic.Relation

/-!
# Unversioned buckets

Requests on an unversioned bucket, beside a ledger of what the last successful request on each key has
left to be read. Only `PutObject` and `CompleteMultipartUpload` replace the record of a key; as long as
nothing is copied onto a key that has a record, and `UpdateObject` meets the record of the right region
first, each key keeps one record and is read as the ledger says.
-/

namespace AwsMock.S3

open Lib

/-- The requests that store, replace or delete objects of a bucket. -/
inductive BucketRequest
  | putObject (request : PutObjectRequest) (payload : Payload)
  | copyObject (request : CopyObjectRequest)
  | moveObject (request : CopyObjectRequest)
  | completeMultipartUpload (request : CompleteMultipartUploadRequest)
  | deleteObject (request : DeleteObjectRequest)

namespace BucketRequest

def toRequest : BucketRequest → S3Request
  | .putObject request payload => .putObject request payload.body payload.chunked.isSome
  | .copyObject request => .copyObject request
  | .moveObject request => .moveObject request
  | .completeMultipartUpload request => .completeMultipartUpload request
  | .deleteObject request => .deleteObject request

/-- The bucket it changes. -/
def On (region bucket : Str) : BucketRequest → Prop
  | .putObject request _ => request.region = region ∧ request.bucket = bucket
  | .copyObject request | .moveObject request => request.region = region ∧ request.targetBucket = bucket
  | .completeMultipartUpload request => request.region = region ∧ request.bucket = bucket
  | .deleteObject request => request.region = region ∧ request.bucket = bucket

def key : BucketRequest → Str
  | .putObject request _ => request.key
  | .copyObject request | .moveObject request => request.targetKey
  | .completeMultipartUpload request => request.key
  | .deleteObject request => request.key

end BucketRequest

/-! ### The ledger -/

structure Written where
  content : Str
  size : Int
  md5sum : Str

/-- What the last successful request on a key has left to be read. -/
inductive Latest
  | written (written : Written)
  | deleted

/-- The keys that were written or deleted. -/
abbrev Ledger := OrderedMap Str Latest

def Ledger.note (ledger : Ledger) (key : Str) : Option Latest → Ledger
  | some latest => ledger.insert key latest
  | none => ledger.eraseIf fun k _ => k = key

/-- The source of a copy. -/
def CopyObjectRequest.source (request : CopyObjectRequest) : GetObjectRequest where
  region := request.region
  bucket := request.sourceBucket
  key := request.sourceKey

/-- What a copy writes is what its source is read as. -/
def copied (env : Env) (rt : Runtime) (w : World) (request : CopyObjectRequest) : Option Latest :=
  match (handleGetObject request.source).run (exec env rt) w with
  | some (.ok (response, body), _) =>
    some (.written { content := body, size := response.size, md5sum := response.md5sum })
  | _ => none

/-- A content with its size and digest. -/
def Written.of (env : Env) (content : Str) : Written where
  content := content
  size := content.length
  md5sum := env.md5 content

/-- What a request writes when it succeeds. -/
def BucketRequest.writes (env : Env) (rt : Runtime) (w : World) : BucketRequest → Option Latest
  | .putObject _ payload => some (.written (.of env payload.content))
  | .copyObject request | .moveObject request => copied env rt w request
  | .completeMultipartUpload request =>
    (w.parts request.uploadId).map fun parts => .written (.of env parts.flatten)
  | .deleteObject _ => some .deleted

/-- A request is served, and the ledger notes its success. -/
inductive Serves (env : Env) (rt : Runtime) (P : World → BucketRequest → Prop) :
    Ledger × World → Ledger × World → Prop
  | ok {ledger : Ledger} {w w' : World} (request : BucketRequest) (hrequest : P w request)
      (hrun : (serve env request.toRequest).run (exec env rt) w = some (.ok (), w')) :
      Serves env rt P (ledger, w) (ledger.note request.key (request.writes env rt w), w')
  | error {ledger : Ledger} {w w' : World} {e : S3Error} (request : BucketRequest)
      (hrequest : P w request)
      (hrun : (serve env request.toRequest).run (exec env rt) w = some (.error e, w')) :
      Serves env rt P (ledger, w) (ledger, w')

/-- At most one record for each key of a bucket. -/
def UniqueKeys (region bucket : Str) (w : World) : Prop :=
  ∀ {key k k' object object'}, w.db.objects.get? k = some object → w.db.objects.get? k' = some object' →
    object.isAt region bucket key → object'.isAt region bucket key → k = k'

/-- `GetObject` answers as the ledger says. -/
def ReadsLatest (env : Env) (rt : Runtime) (region bucket : Str) (ledger : Ledger) (w : World) : Prop :=
  ∀ request : GetObjectRequest, request.region = region → request.bucket = bucket →
    match ledger.get? request.key with
    | some (.written written) => ∃ response w',
      (handleGetObject request).run (exec env rt) w = some (.ok (response, written.content), w') ∧
      response.size = written.size ∧ response.md5sum = written.md5sum
    | some .deleted => ∃ e w', (handleGetObject request).run (exec env rt) w = some (.error e, w')
    | none => True

/-! ### What goes well -/

/-- The first record of a bucket name and key, which `UpdateObject` replaces, is of the region. -/
def UpdatesOwn (region bucket key : Str) (objects : OrderedMap Str Object) : Prop :=
  ∀ it, (objects.findIf fun _ o => o.isKeyed bucket key) = some it → it.2.region = region

/-- The copy goes ahead: source bucket, source object and data file are there. -/
def CopyObjectRequest.Copies (w : World) (request : CopyObjectRequest) (bucket : Bucket) : Prop :=
  (w.db.bucketExists request.region request.sourceBucket) ∧ ∃ object,
    Finds w request.source bucket object ∧ (w.files.get? object.internalName).isSome

/-- The request takes none of the ways that go wrong. The hash task of a checksum runs beside later
    requests. -/
def BucketRequest.Sound (w : World) : BucketRequest → Prop
  | .putObject request payload => request.checksumAlgorithm = [] ∧ payload.Received ∧
    (w.db.objectExists request.region request.bucket request.key →
      UpdatesOwn request.region request.bucket request.key w.db.objects)
  | .copyObject request | .moveObject request => ∀ bucket, request.Copies w bucket →
    bucket.hasEncryption = false ∧
      w.db.objectExists request.region request.targetBucket request.targetKey = false
  | .completeMultipartUpload request => request.checksumAlgorithm = [] ∧
    w.db.objectExists request.region request.bucket request.key ∧
    UpdatesOwn request.region request.bucket request.key w.db.objects ∧
    ∀ parts, w.parts request.uploadId = some parts → ∀ part ∈ parts, part.length ≤ sendfileLimit
  | .deleteObject request => request.key ≠ []

/-- A request on the bucket that goes well, also with the other services. -/
def GoesWell (env : Env) (rt : Runtime) (region bucket : Str) (w : World) (request : BucketRequest) : Prop :=
  request.On region bucket ∧ request.Sound w ∧
    ¬ (serve env request.toRequest).Makes (exec env rt) (fun c w => failing rt c w = true) w

/-! ### What stays true -/

/-- The records and files are what the ledger says. -/
structure Matches (region bucket : Str) (ledger : Ledger) (w : World) : Prop where
  unique : UniqueKeys region bucket w
  written : ∀ {key written}, ledger.get? key = some (.written written) →
    ∃ k object, w.db.objects.get? k = some object ∧ object.isAt region bucket key ∧
      object.internalName ≠ [] ∧ w.files.get? object.internalName = some written.content ∧
      object.size = written.size ∧ object.md5sum = written.md5sum
  deleted : ∀ {key}, ledger.get? key = some .deleted →
    key ≠ [] ∧ w.db.objectExists region bucket key = false

variable {env : Env} {rt : Runtime} {w w' : World} {c : S3Call} {x : c.Reply}
  {region bucket key : Str} {ledger : Ledger}

theorem Matches.congr (hm : Matches region bucket ledger w) (hobjects : w'.db.objects = w.db.objects)
    (hfiles : ∀ {k object}, w.db.objects.get? k = some object → object.internalName ≠ [] →
      w'.files.get? object.internalName = w.files.get? object.internalName) :
    Matches region bucket ledger w' where
  unique := by
    unfold UniqueKeys
    rw [hobjects]
    exact hm.unique
  written h := by
    obtain ⟨k, object, hget, hat, hname, hfile, hrest⟩ := hm.written h
    exact ⟨k, object, hobjects ▸ hget, hat, hname, hfiles hget hname ▸ hfile, hrest⟩
  deleted h := by
    rw [S3MemoryDb.objectExists, hobjects]
    exact hm.deleted h

/-- A lookup writes the key of a record into it. -/
theorem Matches.look {k : Str} {object : Object} (hm : Matches region bucket ledger w)
    (hget : w.db.objects.get? k = some object)
    (hobjects : w'.db.objects = w.db.objects.insert k { object with oid := k })
    (hfiles : w'.files = w.files) : Matches region bucket ledger w' := by
  -- Every record has its counterpart under the same key.
  have hold : ∀ {k' o'}, w'.db.objects.get? k' = some o' →
      ∃ o, w.db.objects.get? k' = some o ∧ SameRecord o o' := by
    intro k' o' h
    rw [hobjects] at h
    by_cases hk : k' = k
    · subst hk
      rw [OrderedMap.get?_insert_self, Option.some.injEq] at h
      exact ⟨object, hget, by rw [← h]; rfl⟩
    · rw [OrderedMap.get?_insert_of_ne _ _ hk] at h
      exact ⟨o', h, .refl _⟩
  have hnew : ∀ {k' o}, w.db.objects.get? k' = some o →
      ∃ o', w'.db.objects.get? k' = some o' ∧ SameRecord o o' := by
    intro k' o h
    rw [hobjects]
    by_cases hk : k' = k
    · subst hk
      rw [hget, Option.some.injEq] at h
      exact ⟨_, OrderedMap.get?_insert_self _ _ _, by rw [← h]; rfl⟩
    · exact ⟨o, by rw [OrderedMap.get?_insert_of_ne _ _ hk]; exact h, .refl _⟩
  have hisAt : ∀ {o o' : Object} {key}, SameRecord o o' → o'.isAt region bucket key = o.isAt region bucket key :=
    fun h => by rw [h]; rfl
  refine ⟨?_, ?_, ?_⟩
  · intro key k k' o o' hk hk' hat hat'
    obtain ⟨p, hp, hsame⟩ := hold hk
    obtain ⟨p', hp', hsame'⟩ := hold hk'
    exact hm.unique hp hp' (hisAt hsame ▸ hat) (hisAt hsame' ▸ hat')
  · intro key written h
    obtain ⟨k', o, hk, hat, hname, hfile, hsize, hmd5⟩ := hm.written h
    obtain ⟨o', hk', hsame⟩ := hnew hk
    refine ⟨k', o', hk', hisAt hsame ▸ hat, ?_⟩
    rw [hsame, hfiles]
    exact ⟨hname, hfile, hsize, hmd5⟩
  · intro key h
    refine ⟨(hm.deleted h).1, objectExists_eq_false.mpr fun k' o' hk' => ?_⟩
    obtain ⟨o, hk, hsame⟩ := hold hk'
    rw [hisAt hsame]
    exact objectExists_eq_false.mp (hm.deleted h).2 k' o hk

instance : Stable (Matches region bucket ledger) where
  congr hobjects hfiles hm := hm.congr hobjects hfiles
  look hget hobjects hfiles hm := hm.look hget hobjects hfiles

/-- The record of a key is put, in the place of the one before it if there was one. -/
theorem Matches.put {k : Str} {object : Object} {written : Written}
    (hm : Matches region bucket ledger w) (hobjects : w'.db.objects = w.db.objects.insert k object)
    (hfiles : w'.files = w.files) (hat : object.isAt region bucket key) (hname : object.internalName ≠ [])
    (hfile : w.files.get? object.internalName = some written.content) (hsize : object.size = written.size)
    (hmd5 : object.md5sum = written.md5sum)
    (hothers : ∀ {k' o}, w.db.objects.get? k' = some o → o.isAt region bucket key → k' = k)
    (hreplaced : ∀ {o}, w.db.objects.get? k = some o → o.isAt region bucket key) :
    Matches region bucket (ledger.insert key (.written written)) w' := by
  -- A record of another key was there before.
  have hold : ∀ {k' o key'}, w'.db.objects.get? k' = some o → o.isAt region bucket key' → key' ≠ key →
      w.db.objects.get? k' = some o := by
    intro k' o key' h hat' hne
    rw [hobjects] at h
    by_cases hk : k' = k
    · subst hk
      rw [OrderedMap.get?_insert_self, Option.some.injEq] at h
      exact absurd (isAt_key hat' (h ▸ hat)) hne
    · rwa [OrderedMap.get?_insert_of_ne _ _ hk] at h
  have hat_k : ∀ {k' o}, w'.db.objects.get? k' = some o → o.isAt region bucket key → k' = k := by
    intro k' o h hat'
    by_contra hk
    rw [hobjects, OrderedMap.get?_insert_of_ne _ _ hk] at h
    exact hk (hothers h hat')
  refine ⟨?_, ?_, ?_⟩
  · intro key' k' k'' o o' h h' hat' hat''
    by_cases hkey : key' = key
    · subst hkey
      rw [hat_k h hat', hat_k h' hat'']
    · exact hm.unique (hold h hat' hkey) (hold h' hat'' hkey) hat' hat''
  · intro key' written' h
    rw [hobjects, hfiles]
    by_cases hkey : key' = key
    · subst hkey
      rw [OrderedMap.get?_insert_self, Option.some.injEq, Latest.written.injEq] at h
      subst h
      exact ⟨k, object, OrderedMap.get?_insert_self _ _ _, hat, hname, hfile, hsize, hmd5⟩
    · rw [OrderedMap.get?_insert_of_ne _ _ hkey] at h
      obtain ⟨k', o, hget, hat', hrest⟩ := hm.written h
      refine ⟨k', o, ?_, hat', hrest⟩
      rw [OrderedMap.get?_insert_of_ne _ _ ?_]
      · exact hget
      · rintro rfl
        exact hkey (isAt_key hat' (hreplaced hget))
  · intro key' h
    by_cases hkey : key' = key
    · subst hkey
      rw [OrderedMap.get?_insert_self] at h
      cases h
    · rw [OrderedMap.get?_insert_of_ne _ _ hkey] at h
      refine ⟨(hm.deleted h).1, objectExists_eq_false.mpr fun k' o hget => ?_⟩
      by_contra hat'
      rw [Bool.not_eq_false] at hat'
      rw [objectExists_eq_false.mp (hm.deleted h).2 k' o (hold hget hat' hkey)] at hat'
      cases hat'

/-- A key without a record is noted as deleted, with the records of other keys as before. -/
theorem Matches.delete (hm : Matches region bucket ledger w) (hkey : key ≠ [])
    (hgone : w'.db.objectExists region bucket key = false) (hfiles : w'.files = w.files)
    (hkept : ∀ {k o}, w'.db.objects.get? k = some o → w.db.objects.get? k = some o)
    (hothers : ∀ {k o key'}, w.db.objects.get? k = some o → o.isAt region bucket key' → key' ≠ key →
      w'.db.objects.get? k = some o) :
    Matches region bucket (ledger.insert key .deleted) w' := by
  refine ⟨?_, ?_, ?_⟩
  · intro key' k k' o o' h h' hat hat'
    exact hm.unique (hkept h) (hkept h') hat hat'
  · intro key' written h
    by_cases hk : key' = key
    · subst hk
      rw [OrderedMap.get?_insert_self] at h
      cases h
    · rw [OrderedMap.get?_insert_of_ne _ _ hk] at h
      obtain ⟨k, o, hget, hat, hrest⟩ := hm.written h
      rw [hfiles]
      exact ⟨k, o, hothers hget hat hk, hat, hrest⟩
  · intro key' h
    by_cases hk : key' = key
    · subst hk
      exact ⟨hkey, hgone⟩
    · rw [OrderedMap.get?_insert_of_ne _ _ hk] at h
      refine ⟨(hm.deleted h).1, objectExists_eq_false.mpr fun k o hget => ?_⟩
      exact objectExists_eq_false.mp (hm.deleted h).2 k o (hkept hget)

/-- What is noted of a key can be forgotten. -/
theorem Matches.forget {latest : Latest} (hm : Matches region bucket (ledger.insert key latest) w)
    (hnone : ledger.get? key = none) : Matches region bucket ledger w := by
  have hget : ∀ {key' latest'}, ledger.get? key' = some latest' →
      (ledger.insert key latest).get? key' = some latest' := by
    intro key' latest' h
    rw [OrderedMap.get?_insert_of_ne _ _ ?_, h]
    rintro rfl
    rw [hnone] at h
    cases h
  exact ⟨hm.unique, fun h => hm.written (hget h), fun h => hm.deleted (hget h)⟩

/-- `DeleteObject` deletes a key in the ledger. -/
theorem matches_deletes (hkey : key ≠ []) : Deletes region bucket key (Matches region bucket ledger)
    (Matches region bucket (ledger.insert key .deleted)) where
  missing hm hgone := hm.delete hkey hgone rfl id fun hget _ _ => hget
  erase {w w'} hm hobjects hfiles := by
    have hget : ∀ {k o}, w'.db.objects.get? k = some o ↔
        w.db.objects.get? k = some o ∧ o.isKeyed bucket key = false := by
      intro k o
      rw [hobjects, OrderedMap.get?_eraseIf, Option.filter_eq_some_iff, Bool.not_eq_true']
    refine hm.delete hkey ?_ hfiles (fun h' => (hget.mp h').1) ?_
    · refine objectExists_eq_false.mpr fun k' o h' => ?_
      by_contra hat'
      rw [Bool.not_eq_false] at hat'
      exact (isKeyed_of_isAt hat').mp (hget.mp h').2 rfl
    · intro k' o key' hget' hat' hne
      exact hget.mpr ⟨hget', (isKeyed_of_isAt hat').mpr hne⟩
  back {w w' k found} hm hit hname hm' := by
    -- The record of a key that was written has a data file.
    obtain ⟨hget, hat⟩ := OrderedMap.findIf_some hit
    refine hm'.forget ?_
    rcases hl : ledger.get? key with _ | ⟨written⟩ | _
    · rfl
    · obtain ⟨k', o, hget', hat', hname', -⟩ := hm.written hl
      obtain rfl := hm.unique hget hget' hat hat'
      rw [hget, Option.some.injEq] at hget'
      exact absurd (hget' ▸ hname) hname'
    · rw [objectExists_eq_false.mp (hm.deleted hl).2 k found hget] at hat
      cases hat

/-! ### The requests, one call at a time -/

abbrev Serving (rt : Runtime) (region bucket : Str) (ledger : Ledger) :=
  Midway rt region bucket false (Matches region bucket ledger)

/-- Between two requests. -/
abbrev Current (rt : Runtime) (region bucket : Str) (ledger : Ledger) :=
  Settled rt region bucket false (Matches region bucket ledger)

variable {frame : OrderedMap Str Object → Prop} {draft : Draft} {content : Str}

/-- The record of the written file is put. -/
theorem Midway.put {k : Str} {object stored : Object} {written : Written}
    (hm : Serving rt region bucket ledger frame (.written object.internalName) content w)
    (h : exec env rt c w = some (x, w')) (hc : c = .createObject object ∨ c = .updateObject object)
    (hobjects : w'.db.objects = w.db.objects.insert k stored) (hstored : SameRecord object stored)
    (hat : object.isAt region bucket key) (hcontent : content = written.content)
    (hsize : object.size = written.size) (hmd5 : object.md5sum = written.md5sum)
    (hothers : ∀ {k' o}, w.db.objects.get? k' = some o → o.isAt region bucket key → k' = k)
    (hreplaced : ∀ {o}, w.db.objects.get? k = some o → o.isAt region bucket key) :
    Current rt region bucket (ledger.insert key (.written written)) w' := by
  have hkinds : Draft.law True (.written object.internalName) c ∧ c.touchesFiles = false ∧
      c.touchesBuckets = false := by
    rcases hc with rfl | rfl
    · exact ⟨Or.inr rfl, rfl, rfl⟩
    · exact ⟨Or.inr rfl, rfl, rfl⟩
  obtain ⟨hlaw, hfiles, hbuckets⟩ := hkinds
  refine ⟨.step hm.drafting h hlaw, hasSettings_of_call hbuckets h hm.settings, ?_⟩
  have hfile := hm.file rfl
  have hname := hm.drafting.2.ne
  rw [hcontent] at hfile
  rw [hstored] at hobjects
  exact hm.kept.put hobjects (files_of_call hfiles h) hat hname hfile hsize hmd5 hothers hreplaced

/-- A record is created where the key has none. -/
theorem Midway.create {object : Object} (key : Str) (written : Written)
    (hm : Serving rt region bucket ledger frame (.written object.internalName) content w) {reply : Object}
    (h : exec env rt (.createObject object) w = some (reply, w'))
    (hat : object.isAt region bucket key) (hcontent : content = written.content)
    (hsize : object.size = written.size) (hmd5 : object.md5sum = written.md5sum)
    (hnew : w.db.objectExists region bucket key = false) :
    Current rt region bucket (ledger.insert key (.written written)) w' := by
  obtain ⟨v, hv, hw'⟩ := exec_eq_some.mp h
  simp only [S3Call.apply, S3MemoryDb.createObject_eq, Option.some.injEq, Prod.mk.injEq] at hv
  have hobjects : w'.db.objects =
      w.db.objects.insert (rt.uuid w.calls) { object with oid := rt.uuid w.calls } := by rw [hw', ← hv.2]
  refine hm.put h (Or.inl rfl) hobjects rfl hat hcontent hsize hmd5 ?_ ?_
  · intro k' o hget hat'
    rw [objectExists_eq_false.mp hnew k' o hget] at hat'
    cases hat'
  · intro o hget
    rw [hm.drafting.wellFormed.drawn.fresh_object] at hget
    cases hget

/-- The record of a key is replaced, if it is the one that `UpdateObject` meets first. -/
theorem Midway.update {object : Object} (key : Str) (written : Written)
    (hm : Serving rt region bucket ledger frame (.written object.internalName) content w) {reply : Object}
    (h : exec env rt (.updateObject object) w = some (reply, w'))
    (hat : object.isAt region bucket key) (hcontent : content = written.content)
    (hsize : object.size = written.size) (hmd5 : object.md5sum = written.md5sum)
    (hown : UpdatesOwn region bucket key w.db.objects) :
    Current rt region bucket (ledger.insert key (.written written)) w' := by
  obtain ⟨v, hv, hw'⟩ := exec_eq_some.mp h
  obtain ⟨y, hy, he⟩ := Option.map_eq_some_iff.mp hv
  obtain ⟨it, hit, rfl⟩ := Option.map_eq_some_iff.mp hy
  have hobjects : w'.db.objects = w.db.objects.insert it.1 object := by
    rw [hw']
    cases he
    rfl
  simp only [Object.isAt, decide_eq_true_eq] at hat
  rw [hat.2.1, hat.2.2] at hit
  obtain ⟨hget, hkeyed⟩ := OrderedMap.findIf_some hit
  simp only [Object.isKeyed, decide_eq_true_eq] at hkeyed
  have hitAt : it.2.isAt region bucket key := by
    simp only [Object.isAt, decide_eq_true_eq]
    exact ⟨hown it hit, hkeyed⟩
  refine hm.put h (Or.inr rfl) hobjects rfl ?_ hcontent hsize hmd5 ?_ ?_
  · simpa only [Object.isAt, decide_eq_true_eq] using hat
  · intro k' o hget' hat'
    exact hm.kept.unique hget' hget hat' hitAt
  · intro o hget'
    rw [hget, Option.some.injEq] at hget'
    exact hget' ▸ hitAt

section Programs

variable {failed : World → Prop}

/-- The record of the written file is put, one way or the other. -/
theorem createOrUpdateObject_ends {object : Object} (written : Written)
    (hm : Serving rt object.region object.bucket ledger
      (fun objects => ∀ w : World, w.db.objects = objects →
        w.db.objectExists object.region object.bucket object.key →
          UpdatesOwn object.region object.bucket object.key objects)
      (.written object.internalName) content w)
    (hcontent : content = written.content) (hsize : object.size = written.size)
    (hmd5 : object.md5sum = written.md5sum) :
    Ends env rt (fun _ => Current rt object.region object.bucket (ledger.insert object.key (.written written)))
      failed (createOrUpdateObject object) w := by
  have hat : object.isAt object.region object.bucket object.key := by simp [Object.isAt]
  refine hm.next trivial fun exists_ w₁ h hm => ?_
  have hreply : exists_ = w₁.db.objectExists object.region object.bucket object.key := by
    obtain ⟨v, hv, rfl⟩ := exec_eq_some.mp h
    cases hv
    rfl
  subst hreply
  split
  · next hexists =>
    refine ⟨trivial, fun r hr => ?_⟩
    have hr := (Prog.without_eq_some.mp hr).2
    exact hm.update _ _ hr hat hcontent hsize hmd5 (hm.found w₁ rfl hexists)
  · next hnew =>
    refine ⟨trivial, fun r hr => ?_⟩
    have hr := (Prog.without_eq_some.mp hr).2
    exact hm.create _ _ hr hat hcontent hsize hmd5 (by simpa using hnew)

/-- The content of a payload is received. -/
theorem receiveContent_ends {payload : Payload} (hpayload : payload.Received)
    (hm : Serving rt region bucket ledger frame draft content w) :
    Prog.Ensures (Prog.without (exec env rt) (failing rt)) (fun _ _ => True)
      (fun y w' => y = .ok payload.content ∧ Serving rt region bucket ledger frame draft content w')
      (receiveContent payload.body payload.chunked.isSome) w := by
  rcases hchunked : payload.chunked with _ | e
  · simp only [Payload.body, hchunked, Option.isSome_none, receiveContent]
    exact ⟨rfl, hm⟩
  · simp only [Payload.body, hchunked, Option.isSome_some]
    have hok : ∃ w', (receiveContent e.body true).run (exec env rt) w =
        some (.ok payload.content, w') := (receiveContent_ok_iff e w).mpr (hpayload e hchunked)
    obtain ⟨v, hv⟩ := hok
    have hpass : (receiveContent e.body true).Only Passing := receiveContent_only (fun _ => trivial) _ _
    refine (hm.ends hpass).attained.mono ?_
    rintro y w' ⟨hy, hrun⟩
    rw [Prog.run_of_without hrun] at hv
    cases hv
    exact ⟨rfl, hy⟩

theorem saveUnversionedObject_ends {request : PutObjectRequest} {payload : Payload} {entity : Bucket}
    (hs : Current rt request.region request.bucket ledger w) (hencrypted : entity.hasEncryption = false)
    (hpayload : payload.Received)
    (hown : w.db.objectExists request.region request.bucket request.key →
      UpdatesOwn request.region request.bucket request.key w.db.objects) :
    Ends env rt (fun _ => Current rt request.region request.bucket
        (ledger.insert request.key (.written (.of env payload.content))))
      (Current rt request.region request.bucket ledger)
      (saveUnversionedObject env request entity payload.body payload.chunked.isSome) w := by
  have hm : Serving rt request.region request.bucket ledger (fun objects => ∀ w : World,
      w.db.objects = objects → w.db.objectExists request.region request.bucket request.key →
        UpdatesOwn request.region request.bucket request.key objects) .none [] w := by
    refine hs.midway fun v hv hexists => hown ?_
    rwa [S3MemoryDb.objectExists, hv] at hexists
  refine ends_call fun fileName w₁ h _ => ?_
  refine Prog.ensures_bind_of (receiveContent_ends hpayload (hm.draw h)) ?_ ?_
  swap
  · rintro e w' ⟨⟨⟩, -⟩
  rintro _ w₂ ⟨⟨⟩, hm⟩
  refine ends_call fun _ w₃ h _ => ?_
  have hfiles : w₃.files = w₂.files.insert fileName payload.content := by
    obtain ⟨v, hv, rfl⟩ := exec_eq_some.mp h
    cases hv
    rfl
  have hm := hm.write h rfl hfiles
  refine hm.fileSize fun w₄ hm => ?_
  refine hm.next trivial fun now w₅ _ hm => ?_
  refine hm.readFile fun w₆ hm => ?_
  refine hm.hash _ _ fun w₇ hm => ?_
  refine ends_bind (createOrUpdateObject_ends (.of env payload.content) hm rfl rfl rfl) fun object w₈ hs => ?_
  refine ends_bind (checkEncryption_ends object hencrypted hs) fun _ w₉ hs => ?_
  refine ends_bind (checkNotifications_ends _ _ _ _ _ hs) fun _ w₁₀ hs => ?_
  exact hs

theorem putObject_ends {request : PutObjectRequest} {payload : Payload}
    (hs : Current rt request.region request.bucket ledger w) (hpayload : payload.Received)
    (hown : w.db.objectExists request.region request.bucket request.key →
      UpdatesOwn request.region request.bucket request.key w.db.objects) :
    Ends env rt (fun _ => Current rt request.region request.bucket
        (ledger.insert request.key (.written (.of env payload.content))))
      (Current rt request.region request.bucket ledger)
      (putObject env request payload.body payload.chunked.isSome) w := by
  have hm : Serving rt request.region request.bucket ledger (fun objects => objects = w.db.objects) .none
    [] w := hs.midway rfl
  refine hm.next trivial fun exists_ w₁ _ hm => ?_
  split
  swap
  · exact hm.settled
  refine ends_guarded (ends_call fun entity w₂ h _ => ?_)
  obtain ⟨hversioned, hencrypted⟩ := hasSettings_lookup hm.settings h
  have hm := hm.pass h trivial
  rw [if_neg (by simp [hversioned])]
  refine saveUnversionedObject_ends hm.settled hencrypted hpayload fun hexists => ?_
  rw [hm.found]
  refine hown ?_
  rwa [S3MemoryDb.objectExists, hm.found] at hexists

/-- What a copy that goes ahead writes. -/
theorem copied_eq {request : CopyObjectRequest} {source : Bucket} {object : Object} {content : Str}
    (hfinds : Finds w request.source source object) (hencrypted : source.hasEncryption = false)
    (hfile : w.files.get? object.internalName = some content) :
    copied env rt w request =
      some (.written { content := content, size := object.size, md5sum := object.md5sum }) := by
  obtain ⟨response, w', hrun, hsize, hmd5⟩ := handleGetObject_run env rt hfinds (fun _ => rfl) hfile
  rw [hencrypted, if_neg (by simp)] at hrun
  simp only [copied, hrun, hsize, hmd5]

theorem copyTo_ends {missingTarget : S3Error} {request : CopyObjectRequest}
    (hs : Current rt request.region request.targetBucket ledger w)
    (hsound : ∀ bucket, request.Copies w bucket → bucket.hasEncryption = false ∧
      w.db.objectExists request.region request.targetBucket request.targetKey = false) :
    Ends env rt (fun _ => Current rt request.region request.targetBucket
        (ledger.note request.targetKey (copied env rt w request)))
      (Current rt request.region request.targetBucket ledger) (copyTo missingTarget request) w := by
  -- The records are those at the start until the source is looked up.
  have hm : Serving rt request.region request.targetBucket ledger (fun objects => objects = w.db.objects)
    .none [] w := hs.midway rfl
  refine ends_call fun exists_ w₁ h₁ _ => ?_
  have hm₁ := hm.pass h₁ trivial
  split
  swap
  · exact hm₁.settled
  rename_i hbucket
  refine ends_call fun exists_ w₂ h₂ _ => ?_
  have hm₂ := hm₁.pass h₂ trivial
  split
  swap
  · exact hm₂.settled
  rename_i hobject
  refine ends_guarded (ends_call fun exists_ w₃ h₃ _ => ?_)
  have hm₃ := hm₂.pass h₃ trivial
  split
  swap
  · exact hm₃.settled
  refine ends_call fun targetBucket w₄ h₄ _ => ?_
  obtain ⟨hversioned, -⟩ := hasSettings_lookup hm₃.settings h₄
  have hm₄ := hm₃.pass h₄ trivial
  have hsource : w₄.db.objectExists request.region request.sourceBucket request.sourceKey := by
    obtain ⟨v, hv, -⟩ := exec_eq_some.mp h₂
    have hreply := (Prod.mk.inj (Option.some.inj hv)).1
    rw [hobject, S3MemoryDb.objectExists, hm₁.found] at hreply
    rw [S3MemoryDb.objectExists, hm₄.found, hreply]
  refine ends_call fun sourceObject w₅ h₅ _ => ?_
  obtain ⟨k, object, hit, rfl, hobjects, hfiles, hframe⟩ := hm₄.look h₅ hsource
  rw [hm₄.found] at hit hobjects
  have hfiles : w₅.files = w.files := by
    rw [hfiles, files_of_call rfl h₄, files_of_call rfl h₃, files_of_call rfl h₂, files_of_call rfl h₁]
  -- With the file there, the copy goes ahead onto a key without a record.
  obtain ⟨⟨kb, source⟩, hsourceBucket⟩ : ∃ it, (w.db.buckets.findIf fun _ b =>
      b.isNamed request.region request.sourceBucket) = some it := by
    obtain ⟨v, hv, -⟩ := exec_eq_some.mp h₁
    have hreply := (Prod.mk.inj (Option.some.inj hv)).1
    rw [hbucket] at hreply
    exact Option.isSome_iff_exists.mp hreply
  have hfinds : Finds w request.source source object := ⟨⟨kb, hsourceBucket⟩, k, hit⟩
  have hcopies : (w.files.get? object.internalName).isSome → source.hasEncryption = false ∧
      w₅.db.objectExists request.region request.targetBucket request.targetKey = false := by
    intro hfile
    have hexists : w.db.bucketExists request.region request.sourceBucket := by
      rw [S3MemoryDb.bucketExists, hsourceBucket]
      rfl
    obtain ⟨hencrypted, hnew⟩ := hsound source ⟨hexists, object, hfinds, hfile⟩
    refine ⟨hencrypted, ?_⟩
    have hsame : (w.db.objects.insert k { object with oid := k }).findIf
        (fun _ o => o.isAt request.region request.targetBucket request.targetKey) = _ :=
      OrderedMap.findIf_insert_of_same (OrderedMap.findIf_some hit).1 rfl
    rw [S3MemoryDb.objectExists, Option.isSome_eq_false_iff, Option.isNone_iff_eq_none] at hnew
    rw [S3MemoryDb.objectExists, hobjects, hsame, hnew]
    rfl
  have hm₅ : Serving rt request.region request.targetBucket ledger
      (fun objects => objects = w₅.db.objects) .none [] w₅ := hframe rfl
  refine ends_call fun targetFile w₆ h₆ _ => ?_
  have hm₆ := hm₅.draw h₆
  refine ends_call fun result w₇ h₇ _ => ?_
  rcases hfile : w₆.files.get? object.internalName with _ | content
  · obtain ⟨rfl, hfiles₇⟩ := copyTo_missing hfile h₇
    have hlaw : Draft.law True (.drawn targetFile) (.copyTo object.internalName targetFile) := rfl
    exact ⟨.step hm₆.drafting h₇ hlaw, hasSettings_of_call rfl h₇ hm₆.settings,
      hm₆.kept.congr (objects_eq_of_call rfl h₇) fun _ _ => by rw [hfiles₇]⟩
  · obtain ⟨rfl, hfiles₇⟩ := copyTo_run hfile h₇
    have hm₇ := hm₆.write h₇ rfl hfiles₇
    rw [files_of_call rfl h₆, hfiles] at hfile
    obtain ⟨hencrypted, hnew⟩ := hcopies (by rw [hfile]; rfl)
    rw [copied_eq hfinds hencrypted hfile]
    refine hm₇.next trivial fun now w₈ _ hm₈ => ?_
    dsimp only
    rw [if_neg (by simp [hversioned])]
    refine ends_call fun targetObject w₉ h₉ _ => ?_
    have hnew₈ : w₈.db.objectExists request.region request.targetBucket request.targetKey = false := by
      rw [S3MemoryDb.objectExists, hm₈.found]
      exact hnew
    have hs₉ := hm₈.create request.targetKey
      { content := content, size := object.size, md5sum := object.md5sum } h₉ (by simp [Object.isAt]) rfl
      rfl rfl hnew₈
    refine ends_bind (checkNotifications_ends _ _ _ _ _ hs₉) fun _ w₁₀ hs => ?_
    exact hs

theorem completeMultipartUpload_ends {request : CompleteMultipartUploadRequest}
    (hs : Current rt request.region request.bucket ledger w)
    (hexists : w.db.objectExists request.region request.bucket request.key)
    (hown : UpdatesOwn request.region request.bucket request.key w.db.objects)
    (hshort : ∀ parts, w.parts request.uploadId = some parts → ∀ part ∈ parts,
      part.length ≤ sendfileLimit) :
    Ends env rt (fun _ => Current rt request.region request.bucket (ledger.note request.key
        ((w.parts request.uploadId).map fun parts => .written (.of env parts.flatten))))
      (Current rt request.region request.bucket ledger) (completeMultipartUpload env request) w := by
  have hm : Serving rt request.region request.bucket ledger (fun objects => objects = w.db.objects) .none
    [] w := hs.midway rfl
  refine ends_call fun listed w₁ h₁ _ => ?_
  have hm₁ := hm.pass h₁ trivial
  obtain ⟨huploads₁, hlisted⟩ := listParts_run h₁
  rcases listed with e | names
  · exact hm₁.settled
  obtain ⟨hparts, hthere⟩ := hlisted names rfl
  rw [hparts]
  refine ends_call fun filename w₂ h₂ _ => ?_
  have hm₂ := hm₁.draw h₂
  have huploads₂ : w₂.uploads = w.uploads := by
    obtain ⟨v, hv, rfl⟩ := exec_eq_some.mp h₂
    cases hv
    exact huploads₁
  have hdirectory : w₂.directory request.uploadId = w.directory request.uploadId := by
    rw [World.directory, huploads₂]
    rfl
  refine ends_call fun fileSize w₃ h₃ _ => ?_
  -- The parts are appended to a new file.
  have hfresh : w₂.files.get? filename = none := by
    rw [Option.eq_none_iff_forall_ne_some]
    intro content hfile
    obtain ⟨i, -, hname⟩ := hm₂.drafting.2.1.drawn
    exact hm₂.drafting.2.2 hfile (by rw [hname, dataFileOf_fileName])
  have hparts₂ : ∀ name ∈ names, ∃ content,
      (w₂.directory request.uploadId).get? name = some content ∧ content.length ≤ sendfileLimit := by
    intro name hname
    obtain ⟨content, hget⟩ := hthere name hname
    refine ⟨content, by rw [hdirectory, hget], ?_⟩
    refine hshort _ hparts content (List.mem_map.mpr ⟨name, hname, ?_⟩)
    rw [hget]
    rfl
  obtain ⟨hsize, hfiles⟩ := appendParts_run h₃ hfresh hparts₂
  rw [hdirectory] at hsize hfiles
  generalize (names.map fun name => ((w.directory request.uploadId).get? name).getD []) = parts at *
  have hm₃ := hm₂.write h₃ rfl hfiles
  refine hm₃.readFile fun w₄ hm₄ => ?_
  refine ends_call fun object w₅ h₅ _ => ?_
  have hexists₄ : w₄.db.objectExists request.region request.bucket request.key := by
    rw [S3MemoryDb.objectExists, hm₄.found]
    exact hexists
  obtain ⟨k, found, hit, rfl, hobjects, -, hframe⟩ := hm₄.look h₅ hexists₄
  have hm₅ : Serving rt request.region request.bucket ledger
      (UpdatesOwn request.region request.bucket request.key) (.written filename) parts.flatten w₅ := by
    refine hframe fun it h => ?_
    have hsame : (w₄.db.objects.insert k { found with oid := k }).findIf
        (fun _ o => o.isKeyed request.bucket request.key) = _ :=
      OrderedMap.findIf_insert_of_same (OrderedMap.findIf_some hit).1 rfl
    rw [hobjects, hsame, hm₄.found] at h
    obtain ⟨old, hold, he⟩ := Option.map_eq_some_iff.mp h
    rw [← he]
    split
    · have hat := (OrderedMap.findIf_some hit).2
      simp only [Object.isAt, decide_eq_true_eq] at hat
      exact hat.1
    · exact hown old hold
  refine ends_call fun object w₆ h₆ _ => ?_
  have hat : found.isAt request.region request.bucket request.key := (OrderedMap.findIf_some hit).2
  have hs₆ := hm₅.update request.key (.of env parts.flatten) h₆ hat rfl hsize rfl hm₅.found
  have hm₆ : Serving rt request.region request.bucket _ (fun _ => True) .none [] w₆ := hs₆.midway trivial
  refine hm₆.hash _ _ fun w₇ hm₇ => ?_
  refine hm₇.next trivial fun _ w₈ _ hm₈ => ?_
  exact ends_bind (checkNotifications_ends _ _ _ _ _ hm₈.settled) fun _ w₉ hs => hs

theorem serve_ends {request : BucketRequest} (hs : Current rt region bucket ledger w)
    (hon : request.On region bucket) (hsound : request.Sound w) :
    Ends env rt (fun _ => Current rt region bucket (ledger.note request.key (request.writes env rt w)))
      (Current rt region bucket ledger) (serve env request.toRequest) w := by
  cases request with
  | putObject request payload =>
    obtain ⟨rfl, rfl⟩ := hon
    obtain ⟨-, hpayload, hown⟩ := hsound
    exact ends_ignored (putObject_ends hs hpayload hown)
  | copyObject request | moveObject request =>
    obtain ⟨rfl, rfl⟩ := hon
    exact ends_ignored (copyTo_ends hs hsound)
  | completeMultipartUpload request =>
    obtain ⟨rfl, rfl⟩ := hon
    obtain ⟨-, hexists, hown, hshort⟩ := hsound
    exact ends_ignored (completeMultipartUpload_ends hs hexists hown hshort)
  | deleteObject request =>
    obtain ⟨rfl, rfl⟩ := hon
    exact deleteObject_ends hs (matches_deletes hsound)

end Programs

/-! ### Runs -/

/-- A request that goes well keeps the ledger right. -/
theorem Settled.step {s s' : Ledger × World} (hs : Current rt region bucket s.1 s.2)
    (h : Serves env rt (GoesWell env rt region bucket) s s') : Current rt region bucket s'.1 s'.2 := by
  have hend : ∀ {ledger : Ledger} {w w' : World} {request : BucketRequest} {y : Except S3Error Unit},
      Current rt region bucket ledger w → GoesWell env rt region bucket w request →
      (serve env request.toRequest).run (exec env rt) w = some (y, w') →
      Outcome (fun _ => Current rt region bucket (ledger.note request.key (request.writes env rt w)))
        (Current rt region bucket ledger) y w' := by
    intro ledger w w' request y hs ⟨hon, hsound, hmakes⟩ hrun
    rw [← Prog.run_without hmakes] at hrun
    exact (serve_ends hs hon hsound).of_run hrun
  cases h with
  | ok request hrequest hrun => exact hend hs hrequest hrun
  | error request hrequest hrun => exact hend hs hrequest hrun

/-- Of a key that was written, the record is found. -/
theorem Settled.finds {written : Written} (hs : Current rt region bucket ledger w)
    (h : ledger.get? key = some (.written written)) {request : GetObjectRequest}
    (hregion : request.region = region) (hbucket : request.bucket = bucket) (hkey : request.key = key) :
    ∃ entity object, Finds w request entity object ∧ entity.isVersioned = false ∧
      entity.hasEncryption = false ∧ w.files.get? object.internalName = some written.content ∧
      object.size = written.size ∧ object.md5sum = written.md5sum := by
  obtain ⟨k, object, hget, hat, -, hrest⟩ := hs.kept.written h
  obtain ⟨kb, entity, hfind, hversioned, hencrypted⟩ := hs.settings
  subst hregion hbucket hkey
  refine ⟨entity, object, ⟨⟨kb, hfind⟩, k, ?_⟩, hversioned, hencrypted, hrest⟩
  exact OrderedMap.findIf_unique hget hat fun k' o hget' hat' => hs.kept.unique hget' hget hat' hat

theorem Settled.readsLatest (hs : Current rt region bucket ledger w) :
    ReadsLatest env rt region bucket ledger w := by
  intro request hregion hbucket
  rcases h : ledger.get? request.key with _ | ⟨written⟩ | _
  · trivial
  · obtain ⟨entity, object, hfinds, hversioned, hencrypted, hfile, hsize, hmd5⟩ :=
      hs.finds h hregion hbucket rfl
    obtain ⟨response, w', hrun, hsize', hmd5'⟩ :=
      handleGetObject_run env rt hfinds (by simp [hversioned]) hfile
    rw [hencrypted, if_neg (by simp)] at hrun
    exact ⟨response, w', hrun, hsize'.trans hsize, hmd5'.trans hmd5⟩
  · obtain ⟨hkey, hmissing⟩ := hs.kept.deleted h
    subst hregion hbucket
    exact handleGetObject_missing env rt hs.settings.exists hkey hmissing

/-- An empty bucket. -/
def sampleStart : World :=
  (((session Env.sample [.createBucket { region := str "eu", name := str "b" }]).run
    (exec Env.sample .counting) {}).map Prod.snd).getD {}

theorem sampleStart_run : (session Env.sample [.createBucket { region := str "eu", name := str "b" }]).run
    (exec Env.sample .counting) {} = some (.ok (), sampleStart) := rfl

def samplePut (key content : Str) : BucketRequest :=
  .putObject { region := str "eu", bucket := str "b", key := key } { content := content }

/-- The state after a request that succeeds. -/
def sampleNext (s : Ledger × World) (request : BucketRequest) : Ledger × World :=
  (s.1.note request.key (request.writes Env.sample .counting s.2),
    (((serve Env.sample request.toRequest).run (exec Env.sample .counting) s.2).map Prod.snd).getD {})

theorem sampleStart_settings : HasSettings (str "eu") (str "b") false false sampleStart :=
  ⟨_, _, rfl, rfl, rfl⟩

theorem sampleStart_unique : UniqueKeys (str "eu") (str "b") sampleStart :=
  fun h => nomatch (h : (∅ : OrderedMap Str Object).get? _ = some _)

/-- In the counting runtime no service fails. -/
theorem goesWell_counting {w : World} {request : BucketRequest} {region bucket : Str}
    (hon : request.On region bucket) (hsound : request.Sound w) :
    GoesWell Env.sample .counting region bucket w request := by
  refine ⟨hon, hsound, Prog.not_makes fun c v => ?_⟩
  cases c <;> simp [failing, Runtime.counting, Except.isOk, Except.toBool]

end AwsMock.S3
