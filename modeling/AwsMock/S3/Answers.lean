import AwsMock.S3.Reads

/-!
# What a store answers

`HeadObject` and the listing of a bucket, beside `GetObject`. Stores that are alike, apart from the keys
that lookups write into records, answer alike.
-/

namespace AwsMock.S3

open Lib

/-! ### Metadata and listings -/

structure GetMetadataRequest where
  region : Str
  bucket : Str
  key : Str := []

structure GetMetadataResponse where
  region : Str := []
  bucket : Str
  key : Str := []
  md5Sum : Str := []
  contentType : Str := []
  size : Int := 0
  metadata : OrderedMap Str Str := ∅
  created : TimePoint
  modified : TimePoint
  deriving DecidableEq

def getBucketMetadata (request : GetMetadataRequest) : S3Prog GetMetadataResponse := do
  if ← call (.bucketExists request.region request.bucket) then guarded do
    let bucket ← call (.getBucketByRegionName request.region request.bucket)
    return { region := bucket.region, bucket := bucket.name, created := bucket.created,
             modified := bucket.modified }
  else .throw bucketDoesNotExist

/-- The part of `GetObjectMetadata` after its checks. -/
def fetchMetadata (request : GetMetadataRequest) : S3Prog GetMetadataResponse := do
  let object ← call (.getObject request.region request.bucket request.key)
  return { bucket := object.bucket, key := object.key, md5Sum := object.md5sum,
           contentType := object.contentType, size := object.size, metadata := object.metadata,
           created := object.created, modified := object.modified }

def getObjectMetadata (request : GetMetadataRequest) : S3Prog GetMetadataResponse := do
  if ← call (.bucketExists request.region request.bucket) then
    if request.key = [] then guarded (fetchMetadata request)
    else if ← call (.objectExists request.region request.bucket request.key) then
      guarded (fetchMetadata request)
    else .throw (.notFoundException (str "Object does not exist"))
  else .throw bucketDoesNotExist

/-- The handler of a `HeadObject`: without a key the bucket is meant. -/
def handleHeadObject (request : GetMetadataRequest) : S3Prog GetMetadataResponse :=
  if request.key = [] then getBucketMetadata request else getObjectMetadata request

/-- A row of a listing; the time is formatted later. -/
structure Content where
  key : Str
  etag : Str
  size : Int
  owner : Str
  lastModified : TimePoint
  deriving DecidableEq

/-- `ListBucket`: it looks into the store once. -/
def listBucket (w : World) (name keyPrefix : Str) : List Content :=
  (w.db.listBucket name keyPrefix).map fun object =>
    { key := object.key, etag := object.md5sum, size := object.size, owner := object.owner,
      lastModified := object.modified }

/-! ### Stores that are alike -/

/-- Without the key that lookups write into it. -/
def Object.bare (object : Object) : Object := { object with oid := [] }

def Bucket.bare (bucket : Bucket) : Bucket := { bucket with oid := [] }

/-- The same buckets and records, apart from those keys, and the same data files. -/
structure Alike (w w' : World) : Prop where
  buckets : (w'.db.buckets.mapVal fun _ => Bucket.bare) = w.db.buckets.mapVal fun _ => Bucket.bare
  objects : (w'.db.objects.mapVal fun _ => Object.bare) = w.db.objects.mapVal fun _ => Object.bare
  files : w'.files = w.files

/-- The world as the `n`-th call finds it. -/
def World.atCall (w : World) (n : Nat) : World := { w with calls := n }

/-- The same answers, whatever is drawn from outside while they are given. -/
structure SameAnswers (env : Env) (rt : Runtime) (w w' : World) : Prop where
  getObject : ∀ n request, ((handleGetObject request).run (exec env rt) (w'.atCall n)).map Prod.fst =
    ((handleGetObject request).run (exec env rt) (w.atCall n)).map Prod.fst
  headObject : ∀ n request, ((handleHeadObject request).run (exec env rt) (w'.atCall n)).map Prod.fst =
    ((handleHeadObject request).run (exec env rt) (w.atCall n)).map Prod.fst
  listBucket : ∀ name keyPrefix, listBucket w' name keyPrefix = listBucket w name keyPrefix

variable {env : Env} {rt : Runtime} {w w' w'' : World}

theorem Alike.refl (w : World) : Alike w w := ⟨rfl, rfl, rfl⟩

theorem Alike.symm (h : Alike w w') : Alike w' w := ⟨h.buckets.symm, h.objects.symm, h.files.symm⟩

theorem Alike.trans (h : Alike w w') (h' : Alike w' w'') : Alike w w'' :=
  ⟨h'.buckets.trans h.buckets, h'.objects.trans h.objects, h'.files.trans h.files⟩

theorem Alike.findBucket (h : Alike w w') {p : Bucket → Bool} (hp : ∀ b, p b.bare = p b) :
    (w'.db.buckets.findIf fun _ => p).map (fun e => (e.1, e.2.bare)) =
      (w.db.buckets.findIf fun _ => p).map fun e => (e.1, e.2.bare) :=
  OrderedMap.findIf_of_mapVal_eq h.buckets (q := fun _ => p) fun _ => hp

theorem Alike.bucketExists (h : Alike w w') (region name : Str) :
    w'.db.bucketExists region name = w.db.bucketExists region name := by
  have hfind := h.findBucket (p := Bucket.isNamed region name) fun _ => rfl
  simpa [S3MemoryDb.bucketExists] using congrArg Option.isSome hfind

theorem Alike.findObject (h : Alike w w') {p : Object → Bool} (hp : ∀ o, p o.bare = p o) :
    (w'.db.objects.findIf fun _ => p).map (fun e => (e.1, e.2.bare)) =
      (w.db.objects.findIf fun _ => p).map fun e => (e.1, e.2.bare) :=
  OrderedMap.findIf_of_mapVal_eq h.objects (q := fun _ => p) fun _ => hp

theorem Alike.objectExists (h : Alike w w') (region bucket key : Str) :
    w'.db.objectExists region bucket key = w.db.objectExists region bucket key := by
  have hfind := h.findObject (p := Object.isAt region bucket key) fun _ => rfl
  simpa [S3MemoryDb.objectExists] using congrArg Option.isSome hfind

/-- A lookup only writes a key. -/
theorem fetchObject_bare (db : S3MemoryDb) (now : TimePoint) (p : Str → Object → Bool) :
    ((db.fetchObject now (db.objects.findIf p)).2.objects.mapVal fun _ => Object.bare) =
      db.objects.mapVal fun _ => Object.bare := by
  rcases hit : db.objects.findIf p with _ | ⟨k, o⟩
  · rfl
  · exact OrderedMap.mapVal_insert_of_eq (OrderedMap.findIf_some hit).1 rfl

theorem fetchBucket_bare (db : S3MemoryDb) (now : TimePoint) (p : Str → Bucket → Bool) :
    ((db.fetchBucket now (db.buckets.findIf p)).2.buckets.mapVal fun _ => Bucket.bare) =
      db.buckets.mapVal fun _ => Bucket.bare := by
  rcases hit : db.buckets.findIf p with _ | ⟨k, b⟩
  · rfl
  · exact OrderedMap.mapVal_insert_of_eq (OrderedMap.findIf_some hit).1 rfl

/-- It finds the same record in both stores. -/
theorem Alike.fetchObject (h : Alike w w') {p : Object → Bool} (hp : ∀ o, p o.bare = p o) (now : TimePoint) :
    (w'.db.fetchObject now (w'.db.objects.findIf fun _ => p)).1 =
      (w.db.fetchObject now (w.db.objects.findIf fun _ => p)).1 := by
  have hfind := h.findObject hp
  rcases hit : w.db.objects.findIf (fun _ => p) with _ | ⟨k, o⟩ <;>
    rcases hit' : w'.db.objects.findIf (fun _ => p) with _ | ⟨k', o'⟩ <;> rw [hit, hit'] at hfind
  · rfl
  · cases hfind
  · cases hfind
  · obtain ⟨rfl, hbare⟩ := Prod.mk.inj (Option.some.inj hfind)
    exact congrArg (fun o : Object => { o with oid := k' }) hbare

theorem Alike.fetchBucket (h : Alike w w') {p : Bucket → Bool} (hp : ∀ b, p b.bare = p b) (now : TimePoint) :
    (w'.db.fetchBucket now (w'.db.buckets.findIf fun _ => p)).1 =
      (w.db.fetchBucket now (w.db.buckets.findIf fun _ => p)).1 := by
  have hfind := h.findBucket hp
  rcases hit : w.db.buckets.findIf (fun _ => p) with _ | ⟨k, b⟩ <;>
    rcases hit' : w'.db.buckets.findIf (fun _ => p) with _ | ⟨k', b'⟩ <;> rw [hit, hit'] at hfind
  · rfl
  · cases hfind
  · cases hfind
  · obtain ⟨rfl, hbare⟩ := Prod.mk.inj (Option.some.inj hfind)
    exact congrArg (fun b : Bucket => { b with oid := k' }) hbare

/-- The calls that leave the data files, and of the store all but the keys that lookups write. -/
def S3Call.Inspects : S3Call → Prop
  | .getBucketByRegionName .. | .getObject .. | .getObjectMd5 .. => True
  | c => c.touchesDb = false ∧ c.touchesFiles = false

theorem alike_of_call {c : S3Call} {x : c.Reply} (hc : c.Inspects) (h : exec env rt c w = some (x, w')) :
    Alike w w' := by
  rcases htouch : c.touchesDb with _ | _
  · have hfiles : c.touchesFiles = false := by
      cases c <;> first | exact hc.2 | rfl
    exact ⟨by rw [db_of_call htouch h], by rw [db_of_call htouch h], files_of_call hfiles h⟩
  obtain ⟨v, hv, rfl⟩ := exec_eq_some.mp h
  cases c with
  | getBucketByRegionName region name =>
    cases hv
    refine ⟨fetchBucket_bare .., ?_, rfl⟩
    change ((w.db.fetchBucket _ _).2.objects.mapVal fun _ => Object.bare) = _
    rw [S3MemoryDb.fetchBucket_objects]
  | getObject | getObjectMd5 =>
    cases hv
    refine ⟨?_, fetchObject_bare .., rfl⟩
    change ((w.db.fetchObject _ _).2.buckets.mapVal fun _ => Bucket.bare) = _
    rw [S3MemoryDb.fetchObject_buckets]
  | createBucket | updateBucket | deleteBucket | createObject | updateObject | deleteObject | deleteObjects =>
    cases hc.1
  | _ => cases htouch

/-- Alike, and at the same call. -/
def AlikeNow (w w' : World) : Prop := Alike w w' ∧ w'.calls = w.calls

/-- A call of a reading request replies the same, and leaves the stores alike. -/
theorem AlikeNow.read {c : S3Call} (hc : c.OfRead) (h : AlikeNow w w') :
    Option.Rel (fun r r' => r.1 = r'.1 ∧ AlikeNow r.2 r'.2) (exec env rt c w) (exec env rt c w') := by
  obtain ⟨halike, hcalls⟩ := h
  unfold exec
  rw [hcalls]
  cases c with
  | bucketExists region name =>
    exact .some ⟨(halike.bucketExists region name).symm, ⟨halike.buckets, halike.objects, halike.files⟩, rfl⟩
  | objectExists region bucket key =>
    exact .some ⟨(halike.objectExists region bucket key).symm,
      ⟨halike.buckets, halike.objects, halike.files⟩, rfl⟩
  | getBucketByRegionName region name =>
    have hreply := halike.fetchBucket (p := Bucket.isNamed region name) (fun _ => rfl) (rt.now w.calls)
    have hbuckets := (fetchBucket_bare w'.db (rt.now w.calls) fun _ => Bucket.isNamed region name).trans
      (halike.buckets.trans (fetchBucket_bare w.db (rt.now w.calls) fun _ => Bucket.isNamed region name).symm)
    refine .some ⟨hreply.symm, ⟨hbuckets, ?_, halike.files⟩, rfl⟩
    change ((w'.db.fetchBucket _ _).2.objects.mapVal fun _ => Object.bare) =
      (w.db.fetchBucket _ _).2.objects.mapVal fun _ => Object.bare
    rw [S3MemoryDb.fetchBucket_objects, S3MemoryDb.fetchBucket_objects, halike.objects]
  | getObject region bucket key =>
    have hreply := halike.fetchObject (p := Object.isAt region bucket key) (fun _ => rfl) (rt.now w.calls)
    have hobjects := (fetchObject_bare w'.db (rt.now w.calls) fun _ => Object.isAt region bucket key).trans
      (halike.objects.trans (fetchObject_bare w.db (rt.now w.calls) fun _ => Object.isAt region bucket key).symm)
    refine .some ⟨hreply.symm, ⟨?_, hobjects, halike.files⟩, rfl⟩
    change ((w'.db.fetchObject _ _).2.buckets.mapVal fun _ => Bucket.bare) =
      (w.db.fetchObject _ _).2.buckets.mapVal fun _ => Bucket.bare
    rw [S3MemoryDb.fetchObject_buckets, S3MemoryDb.fetchObject_buckets, halike.buckets]
  | getObjectVersion => exact .none
  | decryptFile name keyId =>
    rw [S3Call.apply, S3Call.apply, World.decryptFile, World.decryptFile, halike.files]
    cases w.files.get? name with
    | none => exact .none
    | some content => exact .some ⟨rfl, ⟨halike.buckets, halike.objects, rfl⟩, rfl⟩
  | readFile name =>
    refine .some ⟨?_, ⟨halike.buckets, halike.objects, halike.files⟩, rfl⟩
    change (w.files.get? name).getD [] = (w'.files.get? name).getD []
    rw [halike.files]
  | _ => cases hc

/-- A program of such calls has the same outcome. -/
theorem Alike.outcome {α : Type} {p : S3Prog α} (hp : p.Only S3Call.OfRead) (h : Alike w w') (n : Nat) :
    (p.run (exec env rt) (w'.atCall n)).map Prod.fst = (p.run (exec env rt) (w.atCall n)).map Prod.fst := by
  have hnow : AlikeNow (w.atCall n) (w'.atCall n) := ⟨⟨h.buckets, h.objects, h.files⟩, rfl⟩
  have hread : ∀ (c : S3Call) s t, c.OfRead → AlikeNow s t →
      Option.Rel (fun r r' => r.1 = r'.1 ∧ AlikeNow r.2 r'.2) (exec env rt c s) (exec env rt c t) :=
    fun c s t hc hst => AlikeNow.read hc hst
  have hrel := hp.run_related hread hnow
  rcases hs : p.run (exec env rt) (w.atCall n) with _ | r <;>
    rcases ht : p.run (exec env rt) (w'.atCall n) with _ | r' <;> rw [hs, ht] at hrel
  · cases hrel
  · cases hrel
  · obtain ⟨hfst, -⟩ := hrel
    exact congrArg some hfst.symm

theorem handleHeadObject_only (request : GetMetadataRequest) :
    (handleHeadObject request).Only S3Call.OfRead := by
  have hfetch : (fetchMetadata request).Only S3Call.OfRead :=
    Prog.only_bind (Prog.only_perform trivial) fun _ => Prog.only_pure _
  unfold handleHeadObject
  split
  · refine Prog.only_bind (Prog.only_perform trivial) fun exists_ => ?_
    split
    · exact Prog.only_mapThrow (Prog.only_bind (Prog.only_perform trivial) fun _ => Prog.only_pure _)
    · exact Prog.only_throw _
  · refine Prog.only_bind (Prog.only_perform trivial) fun exists_ => ?_
    split
    · refine Prog.only_bind (Prog.only_perform trivial) fun exists_ => ?_
      split
      · exact Prog.only_mapThrow hfetch
      · exact Prog.only_throw _
    · exact Prog.only_throw _

/-- A listing has the records without their keys. -/
theorem listBucket_eq (w : World) (name keyPrefix : Str) : listBucket w name keyPrefix =
    listBucket { db := { objects := w.db.objects.mapVal fun _ => Object.bare } } name keyPrefix := by
  have hvalues : (w.db.objects.mapVal fun _ => Object.bare).values = w.db.objects.values.map Object.bare := by
    simp [OrderedMap.values, OrderedMap.entries_mapVal, Function.comp_def]
  simp only [listBucket, S3MemoryDb.listBucket, hvalues, List.filter_map, List.map_map]
  rfl

theorem Alike.sameAnswers (h : Alike w w') : SameAnswers env rt w w' where
  getObject n request := h.outcome (handleGetObject_only request) n
  headObject n request := h.outcome (handleHeadObject_only request) n
  listBucket name keyPrefix := by
    rw [listBucket_eq w', listBucket_eq w, h.objects]

end AwsMock.S3
