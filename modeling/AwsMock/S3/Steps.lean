import AwsMock.Lib.Ensures
import AwsMock.S3.Service

/-!
# What the store calls do

Closed forms of the store's methods, and which calls leave the records or the buckets as they are.
-/

namespace AwsMock.S3

open Lib

/-- The same record, apart from the `oid` that lookups write into it. -/
def SameRecord (object object' : Object) : Prop := object' = { object with oid := object'.oid }

theorem SameRecord.refl (object : Object) : SameRecord object object := rfl

namespace S3MemoryDb

variable (db : S3MemoryDb)

/-- A created record is stored with its key in the `oid` field. -/
theorem createObject_eq (oid : Str) (object : Object) (now : TimePoint) :
    db.createObject oid object now = ({ object with oid := oid },
      { db with objects := db.objects.insert oid { object with oid := oid } }) := by
  have h : (db.objects.insert oid object).get? oid = some object := by simp
  simp only [createObject, getObjectById, OrderedMap.findIf_key h, fetchObject,
    OrderedMap.insert_insert]

theorem createBucket_eq (oid : Str) (bucket : Bucket) (now : TimePoint) :
    db.createBucket oid bucket now = ({ bucket with oid := oid },
      { db with buckets := db.buckets.insert oid { bucket with oid := oid } }) := by
  have h : (db.buckets.insert oid bucket).get? oid = some bucket := by simp
  simp only [createBucket, getBucketById, OrderedMap.findIf_key h, fetchBucket,
    OrderedMap.insert_insert]

variable {db}

theorem bucketExists_iff {region name : Str} : db.bucketExists region name ↔
    ∃ k bucket, db.buckets.get? k = some bucket ∧ bucket.region = region ∧ bucket.name = name := by
  unfold bucketExists
  rw [OrderedMap.findIf_isSome]
  simp [Bucket.isNamed]

theorem objectExists_iff {region bucket key : Str} : db.objectExists region bucket key ↔
    ∃ k object, db.objects.get? k = some object ∧ object.isAt region bucket key := by
  unfold objectExists
  rw [OrderedMap.findIf_isSome]

/-- A lookup that finds a record writes its key into it. -/
theorem getObject_eq {region bucket key : Str} (h : db.objectExists region bucket key)
    (now : TimePoint) : ∃ k object, db.objects.get? k = some object ∧
      object.isAt region bucket key ∧ db.getObject region bucket key now =
        ({ object with oid := k },
          { db with objects := db.objects.insert k { object with oid := k } }) := by
  obtain ⟨⟨k, object⟩, hit⟩ := Option.isSome_iff_exists.mp h
  obtain ⟨hget, hat⟩ := OrderedMap.findIf_some hit
  exact ⟨k, object, hget, hat, by rw [getObject, hit]; rfl⟩

theorem hasObjects_eq_false {region bucket : Str} : db.hasObjects region bucket = false ↔
    ∀ k object, db.objects.get? k = some object → object.region = region → object.bucket ≠ bucket := by
  unfold hasObjects OrderedMap.values
  rw [decide_eq_false_iff_not, Nat.not_lt, Nat.le_zero, List.length_eq_zero_iff,
    List.filter_eq_nil_iff]
  simp only [List.mem_map, decide_eq_true_eq, not_and]
  constructor
  · intro h k object hget
    exact h object ⟨(k, object), OrderedMap.get?_eq_some.mp hget, rfl⟩
  · rintro h _ ⟨⟨k, object⟩, hmem, rfl⟩
    exact h k object (OrderedMap.get?_eq_some.mpr hmem)

/-- A lookup leaves the records, and writes the key of the one it finds into it. -/
theorem fetchObject_get? {e : Option (Str × Object)} {now : TimePoint} {k : Str} {object' : Object}
    (he : ∀ it, e = some it → db.objects.get? it.1 = some it.2)
    (h : (db.fetchObject now e).2.objects.get? k = some object') :
    ∃ object, db.objects.get? k = some object ∧ SameRecord object object' := by
  rcases e with _ | ⟨oid, found⟩
  · exact ⟨object', h, .refl _⟩
  · by_cases hk : k = oid
    · subst hk
      simp only [fetchObject, OrderedMap.get?_insert_self, Option.some.injEq] at h
      exact ⟨found, he _ rfl, by rw [← h]; rfl⟩
    · rw [fetchObject, OrderedMap.get?_insert_of_ne _ _ hk] at h
      exact ⟨object', h, .refl _⟩

theorem fetchBucket_get? {e : Option (Str × Bucket)} (now : TimePoint) {k : Str} {bucket : Bucket}
    (he : ∀ it, e = some it → db.buckets.get? it.1 = some it.2) (h : db.buckets.get? k = some bucket) :
    ∃ bucket', (db.fetchBucket now e).2.buckets.get? k = some bucket' ∧
      bucket' = { bucket with oid := bucket'.oid } := by
  rcases e with _ | ⟨oid, found⟩
  · exact ⟨bucket, h, rfl⟩
  · by_cases hk : k = oid
    · subst hk
      have hfound := he _ rfl
      rw [h] at hfound
      cases hfound
      exact ⟨_, OrderedMap.get?_insert_self _ _ _, rfl⟩
    · exact ⟨bucket, by rw [fetchBucket, OrderedMap.get?_insert_of_ne _ _ hk]; exact h, rfl⟩

theorem fetchBucket_objects (e : Option (Str × Bucket)) (now : TimePoint) :
    (db.fetchBucket now e).2.objects = db.objects := by
  rcases e with _ | _ <;> rfl

theorem fetchObject_buckets (e : Option (Str × Object)) (now : TimePoint) :
    (db.fetchObject now e).2.buckets = db.buckets := by
  rcases e with _ | _ <;> rfl

/-- Deleting a list of keys is deleting every record with one of them. -/
theorem deleteObjects_eq (bucket : Str) (keys : List Str) : db.deleteObjects bucket keys =
    { db with objects := db.objects.eraseIf fun _ object =>
        object.bucket = bucket ∧ object.key ∈ keys } := by
  have hfold : ∀ (keys : List Str) (objects : OrderedMap Str Object),
      keys.foldl (fun objects key => objects.eraseIf fun _ o => o.isKeyed bucket key) objects =
        objects.eraseIf fun _ object => object.bucket = bucket ∧ object.key ∈ keys := by
    intro keys
    induction keys with
    | nil =>
      intro objects
      refine OrderedMap.ext_get? fun k => ?_
      simp only [List.foldl_nil, OrderedMap.get?_eraseIf, List.not_mem_nil, and_false,
        decide_false, Bool.not_false]
      generalize objects.get? k = found
      cases found <;> rfl
    | cons key keys ih =>
      intro objects
      rw [List.foldl_cons, ih]
      refine OrderedMap.ext_get? fun k => ?_
      simp only [OrderedMap.get?_eraseIf, Option.filter_filter, Object.isKeyed, List.mem_cons]
      congr 1
      funext object
      by_cases hb : object.bucket = bucket <;> by_cases hk : object.key = key <;> simp [hb, hk]
  rw [deleteObjects, hfold]

end S3MemoryDb

namespace World

variable {env : Env} {w w' : World}

@[simp] theorem deleteFile_db (env : Env) (w : World) (name : Str) :
    (w.deleteFile env name).2.db = w.db := by
  unfold deleteFile
  split <;> rfl

@[simp] theorem copyTo_db (env : Env) (w : World) (source target : Str) :
    (w.copyTo env source target).2.db = w.db := by
  unfold copyTo
  split <;> rfl

@[simp] theorem changeUpload_db (uploadId : Str) (f : OrderedMap Str Str → OrderedMap Str Str) :
    (w.changeUpload uploadId f).db = w.db := by
  unfold changeUpload
  split <;> rfl

@[simp] theorem changeUpload_files (uploadId : Str) (f : OrderedMap Str Str → OrderedMap Str Str) :
    (w.changeUpload uploadId f).files = w.files := by
  unfold changeUpload
  split <;> rfl

@[simp] theorem deleteBucketDirectory_db (name : Str) : (w.deleteBucketDirectory name).db = w.db := by
  unfold deleteBucketDirectory
  split
  · rfl
  · split <;> rfl

theorem encryptFile_db {key name : Str} (h : w.encryptFile env key name = some w') : w'.db = w.db := by
  obtain ⟨_, _, rfl⟩ := Option.map_eq_some_iff.mp h
  rfl

theorem decryptFile_db {key name : Str} (h : w.decryptFile env key name = some w') : w'.db = w.db := by
  obtain ⟨_, _, rfl⟩ := Option.map_eq_some_iff.mp h
  rfl

end World

namespace S3Call

/-- The calls that write into the store, if only the `oid` of a record they find. -/
def touchesDb : S3Call → Bool
  | .getBucketByRegionName .. | .createBucket .. | .updateBucket .. | .deleteBucket ..
  | .createObject .. | .updateObject .. | .getObject .. | .getObjectMd5 .. | .deleteObject ..
  | .deleteObjects .. => true
  | _ => false

/-- The calls that write into the records of objects. -/
def touchesObjects : S3Call → Bool
  | .createObject .. | .updateObject .. | .getObject .. | .getObjectMd5 .. | .deleteObject ..
  | .deleteObjects .. => true
  | _ => false

/-- The calls that write or remove data files. -/
def touchesFiles : S3Call → Bool
  | .writeFile .. | .deleteFile .. | .copyTo .. | .encryptFile .. | .decryptFile ..
  | .appendParts .. | .deleteBucketDirectory .. => true
  | _ => false

/-- The calls that change the directories of uploads. -/
def onUploads : S3Call → Bool
  | .createUploadDirectory .. | .writePart .. | .copyPart .. | .deleteUploadDirectory ..
  | .deleteBucketDirectory .. => true
  | _ => false

/-- The record a call puts into the store. -/
def Writes (object : Object) : S3Call → Prop
  | .createObject o => SameRecord o object
  | .updateObject o => o = object
  | _ => False

/-- The key it puts the record under. -/
def target (rt : Runtime) (w : World) : S3Call → Option Str
  | .createObject _ => some (rt.uuid w.calls)
  | .updateObject object =>
    (w.db.objects.findIf fun _ o => o.isKeyed object.bucket object.key).map Prod.fst
  | _ => none

/-- It is a new key, or that of a record. -/
theorem target_cases {rt : Runtime} {w : World} {c : S3Call} {k : Str} (h : c.target rt w = some k) :
    k = rt.uuid w.calls ∨ ∃ object, w.db.objects.get? k = some object := by
  cases c with
  | createObject o => exact Or.inl (Option.some.inj h).symm
  | updateObject o =>
    obtain ⟨it, hit, rfl⟩ := Option.map_eq_some_iff.mp h
    exact Or.inr ⟨it.2, (OrderedMap.findIf_some hit).1⟩
  | _ => cases h

end S3Call

attribute [local simp] S3Call.apply

variable {env : Env} {rt : Runtime} {w w' : World} {c : S3Call} {x : c.Reply}

theorem exec_eq_some : exec env rt c w = some (x, w') ↔
    ∃ v, c.apply env rt w.calls w = some (x, v) ∧ w' = { v with calls := w.calls + 1 } := by
  unfold exec
  constructor
  · intro h
    obtain ⟨⟨reply, v⟩, hr, he⟩ := Option.map_eq_some_iff.mp h
    obtain ⟨rfl, rfl⟩ := Prod.mk.inj he
    exact ⟨v, hr, rfl⟩
  · rintro ⟨v, hr, rfl⟩
    rw [hr]
    rfl

/-- The other calls leave the store alone. -/
theorem db_of_call (hc : c.touchesDb = false) (h : exec env rt c w = some (x, w')) :
    w'.db = w.db := by
  obtain ⟨v, hr, rfl⟩ := exec_eq_some.mp h
  change v.db = w.db
  cases c with
  | getBucketByRegionName | createBucket | updateBucket | deleteBucket | createObject | updateObject
  | getObject | getObjectMd5 | deleteObject | deleteObjects => cases hc
  | getObjectVersion => cases hr
  | deleteFile name =>
    have hdb := World.deleteFile_db env w name
    rwa [Option.some.inj hr] at hdb
  | copyTo source target =>
    have hdb := World.copyTo_db env w source target
    rwa [Option.some.inj hr] at hdb
  | encryptFile name keyId =>
    obtain ⟨_, hf, he⟩ := Option.map_eq_some_iff.mp hr
    cases he
    exact World.encryptFile_db hf
  | decryptFile name keyId =>
    obtain ⟨_, hf, he⟩ := Option.map_eq_some_iff.mp hr
    cases he
    exact World.decryptFile_db hf
  | writePart | copyPart => cases hr; exact World.changeUpload_db _ _
  | listParts uploadId =>
    simp only [S3Call.apply] at hr
    split at hr
    · obtain ⟨_, _, he⟩ := Option.map_eq_some_iff.mp hr
      cases he
      rfl
    · cases hr
      rfl
  | send target notification record =>
    simp only [S3Call.apply] at hr
    split at hr
    · cases hr
    · cases hr
      rfl
  | stackBuffer size =>
    simp only [S3Call.apply] at hr
    split at hr
    · cases hr
    · cases hr
      rfl
  | deleteBucketDirectory name => cases hr; exact World.deleteBucketDirectory_db name
  | _ => cases hr; rfl

/-- The calls on buckets leave the records of the objects alone. -/
theorem objects_eq_of_call (hc : c.touchesObjects = false) (h : exec env rt c w = some (x, w')) :
    w'.db.objects = w.db.objects := by
  rcases htouch : c.touchesDb with _ | _
  · rw [db_of_call htouch h]
  obtain ⟨v, hr, rfl⟩ := exec_eq_some.mp h
  change v.db.objects = w.db.objects
  cases c with
  | createObject | updateObject | getObject | getObjectMd5 | deleteObject | deleteObjects => cases hc
  | getBucketByRegionName region name =>
    cases hr
    exact S3MemoryDb.fetchBucket_objects _ _
  | createBucket bucket =>
    simp only [S3Call.apply, S3MemoryDb.createBucket_eq, Option.some.injEq, Prod.mk.injEq] at hr
    obtain ⟨-, rfl⟩ := hr
    rfl
  | updateBucket bucket =>
    obtain ⟨y, hy, he⟩ := Option.map_eq_some_iff.mp hr
    obtain ⟨it, hit, rfl⟩ := Option.map_eq_some_iff.mp hy
    cases he
    rfl
  | deleteBucket region name =>
    cases hr
    rfl
  | _ => cases htouch

/-- The other calls leave the data files alone. -/
theorem files_of_call (hc : c.touchesFiles = false) (h : exec env rt c w = some (x, w')) :
    w'.files = w.files := by
  obtain ⟨v, hr, rfl⟩ := exec_eq_some.mp h
  change v.files = w.files
  cases c with
  | writeFile | deleteFile | copyTo | encryptFile | decryptFile | appendParts
  | deleteBucketDirectory => cases hc
  | getObjectVersion => cases hr
  | updateObject | updateBucket =>
    obtain ⟨_, _, he⟩ := Option.map_eq_some_iff.mp hr
    cases he
    rfl
  | writePart | copyPart => cases hr; exact World.changeUpload_files _ _
  | listParts uploadId =>
    simp only [S3Call.apply] at hr
    split at hr
    · obtain ⟨_, _, he⟩ := Option.map_eq_some_iff.mp hr
      cases he
      rfl
    · cases hr
      rfl
  | send target notification record =>
    simp only [S3Call.apply] at hr
    split at hr
    · cases hr
    · cases hr
      rfl
  | stackBuffer size =>
    simp only [S3Call.apply] at hr
    split at hr
    · cases hr
    · cases hr
      rfl
  | _ => cases hr; rfl

/-- The other calls leave the directories of uploads alone. -/
theorem uploads_of_call (hc : c.onUploads = false) (h : exec env rt c w = some (x, w')) :
    w'.uploads = w.uploads := by
  obtain ⟨v, hr, rfl⟩ := exec_eq_some.mp h
  change v.uploads = w.uploads
  cases c with
  | createUploadDirectory | writePart | copyPart | deleteUploadDirectory | deleteBucketDirectory => cases hc
  | getObjectVersion => cases hr
  | updateObject | updateBucket =>
    obtain ⟨_, _, he⟩ := Option.map_eq_some_iff.mp hr
    cases he
    rfl
  | deleteFile name =>
    simp only [S3Call.apply, World.deleteFile, Option.some.injEq] at hr
    split at hr <;> cases hr <;> rfl
  | copyTo source target =>
    simp only [S3Call.apply, World.copyTo, Option.some.injEq] at hr
    split at hr <;> cases hr <;> rfl
  | encryptFile name keyId | decryptFile name keyId =>
    obtain ⟨_, hf, he⟩ := Option.map_eq_some_iff.mp hr
    obtain ⟨_, _, rfl⟩ := Option.map_eq_some_iff.mp hf
    cases he
    rfl
  | listParts uploadId =>
    simp only [S3Call.apply] at hr
    split at hr
    · obtain ⟨_, _, he⟩ := Option.map_eq_some_iff.mp hr
      cases he
      rfl
    · cases hr
      rfl
  | send target notification record =>
    simp only [S3Call.apply] at hr
    split at hr
    · cases hr
    · cases hr
      rfl
  | stackBuffer size =>
    simp only [S3Call.apply] at hr
    split at hr
    · cases hr
    · cases hr
      rfl
  | _ => cases hr; rfl

/-- The records after a call are records from before it, or the one it writes. -/
theorem objects_of_call (h : exec env rt c w = some (x, w')) {k : Str} {object' : Object}
    (ho : w'.db.objects.get? k = some object') :
    (∃ object, w.db.objects.get? k = some object ∧ SameRecord object object') ∨
      c.Writes object' ∧ c.target rt w = some k := by
  rcases htouch : c.touchesDb with _ | _
  · rw [db_of_call htouch h] at ho
    exact Or.inl ⟨object', ho, .refl _⟩
  · obtain ⟨v, hr, rfl⟩ := exec_eq_some.mp h
    change v.db.objects.get? k = some object' at ho
    cases c with
    | createObject o =>
      simp only [S3Call.apply, S3MemoryDb.createObject_eq, Option.some.injEq, Prod.mk.injEq] at hr
      obtain ⟨-, rfl⟩ := hr
      by_cases hk : k = rt.uuid w.calls
      · subst hk
        simp only [OrderedMap.get?_insert_self, Option.some.injEq] at ho
        exact Or.inr ⟨by rw [← ho]; rfl, rfl⟩
      · exact Or.inl ⟨object', by simpa [OrderedMap.get?_insert_of_ne _ _ hk] using ho, .refl _⟩
    | updateObject o =>
      obtain ⟨y, hy, he⟩ := Option.map_eq_some_iff.mp hr
      obtain ⟨it, hit, rfl⟩ := Option.map_eq_some_iff.mp hy
      cases he
      by_cases hk : k = it.1
      · subst hk
        exact Or.inr ⟨by simpa [S3Call.Writes] using ho, by simp [S3Call.target, hit]⟩
      · exact Or.inl ⟨object', by simpa [OrderedMap.get?_insert_of_ne _ _ hk] using ho, .refl _⟩
    | getObject | getObjectMd5 =>
      cases hr
      exact Or.inl (S3MemoryDb.fetchObject_get? (fun it hit => (OrderedMap.findIf_some hit).1) ho)
    | deleteObject bucket key =>
      cases hr
      simp only [S3MemoryDb.deleteObject, OrderedMap.get?_eraseIf, Option.filter_eq_some_iff] at ho
      exact Or.inl ⟨object', ho.1, .refl _⟩
    | deleteObjects bucket keys =>
      cases hr
      simp only [S3MemoryDb.deleteObjects_eq, OrderedMap.get?_eraseIf, Option.filter_eq_some_iff] at ho
      exact Or.inl ⟨object', ho.1, .refl _⟩
    | getBucketByRegionName region name =>
      cases hr
      change (w.db.fetchBucket _ _).2.objects.get? k = some object' at ho
      rw [S3MemoryDb.fetchBucket_objects] at ho
      exact Or.inl ⟨object', ho, .refl _⟩
    | createBucket bucket =>
      simp only [S3Call.apply, S3MemoryDb.createBucket_eq, Option.some.injEq, Prod.mk.injEq] at hr
      obtain ⟨-, rfl⟩ := hr
      exact Or.inl ⟨object', ho, .refl _⟩
    | updateBucket bucket =>
      obtain ⟨y, hy, he⟩ := Option.map_eq_some_iff.mp hr
      obtain ⟨it, hit, rfl⟩ := Option.map_eq_some_iff.mp hy
      cases he
      exact Or.inl ⟨object', ho, .refl _⟩
    | deleteBucket region name =>
      cases hr
      exact Or.inl ⟨object', ho, .refl _⟩
    | _ => cases htouch

/-- A bucket after a call was there before it, or the call created it. -/
theorem buckets_of_call (h : exec env rt c w = some (x, w')) {k : Str} {bucket' : Bucket}
    (hb : w'.db.buckets.get? k = some bucket') :
    (∃ bucket, w.db.buckets.get? k = some bucket) ∨ k = rt.uuid w.calls := by
  rcases htouch : c.touchesDb with _ | _
  · rw [db_of_call htouch h] at hb
    exact Or.inl ⟨bucket', hb⟩
  · obtain ⟨v, hr, rfl⟩ := exec_eq_some.mp h
    change v.db.buckets.get? k = some bucket' at hb
    cases c with
    | createObject o =>
      simp only [S3Call.apply, S3MemoryDb.createObject_eq, Option.some.injEq, Prod.mk.injEq] at hr
      obtain ⟨-, rfl⟩ := hr
      exact Or.inl ⟨bucket', hb⟩
    | updateObject o =>
      obtain ⟨y, hy, he⟩ := Option.map_eq_some_iff.mp hr
      obtain ⟨it, hit, rfl⟩ := Option.map_eq_some_iff.mp hy
      cases he
      exact Or.inl ⟨bucket', hb⟩
    | deleteObject | deleteObjects => cases hr; exact Or.inl ⟨bucket', hb⟩
    | getObject | getObjectMd5 =>
      cases hr
      change (w.db.fetchObject _ _).2.buckets.get? k = _ at hb
      rw [S3MemoryDb.fetchObject_buckets] at hb
      exact Or.inl ⟨bucket', hb⟩
    | getBucketByRegionName region name =>
      cases hr
      change (w.db.fetchBucket _ (w.db.buckets.findIf _)).2.buckets.get? k = _ at hb
      rcases hit : w.db.buckets.findIf fun _ bucket => bucket.isNamed region name with _ | it
      · rw [hit] at hb
        exact Or.inl ⟨bucket', hb⟩
      · by_cases hk : k = it.1
        · exact Or.inl ⟨it.2, hk ▸ (OrderedMap.findIf_some hit).1⟩
        · rw [hit, S3MemoryDb.fetchBucket, OrderedMap.get?_insert_of_ne _ _ hk] at hb
          exact Or.inl ⟨bucket', hb⟩
    | createBucket bucket =>
      simp only [S3Call.apply, S3MemoryDb.createBucket_eq, Option.some.injEq, Prod.mk.injEq] at hr
      obtain ⟨-, rfl⟩ := hr
      by_cases hk : k = rt.uuid w.calls
      · exact Or.inr hk
      · exact Or.inl ⟨bucket', by simpa [OrderedMap.get?_insert_of_ne _ _ hk] using hb⟩
    | updateBucket bucket =>
      obtain ⟨y, hy, he⟩ := Option.map_eq_some_iff.mp hr
      obtain ⟨it, hit, rfl⟩ := Option.map_eq_some_iff.mp hy
      cases he
      by_cases hk : k = it.1
      · exact Or.inl ⟨it.2, hk ▸ (OrderedMap.findIf_some hit).1⟩
      · exact Or.inl ⟨bucket', by simpa [OrderedMap.get?_insert_of_ne _ _ hk] using hb⟩
    | deleteBucket region name =>
      cases hr
      simp only [S3MemoryDb.deleteBucket, OrderedMap.get?_eraseIf, Option.filter_eq_some_iff] at hb
      exact Or.inl ⟨bucket', hb.1⟩
    | _ => cases htouch

/-- The keys of the store are earlier draws. -/
structure Drawn (rt : Runtime) (w : World) : Prop where
  buckets : ∀ {k b}, w.db.buckets.get? k = some b → ∃ i < w.calls, k = rt.uuid i
  objects : ∀ {k o}, w.db.objects.get? k = some o → ∃ i < w.calls, k = rt.uuid i

theorem drawn_empty : Drawn rt {} where
  buckets h := nomatch h
  objects h := nomatch h

theorem calls_of_call (h : exec env rt c w = some (x, w')) : w'.calls = w.calls + 1 := by
  obtain ⟨v, -, rfl⟩ := exec_eq_some.mp h
  rfl

theorem Drawn.step (hw : Drawn rt w) (h : exec env rt c w = some (x, w')) : Drawn rt w' where
  buckets hb := by
    rw [calls_of_call h]
    rcases buckets_of_call h hb with ⟨_, hold⟩ | rfl
    · obtain ⟨i, hi, rfl⟩ := hw.buckets hold
      exact ⟨i, Nat.lt_succ_of_lt hi, rfl⟩
    · exact ⟨w.calls, Nat.lt_succ_self _, rfl⟩
  objects ho := by
    rw [calls_of_call h]
    have hold : ∀ {k object}, w.db.objects.get? k = some object → ∃ i < w.calls + 1, k = rt.uuid i := by
      intro k object hget
      obtain ⟨i, hi, he⟩ := hw.objects hget
      exact ⟨i, Nat.lt_succ_of_lt hi, he⟩
    rcases objects_of_call h ho with ⟨_, hget, _⟩ | ⟨_, htarget⟩
    · exact hold hget
    · rcases S3Call.target_cases htarget with rfl | ⟨_, hget⟩
      · exact ⟨w.calls, Nat.lt_succ_self _, rfl⟩
      · exact hold hget

/-- Apart from the record it puts, a call leaves the records with their files. -/
theorem internalName_of_call (h : exec env rt c w = some (x, w')) {k : Str} {object' : Object}
    (ho : w'.db.objects.get? k = some object') :
    (∃ object, w.db.objects.get? k = some object ∧ object'.internalName = object.internalName) ∨
      c.Writes object' ∧ c.target rt w = some k := by
  rcases objects_of_call h ho with ⟨object, hold, hsame⟩ | hput
  · exact Or.inl ⟨object, hold, by rw [hsame]⟩
  · exact Or.inr hput

/-- A key that is drawn now is new. -/
theorem Drawn.fresh_bucket (hw : Drawn rt w) : w.db.buckets.get? (rt.uuid w.calls) = none := by
  rw [Option.eq_none_iff_forall_ne_some]
  intro b hb
  obtain ⟨i, hi, he⟩ := hw.buckets hb
  exact absurd (rt.uuid_inj he) (Nat.ne_of_gt hi)

theorem Drawn.fresh_object (hw : Drawn rt w) : w.db.objects.get? (rt.uuid w.calls) = none := by
  rw [Option.eq_none_iff_forall_ne_some]
  intro o ho
  obtain ⟨i, hi, he⟩ := hw.objects ho
  exact absurd (rt.uuid_inj he) (Nat.ne_of_gt hi)

/-- A bucket stays in the store, with its name and region, until it is deleted. -/
theorem bucketExists_of_call (hw : Drawn rt w) (h : exec env rt c w = some (x, w'))
    {region name : Str} (hc : c ≠ .deleteBucket region name) (hb : w.db.bucketExists region name) :
    w'.db.bucketExists region name := by
  rcases htouch : c.touchesDb with _ | _
  · rwa [db_of_call htouch h]
  · obtain ⟨v, hr, rfl⟩ := exec_eq_some.mp h
    change v.db.bucketExists region name
    obtain ⟨k, bucket, hk, hregion, hname⟩ := S3MemoryDb.bucketExists_iff.mp hb
    cases c with
    | createObject o =>
      simp only [S3Call.apply, S3MemoryDb.createObject_eq, Option.some.injEq, Prod.mk.injEq] at hr
      obtain ⟨-, rfl⟩ := hr
      exact hb
    | updateObject o =>
      obtain ⟨y, hy, he⟩ := Option.map_eq_some_iff.mp hr
      obtain ⟨it, hit, rfl⟩ := Option.map_eq_some_iff.mp hy
      cases he
      exact hb
    | deleteObject | deleteObjects => cases hr; exact hb
    | getObject | getObjectMd5 =>
      cases hr
      change S3MemoryDb.bucketExists (w.db.fetchObject _ _).2 region name
      unfold S3MemoryDb.bucketExists
      rw [S3MemoryDb.fetchObject_buckets]
      exact hb
    | getBucketByRegionName region' name' =>
      cases hr
      obtain ⟨bucket', hk', he⟩ := S3MemoryDb.fetchBucket_get? (rt.now w.calls)
        (fun it hit => (OrderedMap.findIf_some hit).1) hk
      refine S3MemoryDb.bucketExists_iff.mpr ⟨k, bucket', hk', ?_, ?_⟩
      · rw [he]; exact hregion
      · rw [he]; exact hname
    | createBucket bucket' =>
      simp only [S3Call.apply, S3MemoryDb.createBucket_eq, Option.some.injEq, Prod.mk.injEq] at hr
      obtain ⟨-, rfl⟩ := hr
      have hne : k ≠ rt.uuid w.calls := by
        rintro rfl
        rw [hw.fresh_bucket] at hk
        cases hk
      refine S3MemoryDb.bucketExists_iff.mpr ⟨k, bucket, ?_, hregion, hname⟩
      rw [OrderedMap.get?_insert_of_ne _ _ hne]
      exact hk
    | updateBucket bucket' =>
      obtain ⟨y, hy, he⟩ := Option.map_eq_some_iff.mp hr
      obtain ⟨it, hit, rfl⟩ := Option.map_eq_some_iff.mp hy
      cases he
      obtain ⟨hget, hnamed⟩ := OrderedMap.findIf_some hit
      by_cases hkey : k = it.1
      · -- The bucket found has the name and region of the bucket written.
        subst hkey
        rw [hk] at hget
        cases hget
        simp only [Bucket.isNamed, decide_eq_true_eq] at hnamed
        exact S3MemoryDb.bucketExists_iff.mpr ⟨it.1, bucket', OrderedMap.get?_insert_self _ _ _,
          hnamed.1.symm.trans hregion, hnamed.2.symm.trans hname⟩
      · refine S3MemoryDb.bucketExists_iff.mpr ⟨k, bucket, ?_, hregion, hname⟩
        change (w.db.buckets.insert it.1 bucket').get? k = some bucket
        rw [OrderedMap.get?_insert_of_ne _ _ hkey]
        exact hk
    | deleteBucket region' name' =>
      cases hr
      refine S3MemoryDb.bucketExists_iff.mpr ⟨k, bucket, ?_, hregion, hname⟩
      simp only [S3MemoryDb.deleteBucket, OrderedMap.get?_eraseIf, hk, Option.filter_some,
        Bucket.isNamed, hregion, hname]
      by_cases hsame : region = region' ∧ name = name'
      · exact absurd (by rw [hsame.1, hsame.2]) hc
      · simp [hsame]
    | _ => cases htouch

end AwsMock.S3
