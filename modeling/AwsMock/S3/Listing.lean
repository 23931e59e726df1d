import AwsMock.S3.MemoryDb

/-!
# Listings of objects

The listings of `S3Database` and the count of objects, over the in-memory store and over the objects of the
MongoDB collection in the order the server returns them. `search` is the regular expression search of the
server: a pattern, and the text that is searched.
-/

namespace AwsMock.S3

open Lib OrderedMap

/-- An object of a bucket in a region. -/
def Object.isIn (region bucket : Str) (object : Object) : Bool := object.region = region ∧ object.bucket = bucket

namespace S3MemoryDb

variable (db : S3MemoryDb)

/-- `ObjectCount`: with both names, an object counts that has one of them. -/
def objectCount (region bucket : Str) : Nat :=
  if region = [] ∧ bucket = [] then db.objects.size
  else (db.objects.values.filter fun object =>
    ((region ≠ [] ∧ object.region = region) ∧ (bucket ≠ [] ∧ object.bucket = bucket)) ∨
      (region ≠ [] ∧ object.region = region) ∨ (bucket ≠ [] ∧ object.bucket = bucket)).length

/-- `ListObjects`: all regions and all buckets. -/
def listObjects (keyPrefix : Str) : List Object :=
  db.objects.values.filter fun object => keyPrefix = [] ∨ startsWith object.key keyPrefix

end S3MemoryDb

/-! ### The MongoDB branch -/

namespace Documents

variable (search : Str → Str → Bool) (documents : List Object)

/-- `bsoncxx::types::b_regex{"^" + prefix + ".*"}`: the prefix becomes part of the pattern. -/
def keyPattern (keyPrefix : Str) : Str := str "^" ++ keyPrefix ++ str ".*"

def listBucket (bucket keyPrefix : Str) : List Object :=
  if keyPrefix = [] then documents.filter fun object => object.bucket = bucket
  else documents.filter fun object => object.bucket = bucket ∧ search (keyPattern keyPrefix) object.key

def listObjects (keyPrefix : Str) : List Object :=
  if keyPrefix = [] then documents
  else documents.filter fun object => search (keyPattern keyPrefix) object.key

/-- Each name that is given becomes a condition of the filter. -/
def objectCount (region bucket : Str) : Nat :=
  if region = [] ∧ bucket = [] then documents.length
  else if region ≠ [] ∧ bucket = [] then (documents.filter fun object => object.region = region).length
  else if region = [] ∧ bucket ≠ [] then (documents.filter fun object => object.bucket = bucket).length
  else (documents.filter fun object => object.region = region ∧ object.bucket = bucket).length

/-- `mongocxx::options::find::limit`: a limit of zero is no limit. -/
def limited (limit : Nat) (objects : List Object) : List Object := if limit = 0 then objects else objects.take limit

def getBucketObjectList (region bucket : Str) (maxKeys : Nat) : List Object :=
  limited maxKeys (documents.filter (Object.isIn region bucket))

end Documents

/-! ### What listings are to return -/

/-- A byte that stands for itself in a regular expression. -/
def isLiteral (c : UInt8) : Bool := 0 < c ∧ c < 128 ∧ c ∉ str "\\^$.|?*+()[]\x7b\x7d"

/-- A prefix without regular-expression metacharacters. -/
def Literal (keyPrefix : Str) : Prop := ∀ c ∈ keyPrefix, isLiteral c

instance (keyPrefix : Str) : Decidable (Literal keyPrefix) := inferInstanceAs (Decidable (∀ c ∈ keyPrefix, _))

/-- What ObjectCount counts: an empty name stands for all. -/
def Object.isCounted (region bucket : Str) (object : Object) : Bool :=
  (region = [] ∨ object.region = region) ∧ (bucket = [] ∨ object.bucket = bucket)

variable (search : Str → Str → Bool) (db : S3MemoryDb) (documents : List Object)
  (region bucket keyPrefix : Str) (limit : Nat)

/-- All listings are of the region and the bucket, and the branches agree. -/
structure ClaimedListings : Prop where
  listBucket : db.listBucket bucket keyPrefix =
    db.objects.values.filter fun object => object.isIn region bucket ∧ startsWith object.key keyPrefix
  listObjects : db.listObjects keyPrefix =
    db.objects.values.filter fun object => object.isIn region bucket ∧ startsWith object.key keyPrefix
  objectCount : db.objectCount region bucket = (db.objects.values.filter (Object.isIn region bucket)).length
  pageIn : ∀ object ∈ db.getBucketObjectList region bucket limit, object.isIn region bucket
  page : (db.getBucketObjectList region bucket limit).length =
    min limit (db.objects.values.filter (Object.isIn region bucket)).length
  sameBucket : (Documents.listBucket search documents bucket keyPrefix).Perm (db.listBucket bucket keyPrefix)
  sameObjects : (Documents.listObjects search documents keyPrefix).Perm (db.listObjects keyPrefix)
  sameCount : Documents.objectCount documents region bucket = db.objectCount region bucket
  samePage : (Documents.getBucketObjectList documents region bucket limit).length =
    (db.getBucketObjectList region bucket limit).length

/-- `ListBucket` lists the bucket in every region and `ListObjects` every bucket. -/
structure Listings : Prop where
  listBucket : db.listBucket bucket keyPrefix =
    db.objects.values.filter fun object => object.bucket = bucket ∧ startsWith object.key keyPrefix
  listObjects : db.listObjects keyPrefix = db.objects.values.filter fun object => startsWith object.key keyPrefix
  objectCount : (region = [] ∨ bucket = [] ∨
      ∀ object ∈ db.objects.values, object.region = region ↔ object.bucket = bucket) →
    db.objectCount region bucket = (db.objects.values.filter (Object.isCounted region bucket)).length
  page : (db.getBucketObjectList region bucket limit).Sublist (db.objects.values.filter (Object.isIn region bucket)) ∧
    (db.getBucketObjectList region bucket limit).length ≤ limit
  fullPage : (∀ object ∈ db.objects.values.take
      (min limit (db.objects.values.filter (Object.isIn region bucket)).length), object.isIn region bucket) →
    (db.getBucketObjectList region bucket limit).length =
      min limit (db.objects.values.filter (Object.isIn region bucket)).length
  sameBucket : Literal keyPrefix →
    (Documents.listBucket search documents bucket keyPrefix).Perm (db.listBucket bucket keyPrefix)
  sameObjects : Literal keyPrefix → (Documents.listObjects search documents keyPrefix).Perm (db.listObjects keyPrefix)
  documentCount : Documents.objectCount documents region bucket =
    (db.objects.values.filter (Object.isCounted region bucket)).length
  documentPage : 0 < limit →
    (Documents.getBucketObjectList documents region bucket limit).Subperm
      (db.objects.values.filter (Object.isIn region bucket)) ∧
    (Documents.getBucketObjectList documents region bucket limit).length =
      min limit (db.objects.values.filter (Object.isIn region bucket)).length

/-! ### The in-memory store -/

variable {search db documents region bucket keyPrefix limit}

theorem startsWith_nil (s : Str) : startsWith s [] = true := rfl

/-- An empty prefix is one that every key has. -/
theorem startsWith_or (s : Str) : (keyPrefix = [] ∨ startsWith s keyPrefix = true) ↔ startsWith s keyPrefix = true := by
  refine ⟨?_, .inr⟩
  rintro (rfl | h)
  · exact startsWith_nil s
  · exact h

theorem memory_listBucket (db : S3MemoryDb) (bucket keyPrefix : Str) : db.listBucket bucket keyPrefix =
    db.objects.values.filter fun object => object.bucket = bucket ∧ startsWith object.key keyPrefix := by
  simp only [S3MemoryDb.listBucket, startsWith_or]

theorem memory_listObjects (db : S3MemoryDb) (keyPrefix : Str) : db.listObjects keyPrefix =
    db.objects.values.filter fun object => startsWith object.key keyPrefix := by
  simp only [S3MemoryDb.listObjects, startsWith_or, Bool.decide_eq_true]

/-- With both names, the count is right if no object has just one of them. -/
theorem memory_objectCount (h : region = [] ∨ bucket = [] ∨
    ∀ object ∈ db.objects.values, object.region = region ↔ object.bucket = bucket) :
    db.objectCount region bucket = (db.objects.values.filter (Object.isCounted region bucket)).length := by
  rw [S3MemoryDb.objectCount]
  split
  · next hboth =>
    have hall : ∀ object ∈ db.objects.values, object.isCounted region bucket = true := by
      intro object _
      simp [Object.isCounted, hboth]
    rw [List.filter_eq_self.mpr hall, OrderedMap.size, OrderedMap.values, List.length_map]
  · next hsome =>
    congr 1
    refine List.filter_congr fun object hobject => decide_eq_decide.mpr ?_
    by_cases hr : region = []
    · have hb : bucket ≠ [] := fun hb => hsome ⟨hr, hb⟩
      simp [hr, hb]
    · by_cases hb : bucket = []
      · simp [hr, hb]
      · have hiff := (h.resolve_left hr).resolve_left hb object hobject
        simp [hr, hb, hiff]

/-- The loop gets past objects that all fit. -/
theorem le_length_takeWhile {α : Type} {p : α → Bool} : ∀ {l : List α} {n : Nat}, n ≤ l.length →
    (∀ x ∈ l.take n, p x = true) → n ≤ (l.takeWhile p).length
  | _, 0, _, _ => Nat.zero_le _
  | x :: l, n + 1, hn, h => by
    have hx : p x = true := h x (by simp)
    rw [List.takeWhile_cons_of_pos hx, List.length_cons]
    exact Nat.succ_le_succ (le_length_takeWhile (Nat.le_of_succ_le_succ hn) fun y hy => h y (by simp [hy]))

theorem takeWhile_sublist_filter {α : Type} (p : α → Bool) : ∀ l : List α, (l.takeWhile p).Sublist (l.filter p)
  | [] => List.Sublist.slnil
  | x :: l => by
    by_cases hx : p x = true
    · rw [List.takeWhile_cons_of_pos hx, List.filter_cons_of_pos hx]
      exact (takeWhile_sublist_filter p l).cons_cons x
    · rw [List.takeWhile_cons_of_neg hx]
      exact List.nil_sublist _

theorem memory_page (db : S3MemoryDb) (region bucket : Str) (limit : Nat) :
    db.getBucketObjectList region bucket limit =
      (db.objects.values.takeWhile (Object.isIn region bucket)).take limit := rfl

/-- Where the loop does not end early, it fills the page. -/
theorem memory_fullPage (h : ∀ object ∈ db.objects.values.take
      (min limit (db.objects.values.filter (Object.isIn region bucket)).length), object.isIn region bucket) :
    (db.getBucketObjectList region bucket limit).length =
      min limit (db.objects.values.filter (Object.isIn region bucket)).length := by
  have htotal : (db.objects.values.filter (Object.isIn region bucket)).length ≤ db.objects.values.length :=
    List.length_filter_le ..
  have hle : min limit (db.objects.values.filter (Object.isIn region bucket)).length ≤
      (db.objects.values.takeWhile (Object.isIn region bucket)).length := le_length_takeWhile (by omega) h
  have hge := (takeWhile_sublist_filter (Object.isIn region bucket) db.objects.values).length_le
  rw [memory_page, List.length_take]
  omega

/-! ### The documents -/

section Documents

variable (hsearch : ∀ {keyPrefix key}, Literal keyPrefix →
  search (Documents.keyPattern keyPrefix) key = startsWith key keyPrefix)
include hsearch

theorem documents_listBucket (h : Literal keyPrefix) : Documents.listBucket search documents bucket keyPrefix =
    documents.filter fun object => object.bucket = bucket ∧ startsWith object.key keyPrefix := by
  rw [Documents.listBucket]
  split
  · next hnil => simp [hnil, startsWith_nil]
  · simp only [hsearch h]

theorem documents_listObjects (h : Literal keyPrefix) : Documents.listObjects search documents keyPrefix =
    documents.filter fun object => startsWith object.key keyPrefix := by
  rw [Documents.listObjects]
  split
  · next hnil => simp [hnil, startsWith_nil]
  · simp only [hsearch h]

end Documents

theorem documents_objectCount (documents : List Object) (region bucket : Str) :
    Documents.objectCount documents region bucket = (documents.filter (Object.isCounted region bucket)).length := by
  have hcounted : Object.isCounted region bucket = fun object =>
    decide ((region = [] ∨ object.region = region) ∧ (bucket = [] ∨ object.bucket = bucket)) := rfl
  rw [hcounted, Documents.objectCount]
  by_cases hr : region = [] <;> by_cases hb : bucket = [] <;> simp [hr, hb]

/-- The listings return all objects asked for, up to the loop of the bounded listing, the count with both names, and
    patterns. -/
theorem listings_complete (hsearch : ∀ {keyPrefix key}, Literal keyPrefix →
      search (Documents.keyPattern keyPrefix) key = startsWith key keyPrefix)
    (hdocuments : documents.Perm db.objects.values) :
    Listings search db documents region bucket keyPrefix limit where
  listBucket := memory_listBucket db bucket keyPrefix
  listObjects := memory_listObjects db keyPrefix
  objectCount := memory_objectCount
  page := by
    rw [memory_page]
    exact ⟨(List.take_sublist ..).trans (takeWhile_sublist_filter ..), List.length_take_le ..⟩
  fullPage := memory_fullPage
  sameBucket h := by
    rw [documents_listBucket hsearch h, memory_listBucket]
    exact hdocuments.filter _
  sameObjects h := by
    rw [documents_listObjects hsearch h, memory_listObjects]
    exact hdocuments.filter _
  documentCount := by
    rw [documents_objectCount]
    exact (hdocuments.filter _).length_eq
  documentPage hlimit := by
    have hperm := hdocuments.filter (Object.isIn region bucket)
    rw [Documents.getBucketObjectList, Documents.limited, if_neg hlimit.ne', List.length_take, hperm.length_eq]
    exact ⟨(List.take_sublist ..).subperm.trans hperm.subperm, rfl⟩

/-- A search that finds literal patterns only. -/
def literalSearch (pattern text : Str) : Bool := startsWith text (pattern.drop 1).dropLast.dropLast

theorem literalSearch_eq {keyPrefix key : Str} :
    literalSearch (Documents.keyPattern keyPrefix) key = startsWith key keyPrefix := by
  have hstart : (str "^" ++ keyPrefix ++ str ".*").drop 1 = keyPrefix ++ str "." ++ str "*" := by
    rw [List.append_assoc, List.append_assoc]
    rfl
  rw [literalSearch, Documents.keyPattern, hstart]
  simp [str]

/-- One bucket name in two regions. -/
def twoRegions : S3MemoryDb where
  objects := .ofList [
    (str "1", { region := str "eu", bucket := str "b", key := str "k", created := 0, modified := 0 }),
    (str "2", { region := str "us", bucket := str "b", key := str "k", created := 0, modified := 0 })]

theorem listings_two_regions :
    Listings literalSearch twoRegions twoRegions.objects.values (str "eu") (str "b") (str "k") 1 :=
  listings_complete (fun _ => literalSearch_eq) (List.Perm.refl _)

/-- The listing of a bucket has the objects of both regions. -/
theorem other_region_listed :
    ¬ ClaimedListings literalSearch twoRegions twoRegions.objects.values (str "eu") (str "b") (str "k") 1 := by
  intro h
  have hlist := h.listBucket
  revert hlist
  decide +kernel

end AwsMock.S3
