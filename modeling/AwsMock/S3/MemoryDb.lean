import AwsMock.S3.Entity

/-!
# The in-memory S3 store

`S3MemoryDb`: two maps keyed by a random object id, and one function for each method. Of a record
passed in, a method takes the fields it reads. What it draws from outside is an argument. A method
of the source that dereferences the end iterator has no defined result: `none`.
-/

namespace AwsMock.S3

open Lib

structure S3MemoryDb where
  buckets : OrderedMap Str Bucket := ∅
  objects : OrderedMap Str Object := ∅
  deriving DecidableEq

namespace S3MemoryDb

/-! ### Buckets -/

def bucketExists (db : S3MemoryDb) (region name : Str) : Bool :=
  (db.buckets.findIf fun _ bucket => bucket.isNamed region name).isSome

/-- The common end of the `GetBucketBy…` methods: the record found is given its key as `oid`, in the
    store as well, and returned. -/
def fetchBucket (db : S3MemoryDb) (now : TimePoint) : Option (Str × Bucket) → Bucket × S3MemoryDb
  | some (oid, bucket) =>
    ({ bucket with oid := oid },
      { db with buckets := db.buckets.insert oid { bucket with oid := oid } })
  | none => ({ created := now, modified := now }, db)

def getBucketById (db : S3MemoryDb) (oid : Str) (now : TimePoint) : Bucket × S3MemoryDb :=
  db.fetchBucket now (db.buckets.findIf fun key _ => key = oid)

def getBucketByRegionName (db : S3MemoryDb) (region name : Str) (now : TimePoint) :
    Bucket × S3MemoryDb :=
  db.fetchBucket now (db.buckets.findIf fun _ bucket => bucket.isNamed region name)

def createBucket (db : S3MemoryDb) (oid : Str) (bucket : Bucket) (now : TimePoint) :
    Bucket × S3MemoryDb :=
  getBucketById { db with buckets := db.buckets.insert oid bucket } oid now

def listBuckets (db : S3MemoryDb) : List Bucket := db.buckets.values

def hasObjects (db : S3MemoryDb) (region bucket : Str) : Bool :=
  0 < (db.objects.values.filter fun object =>
    object.region = region ∧ object.bucket = bucket).length

/-- The loop ends at the first object of another bucket or region, and at `maxKeys` objects. -/
def getBucketObjectList (db : S3MemoryDb) (region bucket : Str) (maxKeys : Nat) : List Object :=
  (db.objects.values.takeWhile fun object => object.region = region ∧ object.bucket = bucket).take
    maxKeys

/-- All regions. -/
def listBucket (db : S3MemoryDb) (bucket keyPrefix : Str) : List Object :=
  db.objects.values.filter fun object =>
    object.bucket = bucket ∧ (keyPrefix = [] ∨ startsWith object.key keyPrefix)

def updateBucket (db : S3MemoryDb) (bucket : Bucket) : Option (Bucket × S3MemoryDb) :=
  (db.buckets.findIf fun _ b => b.isNamed bucket.region bucket.name).map fun it =>
    (bucket, { db with buckets := db.buckets.insert it.1 bucket })

def deleteBucket (db : S3MemoryDb) (region name : Str) : S3MemoryDb :=
  { db with buckets := db.buckets.eraseIf fun _ bucket => bucket.isNamed region name }

/-! ### Objects -/

def objectExists (db : S3MemoryDb) (region bucket key : Str) : Bool :=
  (db.objects.findIf fun _ object => object.isAt region bucket key).isSome

/-- The overload for the name of a data file. -/
def fileObjectExists (db : S3MemoryDb) (filename : Str) : Bool :=
  (db.objects.findIf fun _ object => object.internalName = filename).isSome

def fetchObject (db : S3MemoryDb) (now : TimePoint) : Option (Str × Object) → Object × S3MemoryDb
  | some (oid, object) =>
    ({ object with oid := oid },
      { db with objects := db.objects.insert oid { object with oid := oid } })
  | none => ({ created := now, modified := now }, db)

def getObjectById (db : S3MemoryDb) (oid : Str) (now : TimePoint) : Object × S3MemoryDb :=
  db.fetchObject now (db.objects.findIf fun key _ => key = oid)

def createObject (db : S3MemoryDb) (oid : Str) (object : Object) (now : TimePoint) :
    Object × S3MemoryDb :=
  getObjectById { db with objects := db.objects.insert oid object } oid now

/-- The first record of the bucket name and key is replaced, unchecked and whatever its region. -/
def updateObject (db : S3MemoryDb) (object : Object) : Option (Object × S3MemoryDb) :=
  (db.objects.findIf fun _ o => o.isKeyed object.bucket object.key).map fun it =>
    (object, { db with objects := db.objects.insert it.1 object })

def getObject (db : S3MemoryDb) (region bucket key : Str) (now : TimePoint) : Object × S3MemoryDb :=
  db.fetchObject now (db.objects.findIf fun _ object => object.isAt region bucket key)

def getObjectMd5 (db : S3MemoryDb) (region bucket key md5sum : Str) (now : TimePoint) :
    Object × S3MemoryDb :=
  db.fetchObject now (db.objects.findIf fun _ object =>
    object.isAt region bucket key ∧ object.md5sum = md5sum)

/-- The region of the record passed in is not compared. -/
def deleteObject (db : S3MemoryDb) (bucket key : Str) : S3MemoryDb :=
  { db with objects := db.objects.eraseIf fun _ object => object.isKeyed bucket key }

def deleteObjects (db : S3MemoryDb) (bucket : Str) (keys : List Str) : S3MemoryDb :=
  { db with objects :=
      keys.foldl (fun objects key => objects.eraseIf fun _ o => o.isKeyed bucket key) db.objects }

end S3MemoryDb

end AwsMock.S3
