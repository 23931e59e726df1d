import AwsMock.Core.NumberUtils
import AwsMock.S3.Database

/-!
# The S3 service

`S3Service`, and the `GetObject` handler that reads the data file, as programs over the calls. A
request's body is the content of its stream. Logging, the metrics timers and the creation of the data
directories are left out.
-/

namespace AwsMock.S3

open Lib

/-- A program over the store and its files. -/
abbrev S3Prog := Prog S3Call S3Call.Reply S3Error

/-- One call. -/
abbrev call (c : S3Call) : S3Prog c.Reply := Prog.perform c

/-- A block guarded by `catch (Poco::Exception &ex) { throw ServiceException(ex.message()); }`. -/
def guarded {α : Type} (p : S3Prog α) : S3Prog α := p.mapThrow S3Error.toServiceException

/-! ### Requests and responses -/

structure CreateBucketRequest where
  region : Str
  name : Str
  owner : Str := []

structure PutBucketEncryptionRequest where
  region : Str
  bucket : Str
  sseAlgorithm : Str
  kmsKeyId : Str

structure PutBucketVersioningRequest where
  region : Str
  bucket : Str
  status : Str

structure DeleteBucketRequest where
  region : Str
  bucket : Str

structure PutObjectRequest where
  region : Str
  bucket : Str
  key : Str
  owner : Str := []
  md5Sum : Str := []
  contentType : Str := []
  checksumAlgorithm : Str := []
  metadata : OrderedMap Str Str := ∅

structure PutObjectResponse where
  bucket : Str
  key : Str
  etag : Str
  md5Sum : Str
  contentLength : Int
  checksumSha1 : Str
  checksumSha256 : Str
  metadata : OrderedMap Str Str
  versionId : Str := []
  deriving DecidableEq

structure GetObjectRequest where
  region : Str
  bucket : Str
  key : Str
  versionId : Str := []

/-- `filename` is the name of a data file. -/
structure GetObjectResponse where
  bucket : Str
  key : Str
  size : Int
  filename : Str
  contentType : Str
  metadata : OrderedMap Str Str
  md5sum : Str
  modified : TimePoint
  deriving DecidableEq

structure CreateMultipartUploadRequest where
  region : Str
  bucket : Str
  key : Str
  user : Str := []
  metadata : OrderedMap Str Str := ∅

structure UploadPartCopyRequest where
  region : Str
  uploadId : Str
  partNumber : Int
  sourceBucket : Str
  sourceKey : Str
  min : Int
  max : Int

structure CompleteMultipartUploadRequest where
  region : Str
  bucket : Str
  key : Str
  uploadId : Str
  checksumAlgorithm : Str := []

structure CompleteMultipartUploadResult where
  location : Str
  bucket : Str
  key : Str
  etag : Str
  md5sum : Str
  deriving DecidableEq

/-- `CopyObjectRequest` and `MoveObjectRequest`. -/
structure CopyObjectRequest where
  region : Str
  sourceBucket : Str
  sourceKey : Str
  targetBucket : Str
  targetKey : Str
  metadata : OrderedMap Str Str := ∅

structure DeleteObjectRequest where
  region : Str
  bucket : Str
  key : Str

structure DeleteObjectsRequest where
  region : Str
  bucket : Str
  keys : List Str

def bucketDoesNotExist : S3Error := .notFoundException (str "Bucket does not exist")

/-! ### Notifications -/

/-- The notifications of a bucket for a target. -/
def Bucket.notifications (bucket : Bucket) : Target → List Notification
  | .queue => bucket.queueNotifications
  | .topic => bucket.topicNotifications
  | .lambda => bucket.lambdaNotifications

/-- One of the three parts of `CheckNotifications`: the first notification for the event is sent, if its
    filter fits. -/
def notify (target : Target) (bucket : Bucket) (region key : Str) (size : Int) (event : Str) :
    S3Prog Unit :=
  match (bucket.notifications target).find? fun n => event ∈ n.events with
  | none => pure ()
  | some notification => Prog.when (notification.checkFilter key) do
    let etag ← call .createRandom
    let sent ← call (.send target notification {
      region := region, eventName := event, configurationId := notification.id,
      bucket := bucket.name, key := key, size := size, etag := etag })
    .ofExcept sent

def checkNotifications (region bucket key : Str) (size : Int) (event : Str) : S3Prog Unit := do
  let bucketEntity ← call (.getBucketByRegionName region bucket)
  notify .queue bucketEntity region key size event
  notify .topic bucketEntity region key size event
  notify .lambda bucketEntity region key size event

/-! ### Buckets -/

/-- `CreateBucket`, with the location of the response. -/
def createBucket (request : CreateBucketRequest) : S3Prog Str := do
  if ← call (.bucketExists request.region request.name) then
    let bucket ← call (.getBucketByRegionName request.region request.name)
    return bucket.region
  else guarded do
    let now ← call .clockNow
    let _ ← call (.createBucket {
      region := request.region, name := request.name, owner := request.owner,
      created := now, modified := now })
    return request.region

def putBucketEncryption (request : PutBucketEncryptionRequest) : S3Prog Unit := do
  if ← call (.bucketExists request.region request.bucket) then guarded do
    let bucket ← call (.getBucketByRegionName request.region request.bucket)
    let bucketEncryption := { sseAlgorithm := request.sseAlgorithm, kmsKeyId := request.kmsKeyId }
    let _ ← call (.updateBucket { bucket with bucketEncryption := bucketEncryption })
    return ()
  else .throw bucketDoesNotExist

def putBucketVersioning (request : PutBucketVersioningRequest) : S3Prog Unit := do
  if ← call (.bucketExists request.region request.bucket) then
    let bucket ← call (.getBucketByRegionName request.region request.bucket)
    let versionStatus := BucketVersionStatus.fromString (toLower request.status)
    let _ ← call (.updateBucket { bucket with versionStatus := versionStatus })
    return ()
  else .throw bucketDoesNotExist

def deleteBucket (request : DeleteBucketRequest) : S3Prog Unit := do
  if ← call (.bucketExists request.region request.bucket) then
    if ← call (.hasObjects request.region request.bucket) then
      .throw (.notFoundException (str "Bucket is not empty"))
    else guarded do
      call (.deleteBucketDirectory request.bucket)
      call (.deleteBucket request.region request.bucket)
  else .throw bucketDoesNotExist

/-! ### Objects -/

/-- `S3Database::CreateOrUpdateObject`. -/
def createOrUpdateObject (object : Object) : S3Prog Object := do
  if ← call (.objectExists object.region object.bucket object.key) then
    call (.updateObject object)
  else call (.createObject object)

def checkEncryption (bucket : Bucket) (object : Object) : S3Prog Unit :=
  Prog.when bucket.hasEncryption
    (call (.encryptFile object.internalName bucket.bucketEncryption.kmsKeyId))

/-- The name of the file to read. -/
def checkDecryption (bucket : Bucket) (object : Object) : S3Prog Str :=
  if bucket.hasEncryption then do
    call (.decryptFile object.internalName bucket.bucketEncryption.kmsKeyId)
    return World.plainName object.internalName
  else return object.internalName

/-- The hash task that is started when a checksum is asked for. -/
def startHashing (algorithm : Str) (object : Object) : S3Prog Unit :=
  Prog.when (algorithm ≠ []) (call (.startHashCreator algorithm object))

/-- The content of the data file of an unversioned object. Of a chunked body: the first chunk, read into
    a local buffer of the announced size that is written as a C string. -/
def receiveContent (body : Str) (chunkEncoding : Bool) : S3Prog Str :=
  if chunkEncoding then do
    let firstLine := body.takeWhile (· ≠ byte '\n')
    let rest := body.drop (firstLine.length + 1)
    match hexToInt (stripLineEndings firstLine) with
    | .error what => .throw (.stdException what)
    | .ok size =>
      let buffer ← call (.stackBuffer size)
      let chunk := rest.take size.toNat
      return (chunk ++ buffer.drop chunk.length).takeWhile (· ≠ 0)
  else return body

def saveUnversionedObject (env : Env) (request : PutObjectRequest) (bucket : Bucket) (body : Str)
    (chunkEncoding : Bool) : S3Prog PutObjectResponse := do
  let fileName ← call .createS3FileName
  let content ← receiveContent body chunkEncoding
  call (.writeFile fileName content)
  let size ← call (.fileSize fileName)
  let now ← call .clockNow
  let stored ← call (.readFile fileName)
  let object : Object := {
    region := request.region, bucket := request.bucket, key := request.key,
    owner := request.owner, size := size, md5sum := env.md5 stored,
    contentType := request.contentType, metadata := request.metadata,
    internalName := fileName, created := now, modified := now }
  startHashing request.checksumAlgorithm object
  let object ← createOrUpdateObject object
  checkEncryption bucket object
  checkNotifications request.region request.bucket request.key object.size (str "ObjectCreated")
  return { bucket := request.bucket, key := request.key, etag := object.md5sum,
           md5Sum := object.md5sum, contentLength := size, checksumSha1 := object.sha1sum,
           checksumSha256 := object.sha256sum, metadata := request.metadata }

/-- The version that `SaveVersionedObject` adds when no version has the digest of the request. -/
def createVersion (env : Env) (request : PutObjectRequest) (bucket : Bucket) (fileName : Str)
    (size : Int) : S3Prog Object := do
  let versionId ← call .createS3VersionId
  let now ← call .clockNow
  let stored ← call (.readFile fileName)
  let object ← call (.createObject {
    region := request.region, bucket := request.bucket, key := request.key,
    owner := request.owner, size := size, md5sum := env.md5 stored,
    contentType := request.contentType, metadata := request.metadata,
    internalName := fileName, versionId := versionId, created := now, modified := now })
  startHashing request.checksumAlgorithm object
  checkEncryption bucket object
  checkNotifications request.region request.bucket request.key object.size (str "ObjectCreated")
  return object

/-- The body is stored as it is, chunked or not; the response has the digests of the file as it is at
    the end. -/
def saveVersionedObject (env : Env) (request : PutObjectRequest) (bucket : Bucket) (body : Str) :
    S3Prog PutObjectResponse := do
  let fileName ← call .createS3FileName
  call (.writeFile fileName body)
  let size ← call (.fileSize fileName)
  let now ← call .clockNow
  let existingObject ← call (.getObjectMd5 request.region request.bucket request.key
    (env.contentMd5 request.md5Sum))
  let object ←
    if existingObject.oid = [] then createVersion env request bucket fileName size
    else do
      let deleted ← call (.deleteFile fileName)
      .ofExcept deleted
      pure { created := now, modified := now }
  let stored ← call (.readFile fileName)
  return { bucket := request.bucket, key := request.key, etag := env.md5 stored,
           md5Sum := env.md5 stored, contentLength := size,
           checksumSha1 :=
             if request.checksumAlgorithm = str "SHA1" then env.sha1 stored else object.sha1sum,
           checksumSha256 :=
             if request.checksumAlgorithm = str "SHA256" then env.sha256 stored
             else object.sha256sum,
           metadata := request.metadata, versionId := object.versionId }

def putObject (env : Env) (request : PutObjectRequest) (body : Str) (chunkEncoding : Bool) :
    S3Prog PutObjectResponse := do
  if ← call (.bucketExists request.region request.bucket) then guarded do
    let bucket ← call (.getBucketByRegionName request.region request.bucket)
    if bucket.isVersioned then saveVersionedObject env request bucket body
    else saveUnversionedObject env request bucket body chunkEncoding
  else .throw bucketDoesNotExist

/-- The record of a version. -/
def getVersion (request : GetObjectRequest) : S3Prog Object := do
  let object ← call (.getObjectVersion request.region request.bucket request.key request.versionId)
  if object.oid = [] then .throw (.serviceException (str "Object does not exist"))
  else return object

/-- The part of `GetObject` after its checks. -/
def fetchObject (request : GetObjectRequest) : S3Prog GetObjectResponse := do
  let bucketEntity ← call (.getBucketByRegionName request.region request.bucket)
  let object ←
    if bucketEntity.isVersioned ∧ request.versionId ≠ [] then getVersion request
    else call (.getObject request.region request.bucket request.key)
  let filename ← checkDecryption bucketEntity object
  return { bucket := object.bucket, key := object.key, size := object.size, filename := filename,
           contentType := object.contentType, metadata := object.metadata,
           md5sum := object.md5sum, modified := object.modified }

def getObject (request : GetObjectRequest) : S3Prog GetObjectResponse := do
  if ← call (.bucketExists request.region request.bucket) then
    if request.key = [] then guarded (fetchObject request)
    else if ← call (.objectExists request.region request.bucket request.key) then
      guarded (fetchObject request)
    else .throw (.notFoundException (str "Object does not exist"))
  else .throw bucketDoesNotExist

/-- The handler of a `GetObject` without a range: the response and its body. -/
def handleGetObject (request : GetObjectRequest) : S3Prog (GetObjectResponse × Str) := do
  let response ← getObject request
  let body ← call (.readFile response.filename)
  return (response, body)

/-- The common body of `CopyObject` and `MoveObject`, which differ in the exception thrown, and caught
    again, for a missing target bucket. -/
def copyTo (missingTarget : S3Error) (request : CopyObjectRequest) : S3Prog Object := do
  if ← call (.bucketExists request.region request.sourceBucket) then
    if ← call (.objectExists request.region request.sourceBucket request.sourceKey) then guarded do
      if ← call (.bucketExists request.region request.targetBucket) then
        let targetBucket ← call (.getBucketByRegionName request.region request.targetBucket)
        let sourceObject ← call (.getObject request.region request.sourceBucket request.sourceKey)
        let targetFile ← call .createS3FileName
        let copied ← call (.copyTo sourceObject.internalName targetFile)
        .ofExcept copied
        let now ← call .clockNow
        let versionId ← if targetBucket.isVersioned then call .createS3VersionId else pure []
        let targetObject ← call (.createObject {
          region := request.region, bucket := request.targetBucket, key := request.targetKey,
          owner := sourceObject.owner, size := sourceObject.size, md5sum := sourceObject.md5sum,
          sha1sum := sourceObject.sha1sum, sha256sum := sourceObject.sha256sum,
          contentType := sourceObject.contentType, metadata := request.metadata,
          internalName := targetFile, versionId := versionId, created := now, modified := now })
        checkNotifications targetObject.region targetObject.bucket targetObject.key
          targetObject.size (str "ObjectCreated")
        return targetObject
      else .throw missingTarget
    else .throw (.notFoundException (str "Source object does not exist"))
  else .throw (.notFoundException (str "Source bucket does not exist"))

/-- `CopyObject`, with the target record, whose digest is the `eTag`. -/
def copyObject (request : CopyObjectRequest) : S3Prog Object :=
  copyTo (.notFoundException (str "Target bucket does not exist")) request

/-- `MoveObject`: the source stays. -/
def moveObject (request : CopyObjectRequest) : S3Prog Object :=
  copyTo (.serviceException (str "Target bucket does not exist")) request

/-- The private `DeleteObject`: the data file, and the file of the transfer server. -/
def deleteObjectFiles (env : Env) (bucket key internalName : Str) : S3Prog Unit := do
  let deleted ← call (.deleteFile internalName)
  .ofExcept deleted
  Prog.when (bucket = env.transferBucket) do
    let deleted ← call (.deleteTransferFile key)
    .ofExcept deleted

def deleteObject (env : Env) (request : DeleteObjectRequest) : S3Prog Unit := do
  if ← call (.bucketExists request.region request.bucket) then
    if ← call (.objectExists request.region request.bucket request.key) then guarded do
      let object ← call (.getObject request.region request.bucket request.key)
      call (.deleteObject object.bucket object.key)
      deleteObjectFiles env object.bucket object.key object.internalName
      checkNotifications request.region request.bucket request.key 0 (str "ObjectRemoved")
    else return ()
  else .throw (.notFoundException (str "Bucket does not exist, bucket: " ++ request.bucket))

/-- The files first, then the records. -/
def deleteObjects (env : Env) (request : DeleteObjectsRequest) : S3Prog Unit := do
  if ← call (.bucketExists request.region request.bucket) then guarded do
    Prog.forEach request.keys fun key => do
      let object ← call (.getObject request.region request.bucket key)
      deleteObjectFiles env object.bucket object.key object.internalName
      checkNotifications request.region request.bucket key 0 (str "ObjectRemoved")
    call (.deleteObjects request.bucket request.keys)
  else .throw bucketDoesNotExist

/-! ### Multipart uploads -/

/-- `CreateMultipartUpload`, with the upload id of the response. -/
def createMultipartUpload (request : CreateMultipartUploadRequest) : S3Prog Str := do
  if ← call (.bucketExists request.region request.bucket) then
    let uploadId ← call .generateRandomString
    call (.createUploadDirectory uploadId)
    let now ← call .clockNow
    let _ ← createOrUpdateObject {
      region := request.region, bucket := request.bucket, key := request.key,
      owner := request.user, metadata := request.metadata, created := now, modified := now }
    return uploadId
  else .throw (.notFoundException (str "Bucket does not exist, region: " ++ request.region ++
    str " bucket: " ++ request.bucket))

/-- `UploadPart`, with the `ETag`: `istream_iterator` skips white space. -/
def uploadPart (env : Env) (body : Str) (part : Int) (uploadId : Str) : S3Prog Str := do
  call (.writePart uploadId part (body.filter fun c => !isSpace c))
  let stored ← call (.readPart uploadId part)
  return env.md5 stored

/-- `UploadPartCopy`, with the `eTag`: the part's file is opened without being truncated. -/
def uploadPartCopy (env : Env) (request : UploadPartCopyRequest) : S3Prog Str := do
  let sourceObject ← call (.getObject request.region request.sourceBucket request.sourceKey)
  call (.copyPart request.uploadId request.partNumber sourceObject.internalName request.min
    (request.max - request.min + 1))
  let stored ← call (.readPart request.uploadId request.partNumber)
  return env.md5 stored

def completeMultipartUpload (env : Env) (request : CompleteMultipartUploadRequest) :
    S3Prog CompleteMultipartUploadResult := do
  let listed ← call (.listParts request.uploadId)
  let files ← .ofExcept listed
  let filename ← call .createS3FileName
  let fileSize ← call (.appendParts filename request.uploadId files)
  let stored ← call (.readFile filename)
  let object ← call (.getObject request.region request.bucket request.key)
  let object ← call (.updateObject { object with
    size := fileSize, md5sum := env.md5 stored, internalName := filename })
  startHashing request.checksumAlgorithm object
  call (.deleteUploadDirectory request.uploadId)
  checkNotifications request.region request.bucket request.key object.size (str "ObjectCreated")
  return { location := request.region, bucket := request.bucket, key := request.key,
           etag := env.md5 stored, md5sum := env.md5 stored }

end AwsMock.S3
