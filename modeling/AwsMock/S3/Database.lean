import Mathlib.Algebra.Order.Ring.Int
import AwsMock.Core.Poco
import AwsMock.Lib.Prog
import AwsMock.S3.MemoryDb

/-!
# The S3 store, its files and what the service draws from outside

`S3Call` lists the atomic steps of the S3 code: the methods of the in-memory store, the operations on
the data files (`data/s3`) and on the directories of multipart uploads (`data/tmp`), and the random
generators, the clock and the other services. A data file is named without its directory.
-/

namespace AwsMock.S3

open Lib

/-- The exceptions of the S3 service. -/
inductive S3Error where
  | notFoundException (message : Str)
  | serviceException (message : Str)
  | pocoException (message : Str)
  | stdException (what : Str)
  deriving DecidableEq

/-- `catch (Poco::Exception &ex) { throw Core::ServiceException(ex.message()); }` -/
def S3Error.toServiceException : S3Error → S3Error
  | .notFoundException message => .serviceException message
  | .serviceException message => .serviceException message
  | .pocoException message => .serviceException message
  | .stdException what => .stdException what

inductive Target where
  | queue
  | topic
  | lambda
  deriving DecidableEq

/-- The record of an event notification. -/
structure EventRecord where
  region : Str
  eventName : Str
  configurationId : Str
  bucket : Str
  key : Str
  size : Int
  etag : Str
  deriving DecidableEq

/-- What the code computes with: the configuration, OpenSSL and Poco. `contentMd5` is
    `HexEncode(Base64Decode(...))`; `encrypt` and `decrypt` take the key of `KMSDatabase`. -/
structure Env where
  dataDir : Str
  transferBucket : Str
  md5 : Str → Str
  sha1 : Str → Str
  sha256 : Str → Str
  contentMd5 : Str → Str
  encrypt : Str → Str → Str
  decrypt : Str → Str → Str

def Env.sample : Env where
  dataDir := str "data"
  transferBucket := str "transfer-server"
  md5 := id
  sha1 := id
  sha256 := id
  contentMd5 := id
  encrypt key content := key ++ content
  decrypt key content := content.drop key.length

/-- What the `n`-th call of a run draws from outside. Random names never repeat; the other services
    may fail; `stack` is what an uninitialised local buffer holds. -/
structure Runtime where
  uuid : Nat → Str
  fileName : Nat → Str
  versionId : Nat → Str
  uploadId : Nat → Str
  now : Nat → TimePoint
  aes256Key : Nat → Str → Str
  send : Nat → Target → Notification → EventRecord → Except S3Error Unit
  deleteTransferFile : Nat → Str → Except S3Error Unit
  dataFile : Nat → Str → Str
  stack : Nat → Nat → UInt8
  uuid_ne : ∀ n, uuid n ≠ []
  uuid_inj : ∀ {n m}, uuid n = uuid m → n = m
  fileName_ne : ∀ n, fileName n ≠ []
  fileName_inj : ∀ {n m}, fileName n = fileName m → n = m
  fileName_dot : ∀ n, byte '.' ∉ fileName n
  versionId_ne : ∀ n, versionId n ≠ []
  versionId_inj : ∀ {n m}, versionId n = versionId m → n = m
  uploadId_ne : ∀ n, uploadId n ≠ []
  uploadId_inj : ∀ {n m}, uploadId n = uploadId m → n = m
  uploadId_dash : ∀ n, byte '-' ∉ uploadId n

/-- A name of `n + 1` equal letters. -/
def letters (c : Char) (n : Nat) : Str := List.replicate (n + 1) (byte c)

@[simp] theorem letters_ne (c : Char) (n : Nat) : letters c n ≠ [] := by simp [letters]

theorem letters_inj {c : Char} {n m : Nat} (h : letters c n = letters c m) : n = m := by
  simpa [letters] using congrArg List.length h

theorem not_mem_letters {c d : Char} (h : byte d ≠ byte c) (n : Nat) : byte d ∉ letters c n := by
  simp [letters, List.mem_replicate, h]

/-- A runtime that counts, in which the other services never fail. -/
def Runtime.counting : Runtime where
  uuid := letters 'i'
  fileName := letters 'f'
  versionId := letters 'v'
  uploadId := letters 'u'
  now n := n
  aes256Key _ keyId := keyId
  send _ _ _ _ := .ok ()
  deleteTransferFile _ _ := .ok ()
  dataFile _ _ := []
  stack _ _ := 0
  uuid_ne := letters_ne 'i'
  uuid_inj := letters_inj
  fileName_ne := letters_ne 'f'
  fileName_inj := letters_inj
  fileName_dot := not_mem_letters (by decide)
  versionId_ne := letters_ne 'v'
  versionId_inj := letters_inj
  uploadId_ne := letters_ne 'u'
  uploadId_inj := letters_inj
  uploadId_dash := not_mem_letters (by decide)

/-! ### Files -/

/-- Write at the start of a file, which keeps what it has behind. -/
def overwrite (old new : Str) : Str := new ++ old.drop new.length

/-- `sendfile` copies at most this many bytes in a call. -/
def sendfileLimit : Nat := 0x7ffff000

/-- `sendfile(dest, source, &start, length)`, `length` converted to `size_t`: the bytes copied. -/
def sendfile (source : Str) (start length : Int) : Str :=
  if start < 0 then []
  else (source.drop start.toNat).take (min (length % 18446744073709551616).toNat sendfileLimit)

/-- The name of the file of a part. -/
def partName (uploadId : Str) (part : Int) : Str := uploadId ++ byte '-' :: toStr part

/-- `std::stol`, without its range check. -/
def stol (s : Str) : Except S3Error Int :=
  let (sign, rest) := signOf (s.dropWhile isSpace)
  let digits := rest.takeWhile isDigit
  if digits = [] then .error (.stdException (str "stol")) else .ok (sign * digitsValue digits)

/-- `SubstringCompare('-')`: the number after the first delimiter; without one, undefined. -/
def substringKey (name : Str) : Option (Except S3Error Int) := ((split (byte '-') name)[1]?).map stol

/-- `ListFilesByPrefix`: fewer than two names are not compared. -/
def listFilesByPrefix (directory : OrderedMap Str Str) (filePrefix : Str) :
    Option (Except S3Error (List Str)) :=
  let names := (directory.entries.map Prod.fst).filter fun name => startsWith name filePrefix
  if names.length < 2 then some (.ok names)
  else (names.mapM fun name => (substringKey name).map fun key => key.map fun k => (k, name)).map
    fun keyed => do
      let keyed ← keyed.mapM id
      return (keyed.mergeSort fun a b => a.1 ≤ b.1).map Prod.snd

/-! ### Calls -/

inductive S3Call where
  | clockNow
  | createRandom
  | createS3FileName
  | createS3VersionId
  | generateRandomString
  | bucketExists (region name : Str)
  | getBucketByRegionName (region name : Str)
  | createBucket (bucket : Bucket)
  | listBuckets
  | hasObjects (region bucket : Str)
  | getBucketObjectList (region bucket : Str) (maxKeys : Nat)
  | updateBucket (bucket : Bucket)
  | deleteBucket (region name : Str)
  | objectExists (region bucket key : Str)
  | fileObjectExists (filename : Str)
  | createObject (object : Object)
  | updateObject (object : Object)
  | getObject (region bucket key : Str)
  | getObjectMd5 (region bucket key md5sum : Str)
  | getObjectVersion (region bucket key versionId : Str)
  | deleteObject (bucket key : Str)
  | deleteObjects (bucket : Str) (keys : List Str)
  | writeFile (name content : Str)
  | fileSize (name : Str)
  | readFile (name : Str)
  | fileExists (name : Str)
  | deleteFile (name : Str)
  | copyTo (source target : Str)
  | encryptFile (name keyId : Str)
  | decryptFile (name keyId : Str)
  | listDirectory
  | createUploadDirectory (uploadId : Str)
  | writePart (uploadId : Str) (part : Int) (content : Str)
  | copyPart (uploadId : Str) (part : Int) (source : Str) (start length : Int)
  | readPart (uploadId : Str) (part : Int)
  | listParts (uploadId : Str)
  | appendParts (outFile uploadId : Str) (files : List Str)
  | deleteUploadDirectory (uploadId : Str)
  | deleteTransferFile (key : Str)
  | send (target : Target) (notification : Notification) (record : EventRecord)
  | startHashCreator (algorithm : Str) (object : Object)
  | readDataFile (name : Str)
  | stackBuffer (size : Int)
  | deleteBucketDirectory (name : Str)
  deriving DecidableEq

namespace S3Call

/-- What a call returns. -/
abbrev Reply : S3Call → Type
  | clockNow => TimePoint
  | createRandom | createS3FileName | createS3VersionId | generateRandomString => Str
  | bucketExists .. | hasObjects .. | objectExists .. | fileObjectExists .. | fileExists .. => Bool
  | getBucketByRegionName .. | createBucket .. | updateBucket .. => Bucket
  | listBuckets => List Bucket
  | getBucketObjectList .. => List Object
  | createObject .. | updateObject .. | getObject .. | getObjectMd5 .. | getObjectVersion .. => Object
  | fileSize .. | appendParts .. => Int
  | readFile .. | readPart .. | readDataFile .. | stackBuffer .. => Str
  | listDirectory => List Str
  | listParts .. => Except S3Error (List Str)
  | deleteFile .. | copyTo .. | deleteTransferFile .. | send .. => Except S3Error Unit
  | deleteBucket .. | deleteObject .. | deleteObjects .. | writeFile .. | encryptFile ..
  | decryptFile .. | createUploadDirectory .. | writePart .. | copyPart ..
  | deleteUploadDirectory .. | startHashCreator .. | deleteBucketDirectory .. => Unit

end S3Call

/-- The process: the store, the data files, the directories of the multipart uploads, and the number of
    calls made so far. -/
structure World where
  db : S3MemoryDb := {}
  files : OrderedMap Str Str := ∅
  uploads : OrderedMap Str (OrderedMap Str Str) := ∅
  calls : Nat := 0
  deriving DecidableEq

namespace World

/-- A file that is missing reads like an empty one. -/
def read (w : World) (name : Str) : Str := (w.files.get? name).getD []

/-- The files of an upload. -/
def directory (w : World) (uploadId : Str) : OrderedMap Str Str := (w.uploads.get? uploadId).getD ∅

/-- The path of a data file. -/
def path (env : Env) (name : Str) : Str := env.dataDir ++ str "/s3/" ++ name

/-- Change the files of an upload; a missing directory stays missing. -/
def changeUpload (w : World) (uploadId : Str) (f : OrderedMap Str Str → OrderedMap Str Str) : World :=
  match w.uploads.get? uploadId with
  | some files => { w with uploads := w.uploads.insert uploadId (f files) }
  | none => w

/-- `FileUtils::DeleteFile` of a data file. The empty name is the directory itself, which can be removed
    only when it is empty. -/
def deleteFile (env : Env) (w : World) (name : Str) : Except S3Error Unit × World :=
  if name = [] then
    (if w.files.size = 0 then .ok () else .error (.pocoException (path env name)), w)
  else (.ok (), { w with files := w.files.eraseIf fun file _ => file = name })

/-- `FileUtils::CopyTo`: a missing source is an error; the directory itself (the empty name) is copied
    into itself until an error ends it. -/
def copyTo (env : Env) (w : World) (source target : Str) : Except S3Error Unit × World :=
  match w.files.get? source with
  | some content => (.ok (), { w with files := w.files.insert target content })
  | none => (.error (.pocoException (path env source)), w)

/-- `Aes256EncryptFile`; it reads a missing file forever. -/
def encryptFile (env : Env) (key : Str) (w : World) (name : Str) : Option World :=
  (w.files.get? name).map fun content =>
    { w with files := w.files.insert name (env.encrypt key content) }

/-- The file `Aes256DecryptFile` writes. -/
def plainName (name : Str) : Str := name ++ str ".plain"

def decryptFile (env : Env) (key : Str) (w : World) (name : Str) : Option World :=
  (w.files.get? name).map fun content =>
    { w with files := w.files.insert (plainName name) (env.decrypt key content) }

/-- `DeleteDirectory` of `data/s3/<name>`. There are no directories in `data/s3`, so it exists only for
    the names that do not lead into it. -/
def deleteBucketDirectory (w : World) (name : Str) : World :=
  if name = [] ∨ name = str "." then { w with files := ∅ }
  else if name = str ".." then { w with files := ∅, uploads := ∅ }
  else w

/-- The bytes `AppendBinaryFiles` copies of each file, in order. -/
def appended (w : World) (uploadId : Str) (files : List Str) : List (Option Str) :=
  files.map fun file => ((w.directory uploadId).get? file).map fun content =>
    sendfile content 0 content.length

/-- `AppendBinaryFiles`: the sum of what `sendfile` returned, -1 for a file that is missing. -/
def appendParts (w : World) (outFile uploadId : Str) (files : List Str) : Int × World :=
  let parts := w.appended uploadId files
  let content := overwrite (w.read outFile) (parts.flatMap fun part => part.getD [])
  ((parts.map fun part => part.elim (-1) fun bytes => (bytes.length : Int)).sum,
    { w with files := w.files.insert outFile content })

end World

/-- The meaning of the `n`-th call; the world keeps its call count. The name of a lambda function is the
    seventh part of its ARN, which is taken unchecked; versions are only looked up in MongoDB. -/
def S3Call.apply (env : Env) (rt : Runtime) (n : Nat) (w : World) :
    (c : S3Call) → Option (c.Reply × World)
  | .clockNow => some (rt.now n, w)
  | .createRandom => some (rt.uuid n, w)
  | .createS3FileName => some (rt.fileName n, w)
  | .createS3VersionId => some (rt.versionId n, w)
  | .generateRandomString => some (rt.uploadId n, w)
  | .bucketExists region name => some (w.db.bucketExists region name, w)
  | .getBucketByRegionName region name =>
    let r := w.db.getBucketByRegionName region name (rt.now n)
    some (r.1, { w with db := r.2 })
  | .createBucket bucket =>
    let r := w.db.createBucket (rt.uuid n) bucket (rt.now n)
    some (r.1, { w with db := r.2 })
  | .listBuckets => some (w.db.listBuckets, w)
  | .hasObjects region bucket => some (w.db.hasObjects region bucket, w)
  | .getBucketObjectList region bucket maxKeys =>
    some (w.db.getBucketObjectList region bucket maxKeys, w)
  | .updateBucket bucket => (w.db.updateBucket bucket).map fun r => (r.1, { w with db := r.2 })
  | .deleteBucket region name => some ((), { w with db := w.db.deleteBucket region name })
  | .objectExists region bucket key => some (w.db.objectExists region bucket key, w)
  | .fileObjectExists filename => some (w.db.fileObjectExists filename, w)
  | .createObject object =>
    let r := w.db.createObject (rt.uuid n) object (rt.now n)
    some (r.1, { w with db := r.2 })
  | .updateObject object => (w.db.updateObject object).map fun r => (r.1, { w with db := r.2 })
  | .getObject region bucket key =>
    let r := w.db.getObject region bucket key (rt.now n)
    some (r.1, { w with db := r.2 })
  | .getObjectMd5 region bucket key md5sum =>
    let r := w.db.getObjectMd5 region bucket key md5sum (rt.now n)
    some (r.1, { w with db := r.2 })
  | .getObjectVersion .. => none
  | .deleteObject bucket key => some ((), { w with db := w.db.deleteObject bucket key })
  | .deleteObjects bucket keys => some ((), { w with db := w.db.deleteObjects bucket keys })
  | .writeFile name content => some ((), { w with files := w.files.insert name content })
  | .fileSize name =>
    some ((w.files.get? name).elim (-1) fun content => (content.length : Int), w)
  | .readFile name => some (w.read name, w)
  | .fileExists name => some (decide (name = []) || (w.files.get? name).isSome, w)
  | .deleteFile name => some (w.deleteFile env name)
  | .copyTo source target => some (w.copyTo env source target)
  | .encryptFile name keyId =>
    (w.encryptFile env (rt.aes256Key n keyId) name).map fun w => ((), w)
  | .decryptFile name keyId =>
    (w.decryptFile env (rt.aes256Key n keyId) name).map fun w => ((), w)
  | .listDirectory => some (w.files.entries.map Prod.fst, w)
  | .createUploadDirectory uploadId =>
    some ((), { w with uploads := w.uploads.insert uploadId (w.directory uploadId) })
  | .writePart uploadId part content =>
    some ((), w.changeUpload uploadId fun files => files.insert (partName uploadId part) content)
  | .copyPart uploadId part source start length =>
    some ((), w.changeUpload uploadId fun files =>
      files.insert (partName uploadId part) (overwrite
        ((files.get? (partName uploadId part)).getD []) (sendfile (w.read source) start length)))
  | .readPart uploadId part =>
    some (((w.directory uploadId).get? (partName uploadId part)).getD [], w)
  | .listParts uploadId =>
    match w.uploads.get? uploadId with
    | some files => (listFilesByPrefix files uploadId).map fun names => (names, w)
    | none => some (.error (.pocoException (env.dataDir ++ str "/tmp/" ++ uploadId)), w)
  | .appendParts outFile uploadId files => some (w.appendParts outFile uploadId files)
  | .deleteUploadDirectory uploadId =>
    some ((), { w with uploads := w.uploads.eraseIf fun name _ => name = uploadId })
  | .deleteTransferFile key => some (rt.deleteTransferFile n key, w)
  | .send target notification record =>
    if target = .lambda ∧ (split (byte ':') notification.arn).length < 7 then none
    else some (rt.send n target notification record, w)
  | .startHashCreator .. => some ((), w)
  | .readDataFile name => some (rt.dataFile n name, w)
  | .stackBuffer size =>
    if size < 0 then none else some ((List.range size.toNat).map (rt.stack n), w)
  | .deleteBucketDirectory name => some ((), w.deleteBucketDirectory name)

/-- The meaning of a call in the process. -/
def exec (env : Env) (rt : Runtime) : Prog.Exec S3Call S3Call.Reply World :=
  fun c w => (c.apply env rt w.calls w).map fun r => (r.1, { r.2 with calls := w.calls + 1 })

end AwsMock.S3
