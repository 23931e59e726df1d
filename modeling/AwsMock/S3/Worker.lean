import AwsMock.Lib.Machine
import AwsMock.S3.DataFiles
import AwsMock.S3.HashCreator

/-!
# The S3 worker

`S3Worker`: from time to time it deletes the records whose data files are gone, and the data files that no record
names. It runs beside the requests, which write a file first and its record after it, and beside their hash creators.
-/

namespace AwsMock.S3

open Lib

/-! ### The pass -/

inductive S3WorkerCall where
  | listBuckets
  | getBucketObjectList (region bucket : Str) (maxKeys : Nat)
  | fileExists (internalName : Str)
  | deleteObject (object : Object)
  | isDirectory
  | directoryEntries
  | objectExists (filename : Str)
  | deleteFile (filename : Str)

abbrev S3WorkerCall.Reply : S3WorkerCall → Type
  | listBuckets => List Bucket
  | getBucketObjectList .. => List Object
  | fileExists _ | isDirectory | objectExists _ => Bool
  | deleteObject _ => Unit
  | directoryEntries => List Str
  | deleteFile _ => Except S3Error Unit

abbrev S3WorkerProg := Prog S3WorkerCall S3WorkerCall.Reply S3Error

abbrev workerCall (c : S3WorkerCall) : S3WorkerProg c.Reply := Prog.perform c

/-- `Poco::Path::getBaseName`: up to the last dot. -/
def getBaseName (filename : Str) : Str :=
  match filename.reverse.dropWhile (· ≠ byte '.') with
  | [] => filename
  | _ :: rest => rest.reverse

/-- `S3Worker::SyncObjects`, in the configured region. -/
def syncObjects (region : Str) : S3WorkerProg Unit := do
  let buckets ← workerCall .listBuckets
  Prog.when (buckets ≠ []) do
    Prog.forEach buckets fun bucket => do
      let objects ← workerCall (.getBucketObjectList region bucket.name 1000)
      Prog.forEach objects fun object => do
        let fileExists ← workerCall (.fileExists object.internalName)
        Prog.when (fileExists = false) (workerCall (.deleteObject object))
    let isDirectory ← workerCall .isDirectory
    Prog.when (isDirectory = true) do
      let entries ← workerCall .directoryEntries
      Prog.forEach entries fun entry => do
        let objectExists ← workerCall (.objectExists (getBaseName entry))
        Prog.when (objectExists = false) do
          let deleted ← workerCall (.deleteFile entry)
          .ofExcept deleted

/-! ### Requests beside the pass -/

inductive S3Job
  | request (request : S3Request)
  | createHash (algorithm : Str) (object : Object)

def S3Job.program (env : Env) : S3Job → S3Prog Unit
  | request r => serve env r
  | createHash algorithm object => s3HashCreator env algorithm object

/-- The requests that upload objects. -/
def S3Request.IsUpload : S3Request → Prop
  | putObject .. | createMultipartUpload _ | uploadPart .. | completeMultipartUpload _ => True
  | _ => False

abbrev S3JobThread := Thread S3Job S3Call S3Call.Reply S3Error Unit

def S3Job.thread (env : Env) (job : S3Job) : S3JobThread := ⟨job, job.program env⟩

/-- The thread that a call starts. -/
def S3Call.jobs (env : Env) : S3Call → List S3JobThread
  | .startHashCreator algorithm object => [(S3Job.createHash algorithm object).thread env]
  | _ => []

/-- The first steps on `data/s3`, before which requests create the directory. -/
def S3Call.ensuresDirectory : S3Call → Bool
  | .createS3FileName | .listParts _ => true
  | _ => false

/-- The process and whether there is a directory `data/s3`. -/
structure Storage where
  world : World
  dataS3Dir : Bool

abbrev S3JobPool := Thread.Pool S3Job S3Call S3Call.Reply S3Error Unit Storage

def jobExec (env : Env) (rt : Runtime) : Thread.Exec S3Job S3Call S3Call.Reply S3Error Unit Storage :=
  fun _ c s => (exec env rt c s.world).map fun r =>
    .goes r.1 ⟨r.2, s.dataS3Dir || c.ensuresDirectory⟩ (c.jobs env)

/-- The meaning of a call of the worker. -/
def S3WorkerCall.apply (env : Env) (s : Storage) : (c : S3WorkerCall) → c.Reply × World
  | .listBuckets => (s.world.db.listBuckets, s.world)
  | .getBucketObjectList region bucket maxKeys => (s.world.db.getBucketObjectList region bucket maxKeys, s.world)
  | .fileExists name =>
    (s.dataS3Dir && (decide (name = []) || (s.world.files.get? name).isSome), s.world)
  | .deleteObject object =>
    ((), { s.world with db := s.world.db.deleteObject object.bucket object.key })
  | .isDirectory => (s.dataS3Dir, s.world)
  | .directoryEntries => (s.world.files.entries.map Prod.fst, s.world)
  | .objectExists filename => (s.world.db.fileObjectExists filename, s.world)
  | .deleteFile filename => s.world.deleteFile env filename

def workerExec (env : Env) : Prog.Exec S3WorkerCall S3WorkerCall.Reply Storage :=
  fun c s => some ((c.apply env s).1, ⟨(c.apply env s).2, s.dataS3Dir⟩)

/-- A pass of the worker beside the threads. -/
structure Sync where
  worker : S3WorkerProg Unit
  threads : List S3JobThread
  storage : Storage

/-- A call of the `i`-th thread, or of the worker. -/
def syncTurn (env : Env) (rt : Runtime) : Option Nat → Sync → Option Sync
  | some i, x => (Thread.turn (jobExec env rt) i (x.threads, x.storage)).map fun y =>
    { x with threads := y.1, storage := y.2 }
  | none, x => (x.worker.step (workerExec env) x.storage).map fun y =>
    { x with worker := y.1, storage := y.2 }

def startSync (env : Env) (region : Str) (requests : List S3Request) (storage : Storage) : Sync where
  worker := syncObjects region
  threads := requests.map fun request => (S3Job.request request).thread env
  storage := storage

/-! ### What a thread may still record -/

/-- The file name a thread has drawn for a file it has yet to write, and those it knows of files. -/
structure Held where
  drawn : Option Str := none
  known : List Str := []

/-- Files are written under the name just drawn, and records name files that are known. -/
def Held.law (t : Held) : S3Call → Prop
  | .createObject object | .updateObject object | .startHashCreator _ object =>
    object.internalName = [] ∨ object.internalName ∈ t.known
  | .writeFile name _ | .appendParts name .. => t.drawn = some name
  | .copyTo .. | .decryptFile .. | .deleteObject .. | .deleteObjects .. | .deleteBucketDirectory .. => False
  | _ => True

def Held.next (t : Held) : (c : S3Call) → c.Reply → Held
  | .createS3FileName, name => { t with drawn := some name }
  | .writeFile name _, _ | .appendParts name .., _ => { drawn := none, known := name :: t.known }
  | .createObject _, object | .updateObject _, object | .getObject .., object | .getObjectMd5 .., object =>
    { t with known := object.internalName :: t.known }
  | _, _ => t

/-- The protocol of the threads. -/
def storing : Prog.Protocol S3Call S3Call.Reply Held where
  law := Held.law
  next := Held.next

abbrev StoresFrom {α : Type} (p : S3Prog α) (t : Held) : Prop := p.Follows storing (fun _ _ => True) t

/-- A program that keeps to the protocol without knowing a name: there is no record that it has yet to give it to. -/
def Leaves (name : Str) (p : S3Prog Unit) : Prop := ∃ t : Held, name ∉ t.known ∧ StoresFrom p t

/-! ### Safety -/

namespace Sync

/-- What the worker deletes: records without data files, and files that no record names and no thread is about to
    name in one. -/
def Safe : Option Nat → Sync → Prop
  | none, x => match x.worker.next with
    | some (.deleteObject object) => ∀ k o, x.storage.world.db.objects.get? k = some o →
      o.isKeyed object.bucket object.key → o.internalName ≠ [] ∧ x.storage.world.files.get? o.internalName = none
    | some (.deleteFile filename) =>
      (∀ k o, x.storage.world.db.objects.get? k = some o → o.internalName ≠ filename) ∧
        ∀ t ∈ x.threads, Leaves filename t.prog
    | _ => True
  | _, _ => True

/-- There is a directory when the worker looks for the file of a record without one; a record it deletes is the only
    one of its bucket and key, with the file it looked for; and when it looks for the record of a file, no thread is
    between the file and its record. -/
def Settled : Option Nat → Sync → Prop
  | none, x => match x.worker.next with
    | some (.fileExists name) => name = [] → x.storage.dataS3Dir = true
    | some (.deleteObject object) => ∀ k o, x.storage.world.db.objects.get? k = some o →
      o.isKeyed object.bucket object.key → o.internalName = object.internalName
    | some (.objectExists filename) => ∀ t ∈ x.threads, Leaves filename t.prog
    | _ => True
  | _, _ => True

end Sync

/-- The names of records and files were drawn before, and files are in the directory. -/
structure NamesDrawn (rt : Runtime) (s : Storage) : Prop where
  records : ∀ {k object}, s.world.db.objects.get? k = some object →
    object.internalName = [] ∨ ∃ i < s.world.calls, object.internalName = rt.fileName i
  files : ∀ {name content}, s.world.files.get? name = some content →
    ∃ i < s.world.calls, dataFileOf name = rt.fileName i
  directory : s.dataS3Dir = false → s.world.files = ∅

theorem WellFormed.namesDrawn {rt : Runtime} {w : World} (h : WellFormed rt w) : NamesDrawn rt ⟨w, true⟩ where
  records := h.names
  files := h.files
  directory hdir := by cases hdir

end AwsMock.S3
