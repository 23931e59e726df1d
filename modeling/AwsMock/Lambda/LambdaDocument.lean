import AwsMock.Lambda.Entity
import AwsMock.Lib.Bson

/-!
# The document of a lambda function

`ToDocument` and `FromDocument` of a function, its code, its instances and its environment. A decoder
writes into a record that is there. `none` is the exception of an element that is missing or has another
type, and of a name with a NUL.
-/

namespace AwsMock.Lambda

open Lib Bson

inductive LambdaStateReasonCode where
  | idle
  | creating
  | restoring
  | eniLimitExceeded
  | insufficientRolePermissions
  | invalidConfiguration
  | internalError
  | subnetOutOfIPAddresses
  | invalidSubnet
  | invalidSecurityGroup
  | imageDeleted
  | imageAccessDenied
  | invalidImage
  | kmsKeyAccessDenied
  | kmsKeyNotFound
  | invalidStateKMSKey
  | disabledKMSKey
  | efsIOError
  | efsMountConnectivityError
  | efsMountFailure
  | efsMountTimeout
  | invalidRuntime
  | invalidZipFileException
  | functionError
  deriving DecidableEq

/-- The code with its version. -/
structure CodeLocation extends Code where
  s3ObjectVersion : Str := []
  deriving DecidableEq

/-- A function with the fields that only its document has; `s3ObjectVersion` belongs to the code. -/
structure LambdaRecord extends Lambda where
  role : Str := []
  memorySize : Int := 128
  ephemeralStorage : Int := 512
  containerId : Str := []
  timeout : Int := 0
  concurrency : Int := 5
  stateReasonCode : LambdaStateReasonCode := .creating
  s3ObjectVersion : Str := []
  created : Int
  modified : Int
  deriving DecidableEq

def LambdaRecord.codeLocation (l : LambdaRecord) : CodeLocation :=
  { l.code with s3ObjectVersion := l.s3ObjectVersion }

/-! ### Names of the enumerations -/

/-- The first value, in the order of the enumeration, with a name. -/
def ofName {α : Type} (toString : α → Str) (values : List α) (default : α) (name : Str) : α :=
  (values.find? fun value => toString value = name).getD default

/-- Where no two values have the same name, a value is found by its name. -/
theorem ofName_toString {α : Type} {toString : α → Str} {default value : α} : ∀ {values : List α},
    (values.map toString).Nodup → value ∈ values → ofName toString values default (toString value) = value
  | first :: values, hnodup, hmem => by
    rw [List.map_cons, List.nodup_cons] at hnodup
    rcases List.mem_cons.mp hmem with rfl | hmem
    · simp [ofName]
    · have hne : toString first ≠ toString value := fun heq =>
        hnodup.1 (heq ▸ List.mem_map_of_mem hmem)
      have hrest : ofName toString values default (toString value) = value := ofName_toString hnodup.2 hmem
      simpa [ofName, hne] using hrest

def LambdaState.toString : LambdaState → Str
  | .pending => str "Pending"
  | .active => str "Active"
  | .inactive => str "Inactive"
  | .failed => str "Failed"

def LambdaState.fromString : Str → LambdaState :=
  ofName toString [.pending, .active, .inactive, .failed] .inactive

def LambdaInstanceStatus.toString : LambdaInstanceStatus → Str
  | .instanceIdle => str "Idle"
  | .instanceRunning => str "Running"
  | .instanceFailed => str "Failed"
  | .instanceUnknown => str "Unknown"

def LambdaInstanceStatus.fromString : Str → LambdaInstanceStatus :=
  ofName toString [.instanceIdle, .instanceRunning, .instanceFailed, .instanceUnknown] .instanceUnknown

namespace LambdaStateReasonCode

def toString : LambdaStateReasonCode → Str
  | .idle => str "Idle"
  | .creating => str "Creating"
  | .restoring => str "Restoring"
  | .eniLimitExceeded => str "EniLimitExceeded"
  | .insufficientRolePermissions => str "InsufficientRolePermissions"
  | .invalidConfiguration => str "InvalidConfiguration"
  | .internalError => str "InternalError"
  | .subnetOutOfIPAddresses => str "SubnetOutOfIPAddresses"
  | .invalidSubnet => str "InvalidSubnet"
  | .invalidSecurityGroup => str "InvalidSecurityGroup"
  | .imageDeleted => str "ImageDeleted"
  | .imageAccessDenied => str "ImageAccessDenied"
  | .invalidImage => str "InvalidImage"
  | .kmsKeyAccessDenied => str "KMSKeyAccessDenied"
  | .kmsKeyNotFound => str "KMSKeyNotFound"
  | .invalidStateKMSKey => str "InvalidStateKMSKey"
  | .disabledKMSKey => str "DisabledKMSKey"
  | .efsIOError => str "EFSIOError"
  | .efsMountConnectivityError => str "EFSMountConnectivityError"
  | .efsMountFailure => str "EFSMountFailure"
  | .efsMountTimeout => str "EFSMountTimeout"
  | .invalidRuntime => str "InvalidRuntime"
  | .invalidZipFileException => str "InvalidZipFileException"
  | .functionError => str "FunctionError"

/-- All codes, in the order of the enumeration. -/
def all : List LambdaStateReasonCode :=
  [.idle, .creating, .restoring, .eniLimitExceeded, .insufficientRolePermissions,
    .invalidConfiguration, .internalError, .subnetOutOfIPAddresses, .invalidSubnet,
    .invalidSecurityGroup, .imageDeleted, .imageAccessDenied, .invalidImage, .kmsKeyAccessDenied,
    .kmsKeyNotFound, .invalidStateKMSKey, .disabledKMSKey, .efsIOError, .efsMountConnectivityError,
    .efsMountFailure, .efsMountTimeout, .invalidRuntime, .invalidZipFileException, .functionError]

def fromString : Str → LambdaStateReasonCode := ofName toString all .idle

end LambdaStateReasonCode

/-! ### Encoders -/

/-- The fields of the S3 object are written when there is a bucket. -/
def CodeLocation.toDocument (c : CodeLocation) : List (Str × Bson) :=
  (if c.s3Bucket ≠ [] then
    [(str "s3Bucket", .string c.s3Bucket), (str "s3Key", .string c.s3Key),
      (str "s3ObjectVersion", .string c.s3ObjectVersion)]
  else []) ++ if c.zipFile ≠ [] then [(str "zipFile", .string c.zipFile)] else []

def Instance.toDocument (i : Instance) : List (Str × Bson) :=
  [(str "id", .string i.id), (str "containerId", .string i.containerId), (str "hostPort", .int32 i.hostPort),
    (str "status", .string i.status.toString), (str "created", .date (dateOf i.created))]

/-- The `environment`: one document for each variable. -/
def environmentToDocument (vars : OrderedMap Str Str) : Option (List (Str × Bson)) := do
  let variablesDoc ← ofMap vars
  return [(str "variables", .array (variablesDoc.map fun e => .document [e]))]

def LambdaRecord.toDocument (l : LambdaRecord) : Option (List (Str × Bson)) := do
  let varDoc ← environmentToDocument l.environment
  let tagsDoc ← ofMap l.tags
  return [
    (str "region", .string l.region), (str "user", .string l.user), (str "function", .string l.function),
    (str "runtime", .string l.runtime), (str "role", .string l.role), (str "handler", .string l.handler),
    (str "memorySize", .int64 l.memorySize),
    (str "ephemeralStorage", .document [(str "size", .int64 l.ephemeralStorage)]),
    (str "codeSize", .int64 l.codeSize), (str "imageId", .string l.imageId),
    (str "containerId", .string l.containerId), (str "tags", .document tagsDoc), (str "arn", .string l.arn),
    (str "hostPort", .int32 l.hostPort), (str "timeout", .int32 l.timeout),
    (str "concurrency", .int32 l.concurrency), (str "codeSha256", .string l.codeSha256),
    (str "environment", .document varDoc), (str "code", .document l.codeLocation.toDocument),
    (str "state", .string l.state.toString), (str "stateReason", .string l.stateReason),
    (str "stateReasonCode", .string l.stateReasonCode.toString),
    (str "instances", .array (l.instances.map fun i => .document i.toDocument)),
    (str "lastStarted", .date (dateOf l.lastStarted)), (str "lastInvocation", .date (dateOf l.lastInvocation)),
    (str "created", .date (dateOf l.created)), (str "modified", .date (dateOf l.modified))]

/-- What the database holds: it puts the object id in front. -/
def LambdaRecord.storedDocument (l : LambdaRecord) : Option (List (Str × Bson)) :=
  l.toDocument.map fun doc => (str "_id", .oid l.oid) :: doc

/-! ### Decoders -/

def CodeLocation.fromDocument (c : CodeLocation) (doc : List (Str × Bson)) : Option CodeLocation := do
  let zipFile ← match element (str "zipFile") doc with
    | some zipFile => getString (some zipFile)
    | none => some c.zipFile
  match element (str "s3Bucket") doc with
  | some s3Bucket => do
    let s3Bucket ← getString (some s3Bucket)
    let s3Key ← getString (element (str "s3Key") doc)
    let s3ObjectVersion ← getString (element (str "s3ObjectVersion") doc)
    return { zipFile := zipFile, s3Bucket := s3Bucket, s3Key := s3Key, s3ObjectVersion := s3ObjectVersion }
  | none => return { c with zipFile := zipFile }

def Instance.fromDocument (doc : List (Str × Bson)) : Option Instance := do
  let id ← getString (element (str "id") doc)
  let containerId ← getString (element (str "containerId") doc)
  let hostPort ← getInt32 (element (str "hostPort") doc)
  let status ← getString (element (str "status") doc)
  let created ← getDate (element (str "created") doc)
  return { id := id, containerId := containerId, hostPort := hostPort,
           status := LambdaInstanceStatus.fromString status, created := timeOf created }

/-- The variables of one document of the array: an assignment for each. -/
def readVariables (vars : OrderedMap Str Str) (item : Bson) : Option (OrderedMap Str Str) := do
  (← getDocument (some item)).foldlM (fun vars it =>
    (getString (some it.2)).map (vars.insert it.1)) vars

def environmentFromDocument (vars : OrderedMap Str Str) (doc : List (Str × Bson)) :
    Option (OrderedMap Str Str) :=
  match element (str "variables") doc with
  | some varDoc => do (← getArray (some varDoc)).foldlM readVariables vars
  | none => some vars

def LambdaRecord.fromDocument (l : LambdaRecord) (doc : List (Str × Bson)) : Option LambdaRecord := do
  let oid ← getOid (element (str "_id") doc)
  let region ← getString (element (str "region") doc)
  let user ← getString (element (str "user") doc)
  let function ← getString (element (str "function") doc)
  let runtime ← getString (element (str "runtime") doc)
  let role ← getString (element (str "role") doc)
  let handler ← getString (element (str "handler") doc)
  let memorySize ← getInt64 (element (str "memorySize") doc)
  let ephemeralStorage ← getInt64 (element (str "size") (← getDocument (element (str "ephemeralStorage") doc)))
  let codeSize ← getInt64 (element (str "codeSize") doc)
  let imageId ← getString (element (str "imageId") doc)
  let containerId ← getString (element (str "containerId") doc)
  let arn ← getString (element (str "arn") doc)
  let codeSha256 ← getString (element (str "codeSha256") doc)
  let hostPort ← getInt32 (element (str "hostPort") doc)
  let timeout ← getInt32 (element (str "timeout") doc)
  let concurrency ← getInt32 (element (str "concurrency") doc)
  let environment ← environmentFromDocument l.environment (← getDocument (element (str "environment") doc))
  let state ← getString (element (str "state") doc)
  let stateReason ← getString (element (str "stateReason") doc)
  let stateReasonCode ← getString (element (str "stateReasonCode") doc)
  let lastStarted ← getDate (element (str "lastStarted") doc)
  let lastInvocation ← getDate (element (str "lastInvocation") doc)
  let created ← getDate (element (str "created") doc)
  let modified ← getDate (element (str "modified") doc)
  let tags ← readMap (str "tags") doc l.tags
  let code ← match element (str "code") doc with
    | some code => do l.codeLocation.fromDocument (← getDocument (some code))
    | none => some l.codeLocation
  let instances ←
    readArray (fun item => do Instance.fromDocument (← getDocument (some item))) (str "instances") doc l.instances
  return {
    oid := oid, region := region, user := user, function := function, runtime := runtime, role := role,
    handler := handler, memorySize := memorySize, ephemeralStorage := ephemeralStorage, codeSize := codeSize,
    imageId := imageId, containerId := containerId, arn := arn, codeSha256 := codeSha256, hostPort := hostPort,
    timeout := timeout, concurrency := concurrency, environment := environment,
    state := LambdaState.fromString state, stateReason := stateReason,
    stateReasonCode := LambdaStateReasonCode.fromString stateReasonCode, lastStarted := timeOf lastStarted,
    lastInvocation := timeOf lastInvocation, created := timeOf created, modified := timeOf modified,
    tags := tags, code := code.toCode, s3ObjectVersion := code.s3ObjectVersion, instances := instances }

/-! ### Round trips -/

@[simp] theorem LambdaState.fromString_toString (state : LambdaState) : fromString state.toString = state :=
  ofName_toString (by decide +kernel) (by cases state <;> decide)

@[simp] theorem LambdaInstanceStatus.fromString_toString (status : LambdaInstanceStatus) :
    fromString status.toString = status :=
  ofName_toString (by decide +kernel) (by cases status <;> decide)

@[simp] theorem LambdaStateReasonCode.fromString_toString (code : LambdaStateReasonCode) :
    fromString code.toString = code :=
  ofName_toString (by decide +kernel) (by cases code <;> decide)

/-- A code without a bucket has no other field of the S3 object. -/
def CodeLocation.Complete (c : CodeLocation) : Prop := c.s3Bucket = [] → c.s3Key = [] ∧ c.s3ObjectVersion = []

/-- What is left of a code. -/
def CodeLocation.kept (c : CodeLocation) : CodeLocation := if c.s3Bucket = [] then { zipFile := c.zipFile } else c

theorem CodeLocation.kept_eq_iff (c : CodeLocation) : c.kept = c ↔ c.Complete := by
  unfold kept Complete
  rcases c with ⟨⟨zipFile, s3Bucket, s3Key⟩, s3ObjectVersion⟩
  by_cases hbucket : s3Bucket = []
  · simp [hbucket, eq_comm]
  · simp [hbucket]

/-- What a new code reads. -/
theorem CodeLocation.document_read (c : CodeLocation) : fromDocument {} c.toDocument = some c.kept := by
  rcases c with ⟨⟨_ | ⟨z, zipFile⟩, _ | ⟨b, s3Bucket⟩, s3Key⟩, s3ObjectVersion⟩ <;> rfl

/-- What is left of the times of an instance. -/
def Instance.inMillis (i : Instance) : Instance := { i with created := timeOf (dateOf i.created) }

theorem Instance.inMillis_eq_iff (i : Instance) : i.inMillis = i ↔ 1000000 ∣ i.created := by
  rw [← timeOf_dateOf_iff]
  constructor
  · exact fun h => congrArg Instance.created h
  · intro h
    rw [inMillis, h]

theorem Instance.document_read (i : Instance) :
    Instance.fromDocument i.toDocument = some i.inMillis := by
  have hstatus : getString (element (str "status") i.toDocument) = some i.status.toString := rfl
  rw [fromDocument, hstatus]
  change some _ = _
  rw [LambdaInstanceStatus.fromString_toString]
  rfl

/-- The variables are read one after the other. -/
theorem foldlM_readVariables : ∀ (es : List (Str × Str)) (vars : OrderedMap Str Str),
    (es.map fun e => Bson.document [(e.1, .string e.2)]).foldlM readVariables vars =
      some (es.foldl (fun vars e => vars.insert e.1 e.2) vars)
  | [], _ => rfl
  | e :: es, vars => by
    rw [List.map_cons, List.foldlM_cons, List.foldl_cons, ← foldlM_readVariables es]
    rfl

theorem environment_document_round_trip {vars : OrderedMap Str Str} {doc : List (Str × Bson)}
    (h : environmentToDocument vars = some doc) : environmentFromDocument ∅ doc = some vars := by
  obtain ⟨variablesDoc, hvars, hdoc⟩ := Option.bind_eq_some_iff.mp h
  obtain rfl := Option.some.inj hdoc
  unfold ofMap at hvars
  split at hvars
  · obtain rfl := Option.some.inj hvars
    have helement : environmentFromDocument ∅ [(str "variables", .array ((vars.entries.map fun e =>
        (e.1, Bson.string e.2)).map fun e => .document [e]))] =
        (vars.entries.map fun e => Bson.document [(e.1, .string e.2)]).foldlM readVariables ∅ := by
      rw [List.map_map]
      rfl
    rw [helement, foldlM_readVariables]
    exact congrArg some vars.ofList_entries
  · cases hvars

namespace LambdaRecord

variable (l : LambdaRecord) (now : Int)

/-- `Entity::Lambda::Lambda` as it is built. -/
def fresh : LambdaRecord := { region := [], function := [], arn := [], created := now, modified := now }

/-- No name of a variable or a tag has a NUL. -/
def NamesWritable : Prop := (∀ e ∈ l.environment.entries, 0 ∉ e.1) ∧ ∀ e ∈ l.tags.entries, 0 ∉ e.1

/-- All times are whole milliseconds. -/
structure WholeMillis : Prop where
  lastStarted : 1000000 ∣ l.lastStarted
  lastInvocation : 1000000 ∣ l.lastInvocation
  created : 1000000 ∣ l.created
  modified : 1000000 ∣ l.modified
  instances : ∀ i ∈ l.instances, 1000000 ∣ i.created

theorem storedDocument_isSome_iff : (∃ doc, l.storedDocument = some doc) ↔ l.NamesWritable := by
  unfold NamesWritable
  rw [← ofMap_isSome_iff, ← ofMap_isSome_iff]
  constructor
  · rintro ⟨doc, hdoc⟩
    obtain ⟨doc', hdoc', -⟩ := Option.map_eq_some_iff.mp hdoc
    obtain ⟨varDoc, hvarDoc, hrest⟩ := Option.bind_eq_some_iff.mp hdoc'
    obtain ⟨variablesDoc, hvars, -⟩ := Option.bind_eq_some_iff.mp hvarDoc
    obtain ⟨tagsDoc, htags, -⟩ := Option.bind_eq_some_iff.mp hrest
    exact ⟨⟨_, hvars⟩, _, htags⟩
  · rintro ⟨⟨variablesDoc, hvars⟩, tagsDoc, htags⟩
    simp [storedDocument, toDocument, environmentToDocument, hvars, htags]

/-- What a new record reads of a stored function. -/
theorem document_read {doc : List (Str × Bson)} (h : l.storedDocument = some doc) :
    (fresh now).fromDocument doc = some { l with
      lastStarted := timeOf (dateOf l.lastStarted), lastInvocation := timeOf (dateOf l.lastInvocation),
      created := timeOf (dateOf l.created), modified := timeOf (dateOf l.modified),
      instances := l.instances.map Instance.inMillis,
      code := l.codeLocation.kept.toCode, s3ObjectVersion := l.codeLocation.kept.s3ObjectVersion } := by
  obtain ⟨doc', hdoc', rfl⟩ := Option.map_eq_some_iff.mp h
  obtain ⟨varDoc, hvarDoc, hrest⟩ := Option.bind_eq_some_iff.mp hdoc'
  obtain ⟨tagsDoc, htagsDoc, hdoc⟩ := Option.bind_eq_some_iff.mp hrest
  obtain rfl := Option.some.inj hdoc
  have htags : intoMap tagsDoc ∅ = some l.tags := intoMap_self htagsDoc (.inl rfl)
  have henvironment : environmentFromDocument ∅ varDoc = some l.environment :=
    environment_document_round_trip hvarDoc
  unfold fromDocument
  -- The elements without a decoder of their own are read by computing.
  iterate 19 refine Option.bind_eq_some_iff.mpr ⟨_, rfl, ?_⟩
  refine Option.bind_eq_some_iff.mpr ⟨_, henvironment, ?_⟩
  iterate 7 refine Option.bind_eq_some_iff.mpr ⟨_, rfl, ?_⟩
  refine Option.bind_eq_some_iff.mpr ⟨_, htags, ?_⟩
  refine Option.bind_eq_some_iff.mpr ⟨_, rfl, ?_⟩
  refine Option.bind_eq_some_iff.mpr ⟨_, l.codeLocation.document_read, ?_⟩
  refine Option.bind_eq_some_iff.mpr ⟨_, readArray_map rfl (fun i _ => i.document_read) [], ?_⟩
  rw [LambdaState.fromString_toString, LambdaStateReasonCode.fromString_toString]
  rfl

/-- A function comes back from its document exactly if its names can be written, its code is complete and its
    times are whole milliseconds. -/
theorem lambda_round_trips_iff :
    (∃ doc, l.storedDocument = some doc ∧ (fresh now).fromDocument doc = some l) ↔
      l.NamesWritable ∧ l.codeLocation.Complete ∧ l.WholeMillis := by
  rw [← CodeLocation.kept_eq_iff]
  constructor
  · rintro ⟨doc, hdoc, hread⟩
    rw [l.document_read now hdoc] at hread
    have hsame := Option.some.inj hread
    have hinstances : l.instances.map Instance.inMillis = l.instances := congrArg (·.instances) hsame
    refine ⟨l.storedDocument_isSome_iff.mp ⟨doc, hdoc⟩, congrArg codeLocation hsame, ?_⟩
    constructor
    · exact (timeOf_dateOf_iff _).mp (congrArg (·.lastStarted) hsame)
    · exact (timeOf_dateOf_iff _).mp (congrArg (·.lastInvocation) hsame)
    · exact (timeOf_dateOf_iff _).mp (congrArg (·.created) hsame)
    · exact (timeOf_dateOf_iff _).mp (congrArg (·.modified) hsame)
    · intro i hi
      have hmap : l.instances.map Instance.inMillis = l.instances.map id := by rw [hinstances, List.map_id]
      exact i.inMillis_eq_iff.mp (List.map_inj_left.mp hmap i hi)
  · rintro ⟨hnames, hcode, htimes⟩
    obtain ⟨doc, hdoc⟩ := l.storedDocument_isSome_iff.mpr hnames
    have hinstances : l.instances.map Instance.inMillis = l.instances := by
      have hmap : l.instances.map Instance.inMillis = l.instances.map id :=
        List.map_inj_left.mpr fun i hi => i.inMillis_eq_iff.mpr (htimes.instances i hi)
      rw [hmap, List.map_id]
    refine ⟨doc, hdoc, ?_⟩
    rw [l.document_read now hdoc, hcode, hinstances, (timeOf_dateOf_iff _).mpr htimes.lastStarted,
      (timeOf_dateOf_iff _).mpr htimes.lastInvocation, (timeOf_dateOf_iff _).mpr htimes.created,
      (timeOf_dateOf_iff _).mpr htimes.modified]
    rfl

/-- A function whose code has a key without a bucket. -/
theorem code_key_without_bucket_lost :
    ¬ ∀ (l : LambdaRecord) (now : Int), l.NamesWritable → l.WholeMillis →
      ∃ doc, l.storedDocument = some doc ∧ (fresh now).fromDocument doc = some l := by
  intro h
  have hround := h { fresh 0 with code := { s3Key := str "f.zip" } } 0 ⟨by decide, by decide⟩
    ⟨by decide, by decide, by decide, by decide, by decide⟩
  have hcomplete := ((lambda_round_trips_iff _ 0).mp hround).2.1
  exact absurd (hcomplete rfl).1 (by decide +kernel)

end LambdaRecord

end AwsMock.Lambda
