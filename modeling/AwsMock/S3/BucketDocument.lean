import AwsMock.Lib.Bson
import AwsMock.S3.Entity

/-!
# The document of a bucket

`ToDocument` and `FromDocument` of a bucket, its notifications, their filter rules and its encryption. A
decoder writes into a record that is there and appends to its lists. `none` is the exception of an element
that is missing or has another type.
-/

namespace AwsMock.S3

open Lib Bson

structure BucketNotification where
  event : Str := []
  notificationId : Str := []
  queueArn : Str := []
  lambdaArn : Str := []
  deriving DecidableEq

/-- A bucket with its deprecated `notifications`. -/
structure BucketRecord extends Bucket where
  notifications : List BucketNotification := []
  deriving DecidableEq

/-- `BucketVersionStatusToString`. -/
def BucketVersionStatus.toString : BucketVersionStatus → Str
  | .enabled => str "enabled"
  | .suspended => str "suspended"
  | .disabled => str "disabled"

/-! ### Encoders -/

def FilterRule.toDocument (rule : FilterRule) : List (Str × Bson) :=
  [(str "name", .string rule.name), (str "value", .string rule.value)]

/-- The common body of the three `ToDocument`s, which differ in the name of the ARN. -/
def Notification.toDocument (arnName : Str) (n : Notification) : List (Str × Bson) :=
  [(str "id", .string n.id), (arnName, .string n.arn), (str "events", .array (n.events.map .string)),
    (str "filterRules", .array (n.filterRules.map fun rule => .document rule.toDocument))]

def queueNotificationToDocument : Notification → List (Str × Bson) := Notification.toDocument (str "queueArn")

def topicNotificationToDocument : Notification → List (Str × Bson) := Notification.toDocument (str "topicArn")

def lambdaNotificationToDocument : Notification → List (Str × Bson) := Notification.toDocument (str "lambdaArn")

def BucketNotification.toDocument (n : BucketNotification) : List (Str × Bson) :=
  [(str "notificationId", .string n.notificationId), (str "event", .string n.event),
    (str "queueArn", .string n.queueArn), (str "lambdaArn", .string n.lambdaArn)]

def BucketEncryption.toDocument (e : BucketEncryption) : List (Str × Bson) :=
  [(str "sseAlgorithm", .string e.sseAlgorithm), (str "kmsKeyId", .string e.kmsKeyId)]

def BucketRecord.toDocument (b : BucketRecord) : List (Str × Bson) :=
  [(str "region", .string b.region), (str "name", .string b.name), (str "owner", .string b.owner),
    (str "notifications", .array (b.notifications.map fun n => .document n.toDocument)),
    (str "queueNotifications", .array (b.queueNotifications.map fun n => .document (queueNotificationToDocument n))),
    (str "topicNotifications", .array (b.topicNotifications.map fun n => .document (topicNotificationToDocument n))),
    (str "lambdaNotifications",
      .array (b.lambdaNotifications.map fun n => .document (lambdaNotificationToDocument n))),
    (str "encryptionConfiguration", .document b.bucketEncryption.toDocument),
    (str "versionStatus", .string b.versionStatus.toString),
    (str "created", .date (dateOf b.created)), (str "modified", .date (dateOf b.modified))]

/-- What the database holds: it puts the object id in front. -/
def BucketRecord.storedDocument (b : BucketRecord) : List (Str × Bson) :=
  (str "_id", .oid b.oid) :: b.toDocument

/-! ### Decoders -/

def FilterRule.fromDocument (item : Bson) : Option FilterRule := do
  let name ← getString (memberOf (str "name") item)
  let value ← getString (memberOf (str "value") item)
  return { name := name, value := value }

/-- The common body of `QueueNotification::FromDocument` and `LambdaNotification::FromDocument`. -/
def Notification.fromDocument (arnName : Str) (n : Notification) (doc : List (Str × Bson)) : Option Notification := do
  let id ← getString (element (str "id") doc)
  let arn ← getString (element arnName doc)
  let events ← readArray (fun item => getString (some item)) (str "events") doc n.events
  let filterRules ← readArray FilterRule.fromDocument (str "filterRules") doc n.filterRules
  return { id := id, arn := arn, events := events, filterRules := filterRules }

def queueNotificationFromDocument : Notification → List (Str × Bson) → Option Notification :=
  Notification.fromDocument (str "queueArn")

def lambdaNotificationFromDocument : Notification → List (Str × Bson) → Option Notification :=
  Notification.fromDocument (str "lambdaArn")

/-- The events are not read, and the filter rules are read as a document. -/
def topicNotificationFromDocument (n : Notification) (doc : List (Str × Bson)) : Option Notification := do
  let id ← getString (element (str "id") doc)
  let arn ← getString (element (str "topicArn") doc)
  let filterRules ← match element (str "filterRules") doc with
    | some filterRulesView => do
      let rules ← (← getDocument (some filterRulesView)).mapM fun e => FilterRule.fromDocument e.2
      pure (n.filterRules ++ rules)
    | none => some n.filterRules
  return { n with id := id, arn := arn, filterRules := filterRules }

def BucketNotification.fromDocument (item : Bson) : Option BucketNotification := do
  let event ← getString (memberOf (str "event") item)
  let notificationId ← getString (memberOf (str "notificationId") item)
  let queueArn ← getString (memberOf (str "queueArn") item)
  let lambdaArn ← getString (memberOf (str "lambdaArn") item)
  return { event := event, notificationId := notificationId, queueArn := queueArn, lambdaArn := lambdaArn }

def BucketEncryption.fromDocument (doc : List (Str × Bson)) : Option BucketEncryption := do
  let sseAlgorithm ← getString (element (str "sseAlgorithm") doc)
  let kmsKeyId ← getString (element (str "kmsKeyId") doc)
  return { sseAlgorithm := sseAlgorithm, kmsKeyId := kmsKeyId }

/-- The notifications under a name, each read into a new record. -/
def readNotifications (read : Notification → List (Str × Bson) → Option Notification) (name : Str)
    (doc : List (Str × Bson)) (notifications : List Notification) : Option (List Notification) :=
  readArray (fun item => do read {} (← getDocument (some item))) name doc notifications

def BucketRecord.fromDocument (b : BucketRecord) (doc : List (Str × Bson)) : Option BucketRecord := do
  let oid ← getOid (element (str "_id") doc)
  let region ← getString (element (str "region") doc)
  let name ← getString (element (str "name") doc)
  let owner ← getString (element (str "owner") doc)
  let versionStatus ← getString (element (str "versionStatus") doc)
  let created ← getDate (element (str "created") doc)
  let modified ← getDate (element (str "modified") doc)
  let notifications ← readArray BucketNotification.fromDocument (str "notifications") doc b.notifications
  let queueNotifications ←
    readNotifications queueNotificationFromDocument (str "queueNotifications") doc b.queueNotifications
  let topicNotifications ←
    readNotifications topicNotificationFromDocument (str "topicNotifications") doc b.topicNotifications
  let lambdaNotifications ←
    readNotifications lambdaNotificationFromDocument (str "lambdaNotifications") doc b.lambdaNotifications
  let bucketEncryption ← match element (str "encryptionConfiguration") doc with
    | some encryption => do BucketEncryption.fromDocument (← getDocument (some encryption))
    | none => some b.bucketEncryption
  return {
    oid := oid, region := region, name := name, owner := owner,
    versionStatus := BucketVersionStatus.fromString versionStatus, created := timeOf created,
    modified := timeOf modified, notifications := notifications,
    queueNotifications := queueNotifications, topicNotifications := topicNotifications,
    lambdaNotifications := lambdaNotifications, bucketEncryption := bucketEncryption }

/-! ### Round trips -/

@[simp] theorem BucketVersionStatus.fromString_toString (status : BucketVersionStatus) :
    BucketVersionStatus.fromString status.toString = status := by
  cases status <;> decide +kernel

theorem FilterRule.document_round_trip (rule : FilterRule) :
    FilterRule.fromDocument (.document rule.toDocument) = some rule := rfl

theorem BucketNotification.document_round_trip (n : BucketNotification) :
    BucketNotification.fromDocument (.document n.toDocument) = some n := rfl

theorem BucketEncryption.document_round_trip (e : BucketEncryption) :
    BucketEncryption.fromDocument e.toDocument = some e := rfl

theorem Notification.document_round_trip {arnName : Str} (n : Notification)
    (harnName : arnName = str "queueArn" ∨ arnName = str "lambdaArn") :
    ({} : Notification).fromDocument arnName (n.toDocument arnName) = some n := by
  have hid : getString (element (str "id") (n.toDocument arnName)) = some n.id := rfl
  have harn : getString (element arnName (n.toDocument arnName)) = some n.arn := by
    rcases harnName with rfl | rfl <;> rfl
  have heventsElement : element (str "events") (n.toDocument arnName) = some (.array (n.events.map .string)) := by
    rcases harnName with rfl | rfl <;> rfl
  have hevents : readArray (fun item => getString (some item)) (str "events") (n.toDocument arnName) [] =
      some n.events := readArray_map_self heventsElement (fun _ _ => rfl) []
  have hrulesElement : element (str "filterRules") (n.toDocument arnName) =
      some (.array (n.filterRules.map fun rule => .document rule.toDocument)) := by
    rcases harnName with rfl | rfl <;> rfl
  have hrules : readArray FilterRule.fromDocument (str "filterRules") (n.toDocument arnName) [] =
      some n.filterRules := readArray_map_self hrulesElement (fun rule _ => rule.document_round_trip) []
  simp only [fromDocument, hid, harn, hevents, hrules, Option.bind_eq_bind, Option.bind_some, Option.pure_def]

/-- No topic notification is read: its filter rules are an array, even where there are none. -/
theorem topicNotificationFromDocument_toDocument (n₀ n : Notification) :
    topicNotificationFromDocument n₀ (topicNotificationToDocument n) = none := rfl

namespace BucketRecord

variable (b : BucketRecord) (now : TimePoint)

theorem storedDocument_element {name : Str} {value : Bson} (i : Nat)
    (hi : b.storedDocument[i]? = some (name, value)) : element name b.storedDocument = some value := by
  have hnames : [str "_id", str "region", str "name", str "owner", str "notifications", str "queueNotifications",
      str "topicNotifications", str "lambdaNotifications", str "encryptionConfiguration", str "versionStatus",
      str "created", str "modified"].Nodup := by decide +kernel
  exact element_of_getElem? hnames i hi

/-- The lists that a new record reads from the document of a bucket. -/
theorem readNotifications_queue :
    readNotifications queueNotificationFromDocument (str "queueNotifications") b.storedDocument [] =
      some b.queueNotifications :=
  readArray_map_self (b.storedDocument_element 5 rfl) (fun n _ => n.document_round_trip (.inl rfl)) []

theorem readNotifications_lambda :
    readNotifications lambdaNotificationFromDocument (str "lambdaNotifications") b.storedDocument [] =
      some b.lambdaNotifications :=
  readArray_map_self (b.storedDocument_element 7 rfl) (fun n _ => n.document_round_trip (.inr rfl)) []

theorem readNotifications_topic :
    readNotifications topicNotificationFromDocument (str "topicNotifications") b.storedDocument [] =
      if b.topicNotifications = [] then some [] else none := by
  have helement : element (str "topicNotifications") b.storedDocument =
      some (.array (b.topicNotifications.map fun n => .document (topicNotificationToDocument n))) :=
    b.storedDocument_element 6 rfl
  simp only [readNotifications, readArray, helement, getArray]
  cases b.topicNotifications with
  | nil => rfl
  | cons n rest => rfl

/-- What a new record reads of a stored bucket. -/
theorem document_read :
    fromDocument { created := now, modified := now } b.storedDocument =
      if b.topicNotifications = [] then
        some { b with created := timeOf (dateOf b.created), modified := timeOf (dateOf b.modified) }
      else none := by
  have hnotifications :
      readArray BucketNotification.fromDocument (str "notifications") b.storedDocument [] = some b.notifications :=
    readArray_map_self (b.storedDocument_element 4 rfl) (fun n _ => n.document_round_trip) []
  have helement : ∀ {name value} i, _ → element name b.storedDocument = some value := b.storedDocument_element
  rw [fromDocument, hnotifications, b.readNotifications_queue, b.readNotifications_topic, b.readNotifications_lambda,
    helement 0 rfl, helement 1 rfl, helement 2 rfl, helement 3 rfl, helement 8 rfl, helement 9 rfl, helement 10 rfl,
    helement 11 rfl]
  by_cases htopics : b.topicNotifications = []
  · simp only [if_pos htopics, getOid, getString, getDate, getDocument, BucketVersionStatus.fromString_toString,
      BucketEncryption.document_round_trip, Option.bind_eq_bind, Option.bind_some, Option.pure_def]
    rw [← htopics]
  · rw [if_neg htopics, if_neg htopics]
    rfl

/-- Exactly the buckets without topic notifications come back, when their times are whole milliseconds. -/
theorem bucket_round_trips_iff :
    fromDocument { created := now, modified := now } b.storedDocument = some b ↔
      b.topicNotifications = [] ∧ 1000000 ∣ b.created ∧ 1000000 ∣ b.modified := by
  rw [document_read, ← timeOf_dateOf_iff, ← timeOf_dateOf_iff]
  constructor
  · intro h
    have htopics : b.topicNotifications = [] := by
      by_contra hne
      rw [if_neg hne] at h
      cases h
    rw [if_pos htopics] at h
    have hsame := Option.some.inj h
    exact ⟨htopics, congrArg (·.created) hsame, congrArg (·.modified) hsame⟩
  · rintro ⟨htopics, hcreated, hmodified⟩
    rw [if_pos htopics, hcreated, hmodified]

/-- One topic notification without events and rules. -/
theorem topic_notification_unreadable :
    ¬ ∀ (b : BucketRecord) (now : TimePoint), 1000000 ∣ b.created → 1000000 ∣ b.modified →
      fromDocument { created := now, modified := now } b.storedDocument = some b := by
  intro h
  have hread := h { name := str "logs", topicNotifications := [{ id := str "1" }], created := 0, modified := 0 } 0
    (by decide) (by decide)
  exact absurd hread (by simp [document_read])

end BucketRecord

end AwsMock.S3
