import Mathlib.Data.List.Nodup
import AwsMock.Lib.Outcome
import AwsMock.Sns.Entity
import AwsMock.Sqs.QueueEncodings

/-!
# The encodings of a topic and a message

`ToDocument` and `FromDocument` for the database, `ToJsonObject` and `FromJsonObject` for the export of the
infrastructure, of a message, a topic and what they hold. A decoder writes into a record that is there and
appends to its lists. Of a document, `none` is the exception of an element that is missing or has another
type; of a JSON object, a null pointer that is used throws.
-/

namespace AwsMock.Sns

open Lib Bson Sqs

/-! ### Records -/

inductive MessageStatus where
  | initial
  | send
  | resend
  deriving DecidableEq

namespace MessageStatus

def toString : MessageStatus → Str
  | .initial => str "INITIAL"
  | .send => str "SEND"
  | .resend => str "RESEND"

def fromString (s : Str) : MessageStatus :=
  if s = str "INITIAL" then .initial else if s = str "SEND" then .send
  else if s = str "RESEND" then .resend else .initial

@[simp] theorem fromString_toString (status : MessageStatus) : fromString status.toString = status := by
  cases status <;> decide +kernel

end MessageStatus

structure MessageAttribute where
  attributeName : Str := []
  attributeValue : Str := []
  deriving DecidableEq

/-- A message with its status, its attributes and the time it was sent. -/
structure MessageRecord extends Message where
  status : MessageStatus := .initial
  attributes : List MessageAttribute := []
  lastSend : TimePoint
  deriving DecidableEq

structure TopicAttribute where
  deliveryPolicy : Str := []
  displayName : Str := []
  fifoTopic : Bool := false
  policy : Str := []
  signatureVersion : Str := []
  tracingConfig : Str := []
  kmsMasterKeyId : Str := []
  archivePolicy : Str := []
  beginningArchiveTime : TimePoint
  contentBasedDeduplication : Bool := false
  deriving DecidableEq

/-- A topic with its attributes. -/
structure TopicRecord extends Topic where
  topicAttribute : TopicAttribute
  deriving DecidableEq

/-- A new record, with the time it is built. -/
def MessageRecord.fresh (now : TimePoint) : MessageRecord := { created := now, modified := now, lastSend := now }

def TopicRecord.fresh (now : TimePoint) : TopicRecord :=
  { created := now, modified := now, topicAttribute := { beginningArchiveTime := now } }

/-! ### Documents -/

def MessageAttribute.toDocument (a : MessageAttribute) : List (Str × Bson) :=
  [(str "name", .string a.attributeName), (str "value", .string a.attributeValue)]

/-- How `Message::FromDocument` reads an attribute. -/
def MessageAttribute.fromDocument (item : Bson) : Option MessageAttribute := do
  let attributeName ← getString (memberOf (str "attributeName") item)
  let attributeValue ← getString (memberOf (str "attributeValue") item)
  return { attributeName := attributeName, attributeValue := attributeValue }

namespace MessageRecord

/-- The time of the `reset` is not the one of the message. -/
def toDocument (m : MessageRecord) : List (Str × Bson) :=
  [(str "region", .string m.region), (str "topicArn", .string m.topicArn), (str "targetArn", .string m.targetArn),
    (str "message", .string m.message), (str "messageId", .string m.messageId),
    (str "status", .string m.status.toString),
    (str "userAttributes", .array (m.attributes.map fun a => .document a.toDocument)), (str "reset", .date 0),
    (str "created", .date (toBson m.created)), (str "modified", .date (toBson m.modified))]

/-- What the database holds: it puts the object id in front. -/
def storedDocument (m : MessageRecord) : List (Str × Bson) := (str "_id", .oid m.oid) :: m.toDocument

def fromDocument (now : TimePoint) (m : MessageRecord) (doc : List (Str × Bson)) : Option MessageRecord := do
  let oid ← getOid (element (str "_id") doc)
  let region ← getString (element (str "region") doc)
  let topicArn ← getString (element (str "topicArn") doc)
  let targetArn ← getString (element (str "targetArn") doc)
  let message ← getString (element (str "message") doc)
  let status ← getString (element (str "status") doc)
  let messageId ← getString (element (str "messageId") doc)
  let lastSend ← getDate (element (str "reset") doc)
  let created ← getDate (element (str "created") doc)
  let modified ← getDate (element (str "modified") doc)
  let attributes ← readArray MessageAttribute.fromDocument (str "userAttributes") doc m.attributes
  return {
    oid := oid, region := region, topicArn := topicArn, targetArn := targetArn, message := message,
    status := MessageStatus.fromString status, messageId := messageId, lastSend := fromBson now lastSend,
    created := fromBson now created, modified := fromBson now modified, attributes := attributes }

end MessageRecord

def Subscription.toDocument (s : Subscription) : List (Str × Bson) :=
  [(str "protocol", .string s.protocol), (str "endpoint", .string s.endpoint),
    (str "subscriptionArn", .string s.subscriptionArn)]

/-- How `Topic::FromDocument` reads a subscription. -/
def Subscription.fromDocument (item : Bson) : Option Subscription := do
  let protocol ← getString (memberOf (str "protocol") item)
  let endpoint ← getString (memberOf (str "endpoint") item)
  let subscriptionArn ← getString (memberOf (str "subscriptionArn") item)
  return { protocol := protocol, endpoint := endpoint, subscriptionArn := subscriptionArn }

namespace TopicAttribute

def toDocument (a : TopicAttribute) : List (Str × Bson) :=
  [(str "deliveryPolicy", .string a.deliveryPolicy), (str "displayName", .string a.displayName),
    (str "fifoTopic", .bool a.fifoTopic), (str "policy", .string a.policy),
    (str "signatureVersion", .string a.signatureVersion), (str "tracingConfig", .string a.tracingConfig),
    (str "kmsMasterKeyId", .string a.kmsMasterKeyId), (str "archivePolicy", .string a.archivePolicy),
    (str "beginningArchiveTime", .date ((a.beginningArchiveTime.tdiv 1000).tdiv 1000)),
    (str "contentBasedDeduplication", .bool a.contentBasedDeduplication)]

/-- An empty document is not read; the archive time is read in seconds. -/
def fromDocument (a : TopicAttribute) (doc : List (Str × Bson)) : Option TopicAttribute :=
  if doc.isEmpty then some a else do
    let deliveryPolicy ← getString (element (str "deliveryPolicy") doc)
    let displayName ← getString (element (str "displayName") doc)
    let fifoTopic ← getBool (element (str "fifoTopic") doc)
    let policy ← getString (element (str "policy") doc)
    let signatureVersion ← getString (element (str "signatureVersion") doc)
    let tracingConfig ← getString (element (str "tracingConfig") doc)
    let kmsMasterKeyId ← getString (element (str "kmsMasterKeyId") doc)
    let archivePolicy ← getString (element (str "archivePolicy") doc)
    let beginningArchiveTime ← getDate (element (str "beginningArchiveTime") doc)
    let contentBasedDeduplication ← getBool (element (str "contentBasedDeduplication") doc)
    return {
      deliveryPolicy := deliveryPolicy, displayName := displayName, fifoTopic := fifoTopic, policy := policy,
      signatureVersion := signatureVersion, tracingConfig := tracingConfig, kmsMasterKeyId := kmsMasterKeyId,
      archivePolicy := archivePolicy, beginningArchiveTime := seconds (beginningArchiveTime.tdiv 1000),
      contentBasedDeduplication := contentBasedDeduplication }

end TopicAttribute

namespace TopicRecord

/-- A tag whose name has a NUL cannot be appended. -/
def toDocument (t : TopicRecord) : Option (List (Str × Bson)) := do
  let tagsDoc ← ofMap t.tags
  return [(str "region", .string t.region), (str "topicName", .string t.topicName), (str "owner", .string t.owner),
    (str "topicUrl", .string t.topicUrl), (str "topicArn", .string t.topicArn),
    (str "subscriptions", .array (t.subscriptions.map fun s => .document s.toDocument)),
    (str "attributes", .document t.topicAttribute.toDocument), (str "tags", .document tagsDoc),
    (str "created", .date (toBson t.created)), (str "modified", .date (toBson t.modified))]

def storedDocument (t : TopicRecord) : Option (List (Str × Bson)) :=
  t.toDocument.map fun doc => (str "_id", .oid t.oid) :: doc

def fromDocument (now : TimePoint) (t : TopicRecord) (doc : List (Str × Bson)) : Option TopicRecord := do
  let oid ← getOid (element (str "_id") doc)
  let region ← getString (element (str "region") doc)
  let topicName ← getString (element (str "topicName") doc)
  let owner ← getString (element (str "owner") doc)
  let topicUrl ← getString (element (str "topicUrl") doc)
  let topicArn ← getString (element (str "topicArn") doc)
  let topicAttribute ← t.topicAttribute.fromDocument (← getDocument (element (str "attributes") doc))
  let created ← getDate (element (str "created") doc)
  let modified ← getDate (element (str "modified") doc)
  let subscriptions ← readArray Subscription.fromDocument (str "subscriptions") doc t.subscriptions
  let tags ← readMap (str "tags") doc t.tags
  return {
    oid := oid, region := region, topicName := topicName, owner := owner, topicUrl := topicUrl,
    topicArn := topicArn, topicAttribute := topicAttribute, created := fromBson now created,
    modified := fromBson now modified, subscriptions := subscriptions, tags := tags }

end TopicRecord

/-! ### JSON objects -/

/-- The library with its conversion of Booleans. -/
structure PocoBool extends Poco where
  convertBool : Json → Except Str Bool
  convertBool_bool : ∀ b, convertBool (.bool b) = .ok b

/-- `JsonUtils::GetJsonValue…`. -/
def readValue {α : Type} (convert : Json → Except Str α) (name : Str) (jsonObject : List (Str × Json)) (value₀ : α) :
    Outcome Error α :=
  .ofExcept (getJsonValue convert name jsonObject value₀)

/-- The elements of `getArray`, whose null pointer throws. -/
def getItems (name : Str) (jsonObject : List (Str × Json)) : Outcome Error (List Json) :=
  match Json.member name jsonObject with
  | some (.arr items) => .returns items
  | _ => .throws (.pocoException [])

/-- The members of `getObject(i)`, whose null pointer throws. -/
def getMembers : Json → Outcome Error (List (Str × Json))
  | .obj members => .returns members
  | _ => .throws (.pocoException [])

variable (poco : PocoBool) (formatDate : TimePoint → Str)

def MessageAttribute.toJsonObject (a : MessageAttribute) : List (Str × Json) :=
  Json.ofSets [(str "name", .str a.attributeName), (str "value", .str a.attributeValue)]

def MessageAttribute.fromJsonObject (jsonObject : List (Str × Json)) : Outcome Error MessageAttribute := do
  let attributeName ← readValue poco.convertString (str "name") jsonObject []
  let attributeValue ← readValue poco.convertString (str "value") jsonObject []
  return { attributeName := attributeName, attributeValue := attributeValue }

namespace MessageRecord

/-- The attributes are written when there are any. -/
def jsonAttributes (attributes : List MessageAttribute) : List (Str × Json) :=
  if attributes = [] then [] else [(str "attributes", .arr (attributes.map fun a => .obj a.toJsonObject))]

def toJsonObject (m : MessageRecord) : List (Str × Json) :=
  Json.ofSets ([(str "region", .str m.region), (str "topicArn", .str m.topicArn),
    (str "targetArn", .str m.targetArn), (str "message", .str m.message),
    (str "status", .str m.status.toString), (str "messageId", .str m.messageId),
    (str "lastSend", .str (formatDate m.lastSend))] ++ jsonAttributes m.attributes)

def fromJsonObject (m : MessageRecord) (jsonObject : List (Str × Json)) : Outcome Error MessageRecord := do
  let region ← readValue poco.convertString (str "region") jsonObject m.region
  let topicArn ← readValue poco.convertString (str "topicArn") jsonObject m.topicArn
  let targetArn ← readValue poco.convertString (str "targetArn") jsonObject m.targetArn
  let message ← readValue poco.convertString (str "message") jsonObject m.message
  let messageId ← readValue poco.convertString (str "messageId") jsonObject m.messageId
  let status ← readValue poco.convertString (str "status") jsonObject []
  let items ← getItems (str "messageAttributes") jsonObject
  let attributes ← items.mapM fun item => do MessageAttribute.fromJsonObject poco (← getMembers item)
  return { m with
    region := region, topicArn := topicArn, targetArn := targetArn, message := message, messageId := messageId,
    status := MessageStatus.fromString status, attributes := m.attributes ++ attributes }

end MessageRecord

namespace TopicAttribute

/-- The archive policy and its time are not written. -/
def toJsonObject (a : TopicAttribute) : List (Str × Json) :=
  Json.ofSets [(str "deliveryPolicy", .str a.deliveryPolicy), (str "displayName", .str a.displayName),
    (str "fifoTopic", .bool a.fifoTopic), (str "policy", .str a.policy),
    (str "signatureVersion", .str a.signatureVersion), (str "tracingConfig", .str a.tracingConfig),
    (str "kmsMasterKeyId", .str a.kmsMasterKeyId),
    (str "contentBasedDeduplication", .bool a.contentBasedDeduplication)]

def fromJsonObject (a : TopicAttribute) (jsonObject : List (Str × Json)) : Outcome Error TopicAttribute := do
  let deliveryPolicy ← readValue poco.convertString (str "deliveryPolicy") jsonObject a.deliveryPolicy
  let displayName ← readValue poco.convertString (str "displayName") jsonObject a.displayName
  let fifoTopic ← readValue poco.convertBool (str "fifoTopic") jsonObject a.fifoTopic
  let policy ← readValue poco.convertString (str "policy") jsonObject a.policy
  let signatureVersion ← readValue poco.convertString (str "signatureVersion") jsonObject a.signatureVersion
  let tracingConfig ← readValue poco.convertString (str "tracingConfig") jsonObject a.tracingConfig
  let kmsMasterKeyId ← readValue poco.convertString (str "kmsMasterKeyId") jsonObject a.kmsMasterKeyId
  let contentBasedDeduplication ←
    readValue poco.convertBool (str "contentBasedDeduplication") jsonObject a.contentBasedDeduplication
  return { a with
    deliveryPolicy := deliveryPolicy, displayName := displayName, fifoTopic := fifoTopic, policy := policy,
    signatureVersion := signatureVersion, tracingConfig := tracingConfig, kmsMasterKeyId := kmsMasterKeyId,
    contentBasedDeduplication := contentBasedDeduplication }

end TopicAttribute

def Subscription.toJsonObject (s : Subscription) : List (Str × Json) :=
  Json.ofSets [(str "protocol", .str s.protocol), (str "endpoint", .str s.endpoint),
    (str "subscriptionArn", .str s.subscriptionArn)]

def Subscription.fromJsonObject (jsonObject : List (Str × Json)) : Outcome Error Subscription := do
  let protocol ← readValue poco.convertString (str "protocol") jsonObject []
  let endpoint ← readValue poco.convertString (str "endpoint") jsonObject []
  let subscriptionArn ← readValue poco.convertString (str "subscriptionArn") jsonObject []
  return { protocol := protocol, endpoint := endpoint, subscriptionArn := subscriptionArn }

namespace TopicRecord

def jsonSubscriptions (subscriptions : List Subscription) : List (Str × Json) :=
  if subscriptions = [] then []
  else [(str "subscriptions", .arr (subscriptions.map fun s => .obj s.toJsonObject))]

/-- One object with one member for each tag. -/
def jsonTags (tags : OrderedMap Str Str) : List (Str × Json) :=
  if tags.entries = [] then []
  else [(str "tags", .arr (tags.entries.map fun tag => .obj (Json.ofSets [(tag.1, .str tag.2)])))]

/-- What is set, in this order. -/
def jsonSets (t : TopicRecord) : List (Str × Json) :=
  [(str "region", .str t.region), (str "topicName", .str t.topicName), (str "owner", .str t.owner),
    (str "topicUrl", .str t.topicUrl), (str "topicArn", .str t.topicArn),
    (str "topicAttribute", .obj t.topicAttribute.toJsonObject)] ++
    (jsonSubscriptions t.subscriptions ++ jsonTags t.tags)

def toJsonObject (t : TopicRecord) : List (Str × Json) := Json.ofSets t.jsonSets

/-- `tags[name] = value` of the first member of an object; an object without one has no first name. -/
def readTag (tags : OrderedMap Str Str) (item : Json) : Outcome Error (OrderedMap Str Str) := do
  match ← getMembers item with
  | [] => .undefined
  | (name, value) :: _ => do return tags.insert name (← .ofExcept (pocoTry (poco.convertString value)))

def readSubscriptions (subscriptions : List Subscription) (jsonObject : List (Str × Json)) :
    Outcome Error (List Subscription) :=
  match Json.member (str "subscriptions") jsonObject with
  | some _ => do
    let items ← getItems (str "subscriptions") jsonObject
    let read ← items.mapM fun item => do Subscription.fromJsonObject poco (← getMembers item)
    return subscriptions ++ read
  | none => return subscriptions

def readTags (tags : OrderedMap Str Str) (jsonObject : List (Str × Json)) : Outcome Error (OrderedMap Str Str) :=
  match Json.member (str "tags") jsonObject with
  | some _ => do (← getItems (str "tags") jsonObject).foldlM (readTag poco) tags
  | none => return tags

def fromJsonObject (t : TopicRecord) (jsonObject : List (Str × Json)) : Outcome Error TopicRecord := do
  let region ← readValue poco.convertString (str "region") jsonObject t.region
  let topicName ← readValue poco.convertString (str "topicName") jsonObject t.topicName
  let owner ← readValue poco.convertString (str "owner") jsonObject t.owner
  let topicUrl ← readValue poco.convertString (str "topicUrl") jsonObject t.topicUrl
  let topicArn ← readValue poco.convertString (str "topicArn") jsonObject t.topicArn
  let topicAttribute ← match Json.member (str "topicAttribute") jsonObject with
    | some attributeObject => do t.topicAttribute.fromJsonObject poco (← getMembers attributeObject)
    | none => pure t.topicAttribute
  let subscriptions ← readSubscriptions poco t.subscriptions jsonObject
  let tags ← readTags poco t.tags jsonObject
  return { t with
    region := region, topicName := topicName, owner := owner, topicUrl := topicUrl, topicArn := topicArn,
    topicAttribute := topicAttribute, subscriptions := subscriptions, tags := tags }

end TopicRecord

/-! ### Times -/

theorem tdiv_tdiv (t : Int) (m n : Nat) : (t.tdiv m).tdiv n = t.tdiv ((m * n : Nat) : Int) := by
  obtain ⟨k, rfl | rfl⟩ := t.eq_nat_or_neg
  · simp only [← Int.ofNat_tdiv, Nat.div_div_eq_div_mul]
  · simp only [Int.neg_tdiv, ← Int.ofNat_tdiv, Nat.div_div_eq_div_mul]

theorem tdiv_seconds (time : TimePoint) : ((time.tdiv 1000).tdiv 1000).tdiv 1000 = time.tdiv 1000000000 := by
  rw [show (1000 : Int) = ((1000 : Nat) : Int) from rfl, tdiv_tdiv, tdiv_tdiv]
  rfl

/-- A time that is read in seconds. -/
theorem seconds_tdiv_iff (time : TimePoint) :
    seconds (((time.tdiv 1000).tdiv 1000).tdiv 1000) = time ↔ 1000000000 ∣ time := by
  rw [tdiv_seconds, seconds]
  constructor
  · intro h
    exact ⟨_, h.symm.trans (Int.mul_comm ..)⟩
  · exact Int.tdiv_mul_cancel

/-- The times that `ToBson` and `FromBson` leave as they are: whole seconds, and the current time where it
    is within the first one. -/
def Kept (now time : TimePoint) : Prop :=
  if time.tdiv 1000000000 ≠ 0 then 1000000000 ∣ time else time = now

instance (now time : TimePoint) : Decidable (Kept now time) := inferInstanceAs (Decidable (ite ..))

theorem fromBson_toBson_iff (now time : TimePoint) : fromBson now (toBson time) = time ↔ Kept now time := by
  unfold Kept toBson
  split
  · next h =>
    have hmillis : (time.tdiv 1000).tdiv 1000 ≠ 0 := by
      intro hzero
      have hsecond := tdiv_seconds time
      rw [hzero, Int.zero_tdiv] at hsecond
      exact h hsecond.symm
    rw [fromBson, if_pos hmillis, seconds_tdiv_iff]
  · rw [fromBson, if_neg (by decide), eq_comm]

/-! ### Documents that come back -/

namespace MessageRecord

variable (m : MessageRecord) (now : TimePoint)

/-- No message with attributes is read: they are written under other names. -/
theorem readArray_attributes :
    readArray MessageAttribute.fromDocument (str "userAttributes") m.storedDocument [] =
      if m.attributes = [] then some [] else none := by
  have helement : element (str "userAttributes") m.storedDocument =
      some (.array (m.attributes.map fun a => .document a.toDocument)) := rfl
  simp only [readArray, helement, getArray]
  cases m.attributes with
  | nil => rfl
  | cons a rest => rfl

/-- What a new record reads of a stored message. -/
theorem document_read :
    (fresh now).fromDocument now m.storedDocument =
      if m.attributes = [] then
        some { m with lastSend := now, created := fromBson now (toBson m.created),
                      modified := fromBson now (toBson m.modified) }
      else none := by
  have hstatus : getString (element (str "status") m.storedDocument) = some m.status.toString := rfl
  have hattributes : readArray MessageAttribute.fromDocument (str "userAttributes") m.storedDocument
      (fresh now).attributes = if m.attributes = [] then some [] else none := m.readArray_attributes
  unfold fromDocument
  rw [hattributes, hstatus]
  by_cases hnone : m.attributes = []
  · rw [if_pos hnone, if_pos hnone]
    -- The other elements are read by computing.
    change some _ = _
    rw [MessageStatus.fromString_toString, ← hnone]
    rfl
  · rw [if_neg hnone, if_neg hnone]
    rfl

theorem document_round_trip_iff :
    (fresh now).fromDocument now m.storedDocument = some m ↔
      m.attributes = [] ∧ m.lastSend = now ∧ Kept now m.created ∧ Kept now m.modified := by
  rw [document_read, ← fromBson_toBson_iff, ← fromBson_toBson_iff]
  constructor
  · intro h
    have hnone : m.attributes = [] := by
      by_contra hne
      rw [if_neg hne] at h
      cases h
    rw [if_pos hnone] at h
    have hsame := Option.some.inj h
    exact ⟨hnone, (congrArg (·.lastSend) hsame).symm, congrArg (·.created) hsame, congrArg (·.modified) hsame⟩
  · rintro ⟨hnone, hlast, hcreated, hmodified⟩
    rw [if_pos hnone, hcreated, hmodified, ← hlast]

end MessageRecord

theorem Subscription.document_round_trip (s : Subscription) :
    Subscription.fromDocument (.document s.toDocument) = some s := rfl

/-- What is read of the attributes. -/
theorem TopicAttribute.document_read (a a₀ : TopicAttribute) :
    a₀.fromDocument a.toDocument = some { a with
      beginningArchiveTime := seconds (((a.beginningArchiveTime.tdiv 1000).tdiv 1000).tdiv 1000) } := rfl

namespace TopicRecord

variable (t : TopicRecord) (now : TimePoint)

/-- What a new record reads of a stored topic. -/
theorem document_read {doc : List (Str × Bson)} (h : t.storedDocument = some doc) :
    (fresh now).fromDocument now doc = some { t with
      topicAttribute := { t.topicAttribute with
        beginningArchiveTime :=
          seconds (((t.topicAttribute.beginningArchiveTime.tdiv 1000).tdiv 1000).tdiv 1000) },
      created := fromBson now (toBson t.created), modified := fromBson now (toBson t.modified) } := by
  obtain ⟨doc', hdoc', rfl⟩ := Option.map_eq_some_iff.mp h
  obtain ⟨tagsDoc, htagsDoc, hdoc⟩ := Option.bind_eq_some_iff.mp hdoc'
  obtain rfl := Option.some.inj hdoc
  have htags : intoMap tagsDoc ∅ = some t.tags := intoMap_self htagsDoc (.inl rfl)
  unfold fromDocument
  iterate 7 refine Option.bind_eq_some_iff.mpr ⟨_, rfl, ?_⟩
  refine Option.bind_eq_some_iff.mpr ⟨_, TopicAttribute.document_read .., ?_⟩
  iterate 2 refine Option.bind_eq_some_iff.mpr ⟨_, rfl, ?_⟩
  refine Option.bind_eq_some_iff.mpr ⟨_, readArray_map_self rfl (fun s _ => s.document_round_trip) [], ?_⟩
  refine Option.bind_eq_some_iff.mpr ⟨_, htags, ?_⟩
  rfl

theorem storedDocument_isSome_iff : (∃ doc, t.storedDocument = some doc) ↔ ∀ e ∈ t.tags.entries, 0 ∉ e.1 := by
  rw [← ofMap_isSome_iff]
  constructor
  · rintro ⟨doc, hdoc⟩
    obtain ⟨doc', hdoc', -⟩ := Option.map_eq_some_iff.mp hdoc
    obtain ⟨tagsDoc, htags, -⟩ := Option.bind_eq_some_iff.mp hdoc'
    exact ⟨tagsDoc, htags⟩
  · rintro ⟨tagsDoc, htags⟩
    simp [storedDocument, toDocument, htags]

theorem document_round_trip_iff :
    (∃ doc, t.storedDocument = some doc ∧ (fresh now).fromDocument now doc = some t) ↔
      (∀ e ∈ t.tags.entries, 0 ∉ e.1) ∧ 1000000000 ∣ t.topicAttribute.beginningArchiveTime ∧
        Kept now t.created ∧ Kept now t.modified := by
  rw [← storedDocument_isSome_iff, ← fromBson_toBson_iff, ← fromBson_toBson_iff, ← seconds_tdiv_iff]
  constructor
  · rintro ⟨doc, hdoc, hread⟩
    rw [t.document_read now hdoc] at hread
    have hsame := Option.some.inj hread
    exact ⟨⟨doc, hdoc⟩, congrArg (·.topicAttribute.beginningArchiveTime) hsame, congrArg (·.created) hsame,
      congrArg (·.modified) hsame⟩
  · rintro ⟨⟨doc, hdoc⟩, harchive, hcreated, hmodified⟩
    refine ⟨doc, hdoc, ?_⟩
    rw [t.document_read now hdoc, harchive, hcreated, hmodified]

end TopicRecord

/-! ### JSON objects that come back -/

theorem readValue_string {name s s₀ : Str} {members : List (Str × Json)}
    (h : Json.member name members = some (.str s)) :
    readValue poco.convertString name members s₀ = .returns s := by
  rw [readValue, getJsonValue_string poco.toPoco h]
  rfl

theorem readValue_bool {name : Str} {b b₀ : Bool} {members : List (Str × Json)}
    (h : Json.member name members = some (.bool b)) :
    readValue poco.convertBool name members b₀ = .returns b := by
  simp only [readValue, getJsonValue, h, poco.convertBool_bool, pocoTry, Outcome.ofExcept]

/-- The attributes are looked up under a name that is never written. -/
theorem MessageRecord.getItems_messageAttributes (m : MessageRecord) :
    getItems (str "messageAttributes") (m.toJsonObject formatDate) = .throws (.pocoException []) := by
  have hall : [str "messageAttributes", str "region", str "topicArn", str "targetArn", str "message", str "status",
      str "messageId", str "lastSend", str "attributes"].Nodup := by decide +kernel
  obtain ⟨habsent, hnames⟩ := List.nodup_cons.mp hall
  have hmember : Json.member (str "messageAttributes") (m.toJsonObject formatDate) = none := by
    unfold toJsonObject jsonAttributes
    split
    · exact Json.member_ofSets_eq_none (hnames.sublist (List.sublist_append_left _ [str "attributes"]))
        fun hmem => habsent (List.mem_append_left [str "attributes"] hmem)
    · exact Json.member_ofSets_eq_none hnames habsent
  rw [getItems, hmember]

/-- No message is read from its JSON object. -/
theorem MessageRecord.json_throws (m m₀ m' : MessageRecord) :
    m₀.fromJsonObject poco (m.toJsonObject formatDate) ≠ .returns m' := by
  intro h
  unfold fromJsonObject at h
  iterate 6 obtain ⟨_, -, h⟩ := Outcome.bind_eq_returns.mp h
  rw [m.getItems_messageAttributes formatDate, Outcome.throws_bind] at h
  cases h

theorem Subscription.json_round_trip (s : Subscription) :
    Subscription.fromJsonObject poco s.toJsonObject = .returns s := by
  have hnames : [str "protocol", str "endpoint", str "subscriptionArn"].Nodup := by decide +kernel
  have hmember : ∀ {name value} i, _ → Json.member name s.toJsonObject = some value :=
    fun i hi => Json.member_ofSets hnames i hi
  simp only [fromJsonObject, readValue_string poco (hmember 0 rfl), readValue_string poco (hmember 1 rfl),
    readValue_string poco (hmember 2 rfl), Outcome.returns_bind, Outcome.pure_eq]

/-- The archive policy and its time stay as they are. -/
theorem TopicAttribute.json_read (a a₀ : TopicAttribute) :
    a₀.fromJsonObject poco a.toJsonObject = .returns { a with
      archivePolicy := a₀.archivePolicy, beginningArchiveTime := a₀.beginningArchiveTime } := by
  have hnames : [str "deliveryPolicy", str "displayName", str "fifoTopic", str "policy", str "signatureVersion",
      str "tracingConfig", str "kmsMasterKeyId", str "contentBasedDeduplication"].Nodup := by decide +kernel
  have hmember : ∀ {name value} i, _ → Json.member name a.toJsonObject = some value :=
    fun i hi => Json.member_ofSets hnames i hi
  unfold fromJsonObject
  rw [readValue_string poco (hmember 0 rfl), readValue_string poco (hmember 1 rfl),
    readValue_bool poco (hmember 2 rfl), readValue_string poco (hmember 3 rfl),
    readValue_string poco (hmember 4 rfl), readValue_string poco (hmember 5 rfl),
    readValue_string poco (hmember 6 rfl), readValue_bool poco (hmember 7 rfl)]
  rfl

namespace TopicRecord

variable (t t₀ : TopicRecord)

/-- The names that are always set. -/
theorem jsonSets_names : t.jsonSets.map Prod.fst =
    [str "region", str "topicName", str "owner", str "topicUrl", str "topicArn", str "topicAttribute"] ++
      ((jsonSubscriptions t.subscriptions).map Prod.fst ++ (jsonTags t.tags).map Prod.fst) := by
  rw [jsonSets, List.map_append, List.map_append]
  rfl

theorem jsonSubscriptions_names (subscriptions : List Subscription) :
    ((jsonSubscriptions subscriptions).map Prod.fst).Sublist [str "subscriptions"] := by
  unfold jsonSubscriptions
  split
  · exact List.nil_sublist _
  · exact .refl _

theorem jsonTags_names (tags : OrderedMap Str Str) : ((jsonTags tags).map Prod.fst).Sublist [str "tags"] := by
  unfold jsonTags
  split
  · exact List.nil_sublist _
  · exact .refl _

theorem jsonNames_nodup : ([str "region", str "topicName", str "owner", str "topicUrl", str "topicArn",
    str "topicAttribute"] ++ [str "subscriptions", str "tags"]).Nodup := by decide +kernel

theorem jsonSets_nodup : (t.jsonSets.map Prod.fst).Nodup := by
  refine jsonNames_nodup.sublist ?_
  rw [t.jsonSets_names]
  exact (List.Sublist.refl _).append ((jsonSubscriptions_names _).append (jsonTags_names _))

theorem member_toJsonObject {name : Str} {value : Json} (h : (name, value) ∈ t.jsonSets) :
    Json.member name t.toJsonObject = some value := Json.member_ofSets_of_mem t.jsonSets_nodup h

theorem member_subscriptions_eq_none (h : t.subscriptions = []) :
    Json.member (str "subscriptions") t.toJsonObject = none := by
  refine Json.member_ofSets_eq_none t.jsonSets_nodup fun hmem => ?_
  have habsent := (List.nodup_cons.mp (List.nodup_middle.mp jsonNames_nodup)).1
  rw [t.jsonSets_names, h] at hmem
  exact habsent (((List.Sublist.refl _).append (jsonTags_names _)).subset hmem)

theorem member_tags_eq_none (h : t.tags.entries = []) : Json.member (str "tags") t.toJsonObject = none := by
  refine Json.member_ofSets_eq_none t.jsonSets_nodup fun hmem => ?_
  have habsent : str "tags" ∉ [str "region", str "topicName", str "owner", str "topicUrl", str "topicArn",
      str "topicAttribute"] ++ [str "subscriptions"] := by
    have hnames := jsonNames_nodup
    rw [List.append_cons] at hnames
    exact (List.nodup_cons.mp (List.nodup_middle.mp hnames)).1 ∘ List.mem_append_left []
  rw [t.jsonSets_names, jsonTags, if_pos h, List.map_nil, List.append_nil] at hmem
  exact habsent (((List.Sublist.refl _).append (jsonSubscriptions_names _)).subset hmem)

theorem readSubscriptions_toJsonObject :
    readSubscriptions poco [] t.toJsonObject = .returns t.subscriptions := by
  by_cases hnone : t.subscriptions = []
  · rw [readSubscriptions, t.member_subscriptions_eq_none hnone, hnone]
    rfl
  · have hmember : Json.member (str "subscriptions") t.toJsonObject =
        some (.arr (t.subscriptions.map fun s => .obj s.toJsonObject)) := by
      refine t.member_toJsonObject ?_
      simp [jsonSets, jsonSubscriptions, hnone]
    have hread : (t.subscriptions.map fun s => Json.obj s.toJsonObject).mapM
        (fun item => getMembers item >>= Subscription.fromJsonObject poco) = .returns t.subscriptions :=
      Outcome.mapM_map_self fun s _ => s.json_round_trip poco
    rw [readSubscriptions, hmember, getItems, hmember, Outcome.returns_bind, hread]
    rfl

/-- The objects of the tags are read one after the other. -/
theorem foldlM_readTag : ∀ (es : List (Str × Str)) (tags : OrderedMap Str Str),
    (es.map fun tag => Json.obj (Json.ofSets [(tag.1, .str tag.2)])).foldlM (readTag poco) tags =
      .returns (es.foldl (fun tags e => tags.insert e.1 e.2) tags)
  | [], _ => rfl
  | e :: es, tags => by
    have hfirst : readTag poco tags (.obj (Json.ofSets [(e.1, .str e.2)])) = .returns (tags.insert e.1 e.2) := by
      have hone : Json.ofSets [(e.1, Json.str e.2)] = [(e.1, .str e.2)] := rfl
      rw [readTag, getMembers, Outcome.returns_bind, hone]
      simp only [poco.convertString_str, pocoTry, Outcome.ofExcept, Outcome.returns_bind, Outcome.pure_eq]
    rw [List.map_cons, List.foldlM_cons, hfirst, Outcome.returns_bind, foldlM_readTag es, List.foldl_cons]

theorem readTags_toJsonObject : readTags poco ∅ t.toJsonObject = .returns t.tags := by
  by_cases hnone : t.tags.entries = []
  · rw [readTags, t.member_tags_eq_none hnone]
    exact congrArg Outcome.returns (OrderedMap.entries_injective hnone).symm
  · have hmember : Json.member (str "tags") t.toJsonObject =
        some (.arr (t.tags.entries.map fun tag => .obj (Json.ofSets [(tag.1, .str tag.2)]))) := by
      refine t.member_toJsonObject ?_
      simp [jsonSets, jsonTags, hnone]
    rw [readTags, hmember, getItems, hmember, Outcome.returns_bind, foldlM_readTag]
    exact congrArg Outcome.returns t.tags.ofList_entries

/-- What a record without subscriptions and tags reads of the JSON object of a topic. -/
theorem json_read (hsubscriptions : t₀.subscriptions = []) (htags : t₀.tags = ∅) :
    t₀.fromJsonObject poco t.toJsonObject = .returns { t with
      oid := t₀.oid, created := t₀.created, modified := t₀.modified,
      topicAttribute := { t.topicAttribute with
        archivePolicy := t₀.topicAttribute.archivePolicy,
        beginningArchiveTime := t₀.topicAttribute.beginningArchiveTime } } := by
  have hset : ∀ {name : Str} {value : Json} (i : Nat), t.jsonSets[i]? = some (name, value) →
      Json.member name t.toJsonObject = some value :=
    fun i hi => t.member_toJsonObject (List.mem_of_getElem? hi)
  have hstring : ∀ {name s s' : Str} (i : Nat), t.jsonSets[i]? = some (name, Json.str s) →
      readValue poco.convertString name t.toJsonObject s' = .returns s :=
    fun i hi => readValue_string poco (hset i hi)
  have hattribute : Json.member (str "topicAttribute") t.toJsonObject =
      some (.obj t.topicAttribute.toJsonObject) := hset 5 rfl
  unfold fromJsonObject
  rw [hstring 0 rfl, hstring 1 rfl, hstring 2 rfl, hstring 3 rfl, hstring 4 rfl, hattribute, hsubscriptions,
    htags, t.readSubscriptions_toJsonObject poco, t.readTags_toJsonObject poco]
  simp only [Outcome.returns_bind, getMembers, TopicAttribute.json_read, Outcome.pure_eq]

end TopicRecord

/-! ### Round trips -/

/-- A new record reads the message from its document. -/
def MessageRecord.DocumentRoundTrips (m : MessageRecord) (now : TimePoint) : Prop :=
  (fresh now).fromDocument now m.storedDocument = some m

/-- A new record reads the attributes from the JSON object. -/
def MessageRecord.JsonRoundTrips (m : MessageRecord) (now : TimePoint) : Prop :=
  ∃ m', (fresh now).fromJsonObject poco (m.toJsonObject formatDate) = .returns m' ∧ m'.attributes = m.attributes

def TopicRecord.DocumentRoundTrips (t : TopicRecord) (now : TimePoint) : Prop :=
  ∃ doc, t.storedDocument = some doc ∧ (fresh now).fromDocument now doc = some t

def TopicRecord.JsonRoundTrips (t : TopicRecord) (now : TimePoint) : Prop :=
  ∃ t', (fresh now).fromJsonObject poco t.toJsonObject = .returns t' ∧
    t'.subscriptions = t.subscriptions ∧ t'.tags = t.tags

/-- When each of the four encodings gives back what it was made from. -/
theorem sns_round_trips_iff (m : MessageRecord) (t : TopicRecord) (now : TimePoint) :
    (m.DocumentRoundTrips now ↔
      m.attributes = [] ∧ m.lastSend = now ∧ Kept now m.created ∧ Kept now m.modified) ∧
    ¬ m.JsonRoundTrips poco formatDate now ∧
    (t.DocumentRoundTrips now ↔
      (∀ e ∈ t.tags.entries, 0 ∉ e.1) ∧ 1000000000 ∣ t.topicAttribute.beginningArchiveTime ∧
        Kept now t.created ∧ Kept now t.modified) ∧
    t.JsonRoundTrips poco now := by
  refine ⟨m.document_round_trip_iff now, ?_, t.document_round_trip_iff now, ?_⟩
  · rintro ⟨m', hread, -⟩
    exact m.json_throws poco formatDate (MessageRecord.fresh now) m' hread
  · exact ⟨_, t.json_read poco (TopicRecord.fresh now) rfl rfl, rfl, rfl⟩

/-- The message `hello` with one attribute, stored and read within the first second. -/
theorem message_attribute_unreadable :
    ¬ ∀ (m : MessageRecord) (now : TimePoint), m.lastSend = now → Kept now m.created → Kept now m.modified →
      m.DocumentRoundTrips now := by
  intro h
  have hround := h {
    message := str "hello", attributes := [{ attributeName := str "a" }], created := 0, modified := 0, lastSend := 0
  } 0 rfl (by decide) (by decide)
  have hnone := ((MessageRecord.document_round_trip_iff _ 0).mp hround).1
  cases hnone

end AwsMock.Sns
