import AwsMock.Core.Poco
import AwsMock.Lib.Bson
import AwsMock.Sqs.Entity

/-!
# The encodings of a queue

`ToDocument` and `FromDocument` for the database, `ToJsonObject` and `FromJsonObject` for the export of the
infrastructure, of a queue, its attributes and its redrive policy. A decoder writes into a record that is
there: what it does not read stays. `none` is the exception of an element that is missing or has another
type; a `JsonException` has the message of the Poco exception it is thrown for.
-/

namespace AwsMock.Sqs

open Lib Bson

/-! ### `MongoUtils` -/

/-- `ToBson`: milliseconds, but none within the first second. -/
def toBson (date : TimePoint) : Int :=
  if date.tdiv 1000000000 ≠ 0 then (date.tdiv 1000).tdiv 1000 else 0

/-- `FromBson`: whole seconds, and the current time for zero. -/
def fromBson (now : TimePoint) (millis : Int) : TimePoint :=
  if millis ≠ 0 then seconds (millis.tdiv 1000) else now

/-! ### Documents -/

def RedrivePolicy.toDocument (r : RedrivePolicy) : List (Str × Bson) :=
  [(str "deadLetterTargetArn", .string r.deadLetterTargetArn), (str "maxReceiveCount", .int32 r.maxReceiveCount)]

def RedrivePolicy.fromDocument (doc : List (Str × Bson)) : Option RedrivePolicy := do
  let deadLetterTargetArn ← getString (element (str "deadLetterTargetArn") doc)
  let maxReceiveCount ← getInt32 (element (str "maxReceiveCount") doc)
  return { deadLetterTargetArn := deadLetterTargetArn, maxReceiveCount := maxReceiveCount }

namespace QueueAttribute

def toDocument (a : QueueAttribute) : List (Str × Bson) :=
  [(str "delaySeconds", .int32 a.delaySeconds), (str "maxMessageSize", .int32 a.maxMessageSize),
    (str "messageRetentionPeriod", .int32 a.messageRetentionPeriod), (str "policy", .string a.policy),
    (str "receiveMessageWaitTime", .int32 a.receiveMessageWaitTime),
    (str "visibilityTimeout", .int32 a.visibilityTimeout),
    (str "redrivePolicy", .document a.redrivePolicy.toDocument),
    (str "redriveAllowPolicy", .string a.redriveAllowPolicy),
    (str "approximateNumberOfMessages", .int64 a.approximateNumberOfMessages),
    (str "approximateNumberOfMessagesDelayed", .int64 a.approximateNumberOfMessagesDelayed),
    (str "approximateNumberOfMessagesNotVisible", .int64 a.approximateNumberOfMessagesNotVisible),
    (str "queueArn", .string a.queueArn)]

/-- The `queueArn` is not read. -/
def fromDocument (a : QueueAttribute) (doc : List (Str × Bson)) : Option QueueAttribute := do
  let delaySeconds ← getInt32 (element (str "delaySeconds") doc)
  let maxMessageSize ← getInt32 (element (str "maxMessageSize") doc)
  let messageRetentionPeriod ← getInt32 (element (str "messageRetentionPeriod") doc)
  let policy ← getString (element (str "policy") doc)
  let receiveMessageWaitTime ← getInt32 (element (str "receiveMessageWaitTime") doc)
  let visibilityTimeout ← getInt32 (element (str "visibilityTimeout") doc)
  let redrivePolicy ← RedrivePolicy.fromDocument (← getDocument (element (str "redrivePolicy") doc))
  let redriveAllowPolicy ← getString (element (str "redriveAllowPolicy") doc)
  let messages ← getInt64 (element (str "approximateNumberOfMessages") doc)
  let delayed ← getInt64 (element (str "approximateNumberOfMessagesDelayed") doc)
  let notVisible ← getInt64 (element (str "approximateNumberOfMessagesNotVisible") doc)
  return { a with
    delaySeconds := delaySeconds, maxMessageSize := maxMessageSize,
    messageRetentionPeriod := messageRetentionPeriod, policy := policy,
    receiveMessageWaitTime := receiveMessageWaitTime, visibilityTimeout := visibilityTimeout,
    redrivePolicy := redrivePolicy, redriveAllowPolicy := redriveAllowPolicy,
    approximateNumberOfMessages := messages, approximateNumberOfMessagesDelayed := delayed,
    approximateNumberOfMessagesNotVisible := notVisible }

end QueueAttribute

namespace Queue

/-- A tag whose name has a NUL cannot be appended. -/
def toDocument (q : Queue) : Option (List (Str × Bson)) := do
  let tagsDoc ← ofMap q.tags
  return [(str "region", .string q.region), (str "name", .string q.name), (str "owner", .string q.owner),
    (str "queueUrl", .string q.queueUrl), (str "queueArn", .string q.queueArn),
    (str "attributes", .document q.attributes.toDocument), (str "tags", .document tagsDoc),
    (str "created", .date (toBson q.created)), (str "modified", .date (toBson q.modified))]

/-- What the database holds: it puts the object id in front. -/
def storedDocument (oid : Str) (q : Queue) : Option (List (Str × Bson)) :=
  q.toDocument.map fun doc => (str "_id", .oid oid) :: doc

/-- The tags are read when there are any; an entry that is there stays. -/
def readTags (doc : List (Str × Bson)) (tags : OrderedMap Str Str) : Option (OrderedMap Str Str) :=
  match element (str "tags") doc with
  | some tagsDoc => do intoMap (← getDocument (some tagsDoc)) tags
  | none => some tags

def fromDocument (now : TimePoint) (q : Queue) (doc : List (Str × Bson)) : Option Queue := do
  let oid ← getOid (element (str "_id") doc)
  let region ← getString (element (str "region") doc)
  let name ← getString (element (str "name") doc)
  let owner ← getString (element (str "owner") doc)
  let queueUrl ← getString (element (str "queueUrl") doc)
  let queueArn ← getString (element (str "queueArn") doc)
  let attributes ← q.attributes.fromDocument (← getDocument (element (str "attributes") doc))
  let created ← getDate (element (str "created") doc)
  let modified ← getDate (element (str "modified") doc)
  let tags ← readTags doc q.tags
  return { q with
    oid := oid, region := region, name := name, owner := owner, queueUrl := queueUrl, queueArn := queueArn,
    attributes := attributes, created := fromBson now created, modified := fromBson now modified,
    tags := tags }

end Queue

/-! ### JSON objects -/

variable (poco : Poco)

def RedrivePolicy.toJsonObject (r : RedrivePolicy) : List (Str × Json) :=
  Json.ofSets [(str "deadLetterTargetArn", .str r.deadLetterTargetArn),
    (str "maxReceiveCount", .int r.maxReceiveCount)]

def RedrivePolicy.fromJsonObject (r : RedrivePolicy) (jsonObject : List (Str × Json)) :
    Except Error RedrivePolicy := do
  let maxReceiveCount ← getJsonValue poco.convertInt (str "maxReceiveCount") jsonObject r.maxReceiveCount
  let deadLetterTargetArn ←
    getJsonValue poco.convertString (str "deadLetterTargetArn") jsonObject r.deadLetterTargetArn
  return { deadLetterTargetArn := deadLetterTargetArn, maxReceiveCount := maxReceiveCount }

/-- The object under a name; using the null pointer for another value throws. -/
def getObject (name : Str) (jsonObject : List (Str × Json)) : Except Error (List (Str × Json)) :=
  match Json.objectMember name jsonObject with
  | some inner => .ok inner
  | none => .error (.pocoException [])

namespace QueueAttribute

/-- The `queueArn` is not written. -/
def toJsonObject (a : QueueAttribute) : List (Str × Json) :=
  Json.ofSets [(str "delaySeconds", .int a.delaySeconds), (str "maxMessageSize", .int a.maxMessageSize),
    (str "messageRetentionPeriod", .int a.messageRetentionPeriod), (str "policy", .str a.policy),
    (str "receiveMessageWaitTime", .int a.receiveMessageWaitTime),
    (str "visibilityTimeout", .int a.visibilityTimeout),
    (str "redrivePolicy", .obj a.redrivePolicy.toJsonObject),
    (str "redriveAllowPolicy", .str a.redriveAllowPolicy),
    (str "approximateNumberOfMessages", .int a.approximateNumberOfMessages),
    (str "approximateNumberOfMessagesDelayed", .int a.approximateNumberOfMessagesDelayed),
    (str "approximateNumberOfMessagesNotVisible", .int a.approximateNumberOfMessagesNotVisible)]

def fromJsonObject (a : QueueAttribute) (jsonObject : List (Str × Json)) : Except Error QueueAttribute := do
  let delaySeconds ← getJsonValue poco.convertInt (str "delaySeconds") jsonObject a.delaySeconds
  let maxMessageSize ← getJsonValue poco.convertInt (str "maxMessageSize") jsonObject a.maxMessageSize
  let messageRetentionPeriod ←
    getJsonValue poco.convertInt (str "messageRetentionPeriod") jsonObject a.messageRetentionPeriod
  let policy ← getJsonValue poco.convertString (str "policy") jsonObject a.policy
  let receiveMessageWaitTime ←
    getJsonValue poco.convertInt (str "receiveMessageWaitTime") jsonObject a.receiveMessageWaitTime
  let visibilityTimeout ←
    getJsonValue poco.convertInt (str "visibilityTimeout") jsonObject a.visibilityTimeout
  let redriveAllowPolicy ←
    getJsonValue poco.convertString (str "redriveAllowPolicy") jsonObject a.redriveAllowPolicy
  let messages ←
    getJsonValue poco.convertLong (str "approximateNumberOfMessages") jsonObject a.approximateNumberOfMessages
  let delayed ←
    getJsonValue poco.convertLong (str "approximateNumberOfMessagesDelayed") jsonObject
      a.approximateNumberOfMessagesDelayed
  let notVisible ←
    getJsonValue poco.convertLong (str "approximateNumberOfMessagesNotVisible") jsonObject
      a.approximateNumberOfMessagesNotVisible
  let redrivePolicy ← a.redrivePolicy.fromJsonObject poco (← getObject (str "redrivePolicy") jsonObject)
  return { a with
    delaySeconds := delaySeconds, maxMessageSize := maxMessageSize,
    messageRetentionPeriod := messageRetentionPeriod, policy := policy,
    receiveMessageWaitTime := receiveMessageWaitTime, visibilityTimeout := visibilityTimeout,
    redrivePolicy := redrivePolicy, redriveAllowPolicy := redriveAllowPolicy,
    approximateNumberOfMessages := messages, approximateNumberOfMessagesDelayed := delayed,
    approximateNumberOfMessagesNotVisible := notVisible }

end QueueAttribute

namespace Queue

/-- The tags, an array of objects with one member each, are written when there are any. -/
def jsonTags (tags : OrderedMap Str Str) : List (Str × Json) :=
  if tags.entries = [] then []
  else [(str "tags", .arr (tags.entries.map fun tag => .obj (Json.ofSets [(tag.1, .str tag.2)])))]

def toJsonObject (q : Queue) : List (Str × Json) :=
  Json.ofSets ([(str "region", .str q.region), (str "name", .str q.name), (str "owner", .str q.owner),
    (str "queueUrl", .str q.queueUrl), (str "queueArn", .str q.queueArn),
    (str "attributes", .obj q.attributes.toJsonObject)] ++ jsonTags q.tags)

/-- The owner is read twice and the tags are not read. -/
def fromJsonObject (q : Queue) (jsonObject : List (Str × Json)) : Except Error Queue := do
  let region ← getJsonValue poco.convertString (str "region") jsonObject q.region
  let name ← getJsonValue poco.convertString (str "name") jsonObject q.name
  let owner ← getJsonValue poco.convertString (str "owner") jsonObject q.owner
  let queueUrl ← getJsonValue poco.convertString (str "queueUrl") jsonObject q.queueUrl
  let queueArn ← getJsonValue poco.convertString (str "queueArn") jsonObject q.queueArn
  let owner ← getJsonValue poco.convertString (str "owner") jsonObject owner
  let attributes ← q.attributes.fromJsonObject poco (← getObject (str "attributes") jsonObject)
  return { q with
    region := region, name := name, owner := owner, queueUrl := queueUrl, queueArn := queueArn,
    attributes := attributes }

end Queue

/-! ### Round trips -/

theorem getJsonValue_string {name s s₀ : Str} {members : List (Str × Json)}
    (h : Json.member name members = some (.str s)) :
    getJsonValue poco.convertString name members s₀ = .ok s := by
  simp only [getJsonValue, h, poco.convertString_str, pocoTry]

theorem getJsonValue_int {name : Str} {n n₀ : Int} {members : List (Str × Json)} (hn : IsInt n)
    (h : Json.member name members = some (.int n)) : getJsonValue poco.convertInt name members n₀ = .ok n := by
  simp only [getJsonValue, h, poco.convertInt_int n hn, pocoTry]

theorem getJsonValue_long {name : Str} {n n₀ : Int} {members : List (Str × Json)} (hn : IsLong n)
    (h : Json.member name members = some (.int n)) : getJsonValue poco.convertLong name members n₀ = .ok n := by
  simp only [getJsonValue, h, poco.convertLong_int n hn, pocoTry]

/-- The numbers are in the ranges of their types. -/
structure QueueAttribute.Typed (a : QueueAttribute) : Prop where
  delaySeconds : IsInt a.delaySeconds
  maxMessageSize : IsInt a.maxMessageSize
  messageRetentionPeriod : IsInt a.messageRetentionPeriod
  receiveMessageWaitTime : IsInt a.receiveMessageWaitTime
  visibilityTimeout : IsInt a.visibilityTimeout
  maxReceiveCount : IsInt a.redrivePolicy.maxReceiveCount
  messages : IsLong a.approximateNumberOfMessages
  delayed : IsLong a.approximateNumberOfMessagesDelayed
  notVisible : IsLong a.approximateNumberOfMessagesNotVisible

theorem RedrivePolicy.json_round_trip (r r₀ : RedrivePolicy) (h : IsInt r.maxReceiveCount) :
    r₀.fromJsonObject poco r.toJsonObject = .ok r := by
  have hcount : getJsonValue poco.convertInt (str "maxReceiveCount") r.toJsonObject r₀.maxReceiveCount =
      .ok r.maxReceiveCount := getJsonValue_int poco h rfl
  have harn : getJsonValue poco.convertString (str "deadLetterTargetArn") r.toJsonObject
      r₀.deadLetterTargetArn = .ok r.deadLetterTargetArn := getJsonValue_string poco rfl
  rw [RedrivePolicy.fromJsonObject, hcount, harn]
  rfl

namespace QueueAttribute

variable (a a₀ : QueueAttribute)

/-- The document gives back all but the `queueArn`. -/
theorem document_round_trip : a₀.fromDocument a.toDocument = some { a with queueArn := a₀.queueArn } := by
  have hnames : [str "delaySeconds", str "maxMessageSize", str "messageRetentionPeriod", str "policy",
      str "receiveMessageWaitTime", str "visibilityTimeout", str "redrivePolicy", str "redriveAllowPolicy",
      str "approximateNumberOfMessages", str "approximateNumberOfMessagesDelayed",
      str "approximateNumberOfMessagesNotVisible", str "queueArn"].Nodup := by decide +kernel
  have helement : ∀ {name value} i, _ → element name a.toDocument = some value :=
    fun i hi => element_of_getElem? hnames i hi
  rw [fromDocument, helement 0 rfl, helement 1 rfl, helement 2 rfl, helement 3 rfl, helement 4 rfl, helement 5 rfl,
    helement 6 rfl, helement 7 rfl, helement 8 rfl, helement 9 rfl, helement 10 rfl]
  rfl

/-- So does the JSON object. -/
theorem json_round_trip (h : a.Typed) :
    a₀.fromJsonObject poco a.toJsonObject = .ok { a with queueArn := a₀.queueArn } := by
  have hnames : [str "delaySeconds", str "maxMessageSize", str "messageRetentionPeriod", str "policy",
      str "receiveMessageWaitTime", str "visibilityTimeout", str "redrivePolicy", str "redriveAllowPolicy",
      str "approximateNumberOfMessages", str "approximateNumberOfMessagesDelayed",
      str "approximateNumberOfMessagesNotVisible"].Nodup := by decide +kernel
  have hmember : ∀ {name value} i, _ → Json.member name a.toJsonObject = some value :=
    fun i hi => Json.member_ofSets hnames i hi
  have hredrive : getObject (str "redrivePolicy") a.toJsonObject = .ok a.redrivePolicy.toJsonObject := by
    have hpolicy : Json.member (str "redrivePolicy") a.toJsonObject = some (.obj a.redrivePolicy.toJsonObject) :=
      hmember 6 rfl
    simp only [getObject, Json.objectMember, hpolicy]
  unfold fromJsonObject
  rw [getJsonValue_int poco h.delaySeconds (hmember 0 rfl), getJsonValue_int poco h.maxMessageSize (hmember 1 rfl),
    getJsonValue_int poco h.messageRetentionPeriod (hmember 2 rfl), getJsonValue_string poco (hmember 3 rfl),
    getJsonValue_int poco h.receiveMessageWaitTime (hmember 4 rfl),
    getJsonValue_int poco h.visibilityTimeout (hmember 5 rfl), getJsonValue_string poco (hmember 7 rfl),
    getJsonValue_long poco h.messages (hmember 8 rfl), getJsonValue_long poco h.delayed (hmember 9 rfl),
    getJsonValue_long poco h.notVisible (hmember 10 rfl), hredrive]
  simp only [RedrivePolicy.json_round_trip poco _ _ h.maxReceiveCount, bind, Except.bind, pure, Except.pure]

end QueueAttribute

namespace Queue

variable (q q₀ : Queue)

/-- The elements that the database holds, with the document of the tags. -/
def elements (oid : Str) (tagsDoc : List (Str × Bson)) : List (Str × Bson) :=
  [(str "_id", .oid oid), (str "region", .string q.region), (str "name", .string q.name),
    (str "owner", .string q.owner), (str "queueUrl", .string q.queueUrl), (str "queueArn", .string q.queueArn),
    (str "attributes", .document q.attributes.toDocument), (str "tags", .document tagsDoc),
    (str "created", .date (toBson q.created)), (str "modified", .date (toBson q.modified))]

theorem storedDocument_eq_some {oid : Str} {doc : List (Str × Bson)} (h : q.storedDocument oid = some doc) :
    ∃ tagsDoc, ofMap q.tags = some tagsDoc ∧ doc = q.elements oid tagsDoc := by
  obtain ⟨doc', hdoc', rfl⟩ := Option.map_eq_some_iff.mp h
  obtain ⟨tagsDoc, htagsDoc, hdoc⟩ := Option.bind_eq_some_iff.mp hdoc'
  obtain rfl := Option.some.inj hdoc
  exact ⟨tagsDoc, htagsDoc, rfl⟩

theorem elements_element {oid name : Str} {tagsDoc : List (Str × Bson)} {value : Bson} (i : Nat)
    (hi : (q.elements oid tagsDoc)[i]? = some (name, value)) : element name (q.elements oid tagsDoc) = some value := by
  have hnames : [str "_id", str "region", str "name", str "owner", str "queueUrl", str "queueArn", str "attributes",
      str "tags", str "created", str "modified"].Nodup := by decide +kernel
  exact element_of_getElem? hnames i hi

/-- What the document of a queue gives back. -/
theorem document_read (oid : Str) (now : TimePoint) {doc : List (Str × Bson)} (h : q.storedDocument oid = some doc)
    (htags : q₀.tags = ∅) : q₀.fromDocument now doc = some { q with
      oid := oid, attributes := { q.attributes with queueArn := q₀.attributes.queueArn },
      created := fromBson now (toBson q.created), modified := fromBson now (toBson q.modified) } := by
  obtain ⟨tagsDoc, htagsDoc, rfl⟩ := q.storedDocument_eq_some h
  have hread : intoMap tagsDoc q₀.tags = some q.tags := intoMap_self htagsDoc (.inl htags)
  have helement : ∀ {name value} i, _ → element name (q.elements oid tagsDoc) = some value := q.elements_element
  rw [fromDocument, readTags, helement 0 rfl, helement 1 rfl, helement 2 rfl, helement 3 rfl, helement 4 rfl,
    helement 5 rfl, helement 6 rfl, helement 7 rfl, helement 8 rfl, helement 9 rfl]
  simp only [getDocument, hread, QueueAttribute.document_round_trip, Option.bind_eq_bind, Option.bind_some]
  rfl

/-- The members that are read, whether tags follow or not. -/
theorem toJsonObject_member {name : Str} {value : Json} (i : Nat) (h : [(str "region", Json.str q.region),
    (str "name", .str q.name), (str "owner", .str q.owner), (str "queueUrl", .str q.queueUrl),
    (str "queueArn", .str q.queueArn), (str "attributes", .obj q.attributes.toJsonObject)][i]? =
      some (name, value)) : Json.member name q.toJsonObject = some value := by
  have hnames : [str "region", str "name", str "owner", str "queueUrl", str "queueArn", str "attributes"].Nodup ∧
      [str "region", str "name", str "owner", str "queueUrl", str "queueArn", str "attributes", str "tags"].Nodup := by
    decide +kernel
  have hsets : ∀ tags, (_ ++ tags)[i]? = some (name, value) := fun _ =>
    (List.getElem?_append_left (List.getElem?_eq_some_iff.mp h).1).trans h
  refine Json.member_ofSets ?_ i (hsets (jsonTags q.tags))
  unfold jsonTags
  split
  · exact hnames.1
  · exact hnames.2

/-- What the JSON object of a queue gives back. -/
theorem json_read (h : q.attributes.Typed) :
    q₀.fromJsonObject poco q.toJsonObject = .ok { q with
      oid := q₀.oid, attributes := { q.attributes with queueArn := q₀.attributes.queueArn },
      tags := q₀.tags, created := q₀.created, modified := q₀.modified } := by
  have hregion : getJsonValue poco.convertString (str "region") q.toJsonObject q₀.region = .ok q.region :=
    getJsonValue_string poco (q.toJsonObject_member 0 rfl)
  have hname : getJsonValue poco.convertString (str "name") q.toJsonObject q₀.name = .ok q.name :=
    getJsonValue_string poco (q.toJsonObject_member 1 rfl)
  have howner : ∀ owner, getJsonValue poco.convertString (str "owner") q.toJsonObject owner = .ok q.owner :=
    fun _ => getJsonValue_string poco (q.toJsonObject_member 2 rfl)
  have hurl : getJsonValue poco.convertString (str "queueUrl") q.toJsonObject q₀.queueUrl = .ok q.queueUrl :=
    getJsonValue_string poco (q.toJsonObject_member 3 rfl)
  have harn : getJsonValue poco.convertString (str "queueArn") q.toJsonObject q₀.queueArn = .ok q.queueArn :=
    getJsonValue_string poco (q.toJsonObject_member 4 rfl)
  have hattributes : getObject (str "attributes") q.toJsonObject = .ok q.attributes.toJsonObject := by
    have hmember : Json.member (str "attributes") q.toJsonObject = some (.obj q.attributes.toJsonObject) :=
      q.toJsonObject_member 5 rfl
    simp only [getObject, Json.objectMember, hmember]
  simp only [fromJsonObject, hregion, hname, howner, hurl, harn, hattributes, QueueAttribute.json_round_trip poco _ _ h,
    bind, Except.bind, pure, Except.pure]

/-- What an encoding has to give back of a queue. -/
structure GivenBack (q' : Queue) : Prop where
  name : q'.name = q.name
  owner : q'.owner = q.owner
  queueUrl : q'.queueUrl = q.queueUrl
  queueArn : q'.queueArn = q.queueArn
  attributes : q'.attributes = q.attributes
  tags : q'.tags = q.tags

/-- Both pairs of converters, each into a new queue that is built at `now`, give a queue back. -/
structure RoundTrips (oid : Str) (now : TimePoint) : Prop where
  document : ∃ doc q', q.storedDocument oid = some doc ∧
    ({ created := now, modified := now } : Queue).fromDocument now doc = some q' ∧ q.GivenBack q'
  json : ∃ q', ({ created := now, modified := now } : Queue).fromJsonObject poco q.toJsonObject = .ok q' ∧
    q.GivenBack q'

/-- Exactly the queues without tags whose attribute record has no ARN come back. -/
theorem queue_round_trips_iff (oid : Str) (now : TimePoint) (h : q.attributes.Typed) :
    q.RoundTrips poco oid now ↔ q.attributes.queueArn = [] ∧ q.tags = ∅ := by
  have hjson := q.json_read poco { created := now, modified := now } h
  constructor
  · intro hround
    obtain ⟨q', hread, hback⟩ := hround.json
    obtain rfl := Except.ok.inj (hjson.symm.trans hread)
    exact ⟨(congrArg QueueAttribute.queueArn hback.attributes).symm, hback.tags.symm⟩
  · rintro ⟨harn, htags⟩
    have hattributes : { q.attributes with queueArn := [] } = q.attributes := by rw [← harn]
    have hstored : ∃ doc, q.storedDocument oid = some doc := by
      have hempty : ofMap q.tags = some [] := by
        rw [htags]
        rfl
      simp [storedDocument, toDocument, hempty]
    obtain ⟨doc, hdoc⟩ := hstored
    exact ⟨⟨doc, _, hdoc, q.document_read { created := now, modified := now } oid now hdoc rfl,
        rfl, rfl, rfl, rfl, hattributes, rfl⟩,
      ⟨_, hjson, rfl, rfl, rfl, rfl, hattributes, htags.symm⟩⟩

theorem queue_without_tags_round_trips : RoundTrips .minimal
    { name := str "orders", queueArn := str "arn:aws:sqs:eu:1:orders", created := 0, modified := 0 }
    (str "1") 0 :=
  (queue_round_trips_iff .minimal _ (str "1") 0
    ⟨by decide, by decide, by decide, by decide, by decide, by decide, by decide, by decide, by decide⟩).mpr
    ⟨rfl, rfl⟩

/-- The queue `orders` with the tag `team` and the ARN of its attribute record, as a queue is created. -/
theorem queue_attributes_lost :
    ¬ RoundTrips .minimal
      { name := str "orders", queueArn := str "arn:aws:sqs:eu:1:orders",
        attributes := { queueArn := str "arn:aws:sqs:eu:1:orders" },
        tags := (∅ : OrderedMap Str Str).insert (str "team") (str "a"), created := 0, modified := 0 }
      (str "1") 0 := by
  rintro ⟨-, q', hread, hback⟩
  have htyped : QueueAttribute.Typed { queueArn := str "arn:aws:sqs:eu:1:orders" } :=
    ⟨by decide, by decide, by decide, by decide, by decide, by decide, by decide, by decide, by decide⟩
  obtain rfl := Except.ok.inj ((json_read .minimal _ { created := 0, modified := 0 } htyped).symm.trans hread)
  exact absurd hback.attributes (by decide +kernel)

end Queue

end AwsMock.Sqs
