import Mathlib.Algebra.Group.Nat.Defs
import AwsMock.Lib.Bson
import AwsMock.Sqs.Dto

/-!
# The document of a message

`Message::ToDocument` and `FromDocument`, and the updates of a message in the MongoDB collection. The
decoder appends to the message attributes of the record it writes into.
-/

namespace AwsMock.Sqs

open Lib Bson

/-! ### Dates -/

/-- `b_date(time_point)`: whole milliseconds. -/
def toDate (t : TimePoint) : Int := t.tdiv 1000000

/-- The conversion of a `b_date` to a time point. -/
def ofDate (millis : Int) : TimePoint := millis * 1000000

/-- A time point is read back when it is a whole number of milliseconds. -/
theorem ofDate_toDate {t : TimePoint} : ofDate (toDate t) = t ↔ 1000000 ∣ t := by
  rw [ofDate, toDate]
  refine ⟨fun h => ?_, Int.tdiv_mul_cancel⟩
  have hdvd := Int.dvd_mul_left (t.tdiv 1000000) 1000000
  rwa [h] at hdvd

/-! ### Names of the enumerations -/

/-- `MessageStatusToString`: `operator[]` adds an empty name for `UNKNOWN`. -/
def messageStatusToString : MessageStatus → Str
  | .initial => str "INITIAL"
  | .delayed => str "DELAYED"
  | .invisible => str "INVISIBLE"
  | .unknown => []

def messageStatusFromString (messageStatus : Str) : MessageStatus :=
  if messageStatus = str "INITIAL" then .initial
  else if messageStatus = str "DELAYED" then .delayed
  else if messageStatus = str "INVISIBLE" then .invisible
  else .unknown

theorem messageStatus_round_trip (status : MessageStatus) :
    messageStatusFromString (messageStatusToString status) = status := by
  cases status <;> decide

theorem messageAttributeType_round_trip (type : MessageAttributeType) :
    messageAttributeTypeFromString (messageAttributeTypeToString type) = type := by
  cases type <;> decide

/-! ### Documents -/

namespace MessageAttribute

def toDocument (a : MessageAttribute) : List (Str × Bson) :=
  [(str "attributeName", .string a.attributeName), (str "attributeValue", .string a.attributeValue),
    (str "systemAttribute", .bool a.systemAttribute),
    (str "attributeType", .string (messageAttributeTypeToString a.attributeType))]

/-- What `Message::FromDocument` makes of an element of the array: the flag is not read. -/
def ofElement (attributeElement : Bson) : Option MessageAttribute := do
  let doc ← getDocument (some attributeElement)
  let attributeName ← getString (element (str "attributeName") doc)
  let attributeValue ← getString (element (str "attributeValue") doc)
  let attributeType ← getString (element (str "attributeType") doc)
  return { attributeName := attributeName, attributeValue := attributeValue,
           attributeType := messageAttributeTypeFromString attributeType }

/-- The flag is lost: an attribute that is read is a system attribute. -/
theorem ofElement_toDocument (a : MessageAttribute) :
    ofElement (.document a.toDocument) = some { a with systemAttribute := true } := by
  have hnames : [str "attributeName", str "attributeValue", str "systemAttribute", str "attributeType"].Nodup := by
    decide +kernel
  have helement : ∀ {name value} i, _ → element name a.toDocument = some value :=
    fun i hi => element_of_getElem? hnames i hi
  simp only [ofElement, getDocument, Option.bind_eq_bind, Option.bind_some, helement 0 rfl, helement 1 rfl,
    helement 3 rfl, getString, messageAttributeType_round_trip, Option.pure_def]

end MessageAttribute

namespace Message

/-- An attribute whose name has a NUL cannot be appended. -/
def toDocument (m : Message) : Option (List (Str × Bson)) := do
  let attributesDoc ← ofMap m.attributes
  return [(str "region", .string m.region), (str "queueUrl", .string m.queueUrl),
    (str "queueName", .string m.queueName), (str "body", .string m.body),
    (str "status", .string (messageStatusToString m.status)), (str "retries", .int32 m.retries),
    (str "messageId", .string m.messageId), (str "receiptHandle", .string m.receiptHandle),
    (str "md5Body", .string m.md5Body), (str "md5UserAttr", .string m.md5UserAttr),
    (str "md5SystemAttr", .string m.md5SystemAttr), (str "attributes", .document attributesDoc),
    (str "messageAttributes", .array (m.messageAttributes.map fun a => .document a.toDocument)),
    (str "reset", .date (toDate m.reset)), (str "created", .date (toDate m.created)),
    (str "modified", .date (toDate m.modified))]

/-- The array, when there is one, is appended to the list that is there. -/
def readMessageAttributes (doc : List (Str × Bson)) (messageAttributes : List MessageAttribute) :
    Option (List MessageAttribute) :=
  match element (str "messageAttributes") doc with
  | some items => do
    return messageAttributes ++ (← (← getArray (some items)).mapM MessageAttribute.ofElement)
  | none => some messageAttributes

/-- The attributes, when there are any, are emplaced: an entry that is there stays. -/
def readAttributes (doc : List (Str × Bson)) (attributes : OrderedMap Str Str) :
    Option (OrderedMap Str Str) :=
  match element (str "attributes") doc with
  | some attributesDoc => do intoMap (← getDocument (some attributesDoc)) attributes
  | none => some attributes

/-- A `reset` that is null leaves the time as it is. -/
def readReset (doc : List (Str × Bson)) (reset : TimePoint) : Option TimePoint :=
  match element (str "reset") doc with
  | some .null => some reset
  | resetElement => (getDate resetElement).map ofDate

def fromDocument (m : Message) (doc : List (Str × Bson)) : Option Message := do
  let oid ← getOid (element (str "_id") doc)
  let region ← getString (element (str "region") doc)
  let queueUrl ← getString (element (str "queueUrl") doc)
  let queueName ← getString (element (str "queueName") doc)
  let body ← getString (element (str "body") doc)
  let status ← getString (element (str "status") doc)
  let retries ← getInt32 (element (str "retries") doc)
  let messageId ← getString (element (str "messageId") doc)
  let receiptHandle ← getString (element (str "receiptHandle") doc)
  let md5Body ← getString (element (str "md5Body") doc)
  let md5UserAttr ← getString (element (str "md5UserAttr") doc)
  let md5SystemAttr ← getString (element (str "md5SystemAttr") doc)
  let reset ← readReset doc m.reset
  let created ← getDate (element (str "created") doc)
  let modified ← getDate (element (str "modified") doc)
  let messageAttributes ← readMessageAttributes doc m.messageAttributes
  let attributes ← readAttributes doc m.attributes
  return { oid := oid, region := region, queueUrl := queueUrl, queueName := queueName, body := body,
           status := messageStatusFromString status, reset := reset, retries := retries,
           messageId := messageId, receiptHandle := receiptHandle, md5Body := md5Body,
           md5UserAttr := md5UserAttr, md5SystemAttr := md5SystemAttr, attributes := attributes,
           messageAttributes := messageAttributes, created := ofDate created, modified := ofDate modified }

end Message

/-! ### Reading a document -/

/-- An attribute as it is read. -/
def MessageAttribute.asRead (a : MessageAttribute) : MessageAttribute := { a with systemAttribute := true }

/-- A message as it is read into a record with some message attributes. -/
def Message.asRead (m : Message) (oid : Str) (messageAttributes : List MessageAttribute) : Message :=
  { m with
    oid := oid, reset := ofDate (toDate m.reset), created := ofDate (toDate m.created),
    modified := ofDate (toDate m.modified),
    messageAttributes := messageAttributes ++ m.messageAttributes.map MessageAttribute.asRead }

theorem mapM_ofElement : ∀ as : List MessageAttribute,
    (as.map fun a => Bson.document a.toDocument).mapM MessageAttribute.ofElement =
      some (as.map MessageAttribute.asRead)
  | [] => rfl
  | a :: as => by
      rw [List.map_cons, List.mapM_cons, MessageAttribute.ofElement_toDocument, mapM_ofElement as]
      rfl

/-- The elements of a stored message, with the document of the attributes. -/
def Message.elements (m : Message) (oid : Str) (attributesDoc : List (Str × Bson)) : List (Str × Bson) :=
  [(str "_id", .oid oid), (str "region", .string m.region), (str "queueUrl", .string m.queueUrl),
    (str "queueName", .string m.queueName), (str "body", .string m.body),
    (str "status", .string (messageStatusToString m.status)), (str "retries", .int32 m.retries),
    (str "messageId", .string m.messageId), (str "receiptHandle", .string m.receiptHandle),
    (str "md5Body", .string m.md5Body), (str "md5UserAttr", .string m.md5UserAttr),
    (str "md5SystemAttr", .string m.md5SystemAttr), (str "attributes", .document attributesDoc),
    (str "messageAttributes", .array (m.messageAttributes.map fun a => .document a.toDocument)),
    (str "reset", .date (toDate m.reset)), (str "created", .date (toDate m.created)),
    (str "modified", .date (toDate m.modified))]

theorem Message.elements_element {m : Message} {oid name : Str} {attributesDoc : List (Str × Bson)} {value : Bson}
    (i : Nat) (hi : (m.elements oid attributesDoc)[i]? = some (name, value)) :
    element name (m.elements oid attributesDoc) = some value := by
  have hnames : [str "_id", str "region", str "queueUrl", str "queueName", str "body", str "status", str "retries",
      str "messageId", str "receiptHandle", str "md5Body", str "md5UserAttr", str "md5SystemAttr", str "attributes",
      str "messageAttributes", str "reset", str "created", str "modified"].Nodup := by decide +kernel
  exact element_of_getElem? hnames i hi

/-- A document is read into a record whose attributes are none or those of the document. -/
theorem Message.fromDocument_toDocument {m m₀ : Message} {doc : List (Str × Bson)} (oid : Str)
    (h : m.toDocument = some doc) (hattributes : m₀.attributes = ∅ ∨ m₀.attributes = m.attributes) :
    m₀.fromDocument ((str "_id", .oid oid) :: doc) = some (m.asRead oid m₀.messageAttributes) := by
  obtain ⟨attributesDoc, hdoc, h⟩ := Option.bind_eq_some_iff.mp h
  obtain rfl := Option.some.inj h
  have hread : intoMap attributesDoc m₀.attributes = some m.attributes := intoMap_self hdoc hattributes
  change m₀.fromDocument (m.elements oid attributesDoc) = _
  have helement : ∀ {name value} i, _ → element name (m.elements oid attributesDoc) = some value :=
    Message.elements_element
  rw [fromDocument, readReset, readMessageAttributes, readAttributes, helement 0 rfl, helement 1 rfl, helement 2 rfl,
    helement 3 rfl, helement 4 rfl, helement 5 rfl, helement 6 rfl, helement 7 rfl, helement 8 rfl, helement 9 rfl,
    helement 10 rfl, helement 11 rfl, helement 12 rfl, helement 13 rfl, helement 14 rfl, helement 15 rfl,
    helement 16 rfl]
  simp only [getOid, getString, getInt32, getDate, getDocument, getArray, mapM_ofElement, hread,
    messageStatus_round_trip, Option.bind_eq_bind, Option.bind_some, Option.map_some, Option.pure_def]
  rfl

/-! ### Updates in the collection -/

/-- A document in the database. -/
def storedDocument (oid : Str) (doc : List (Str × Bson)) : List (Str × Bson) := (str "_id", .oid oid) :: doc

/-- The message collection: documents under their object ids. -/
abbrev MessageCollection := OrderedMap Str (List (Str × Bson))

/-- A message that is built at `now`. -/
def newMessage (now : TimePoint) : Message := { created := now, modified := now }

namespace MessageCollection

/-- `GetMessageById`: a document is read into a new message. -/
def getMessageById (collection : MessageCollection) (oid : Str) (now : TimePoint) : Option Message := do
  (newMessage now).fromDocument (← collection.get? oid)

/-- `UpdateMessage`: the document is replaced, and the new one is read into the message that was passed. -/
def updateMessage (collection : MessageCollection) (message : Message) (now : TimePoint) :
    Option (Message × MessageCollection) := do
  let doc ← message.toDocument
  if (collection.get? message.oid).isSome then
    let message' ← message.fromDocument (storedDocument message.oid doc)
    return (message', collection.insert message.oid (storedDocument message.oid doc))
  else return (newMessage now, collection)

/-- The message is updated `n` times. -/
def updates (now : TimePoint) : Nat → MessageCollection → Message → Option (Message × MessageCollection)
  | 0, collection, message => some (message, collection)
  | n + 1, collection, message => do
    let (message', collection') ← updateMessage collection message now
    updates now n collection' message'

end MessageCollection

/-- A message can be appended to a document. -/
def Message.Appendable (m : Message) : Prop := ∀ e ∈ m.attributes.entries, 0 ∉ e.1

theorem Message.toDocument_isSome {m : Message} : (∃ doc, m.toDocument = some doc) ↔ m.Appendable := by
  unfold Message.toDocument ofMap Appendable
  split
  · next h => exact iff_of_true ⟨_, rfl⟩ h
  · next h => exact iff_of_false (fun ⟨_, hdoc⟩ => by cases hdoc) h

/-- The state of a message and of its document: the attributes are those of a message, and the message
    attributes of the document are no more than those of the record. -/
structure Tracks (m : Message) (state : Message × MessageCollection) : Prop where
  oid : state.1.oid = m.oid
  attributes : state.1.attributes = m.attributes
  stored : ∃ (m₀ : Message) (doc : _), m₀.toDocument = some doc ∧ state.2.get? m.oid = some (storedDocument m.oid doc) ∧
    m₀.attributes = m.attributes ∧ m₀.messageAttributes.length ≤ state.1.messageAttributes.length

/-- An update doubles the message attributes of the record. -/
theorem Tracks.update {m : Message} {state : Message × MessageCollection} (h : Tracks m state)
    (happend : m.Appendable) (now : TimePoint) :
    ∃ state', state.2.updateMessage state.1 now = some state' ∧ Tracks m state' ∧
      state'.1.messageAttributes = state.1.messageAttributes ++ state.1.messageAttributes.map MessageAttribute.asRead := by
  obtain ⟨message, collection⟩ := state
  obtain ⟨doc, hdoc⟩ : ∃ doc, message.toDocument = some doc := by
    rw [Message.toDocument_isSome, Message.Appendable, h.attributes]
    exact happend
  have hread := Message.fromDocument_toDocument message.oid hdoc (.inr rfl)
  have hthere : (collection.get? message.oid).isSome := by
    obtain ⟨_, _, -, hget, -⟩ := h.stored
    rw [h.oid, hget]
    rfl
  refine ⟨(message.asRead message.oid message.messageAttributes,
    collection.insert message.oid (storedDocument message.oid doc)), ?_, ⟨h.oid, h.attributes, ?_⟩, rfl⟩
  · simp only [MessageCollection.updateMessage, hdoc, hthere, if_true]
    change (message.fromDocument (storedDocument message.oid doc)).bind _ = _
    rw [storedDocument, hread]
    rfl
  · refine ⟨message, doc, hdoc, ?_, h.attributes, ?_⟩
    · rw [h.oid]
      exact OrderedMap.get?_insert_self _ _ _
    · simp [Message.asRead]

theorem Tracks.updates {m : Message} (happend : m.Appendable) (now : TimePoint) :
    ∀ (n : Nat) {state : Message × MessageCollection}, Tracks m state →
      ∃ state', MessageCollection.updates now n state.2 state.1 = some state' ∧ Tracks m state' ∧
        state'.1.messageAttributes.length = 2 ^ n * state.1.messageAttributes.length
  | 0, state, h => ⟨state, rfl, h, by simp⟩
  | n + 1, state, h => by
      obtain ⟨state₁, hupdate, h₁, hdouble⟩ := h.update happend now
      obtain ⟨state', hrest, h', hlength⟩ := Tracks.updates happend now n h₁
      refine ⟨state', ?_, h', ?_⟩
      · rw [MessageCollection.updates, hupdate]
        exact hrest
      · rw [hlength, hdouble, List.length_append, List.length_map, Nat.pow_succ,
          Nat.mul_assoc, Nat.two_mul]

/-! ### The law -/

/-- The attributes of a message are there, each message attribute once. -/
def PresentOnce (m m' : Message) : Prop :=
  m'.attributes = m.attributes ∧ ∀ a ∈ m.messageAttributes,
    (m'.messageAttributes.map MessageAttribute.attributeName).count a.attributeName = 1

/-- The document of a message gives it back, and after any number of updates of the message that was read
    from a collection with its document, the record and the document still have each attribute once. -/
structure Persists (m : Message) (now : TimePoint) : Prop where
  document : ∃ doc, m.toDocument = some doc ∧
    (newMessage now).fromDocument (storedDocument m.oid doc) = some m
  updates : ∀ (n : Nat) (collection : MessageCollection) (doc : List (Str × Bson)), m.toDocument = some doc →
    collection.get? m.oid = some (storedDocument m.oid doc) →
    ∃ read m' collection' m'', MessageCollection.getMessageById collection m.oid now = some read ∧
      MessageCollection.updates now n collection read = some (m', collection') ∧ PresentOnce m m' ∧
      MessageCollection.getMessageById collection' m.oid now = some m'' ∧ PresentOnce m m''

/-- The messages that persist: each attribute can be appended, the times are whole milliseconds, and there
    are no message attributes. -/
structure Persistent (m : Message) : Prop where
  appendable : m.Appendable
  reset : 1000000 ∣ m.reset
  created : 1000000 ∣ m.created
  modified : 1000000 ∣ m.modified
  messageAttributes : m.messageAttributes = []

theorem getMessageById_eq {collection : MessageCollection} {m : Message} {oid : Str} {doc : List (Str × Bson)}
    (hdoc : m.toDocument = some doc) (hget : collection.get? oid = some (storedDocument oid doc))
    (now : TimePoint) : MessageCollection.getMessageById collection oid now = some (m.asRead oid []) := by
  rw [MessageCollection.getMessageById, hget]
  exact Message.fromDocument_toDocument oid hdoc (.inl rfl)

/-- A message that was read is tracked. -/
theorem tracks_read {collection : MessageCollection} {m : Message} {doc : List (Str × Bson)}
    (hdoc : m.toDocument = some doc) (hget : collection.get? m.oid = some (storedDocument m.oid doc)) :
    Tracks m (m.asRead m.oid [], collection) :=
  ⟨rfl, rfl, m, doc, hdoc, hget, rfl, by simp [Message.asRead]⟩

theorem presentOnce_of_none {m m' : Message} (hnone : m.messageAttributes = [])
    (hattributes : m'.attributes = m.attributes) : PresentOnce m m' :=
  ⟨hattributes, by simp [hnone]⟩

theorem Persistent.persists {m : Message} (h : Persistent m) (now : TimePoint) : Persists m now := by
  refine ⟨?_, fun n collection doc hdoc hget => ?_⟩
  · obtain ⟨doc, hdoc⟩ := Message.toDocument_isSome.mpr h.appendable
    have hnone : (newMessage now).messageAttributes ++ m.messageAttributes.map MessageAttribute.asRead =
        m.messageAttributes := by
      rw [h.messageAttributes]
      rfl
    refine ⟨doc, hdoc, ?_⟩
    rw [storedDocument, Message.fromDocument_toDocument m.oid hdoc (.inl rfl), Message.asRead,
      ofDate_toDate.mpr h.reset, ofDate_toDate.mpr h.created, ofDate_toDate.mpr h.modified, hnone]
  · obtain ⟨⟨m', collection'⟩, hupdates, htracks, -⟩ :=
      Tracks.updates h.appendable now n (tracks_read hdoc hget)
    obtain ⟨m₀, doc', hdoc', hget', hattributes, -⟩ := htracks.stored
    exact ⟨_, m', collection', _, getMessageById_eq hdoc hget now, hupdates,
      presentOnce_of_none h.messageAttributes htracks.attributes, getMessageById_eq hdoc' hget' now,
      presentOnce_of_none h.messageAttributes hattributes⟩

theorem Persists.persistent {m : Message} {now : TimePoint} (h : Persists m now) : Persistent m := by
  obtain ⟨doc, hdoc, hread⟩ := h.document
  have happend : m.Appendable := Message.toDocument_isSome.mp ⟨doc, hdoc⟩
  have hsame : m.asRead m.oid [] = m := by
    rw [storedDocument, Message.fromDocument_toDocument m.oid hdoc (.inl rfl)] at hread
    exact Option.some.inj hread
  refine ⟨happend, ofDate_toDate.mp (congrArg Message.reset hsame), ofDate_toDate.mp (congrArg Message.created hsame),
    ofDate_toDate.mp (congrArg Message.modified hsame), ?_⟩
  -- One update is enough to see an attribute twice.
  by_contra hsome
  obtain ⟨a, rest, hattributes⟩ := List.exists_cons_of_ne_nil hsome
  have hget : ((∅ : MessageCollection).insert m.oid (storedDocument m.oid doc)).get? m.oid =
      some (storedDocument m.oid doc) := OrderedMap.get?_insert_self _ _ _
  obtain ⟨read, m', collection', -, hfetch, hupdates, honce, -⟩ := h.updates 1 _ doc hdoc hget
  obtain rfl := Option.some.inj ((getMessageById_eq hdoc hget now).symm.trans hfetch)
  obtain ⟨state, hupdate, -, hdouble⟩ := (tracks_read hdoc hget).update happend now
  rw [MessageCollection.updates, hupdate] at hupdates
  obtain rfl : state = (m', collection') := Option.some.inj hupdates
  have hcount := honce.2 a (by rw [hattributes]; exact List.mem_cons_self ..)
  rw [hdouble, hsame, hattributes] at hcount
  simp [MessageAttribute.asRead] at hcount

/-- Exactly these messages persist. -/
theorem message_persists_iff (m : Message) (now : TimePoint) : Persists m now ↔ Persistent m :=
  ⟨Persists.persistent, fun h => h.persists now⟩

/-- A message with the message attribute `a`: after one update of what was read, it has two. -/
theorem message_attribute_doubled :
    (do
      let doc ← Message.toDocument { oid := str "1", messageAttributes := [⟨str "a", str "x", .string, true⟩],
                                     created := 0, modified := 0 }
      let collection := (∅ : MessageCollection).insert (str "1") (storedDocument (str "1") doc)
      let read ← MessageCollection.getMessageById collection (str "1") 0
      let (m', _) ← MessageCollection.updates 0 1 collection read
      return (read.messageAttributes.length, m'.messageAttributes.length)) = some (1, 2) ∧
    ¬ Persists { oid := str "1", messageAttributes := [⟨str "a", str "x", .string, true⟩],
                 created := 0, modified := 0 } 0 :=
  ⟨rfl, fun h => absurd h.persistent.messageAttributes (List.cons_ne_nil _ _)⟩

end AwsMock.Sqs
