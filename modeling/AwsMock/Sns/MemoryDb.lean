import AwsMock.Sns.Entity

/-!
# The in-memory SNS store

`SNSMemoryDb`: two maps keyed by a random object id, and one function for each method the service
calls. What a method draws from outside is an argument; a dereferenced end iterator has no defined
result: `none`.
-/

namespace AwsMock.Sns

open Lib

structure SnsMemoryDb where
  topics : OrderedMap Str Topic := ∅
  messages : OrderedMap Str Message := ∅
  deriving DecidableEq

namespace SnsMemoryDb

/-! ### Topics -/

/-- `TopicExists` by region and name. -/
def topicNameExists (db : SnsMemoryDb) (region name : Str) : Bool :=
  (db.topics.findIf fun _ topic => topic.region = region ∧ topic.topicName = name).isSome

/-- `TopicExists` by ARN. -/
def topicExists (db : SnsMemoryDb) (arn : Str) : Bool :=
  (db.topics.findIf fun _ topic => topic.topicArn = arn).isSome

/-- The common end of the `GetTopicBy…` methods: the record found is given its key as `oid`, in the
    store as well, and returned. -/
def fetchTopic (db : SnsMemoryDb) (now : TimePoint) : Option (Str × Topic) → Topic × SnsMemoryDb
  | some (oid, topic) =>
    ({ topic with oid := oid }, { db with topics := db.topics.insert oid { topic with oid := oid } })
  | none => ({ created := now, modified := now }, db)

def getTopicById (db : SnsMemoryDb) (oid : Str) (now : TimePoint) : Topic × SnsMemoryDb :=
  db.fetchTopic now (db.topics.findIf fun key _ => key = oid)

def getTopicByArn (db : SnsMemoryDb) (topicArn : Str) (now : TimePoint) : Topic × SnsMemoryDb :=
  db.fetchTopic now (db.topics.findIf fun _ topic => topic.topicArn = topicArn)

/-- The name is compared with the ARN. -/
def getTopicByName (db : SnsMemoryDb) (region topicName : Str) (now : TimePoint) :
    Topic × SnsMemoryDb :=
  db.fetchTopic now (db.topics.findIf fun _ topic =>
    topic.region = region ∧ topic.topicArn = topicName)

/-- Copies of the records, whose `oid` is not set. -/
def getTopicsBySubscriptionArn (db : SnsMemoryDb) (subscriptionArn : Str) : List Topic :=
  db.topics.values.filter fun topic =>
    topic.subscriptions.any fun subscription => subscription.subscriptionArn = subscriptionArn

def createTopic (db : SnsMemoryDb) (oid : Str) (topic : Topic) (now : TimePoint) :
    Topic × SnsMemoryDb :=
  getTopicById { db with topics := db.topics.insert oid topic } oid now

theorem createTopic_eq (db : SnsMemoryDb) (oid : Str) (topic : Topic) (now : TimePoint) :
    db.createTopic oid topic now = ({ topic with oid := oid },
      { db with topics := db.topics.insert oid { topic with oid := oid } }) := by
  have h : (db.topics.insert oid topic).get? oid = some topic := by simp
  simp only [createTopic, getTopicById, OrderedMap.findIf_key h, fetchTopic, OrderedMap.insert_insert]

/-- The result of the lookup is dereferenced unchecked. -/
def updateTopic (db : SnsMemoryDb) (topic : Topic) : Option (Topic × SnsMemoryDb) :=
  (db.topics.findIf fun _ t => t.region = topic.region ∧ t.topicName = topic.topicName).map fun it =>
    (topic, { db with topics := db.topics.insert it.1 topic })

def deleteTopic (db : SnsMemoryDb) (region topicArn : Str) : SnsMemoryDb :=
  { db with topics := db.topics.eraseIf fun _ topic =>
      topic.region = region ∧ topic.topicArn = topicArn }

/-! ### Messages -/

def getMessageById (db : SnsMemoryDb) (oid : Str) (now : TimePoint) : Message × SnsMemoryDb :=
  match db.messages.findIf fun key _ => key = oid with
  | some (_, message) =>
    ({ message with oid := oid },
      { db with messages := db.messages.insert oid { message with oid := oid } })
  | none => ({ created := now, modified := now }, db)

def createMessage (db : SnsMemoryDb) (oid : Str) (message : Message) (now : TimePoint) :
    Message × SnsMemoryDb :=
  getMessageById { db with messages := db.messages.insert oid message } oid now

end SnsMemoryDb

end AwsMock.Sns
