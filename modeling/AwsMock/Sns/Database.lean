import AwsMock.Sns.MemoryDb
import AwsMock.Sqs.Service

/-!
# Calls to the SNS store

`SnsCall` lists what the SNS service asks of its store, each one atomic; it shares the process, its
clock and its random generators with the SQS service.
-/

namespace AwsMock.Sns

open Lib

inductive SnsCall where
  | topicNameExists (region name : Str)
  | topicExists (arn : Str)
  | getTopicByArn (topicArn : Str)
  | getTopicByName (region topicName : Str)
  | getTopicsBySubscriptionArn (subscriptionArn : Str)
  | createTopic (topic : Topic)
  | updateTopic (topic : Topic)
  | deleteTopic (region topicArn : Str)
  | createMessage (message : Message)
  | sqs (c : Sqs.SqsCall)
  deriving DecidableEq

namespace SnsCall

/-- What a call returns. -/
abbrev Reply : SnsCall → Type
  | topicNameExists .. | topicExists .. => Bool
  | getTopicByArn .. | getTopicByName .. | createTopic .. | updateTopic .. => Topic
  | getTopicsBySubscriptionArn .. => List Topic
  | deleteTopic .. => Unit
  | createMessage .. => Message
  | sqs c => c.Reply

/-- The `n`-th call of a run on the in-memory store; the calls of the SQS store leave it alone. -/
def apply (rt : Sqs.Runtime) (n : Nat) (db : SnsMemoryDb) : (c : SnsCall) →
    Option (c.Reply × SnsMemoryDb)
  | topicNameExists region name => some (db.topicNameExists region name, db)
  | topicExists arn => some (db.topicExists arn, db)
  | getTopicByArn topicArn => some (db.getTopicByArn topicArn (rt.now n))
  | getTopicByName region topicName => some (db.getTopicByName region topicName (rt.now n))
  | getTopicsBySubscriptionArn subscriptionArn =>
    some (db.getTopicsBySubscriptionArn subscriptionArn, db)
  | createTopic topic => some (db.createTopic (rt.uuid n) topic (rt.now n))
  | updateTopic topic => db.updateTopic topic
  | deleteTopic region topicArn => some ((), db.deleteTopic region topicArn)
  | createMessage message => some (db.createMessage (rt.uuid n) message (rt.now n))
  | sqs _ => none

end SnsCall

/-- The process: both stores and the number of calls made so far. -/
structure World where
  db : SnsMemoryDb := {}
  sqs : Sqs.World := {}
  deriving DecidableEq

/-- The meaning of a call in the process. -/
def exec (cfg : Configuration) (rt : Sqs.Runtime) : Prog.Exec SnsCall SnsCall.Reply World
  | .sqs c, w => (Sqs.exec cfg rt c w.sqs).map fun r => (r.1, { w with sqs := r.2 })
  | c, w => (c.apply rt w.sqs.calls w.db).map fun r =>
    (r.1, { db := r.2, sqs := { w.sqs with calls := w.sqs.calls + 1 } })

end AwsMock.Sns
