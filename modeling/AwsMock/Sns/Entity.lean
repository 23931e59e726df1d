import AwsMock.Sqs.Entity

/-!
# SNS entities

The records of `Database::Entity::SNS`, without the topic attributes and the delivery state of a
message, which no function reads.
-/

namespace AwsMock.Sns

open Lib

abbrev TimePoint := Sqs.TimePoint

structure Subscription where
  protocol : Str := []
  endpoint : Str := []
  subscriptionArn : Str := []
  deriving DecidableEq

structure Topic where
  oid : Str := []
  region : Str := []
  topicName : Str := []
  owner : Str := []
  topicUrl : Str := []
  topicArn : Str := []
  subscriptions : List Subscription := []
  tags : OrderedMap Str Str := ∅
  created : TimePoint
  modified : TimePoint
  deriving DecidableEq

/-- `HasSubscription`: the ARN is not compared. -/
def Topic.hasSubscription (topic : Topic) (subscription : Subscription) : Bool :=
  topic.subscriptions.any fun s =>
    s.protocol = subscription.protocol ∧ s.endpoint = subscription.endpoint

structure Message where
  oid : Str := []
  region : Str := []
  topicArn : Str := []
  targetArn : Str := []
  message : Str := []
  messageId : Str := []
  created : TimePoint
  modified : TimePoint
  deriving DecidableEq

end AwsMock.Sns
