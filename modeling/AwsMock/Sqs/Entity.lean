import AwsMock.Lib.Bytes
import AwsMock.Lib.OrderedMap

/-!
# SQS entities

The records of `Database::Entity::SQS`. A time point counts the ticks of `system_clock`
(nanoseconds); `created` and `modified` default to the time the record is built, which the caller
passes in.
-/

namespace AwsMock.Sqs

open Lib

/-- `system_clock::time_point`. -/
abbrev TimePoint := Int

/-- `std::chrono::seconds{n}` in clock ticks. -/
def seconds (n : Int) : TimePoint := n * 1000000000

inductive MessageStatus where
  | initial
  | delayed
  | invisible
  | unknown
  deriving DecidableEq

inductive MessageAttributeType where
  | string
  | number
  | binary
  deriving DecidableEq

structure MessageAttribute where
  attributeName : Str
  attributeValue : Str
  attributeType : MessageAttributeType
  systemAttribute : Bool := true
  deriving DecidableEq

structure Message where
  oid : Str := []
  region : Str := []
  queueUrl : Str := []
  queueName : Str := []
  body : Str := []
  status : MessageStatus := .initial
  reset : TimePoint := 0
  retries : Int := 0
  messageId : Str := []
  receiptHandle : Str := []
  md5Body : Str := []
  md5UserAttr : Str := []
  md5SystemAttr : Str := []
  attributes : OrderedMap Str Str := ∅
  messageAttributes : List MessageAttribute := []
  created : TimePoint
  modified : TimePoint
  deriving DecidableEq

structure RedrivePolicy where
  deadLetterTargetArn : Str := []
  maxReceiveCount : Int := 0
  deriving DecidableEq

structure QueueAttribute where
  delaySeconds : Int := 0
  maxMessageSize : Int := 262144
  messageRetentionPeriod : Int := 345600
  receiveMessageWaitTime : Int := 20
  visibilityTimeout : Int := 30
  policy : Str := []
  redrivePolicy : RedrivePolicy := {}
  redriveAllowPolicy : Str := []
  approximateNumberOfMessages : Int := 0
  approximateNumberOfMessagesDelayed : Int := 0
  approximateNumberOfMessagesNotVisible : Int := 0
  queueArn : Str := []
  deriving DecidableEq

structure Queue where
  oid : Str := []
  region : Str := []
  name : Str := []
  owner : Str := []
  queueUrl : Str := []
  queueArn : Str := []
  attributes : QueueAttribute := {}
  tags : OrderedMap Str Str := ∅
  created : TimePoint
  modified : TimePoint
  deriving DecidableEq

end AwsMock.Sqs
