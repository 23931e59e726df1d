import AwsMock.Core.Poco
import AwsMock.Sqs.Entity

/-!
# SQS requests and responses

The structures of `Dto::SQS` that the service reads and returns, and the digests of message
attributes. A random `sequenceNumber` and the fields no function sets are left out.
-/

namespace AwsMock.Sqs

open Lib

/-! ### Message attributes -/

inductive MessageAttributeDataType where
  | string
  | number
  | binary
  deriving DecidableEq

def messageAttributeDataTypeToString : MessageAttributeDataType → Str
  | .string => str "String"
  | .number => str "Number"
  | .binary => str "Binary"

/-- Unknown names are taken for `String`. -/
def messageAttributeDataTypeFromString (name : Str) : MessageAttributeDataType :=
  if name = str "String" then .string
  else if name = str "Number" then .number
  else if name = str "Binary" then .binary
  else .string

/-- `Entity::SQS::MessageAttributeTypeToString`. -/
def messageAttributeTypeToString : MessageAttributeType → Str
  | .string => str "String"
  | .number => str "Number"
  | .binary => str "Binary"

/-- `Entity::SQS::MessageAttributeTypeFromString`. -/
def messageAttributeTypeFromString (name : Str) : MessageAttributeType :=
  if name = str "String" then .string
  else if name = str "Number" then .number
  else if name = str "Binary" then .binary
  else .string

/-- `Dto::SQS::MessageAttribute`; `binaryValue` is what the pointer points to, and no decoder of the
    repository sets it. -/
structure DtoMessageAttribute where
  name : Str := []
  stringValue : Str := []
  numberValue : Int := -1
  binaryValue : Option Str := none
  type : MessageAttributeDataType
  systemAttribute : Bool := true
  deriving DecidableEq

/-- `GetIntAsByteArray`: the low four bytes, most significant first. -/
def getIntAsByteArray (n : Nat) : Str :=
  [UInt8.ofNat (n / 16777216), UInt8.ofNat (n / 65536), UInt8.ofNat (n / 256), UInt8.ofNat n]

/-- The bytes `UpdateLengthAndBytes` feeds to the digest. -/
def updateLengthAndBytes (s : Str) : Str := getIntAsByteArray s.length ++ s

/-- A value is announced by a byte 1; an empty value is left out. -/
def valueBytes (value : Str) : Str := if value = [] then [] else 1 :: updateLengthAndBytes value

/-- `GetMd5Attributes`, where `md5` is the hexadecimal digest of a byte string. -/
def getMd5Attributes (md5 : Str → Str) (attributes : OrderedMap Str Str) : Str :=
  md5 (attributes.entries.flatMap fun a => updateLengthAndBytes a.1 ++ valueBytes a.2)

/-- `GetMd5MessageAttributes`. -/
def getMd5MessageAttributes (md5 : Str → Str) (attributes : OrderedMap Str DtoMessageAttribute) :
    Str :=
  md5 (attributes.entries.flatMap fun a => updateLengthAndBytes a.1 ++
    updateLengthAndBytes (messageAttributeDataTypeToString a.2.type) ++ valueBytes a.2.stringValue)

/-! ### Requests -/

/-- `Dto::SQS::QueueAttribute`. -/
structure DtoQueueAttribute where
  attributeName : Str
  attributeValue : Str
  deriving DecidableEq

structure CreateQueueRequest where
  region : Str := []
  queueName : Str := []
  queueUrl : Str := []
  owner : Str := []
  attributes : List DtoQueueAttribute := []
  tags : OrderedMap Str Str := ∅
  requestId : Str := []
  deriving DecidableEq

structure SetQueueAttributesRequest where
  region : Str := []
  queueUrl : Str := []
  attributes : OrderedMap Str Str := ∅
  requestId : Str := []
  deriving DecidableEq

structure GetQueueAttributesRequest where
  region : Str := []
  queueUrl : Str := []
  attributeNames : List Str := []
  deriving DecidableEq

structure TagQueueRequest where
  region : Str := []
  queueUrl : Str := []
  tags : OrderedMap Str Str := ∅
  deriving DecidableEq

structure PurgeQueueRequest where
  region : Str := []
  queueUrl : Str := []
  deriving DecidableEq

structure DeleteQueueRequest where
  region : Str := []
  queueUrl : Str := []
  requestId : Str := []
  deriving DecidableEq

structure SendMessageRequest where
  region : Str := []
  queueUrl : Str := []
  body : Str := []
  attributes : OrderedMap Str Str := ∅
  messageAttributes : OrderedMap Str DtoMessageAttribute := ∅
  messageId : Str := []
  senderId : Str := []
  requestId : Str := []
  deriving DecidableEq

structure ReceiveMessageRequest where
  region : Str := []
  queueUrl : Str := []
  maxMessages : Int := 10
  visibilityTimeout : Int := 15
  waitTimeSeconds : Int := 1
  attributeNames : List Str := [str "All"]
  messageAttributeNames : List Str := [str "All"]
  requestId : Str := []
  deriving DecidableEq

structure ChangeMessageVisibilityRequest where
  region : Str := []
  queueUrl : Str := []
  receiptHandle : Str := []
  visibilityTimeout : Int
  deriving DecidableEq

structure DeleteMessageRequest where
  region : Str := []
  queueUrl : Str := []
  receiptHandle : Str := []
  requestId : Str := []
  deriving DecidableEq

structure DeleteMessageBatchEntry where
  id : Str := []
  receiptHandle : Str := []
  deriving DecidableEq

structure DeleteMessageBatchRequest where
  region : Str := []
  queueUrl : Str := []
  deleteMessageBatchEntries : List DeleteMessageBatchEntry := []
  deriving DecidableEq

/-! ### Responses -/

structure CreateQueueResponse where
  region : Str
  name : Str
  owner : Str
  queueUrl : Str
  queueArn : Str
  deriving DecidableEq

structure SetQueueAttributesResponse where
  resource : Str
  requestId : Str
  deriving DecidableEq

structure GetQueueAttributesResponse where
  attributes : List (Str × Str) := []
  deriving DecidableEq

structure DeleteQueueResponse where
  region : Str
  queueUrl : Str
  requestId : Str
  deriving DecidableEq

structure SendMessageResponse where
  queueUrl : Str
  messageId : Str
  receiptHandle : Str
  md5Body : Str
  md5UserAttr : Str
  md5SystemAttr : Str
  requestId : Str
  deriving DecidableEq

structure ReceiveMessageResponse where
  messageList : List Message := []
  requestId : Str := []
  deriving DecidableEq

end AwsMock.Sqs
