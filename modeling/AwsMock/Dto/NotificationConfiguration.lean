import AwsMock.Lib.Bytes

/-!
# Notification configurations

The DTOs of `PutBucketNotificationConfiguration`. A configuration of a queue, a topic or a lambda function
has the same fields; `arn` is its `queueArn`, `topicArn` or `lambdaArn`.
-/

namespace AwsMock.Dto

open Lib

inductive NotificationEventType where
  | reducedRedundancyLostObject
  | objectCreated
  | objectRemoved
  | objectRestored
  | replication
  | objectRestore
  | objectLifecycleTransition
  | intelligentTiering
  | objectAcl
  | lifecycleExpiration
  | objectTagging
  deriving DecidableEq

/-- `EventTypeNames`, in the order of the map: three names end in a blank, and one stands for two types. -/
def eventTypeNames : List (NotificationEventType × Str) :=
  [(.reducedRedundancyLostObject, str "ReducedRedundancyLostObject "), (.objectCreated, str "ObjectCreated"),
    (.objectRemoved, str "ObjectRemoved"), (.objectRestored, str "ObjectRestore"), (.replication, str "Replication"),
    (.objectRestore, str "ObjectRestore"), (.objectLifecycleTransition, str "LifecycleTransition "),
    (.intelligentTiering, str "IntelligentTiering "), (.objectAcl, str "ObjectAcl"),
    (.lifecycleExpiration, str "LifecycleExpiration"), (.objectTagging, str "ObjectTagging")]

/-- `EventTypeToString`. -/
def NotificationEventType.toString (eventType : NotificationEventType) : Str :=
  ((eventTypeNames.find? fun it => it.1 = eventType).map Prod.snd).getD []

/-- `EventTypeFromString`. -/
def NotificationEventType.fromString (nameType : Str) : NotificationEventType :=
  ((eventTypeNames.find? fun it => it.2 = nameType).map Prod.fst).getD .objectCreated

/-- `NameType`: the rule is about the start of a key or about its end. -/
inductive NameType where
  | keyPrefix
  | keySuffix
  deriving DecidableEq

/-- `NameTypeToString`. -/
def NameType.toString : NameType → Str
  | .keyPrefix => str "prefix"
  | .keySuffix => str "suffix"

/-- `NameTypeFromString`. -/
def NameType.fromString (nameType : Str) : NameType :=
  if nameType = str "prefix" then .keyPrefix
  else if nameType = str "suffix" then .keySuffix
  else .keyPrefix

structure FilterRule where
  name : NameType
  value : Str
  deriving DecidableEq

/-- `QueueConfiguration`, `TopicConfiguration` and `LambdaConfiguration`. -/
structure NotificationConfiguration where
  id : Str := []
  arn : Str := []
  filterRules : List FilterRule := []
  events : List NotificationEventType := []
  deriving DecidableEq

structure PutBucketNotificationConfigurationRequest where
  region : Str := []
  bucket : Str := []
  topicConfigurations : List NotificationConfiguration := []
  queueConfigurations : List NotificationConfiguration := []
  lambdaConfigurations : List NotificationConfiguration := []
  deriving DecidableEq

end AwsMock.Dto
