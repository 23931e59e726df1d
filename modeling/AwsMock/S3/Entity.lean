import AwsMock.Core.StringUtils
import AwsMock.Lib.OrderedMap

/-!
# S3 entities

The records of `Database::Entity::S3`. `created` and `modified` default to the time the record is
built, which the caller passes in.
-/

namespace AwsMock.S3

open Lib

/-- `system_clock::time_point` in clock ticks. -/
abbrev TimePoint := Int

structure FilterRule where
  name : Str := []
  value : Str := []
  deriving DecidableEq

/-- `QueueNotification`, `TopicNotification` and `LambdaNotification`: `arn` is the `queueArn`,
    `topicArn` or `lambdaArn`. -/
structure Notification where
  id : Str := []
  events : List Str := []
  arn : Str := []
  filterRules : List FilterRule := []
  deriving DecidableEq

/-- `CheckFilter`: one rule that fits is enough. -/
def Notification.checkFilter (n : Notification) (key : Str) : Bool :=
  n.filterRules = [] ∨ n.filterRules.any fun rule =>
    (rule.name = str "prefix" ∧ startsWith key rule.value) ∨
    (rule.name = str "suffix" ∧ rule.value.isSuffixOf key)

inductive BucketVersionStatus where
  | enabled
  | suspended
  | disabled
  deriving DecidableEq

/-- `BucketVersionStatusFromString`. -/
def BucketVersionStatus.fromString (s : Str) : BucketVersionStatus :=
  if s = str "enabled" then .enabled else if s = str "suspended" then .suspended else .disabled

structure BucketEncryption where
  sseAlgorithm : Str := []
  kmsKeyId : Str := []
  deriving DecidableEq

structure Bucket where
  oid : Str := []
  region : Str := []
  name : Str := []
  owner : Str := []
  queueNotifications : List Notification := []
  topicNotifications : List Notification := []
  lambdaNotifications : List Notification := []
  versionStatus : BucketVersionStatus := .disabled
  bucketEncryption : BucketEncryption := {}
  created : TimePoint
  modified : TimePoint
  deriving DecidableEq

namespace Bucket

def isVersioned (bucket : Bucket) : Bool := bucket.versionStatus = .enabled

def hasEncryption (bucket : Bucket) : Bool :=
  bucket.bucketEncryption.kmsKeyId ≠ [] ∧ bucket.bucketEncryption.sseAlgorithm ≠ []

/-- The condition `find_if` looks for: the bucket of a region with a name. -/
def isNamed (region name : Str) (bucket : Bucket) : Bool := bucket.region = region ∧ bucket.name = name

end Bucket

/-- An object record; `internalName` names its data file. -/
structure Object where
  oid : Str := []
  region : Str := []
  bucket : Str := []
  key : Str := []
  owner : Str := []
  size : Int := 0
  md5sum : Str := []
  sha1sum : Str := []
  sha256sum : Str := []
  contentType : Str := []
  metadata : OrderedMap Str Str := ∅
  internalName : Str := []
  versionId : Str := []
  created : TimePoint
  modified : TimePoint
  deriving DecidableEq

namespace Object

/-- The condition most lookups use. -/
def isAt (region bucket key : Str) (object : Object) : Bool :=
  object.region = region ∧ object.bucket = bucket ∧ object.key = key

/-- The condition of `UpdateObject` and of the deletions, which ignore the region. -/
def isKeyed (bucket key : Str) (object : Object) : Bool := object.bucket = bucket ∧ object.key = key

end Object

end AwsMock.S3
