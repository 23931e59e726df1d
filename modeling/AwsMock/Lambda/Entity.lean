import AwsMock.Lib.Bytes
import AwsMock.Lib.OrderedMap

/-!
# The lambda entities

A function and its instances as they are stored. Time points count nanoseconds.
-/

namespace AwsMock.Lambda

open Lib

inductive LambdaInstanceStatus where
  | instanceIdle
  | instanceRunning
  | instanceFailed
  | instanceUnknown
  deriving DecidableEq

/-- A container of a function. The port and the status of `Instance{}` are not initialised. -/
structure Instance where
  id : Str := []
  containerId : Str := []
  hostPort : Int := 0
  status : LambdaInstanceStatus := .instanceIdle
  created : Int := 0
  deriving DecidableEq

inductive LambdaState where
  | pending
  | active
  | inactive
  | failed
  deriving DecidableEq

structure Code where
  zipFile : Str := []
  s3Bucket : Str := []
  s3Key : Str := []
  deriving DecidableEq

structure Lambda where
  oid : Str := []
  region : Str
  user : Str := []
  function : Str
  runtime : Str := []
  handler : Str := []
  codeSize : Int := 0
  imageId : Str := []
  tags : OrderedMap Str Str := ∅
  arn : Str
  hostPort : Int := 0
  environment : OrderedMap Str Str := ∅
  state : LambdaState := .pending
  stateReason : Str := []
  codeSha256 : Str := []
  code : Code := {}
  lastStarted : Int := 0
  lastInvocation : Int := 0
  instances : List Instance := []
  deriving DecidableEq

namespace Lambda

def hasTag (lambda : Lambda) (key : Str) : Bool := (lambda.tags.get? key).isSome

def getTagValue (lambda : Lambda) (key : Str) : Str := (lambda.tags.get? key).getD []

def getInstance (lambda : Lambda) (instanceId : Str) : Instance :=
  (lambda.instances.find? (·.id = instanceId)).getD {}

def removeInstance (lambda : Lambda) (inst : Instance) : Lambda :=
  { lambda with instances := lambda.instances.filter (·.id ≠ inst.id) }

end Lambda

end AwsMock.Lambda
