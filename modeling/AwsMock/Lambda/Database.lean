import AwsMock.Lambda.MemoryDb
import AwsMock.Lib.Prog

/-!
# Calls of the lambda module

`LambdaDatabase` on the in-memory store, the Docker daemon, the lambda runtime in the containers and the
mutex of the service, one atomic call at a time. The image of a function is built in one call.
-/

namespace AwsMock.Lambda

open Lib

/-- What building an image yields. -/
structure DockerImage where
  codeSize : Int
  imageId : Str
  codeSha256 : Str
  hostPort : Int
  zipFile : Str

/-- A container as the daemon reports it; `lambdaPort` is `GetLambdaPort`. -/
structure Container where
  id : Str := []
  state : Str := []
  lambdaPort : Int := -1

structure HttpSocketResponse where
  ok : Bool
  body : Str := []

inductive LambdaCall where
  | lambdaExists (function : Str)
  | lambdaExistsByArn (arn : Str)
  | listLambdas (region : Str)
  | getLambdaById (oid : Str)
  | getLambdaByArn (arn : Str)
  | updateLambda (lambda : Lambda)
  | setInstanceStatus (containerId : Str) (status : LambdaInstanceStatus)
  | deleteLambda (functionName : Str)
  | imageExists (name tag : Str)
  | createDockerImage (functionCode : Str) (lambda : Lambda) (dockerTag : Str)
  | containerExists (name tag : Str)
  | getContainerByName (name tag : Str)
  | createContainer (name instanceName tag : Str) (environment : List Str) (hostPort : Int)
  | startDockerContainer (id : Str)
  | stopContainer (id : Str)
  | pruneContainers
  | deleteContainer (id : Str)
  | getImageByName (name tag : Str)
  | deleteImage (id : Str)
  | now
  | generateRandomHexString
  | getHostPort
  /-- The request of `HttpSocket::SendJson`. -/
  | send (host : Str) (port : Int) (payload : Str)
  /-- Its response. -/
  | receive
  /-- The request to the port of a function. -/
  | sendSync (lambda : Lambda) (payload : Str)
  | receiveSync (lambda : Lambda)
  /-- A detached thread of the executor. -/
  | start (containerId host : Str) (port : Int) (payload : Str)
  | lock
  | unlock
  /-- `std::terminate`. -/
  | terminate

namespace LambdaCall

/-- What a call returns; a lookup or an update may throw, and so may the HTTP client. -/
abbrev Reply : LambdaCall → Type
  | lambdaExists .. | lambdaExistsByArn .. | imageExists .. | containerExists .. => Bool
  | listLambdas .. => List Lambda
  | getLambdaById .. | getLambdaByArn .. | updateLambda .. => Except Error Lambda
  | createDockerImage .. => DockerImage
  | getContainerByName .. => Container
  | createContainer .. | getImageByName .. | generateRandomHexString => Str
  | now | getHostPort => Int
  | receive | receiveSync .. => Except Error HttpSocketResponse
  | setInstanceStatus .. | deleteLambda .. | startDockerContainer .. | stopContainer .. | pruneContainers
  | deleteContainer .. | deleteImage .. | send .. | sendSync .. | start .. | lock | unlock | terminate => Unit

end LambdaCall

/-- What the world outside answers to the `n`-th call. -/
structure Runtime where
  imageExists : Nat → Bool
  dockerImage : Nat → DockerImage
  containerExists : Nat → Bool
  container : Nat → Container
  containerId : Nat → Str
  imageId : Nat → Str
  now : Nat → Int
  randomHexString : Nat → Str
  hostPort : Nat → Int
  response : Nat → Except Error HttpSocketResponse

end AwsMock.Lambda
