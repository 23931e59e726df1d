import AwsMock.Lib.Bytes

/-!
# Transfer entities

The records of `Database::Entity::Transfer`, without the times, which no function reads.
-/

namespace AwsMock.Transfer

open Lib

/-- `ServerState`. A record stores the name of its state, which tells the states apart. -/
inductive ServerState where
  | offline
  | online
  | starting
  | stopping
  | startFailed
  | stopFailed
  deriving DecidableEq

structure User where
  userName : Str
  password : Str
  homeDirectory : Str
  arn : Str := []
  deriving DecidableEq

structure Transfer where
  oid : Str := []
  region : Str := []
  serverId : Str := []
  arn : Str := []
  protocols : List Str := []
  users : List User := []
  state : ServerState := .offline
  concurrency : Int := 8
  port : Int := 21
  listenAddress : Str := str "0.0.0.0"
  deriving DecidableEq

end AwsMock.Transfer
