import AwsMock.Lib.Bytes
import AwsMock.Lib.OrderedMap

/-!
# The Cognito entities

User pools, users and groups as they are stored. A user carries copies of its groups. Time points count
nanoseconds.
-/

namespace AwsMock.Cognito

open Lib

structure UserPoolDomain where
  domain : Str := []
  deriving DecidableEq

structure UserPoolClient where
  userPoolId : Str
  clientId : Str := []
  clientName : Str := []
  clientSecret : Str := []
  generateSecret : Bool := false
  created : Int
  modified : Int
  deriving DecidableEq

structure UserPool where
  oid : Str := []
  region : Str
  userPoolId : Str
  name : Str
  clientId : Str := []
  arn : Str := []
  domain : UserPoolDomain := {}
  userPoolClients : List UserPoolClient := []
  created : Int
  modified : Int
  deriving DecidableEq

structure Group where
  oid : Str := []
  region : Str
  userPoolId : Str
  groupName : Str
  description : Str := []
  roleArn : Str := []
  precedence : Int
  created : Int
  modified : Int
  deriving DecidableEq

structure UserAttribute where
  name : Str
  value : Str
  deriving DecidableEq

inductive UserStatus where
  | unconfirmed
  | confirmed
  | externalProvider
  | unknown
  | resetRequired
  | forceChangePassword
  deriving DecidableEq

structure User where
  oid : Str := []
  region : Str
  userPoolId : Str
  userName : Str
  enabled : Bool
  userAttributes : List UserAttribute := []
  userStatus : UserStatus := .unconfirmed
  password : Str := []
  groups : List Group := []
  created : Int
  modified : Int
  deriving DecidableEq

def User.hasGroup (user : User) (userPoolId groupName : Str) : Bool :=
  user.groups.any fun g => g.userPoolId = userPoolId ∧ g.groupName = groupName

end AwsMock.Cognito
