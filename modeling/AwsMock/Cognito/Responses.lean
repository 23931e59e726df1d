import AwsMock.Cognito.Documents
import AwsMock.Cognito.Service
import AwsMock.Lib.Mirror

/-!
# The answers of the Cognito service

Every request to `CognitoService` with its response, as a program over the calls, and the service on either store.
-/

namespace AwsMock.Cognito

open Lib

/-! ### Data transfer objects -/

namespace Dto

structure UserPool where
  id : Str
  region : Str
  name : Str
  userPoolId : Str
  arn : Str
  domain : Str
  created : Int
  modified : Int

structure Group where
  region : Str
  groupName : Str
  userPoolId : Str
  precedence : Int
  created : Int
  modified : Int

structure User where
  region : Str
  userPoolId : Str
  userName : Str
  enabled : Bool
  groups : List Group
  created : Int
  modified : Int

end Dto

/-- `Mapper::map` of a user pool. -/
def mapUserPool (p : UserPool) : Dto.UserPool where
  id := p.userPoolId
  region := p.region
  name := p.name
  userPoolId := p.userPoolId
  arn := p.arn
  domain := p.domain.domain
  created := p.created
  modified := p.modified

/-- `Mapper::map` of a group, without description and role. -/
def mapGroupDto (g : Group) : Dto.Group where
  region := g.region
  groupName := g.groupName
  userPoolId := g.userPoolId
  precedence := g.precedence
  created := g.created
  modified := g.modified

/-- `Mapper::map` of a user, without attributes and status. -/
def mapUser (u : User) : Dto.User where
  region := u.region
  userPoolId := u.userPoolId
  userName := u.userName
  enabled := u.enabled
  groups := u.groups.map mapGroupDto
  created := u.created
  modified := u.modified

inductive Response where
  | empty
  | userPoolCreated (region name arn userPoolId : Str)
  /-- Both for a domain and for a client. -/
  | userPoolChanged (region domain : Str)
  | userPools (userPools : List Dto.UserPool)
  | userPool (userPool : Dto.UserPool)
  | userCreated (region userName : Str) (enabled : Bool)
  /-- `ListUsersResponse` has the entities. -/
  | users (users : List User)
  | usersInGroup (users : List Dto.User)
  | group (group : Dto.Group)
  | groups (groups : List Dto.Group)

/-! ### Requests -/

structure CreateUserPoolDomainRequest where
  userPoolId : Str
  domain : Str

structure CreateUserPoolClientRequest where
  userPoolId : Str
  clientName : Str
  generateSecret : Bool

structure ListUsersRequest where
  region : Str
  userPoolId : Str

/-- A request draws the random strings of a client as well. -/
structure ServiceDraws extends Draws where
  clientId : Str
  clientSecret : Str

/-- `Mapper::map(CreateUserPoolClientRequest)`. -/
def mapClient (draws : ServiceDraws) (request : CreateUserPoolClientRequest) : UserPoolClient where
  userPoolId := request.userPoolId
  clientId := draws.clientId
  clientName := request.clientName
  clientSecret := if request.generateSecret then draws.clientSecret else []
  generateSecret := request.generateSecret
  created := draws.created
  modified := draws.modified

/-- A user pool is read, changed and written back. -/
def changeUserPool (userPoolId : Str) (change : UserPool → UserPool) : CognitoProg Response := do
  if ← call (.userPoolExists userPoolId) then
    rethrow do
      let found ← call (.getUserPoolByUserPoolId userPoolId)
      let userPool ← Prog.ofExcept found
      let updated ← call (.updateUserPool (change userPool))
      let userPool ← Prog.ofExcept updated
      return .userPoolChanged userPool.region userPool.domain.domain
  else .throw (.serviceException (str "User pool does not exist, userPoolId: " ++ userPoolId))

def createUserPoolDomain (request : CreateUserPoolDomainRequest) : CognitoProg Response :=
  changeUserPool request.userPoolId fun userPool => { userPool with domain := { domain := request.domain } }

def createUserPoolClient (draws : ServiceDraws) (request : CreateUserPoolClientRequest) : CognitoProg Response :=
  changeUserPool request.userPoolId fun userPool =>
    { userPool with userPoolClients := userPool.userPoolClients ++ [mapClient draws request] }

def listUserPools (region : Str) : CognitoProg Response :=
  rethrow do
    let userPools ← call (.listUserPools region)
    return .userPools (userPools.map mapUserPool)

def describeUserPool (userPoolId : Str) : CognitoProg Response := do
  if ← call (.userPoolExists userPoolId) then
    rethrow do
      let found ← call (.getUserPoolByUserPoolId userPoolId)
      let userPool ← Prog.ofExcept found
      return .userPool (mapUserPool userPool)
  else .throw (noUserPool userPoolId)

def listUsers (request : ListUsersRequest) : CognitoProg Response :=
  rethrow do
    let users ← call (.listUsers request.region request.userPoolId)
    return .users users

/-- The group is looked for in every pool of the region. -/
def listUsersInGroup (request : DeleteGroupRequest) : CognitoProg Response := do
  if ← call (.userPoolExists request.userPoolId) then
    if ← call (.groupExists request.region request.groupName) then
      rethrow do
        let users ← call (.listUsersInGroup request.region request.userPoolId request.groupName)
        return .usersInGroup (users.map mapUser)
    else .throw (.serviceException (str "Group does not exist, groupName: " ++ request.groupName ++
      str " userPoolId: " ++ request.userPoolId))
  else .throw (noUserPool request.userPoolId)

/-- The groups of every pool. -/
def listGroups (region : Str) : CognitoProg Response :=
  rethrow do
    let groups ← call (.listGroups region [])
    return .groups (groups.map mapGroupDto)

inductive ServiceRequest where
  | createUserPool (request : CreateUserPoolRequest)
  | createUserPoolDomain (request : CreateUserPoolDomainRequest)
  | createUserPoolClient (request : CreateUserPoolClientRequest)
  | listUserPools (region : Str)
  | describeUserPool (userPoolId : Str)
  | deleteUserPool (request : DeleteUserPoolRequest)
  | adminCreateUser (request : AdminUserRequest)
  | adminAddUserToGroup (request : AdminAddUserToGroupRequest)
  | listUsers (request : ListUsersRequest)
  | listUsersInGroup (request : DeleteGroupRequest)
  | adminDeleteUser (request : AdminUserRequest)
  | createGroup (request : CreateGroupRequest)
  | listGroups (region : Str)
  | deleteGroup (request : DeleteGroupRequest)

/-- A request as its program. -/
def ServiceRequest.prog (accountId : Str) (draws : ServiceDraws) : ServiceRequest → CognitoProg Response
  | createUserPool request => do
    let userPool ← Cognito.createUserPool accountId draws.toDraws request
    return .userPoolCreated userPool.region userPool.name userPool.arn userPool.userPoolId
  | createUserPoolDomain request => Cognito.createUserPoolDomain request
  | createUserPoolClient request => Cognito.createUserPoolClient draws request
  | listUserPools region => Cognito.listUserPools region
  | describeUserPool userPoolId => Cognito.describeUserPool userPoolId
  | deleteUserPool request => do
    Cognito.deleteUserPool request
    return .empty
  | adminCreateUser request => do
    let user ← Cognito.adminCreateUser draws.toDraws request
    return .userCreated user.region user.userName user.enabled
  | adminAddUserToGroup request => do
    Cognito.adminAddUserToGroup request
    return .empty
  | listUsers request => Cognito.listUsers request
  | listUsersInGroup request => Cognito.listUsersInGroup request
  | adminDeleteUser request => do
    Cognito.adminDeleteUser request
    return .empty
  | createGroup request => do
    let group ← Cognito.createGroup draws.toDraws request
    return .group (mapGroupDto group)
  | listGroups region => Cognito.listGroups region
  | deleteGroup request => do
    Cognito.deleteGroup request
    return .empty

/-! ### The service on either store -/

/-- What the processes draw: ids, random strings and time points, by the number of calls made so far. The id of a new
    user pool is not that of an earlier one. -/
structure ServiceRuntime where
  ids : ObjectIds
  randomString : Nat → Str
  clientId : Nat → Str
  clientSecret : Nat → Str
  now : Nat → Int × Int
  userPoolId_inj : ∀ {region region' n m}, createCognitoUserPoolId region (randomString n) =
    createCognitoUserPoolId region' (randomString m) → n = m

def ServiceRuntime.draws (rt : ServiceRuntime) (n : Nat) : ServiceDraws where
  randomString := rt.randomString n
  created := (rt.now n).1
  modified := (rt.now n).2
  clientId := rt.clientId n
  clientSecret := rt.clientSecret n

/-- The runtime of the in-memory store. -/
def ServiceRuntime.toRuntime (rt : ServiceRuntime) : Runtime where
  uuid := rt.ids.map
  randomString := rt.randomString
  now := rt.now
  uuid_inj := rt.ids.map_inj

structure MongoWorld where
  db : CognitoMongoDb := {}
  calls : Nat := 0

/-- The meaning of a call in the process that has a document database. -/
def mongoExec (oid : Nat → Str) : Prog.Exec CognitoCall CognitoCall.Reply MongoWorld := fun c w =>
  (mongoCall (oid w.calls) w.db c).map fun r => (r.1, { db := r.2, calls := w.calls + 1 })

variable (rt : ServiceRuntime) (accountId : Str)

def memoryServe (request : ServiceRequest) (w : World) : Option (Except Error Response × World) :=
  (request.prog accountId (rt.draws w.calls)).run (exec rt.toRuntime) w

def mongoServe (request : ServiceRequest) (w : MongoWorld) : Option (Except Error Response × MongoWorld) :=
  (request.prog accountId (rt.draws w.calls)).run (mongoExec rt.ids.collection) w

end AwsMock.Cognito
