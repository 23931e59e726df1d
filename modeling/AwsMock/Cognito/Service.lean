import AwsMock.Cognito.Database
import AwsMock.Core.AwsUtils

/-!
# The Cognito service

The requests to `CognitoService` that create and delete user pools, users and groups and put users into
groups, as programs over the calls.
-/

namespace AwsMock.Cognito

open Lib

abbrev CognitoProg := Prog CognitoCall CognitoCall.Reply Error

/-- One call. -/
abbrev call (c : CognitoCall) : CognitoProg c.Reply := Prog.perform c

/-- `Poco::Exception::message`. -/
def message : Error → Str
  | .serviceException text | .pocoException text | .stdException text => text

/-- `catch (Poco::Exception &ex)`. -/
def rethrow {α : Type} (p : CognitoProg α) : CognitoProg α := p.mapThrow fun ex => .serviceException (message ex)

/-- What a request draws: a random string for a pool id, and the time points of a new record. -/
structure Draws where
  randomString : Str
  created : Int
  modified : Int

structure CreateUserPoolRequest where
  region : Str
  name : Str

structure DeleteUserPoolRequest where
  userPoolId : Str

structure CreateGroupRequest where
  region : Str
  groupName : Str
  description : Str := []
  precedence : Int
  userPoolId : Str

/-- The requests that name a group of a pool. -/
structure DeleteGroupRequest where
  region : Str
  userPoolId : Str
  groupName : Str

/-- The requests that name a user of a pool. -/
structure AdminUserRequest where
  region : Str
  userPoolId : Str
  userName : Str

structure AdminAddUserToGroupRequest extends AdminUserRequest where
  groupName : Str

/-- The exception for a user pool that is missing. -/
def noUserPool (userPoolId : Str) : Error :=
  .serviceException (str "User pool does not exists, userPoolId: " ++ userPoolId)

/-- `CreateCognitoUserPoolId`. -/
def createCognitoUserPoolId (region randomString : Str) : Str := region ++ str "_" ++ randomString

def createUserPool (accountId : Str) (draws : Draws) (request : CreateUserPoolRequest) : CognitoProg UserPool := do
  if ← call (.userPoolNameExists request.region request.name) then
    .throw (.serviceException (str "User pool exists already, region: " ++ request.region ++ str " name: " ++
      request.name))
  else rethrow do
    let userPoolId := createCognitoUserPoolId request.region draws.randomString
    let userPool ← call (.createUserPool {
      region := request.region, userPoolId := userPoolId, name := request.name,
      arn := createArn (str "cognito-idp") request.region accountId userPoolId,
      created := draws.created, modified := draws.modified })
    Prog.ofExcept userPool

def deleteUserPool (request : DeleteUserPoolRequest) : CognitoProg Unit := do
  if ← call (.userPoolExists request.userPoolId) then call (.deleteUserPool request.userPoolId)
  else .throw (noUserPool request.userPoolId)

def adminCreateUser (draws : Draws) (request : AdminUserRequest) : CognitoProg User := do
  if ← call (.userPoolExists request.userPoolId) then
    if ← call (.userExists request.region request.userPoolId request.userName) then
      .throw (.serviceException (str "User exists exists already, userPoolId: " ++ request.userPoolId ++
        str " userName: " ++ request.userName))
    else rethrow do
      let user ← call (.createUser {
        region := request.region, userPoolId := request.userPoolId, userName := request.userName,
        enabled := true, created := draws.created, modified := draws.modified })
      Prog.ofExcept user
  else .throw (noUserPool request.userPoolId)

/-- The exception for a group that is missing, with what it is searched by. -/
def noGroup (request : AdminAddUserToGroupRequest) : Error :=
  .serviceException (str "Group does not exist, groupName: " ++ request.groupName ++ str " userPoolId: " ++
    request.userPoolId)

def adminAddUserToGroup (request : AdminAddUserToGroupRequest) : CognitoProg Unit := do
  if ← call (.userPoolExists request.userPoolId) then
    if ← call (.userExists request.region request.userPoolId request.userName) then
      if ← call (.groupExists request.region request.groupName) then
        rethrow do
          let found ← call (.getUserByUserName request.region request.userPoolId request.userName)
          let user ← Prog.ofExcept found
          let found ← call (.getGroupByGroupName request.region request.userPoolId request.groupName)
          let group ← Prog.ofExcept found
          Prog.when (user.hasGroup request.userPoolId request.groupName = false) do
            let updated ← call (.updateUser { user with groups := user.groups ++ [group] })
            let _ ← Prog.ofExcept updated
      else .throw (noGroup request)
    else .throw (.serviceException (str "User does not exists, userName: " ++ request.userName ++
      str " userPoolId: " ++ request.userPoolId))
  else .throw (noUserPool request.userPoolId)

def adminDeleteUser (request : AdminUserRequest) : CognitoProg Unit := do
  if ← call (.userPoolExists request.userPoolId) then
    if ← call (.userExists request.region request.userPoolId request.userName) then
      rethrow do
        let found ← call (.getUserByUserName request.region request.userPoolId request.userName)
        let user ← Prog.ofExcept found
        call (.deleteUser user)
    else .throw (.serviceException (str "User does not exists, userPoolId: " ++ request.userPoolId ++
      str " userName: " ++ request.userName))
  else .throw (noUserPool request.userPoolId)

/-- `Mapper::map(CreateGroupRequest)`. -/
def mapGroup (draws : Draws) (request : CreateGroupRequest) : Group :=
  { region := request.region, userPoolId := request.userPoolId, groupName := request.groupName,
    description := request.description, precedence := request.precedence, created := draws.created,
    modified := draws.modified }

def createGroup (draws : Draws) (request : CreateGroupRequest) : CognitoProg Group := do
  if ← call (.groupExists request.region request.groupName) then
    .throw (.serviceException (str "User group exists already, region: " ++ request.region ++ str " name: " ++
      request.groupName))
  else rethrow do
    let group ← call (.createGroup (mapGroup draws request))
    Prog.ofExcept group

def deleteGroup (request : DeleteGroupRequest) : CognitoProg Unit := do
  if ← call (.groupExists request.region request.groupName) then
    call (.deleteGroup request.region request.userPoolId request.groupName)
  else .throw (.serviceException (str "Group does not exist, region: " ++ request.region ++ str " name: " ++
    request.groupName))

/-- The requests. -/
inductive Request where
  | createUserPool (request : CreateUserPoolRequest)
  | deleteUserPool (request : DeleteUserPoolRequest)
  | createGroup (request : CreateGroupRequest)
  | deleteGroup (request : DeleteGroupRequest)
  | adminCreateUser (request : AdminUserRequest)
  | adminDeleteUser (request : AdminUserRequest)
  | adminAddUserToGroup (request : AdminAddUserToGroupRequest)

/-- A request as its program; its response is left out. -/
def Request.prog (accountId : Str) (draws : Draws) : Request → CognitoProg Unit
  | .createUserPool request => do let _ ← Cognito.createUserPool accountId draws request
  | .deleteUserPool request => Cognito.deleteUserPool request
  | .createGroup request => do let _ ← Cognito.createGroup draws request
  | .deleteGroup request => Cognito.deleteGroup request
  | .adminCreateUser request => do let _ ← Cognito.adminCreateUser draws request
  | .adminDeleteUser request => Cognito.adminDeleteUser request
  | .adminAddUserToGroup request => Cognito.adminAddUserToGroup request

/-- A request in the process. -/
def serve (rt : Runtime) (accountId : Str) (request : Request) (w : World) :
    Option (Except Error Unit × World) :=
  (request.prog accountId ⟨rt.randomString w.calls, (rt.now w.calls).1, (rt.now w.calls).2⟩).run (exec rt) w

end AwsMock.Cognito
