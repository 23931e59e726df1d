import AwsMock.Core.Poco
import AwsMock.Cognito.Entity

/-!
# The in-memory Cognito store

`CognitoMemoryDb`: user pools, users and groups in three maps keyed by random object ids.
-/

namespace AwsMock.Cognito

open Lib

/-- The common end of the lookups: the record found is given its key as `oid`. -/
def fetch {α : Type} (withOid : Str → α → α) (records : OrderedMap Str α) (missing : Str) :
    Option (Str × α) → Except Error α × OrderedMap Str α
  | some (oid, record) => (.ok (withOid oid record), records.insert oid (withOid oid record))
  | none => (.error (.pocoException missing), records)

structure CognitoMemoryDb where
  userPools : OrderedMap Str UserPool := ∅
  users : OrderedMap Str User := ∅
  groups : OrderedMap Str Group := ∅
  deriving DecidableEq

namespace CognitoMemoryDb

variable (db : CognitoMemoryDb)

/-! ### User pools -/

/-- `UserPoolExists` by region and name. -/
def userPoolNameExists (region name : Str) : Bool :=
  (db.userPools.findIf fun _ userPool => userPool.region = region ∧ userPool.name = name).isSome

/-- `UserPoolExists` by id. -/
def userPoolExists (userPoolId : Str) : Bool :=
  (db.userPools.findIf fun _ userPool => userPool.userPoolId = userPoolId).isSome

def listUserPools (region : Str) : List UserPool :=
  if region = [] then db.userPools.values else db.userPools.values.filter fun userPool => userPool.region = region

def countUserPools (region : Str) : Nat := (db.listUserPools region).length

/-- Read a user pool. -/
def fetchUserPool (missing : Str) (it : Option (Str × UserPool)) : Except Error UserPool × CognitoMemoryDb :=
  let r := fetch (fun oid userPool => { userPool with oid := oid }) db.userPools missing it
  (r.1, { db with userPools := r.2 })

def getUserPoolByOid (oid : Str) : Except Error UserPool × CognitoMemoryDb :=
  db.fetchUserPool (str "Get cognito user pool by oid failed, oid: " ++ oid)
    (db.userPools.findIf fun key _ => key = oid)

def getUserPoolByUserPoolId (userPoolId : Str) : Except Error UserPool × CognitoMemoryDb :=
  db.fetchUserPool (str "Get cognito user pool by userPoolId failed, userPoolId: " ++ userPoolId)
    (db.userPools.findIf fun _ userPool => userPool.userPoolId = userPoolId)

def getUserPoolByRegionName (region name : Str) : Except Error UserPool × CognitoMemoryDb :=
  db.fetchUserPool
    (str "Get cognito user pool by region and name failed, region: " ++ region ++ str " name: " ++ name)
    (db.userPools.findIf fun _ userPool => userPool.region = region ∧ userPool.name = name)

def createUserPool (oid : Str) (userPool : UserPool) : Except Error UserPool × CognitoMemoryDb :=
  getUserPoolByOid { db with userPools := db.userPools.insert oid userPool } oid

def updateUserPool (userPool : UserPool) : Except Error UserPool × CognitoMemoryDb :=
  match db.userPools.findIf fun _ u => u.region = userPool.region ∧ u.name = userPool.name with
  | some (oid, _) => (.ok userPool, { db with userPools := db.userPools.insert oid userPool })
  | none => (.error (.pocoException (str "Update cognito user pool failed, region: " ++ userPool.region ++
      str " name: " ++ userPool.name)), db)

def deleteUserPool (userPoolId : Str) : CognitoMemoryDb :=
  { db with userPools := db.userPools.eraseIf fun _ userPool => userPool.userPoolId = userPoolId }

/-! ### Users -/

/-- The user of a pool with a name. -/
def findUser (region userPoolId userName : Str) : Option (Str × User) :=
  db.users.findIf fun _ user => user.region = region ∧ user.userPoolId = userPoolId ∧ user.userName = userName

def userExists (region userPoolId userName : Str) : Bool := (db.findUser region userPoolId userName).isSome

/-- Read a user. -/
def fetchUser (missing : Str) (it : Option (Str × User)) : Except Error User × CognitoMemoryDb :=
  let r := fetch (fun oid user => { user with oid := oid }) db.users missing it
  (r.1, { db with users := r.2 })

def getUserByOid (oid : Str) : Except Error User × CognitoMemoryDb :=
  db.fetchUser (str "Get cognito user by oid failed, oid: " ++ oid) (db.users.findIf fun key _ => key = oid)

def getUserByUserName (region userPoolId userName : Str) : Except Error User × CognitoMemoryDb :=
  db.fetchUser (str "Get cognito user by user name failed, userName: " ++ userName)
    (db.findUser region userPoolId userName)

def createUser (oid : Str) (user : User) : Except Error User × CognitoMemoryDb :=
  getUserByOid { db with users := db.users.insert oid user } oid

/-- An empty region lists every user, whatever the pool. -/
def listUsers (region userPoolId : Str) : List User :=
  if region ≠ [] ∧ userPoolId ≠ [] then
    db.users.values.filter fun user => user.region = region ∧ user.userPoolId = userPoolId
  else if region ≠ [] then db.users.values.filter fun user => user.region = region
  else db.users.values

def countUsers (region userPoolId : Str) : Nat := (db.listUsers region userPoolId).length

def listUsersInGroup (region userPoolId groupName : Str) : List User :=
  db.users.values.filter fun user =>
    user.region = region ∧ user.userPoolId = userPoolId ∧ user.groups.any fun g => g.groupName = groupName

def updateUser (user : User) : Except Error User × CognitoMemoryDb :=
  match db.findUser user.region user.userPoolId user.userName with
  | some (oid, _) => (.ok user, { db with users := db.users.insert oid user })
  | none => (.error (.pocoException (str "Update cognito user failed, region: " ++ user.region ++
      str " name: " ++ user.userName)), db)

def deleteUser (user : User) : CognitoMemoryDb :=
  { db with users := db.users.eraseIf fun _ u =>
      u.region = user.region ∧ u.userPoolId = user.userPoolId ∧ u.userName = user.userName }

/-! ### Groups -/

/-- The pool is not looked at. -/
def groupExists (region groupName : Str) : Bool :=
  (db.groups.findIf fun _ group => group.region = region ∧ group.groupName = groupName).isSome

/-- The group of a pool with a name. -/
def findGroup (region userPoolId groupName : Str) : Option (Str × Group) :=
  db.groups.findIf fun _ group =>
    group.region = region ∧ group.userPoolId = userPoolId ∧ group.groupName = groupName

def getGroupByGroupName (region userPoolId groupName : Str) : Except Error Group × CognitoMemoryDb :=
  let r := fetch (fun oid group => { group with oid := oid }) db.groups
    (str "Get cognito group by group name failed, groupName: " ++ groupName)
    (db.findGroup region userPoolId groupName)
  (r.1, { db with groups := r.2 })

/-- The group is returned as it came. -/
def createGroup (oid : Str) (group : Group) : Group × CognitoMemoryDb :=
  (group, { db with groups := db.groups.insert oid group })

/-- An empty region lists every group, whatever the pool. -/
def listGroups (region userPoolId : Str) : List Group :=
  if region ≠ [] ∧ userPoolId ≠ [] then
    db.groups.values.filter fun group => group.region = region ∧ group.userPoolId = userPoolId
  else if region ≠ [] then db.groups.values.filter fun group => group.region = region
  else db.groups.values

def deleteGroup (region userPoolId groupName : Str) : CognitoMemoryDb :=
  { db with groups := db.groups.eraseIf fun _ group =>
      group.region = region ∧ group.userPoolId = userPoolId ∧ group.groupName = groupName }

end CognitoMemoryDb

end AwsMock.Cognito
