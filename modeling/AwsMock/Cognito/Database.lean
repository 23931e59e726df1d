import AwsMock.Cognito.MemoryDb
import AwsMock.Lib.Prog

/-!
# Calls of the Cognito store

`CognitoDatabase` on the in-memory store. Every call is atomic.
-/

namespace AwsMock.Cognito

open Lib

/-- What the `n`-th call draws: an object id, and for a new record a random string and the time points. -/
structure Runtime where
  uuid : Nat → Str
  randomString : Nat → Str
  now : Nat → Int × Int
  uuid_inj : ∀ {n m}, uuid n = uuid m → n = m

structure World where
  db : CognitoMemoryDb := {}
  calls : Nat := 0

inductive CognitoCall where
  | userPoolNameExists (region name : Str)
  | userPoolExists (userPoolId : Str)
  | createUserPool (userPool : UserPool)
  | getUserPoolByUserPoolId (userPoolId : Str)
  | getUserPoolByRegionName (region name : Str)
  | updateUserPool (userPool : UserPool)
  | listUserPools (region : Str)
  | countUserPools (region : Str)
  | deleteUserPool (userPoolId : Str)
  | userExists (region userPoolId userName : Str)
  | createUser (user : User)
  | getUserByUserName (region userPoolId userName : Str)
  | countUsers (region userPoolId : Str)
  | listUsers (region userPoolId : Str)
  | listUsersInGroup (region userPoolId groupName : Str)
  | updateUser (user : User)
  | deleteUser (user : User)
  | groupExists (region groupName : Str)
  | getGroupByGroupName (region userPoolId groupName : Str)
  | createGroup (group : Group)
  | listGroups (region userPoolId : Str)
  | deleteGroup (region userPoolId groupName : Str)

namespace CognitoCall

/-- What a call returns; a lookup may throw. -/
abbrev Reply : CognitoCall → Type
  | userPoolNameExists .. | userPoolExists .. | userExists .. | groupExists .. => Bool
  | createUserPool .. | getUserPoolByUserPoolId .. | getUserPoolByRegionName .. | updateUserPool .. =>
    Except Error UserPool
  | listUserPools .. => List UserPool
  | countUserPools .. | countUsers .. => Nat
  | createUser .. | getUserByUserName .. | updateUser .. => Except Error User
  | listUsers .. | listUsersInGroup .. => List User
  | getGroupByGroupName .. | createGroup .. => Except Error Group
  | listGroups .. => List Group
  | deleteUserPool .. | deleteUser .. | deleteGroup .. => Unit

end CognitoCall

/-- The meaning of a call on the in-memory store, with the object id it may draw. -/
def memoryCall (oid : Str) (db : CognitoMemoryDb) : (c : CognitoCall) → c.Reply × CognitoMemoryDb
  | .userPoolNameExists region name => (db.userPoolNameExists region name, db)
  | .userPoolExists userPoolId => (db.userPoolExists userPoolId, db)
  | .createUserPool userPool => db.createUserPool oid userPool
  | .getUserPoolByUserPoolId userPoolId => db.getUserPoolByUserPoolId userPoolId
  | .getUserPoolByRegionName region name => db.getUserPoolByRegionName region name
  | .updateUserPool userPool => db.updateUserPool userPool
  | .listUserPools region => (db.listUserPools region, db)
  | .countUserPools region => (db.countUserPools region, db)
  | .deleteUserPool userPoolId => ((), db.deleteUserPool userPoolId)
  | .userExists region userPoolId userName => (db.userExists region userPoolId userName, db)
  | .createUser user => db.createUser oid user
  | .getUserByUserName region userPoolId userName => db.getUserByUserName region userPoolId userName
  -- the pool is not passed on
  | .countUsers region _ => (db.countUsers region [], db)
  | .listUsers region userPoolId => (db.listUsers region userPoolId, db)
  | .listUsersInGroup region userPoolId groupName => (db.listUsersInGroup region userPoolId groupName, db)
  | .updateUser user => db.updateUser user
  | .deleteUser user => ((), db.deleteUser user)
  | .groupExists region groupName => (db.groupExists region groupName, db)
  | .getGroupByGroupName region userPoolId groupName => db.getGroupByGroupName region userPoolId groupName
  | .createGroup group =>
    let r := db.createGroup oid group
    (.ok r.1, r.2)
  | .listGroups region userPoolId => (db.listGroups region userPoolId, db)
  | .deleteGroup region userPoolId groupName => ((), db.deleteGroup region userPoolId groupName)

/-- The meaning of a call in the process. -/
def exec (rt : Runtime) : Prog.Exec CognitoCall CognitoCall.Reply World := fun c w =>
  let r := memoryCall (rt.uuid w.calls) w.db c
  some (r.1, { db := r.2, calls := w.calls + 1 })

end AwsMock.Cognito
