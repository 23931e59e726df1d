import AwsMock.Lib.OrderedMap
import AwsMock.Transfer.Entity

/-!
# The users of an FTP server

`UserDatabase`, and the users that `TransferServer::StartTransferServer` adds to it.
-/

namespace AwsMock.Ftp

open Lib

/-- `Permission`, a set of flags. -/
abbrev Permission := Nat

namespace Permission

def fileRead : Permission := 1 <<< 0
def fileWrite : Permission := 1 <<< 1
def fileAppend : Permission := 1 <<< 2
def fileDelete : Permission := 1 <<< 3
def fileRename : Permission := 1 <<< 4
def dirList : Permission := 1 <<< 5
def dirCreate : Permission := 1 <<< 6
def dirDelete : Permission := 1 <<< 7
def dirRename : Permission := 1 <<< 8

def all : Permission :=
  fileRead ||| fileWrite ||| fileAppend ||| fileDelete ||| fileRename ||| dirList ||| dirCreate |||
    dirDelete ||| dirRename

end Permission

structure FtpUser where
  username : Str
  password : Str
  localRootPath : Str
  permissions : Permission
  deriving DecidableEq

/-- `static_cast<int>(permissions_ & permission) == 0`. -/
def FtpUser.lacks (user : FtpUser) (permission : Permission) : Bool :=
  user.permissions &&& permission = 0

structure UserDatabase where
  database : OrderedMap Str FtpUser := ∅
  anonymousUser : Option FtpUser := none

namespace UserDatabase

def isUsernameAnonymousUser (username : Str) : Bool :=
  username = [] ∨ username = str "ftp" ∨ username = str "anonymous"

/-- A user that is there already stays. -/
def addUser (db : UserDatabase) (username password localRootPath : Str) (permissions : Permission) :
    UserDatabase :=
  let user : FtpUser := { username, password, localRootPath, permissions }
  if isUsernameAnonymousUser username then
    match db.anonymousUser with
    | some _ => db
    | none => { db with anonymousUser := some user }
  else
    match db.database.get? username with
    | none => { db with database := db.database.insert username user }
    | some _ => db

/-- The anonymous user needs no password. -/
def getUser (db : UserDatabase) (username password : Str) : Option FtpUser :=
  if isUsernameAnonymousUser username then db.anonymousUser
  else (db.database.get? username).filter fun user => user.password = password

end UserDatabase

/-- The home directory of a user. -/
def homeDir (baseDir : Str) (user : Transfer.User) : Str := baseDir ++ str "/" ++ user.homeDirectory

/-- The users `StartTransferServer` adds. -/
def addUsers (baseDir : Str) (users : List Transfer.User) : UserDatabase :=
  users.foldl (fun db user =>
    db.addUser user.userName user.password (homeDir baseDir user) Permission.all) {}

/-! ### Home directories -/

/-- Every user of a database. -/
def UserDatabase.Every (P : FtpUser → Prop) (db : UserDatabase) : Prop :=
  ∀ username password user, db.getUser username password = some user → P user

/-- Whatever holds of the users of both kinds holds of those that log in. -/
theorem UserDatabase.every_of {P : FtpUser → Prop} {db : UserDatabase}
    (hnamed : ∀ username user, db.database.get? username = some user → P user)
    (hanonymous : ∀ user, db.anonymousUser = some user → P user) : db.Every P := by
  intro username password user h
  unfold UserDatabase.getUser at h
  split at h
  · exact hanonymous user h
  · obtain ⟨hget, -⟩ := Option.filter_eq_some_iff.mp h
    exact hnamed username user hget

/-- The home directory of every user is below the base directory. -/
theorem every_addUsers (baseDir : Str) (users : List Transfer.User) :
    (addUsers baseDir users).Every fun user => user.localRootPath ≠ [] := by
  have hfold : ∀ (users : List Transfer.User) (db : UserDatabase),
      (∀ username user, db.database.get? username = some user → user.localRootPath ≠ []) ∧
        (∀ user, db.anonymousUser = some user → user.localRootPath ≠ []) →
      (users.foldl (fun db user =>
        db.addUser user.userName user.password (homeDir baseDir user) Permission.all) db).Every
          fun user => user.localRootPath ≠ [] := by
    intro users
    induction users with
    | nil => exact fun db h => UserDatabase.every_of h.1 h.2
    | cons u users ih =>
      intro db ⟨hnamed, hanonymous⟩
      have hhome : homeDir baseDir u ≠ [] := by simp [homeDir, str]
      refine ih _ ⟨?_, ?_⟩
      · intro username user h
        unfold UserDatabase.addUser at h
        dsimp only at h
        split at h
        · split at h <;> exact hnamed username user h
        · split at h
          · rw [OrderedMap.get?_insert] at h
            split at h
            · cases h
              exact hhome
            · exact hnamed username user h
          · exact hnamed username user h
      · intro user h
        unfold UserDatabase.addUser at h
        dsimp only at h
        split at h
        · split at h
          · exact hanonymous user h
          · cases h
            exact hhome
        · split at h <;> exact hanonymous user h
  exact hfold users {} ⟨by simp, by simp⟩

end AwsMock.Ftp
