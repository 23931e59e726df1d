import AwsMock.Cognito.Database
import AwsMock.Lib.Collection

/-!
# The Cognito documents

`ToDocument` and `FromDocument` of user pools, users and groups, and `CognitoDatabase` on the collections of the
document database.
-/

namespace AwsMock.Cognito

open Lib Bson

/-! ### Encoders -/

def UserPoolClient.toDocument (c : UserPoolClient) : Document :=
  [(str "userPoolId", .string c.userPoolId), (str "clientId", .string c.clientId),
    (str "clientName", .string c.clientName), (str "clientSecret", .string c.clientSecret),
    (str "generateSecret", .bool c.generateSecret), (str "created", .date (dateOf c.created)),
    (str "modified", .date (dateOf c.modified))]

def UserPool.toDocument (p : UserPool) : Document :=
  [(str "region", .string p.region), (str "userPoolId", .string p.userPoolId), (str "name", .string p.name),
    (str "arn", .string p.arn), (str "clientId", .string p.clientId),
    (str "domain", .document [(str "domain", .string p.domain.domain)]),
    (str "userPoolClients", .array (p.userPoolClients.map fun c => .document c.toDocument)),
    (str "created", .date (dateOf p.created)), (str "modified", .date (dateOf p.modified))]

def Group.toDocument (g : Group) : Document :=
  [(str "region", .string g.region), (str "groupName", .string g.groupName), (str "userPoolId", .string g.userPoolId),
    (str "description", .string g.description), (str "roleArn", .string g.roleArn),
    (str "precedence", .int32 g.precedence), (str "created", .date (dateOf g.created)),
    (str "modified", .date (dateOf g.modified))]

/-- `UserStatusToString`. -/
def UserStatus.toString : UserStatus → Str
  | unconfirmed => str "UNCONFIRMED"
  | confirmed => str "CONFIRMED"
  | externalProvider => str "EXTERNAL_PROVIDER"
  | unknown => str "UNKNOWN"
  | resetRequired => str "RESET_REQUIRED"
  | forceChangePassword => str "FORCE_CHANGE_PASSWORD"

/-- `UserStatusFromString`: the first name of the map that fits. -/
def UserStatus.fromString (text : Str) : UserStatus :=
  ([unconfirmed, confirmed, externalProvider, unknown, resetRequired, forceChangePassword].find? fun status =>
    status.toString = text).getD unknown

/-- An attribute is written under its own name. The password is not written. -/
def User.toDocument (u : User) : Option Document :=
  if ∀ a ∈ u.userAttributes, 0 ∉ a.name then
    some [(str "region", .string u.region), (str "userName", .string u.userName),
      (str "userPoolId", .string u.userPoolId), (str "enabled", .bool u.enabled),
      (str "groups", .array (u.groups.map fun g => .document g.toDocument)),
      (str "userStatus", .string u.userStatus.toString),
      (str "userAttributes", .array (u.userAttributes.map fun a => .document [(a.name, .string a.value)])),
      (str "created", .date (dateOf u.created)), (str "modified", .date (dateOf u.modified))]
  else none

/-! ### Decoders, into new records -/

def UserPoolClient.fromDocument (doc : Document) : Option UserPoolClient := do
  let userPoolId ← getString (element (str "userPoolId") doc)
  let clientId ← getString (element (str "clientId") doc)
  let clientName ← getString (element (str "clientName") doc)
  let clientSecret ← getString (element (str "clientSecret") doc)
  let generateSecret ← getBool (element (str "generateSecret") doc)
  let created ← getDate (element (str "created") doc)
  let modified ← getDate (element (str "modified") doc)
  return {
    userPoolId := userPoolId, clientId := clientId, clientName := clientName, clientSecret := clientSecret,
    generateSecret := generateSecret, created := timeOf created, modified := timeOf modified }

/-- `domain` of a user pool, when there is one. -/
def UserPoolDomain.fromElement : Option Bson → Option UserPoolDomain
  | some item => do
    let domain ← getDocument (some item)
    return { domain := ← getString (element (str "domain") domain) }
  | none => some {}

def UserPool.fromDocument (doc : Document) : Option UserPool := do
  let oid ← getOid (element (str "_id") doc)
  let userPoolId ← getString (element (str "userPoolId") doc)
  let region ← getString (element (str "region") doc)
  let name ← getString (element (str "name") doc)
  let clientId ← getString (element (str "clientId") doc)
  let arn ← getString (element (str "arn") doc)
  let created ← getDate (element (str "created") doc)
  let modified ← getDate (element (str "modified") doc)
  let domain ← UserPoolDomain.fromElement (element (str "domain") doc)
  let userPoolClients ← readArray (fun item => (getDocument (some item)).bind UserPoolClient.fromDocument)
    (str "userPoolClients") doc []
  return {
    oid := oid, region := region, userPoolId := userPoolId, name := name, clientId := clientId, arn := arn,
    domain := domain, userPoolClients := userPoolClients, created := timeOf created, modified := timeOf modified }

/-- A group that is part of a user has no `_id`. -/
def Group.fromDocument (doc : Document) : Option Group := do
  let oid ← if (element (str "_id") doc).isSome then getOid (element (str "_id") doc) else some []
  let region ← getString (element (str "region") doc)
  let groupName ← getString (element (str "groupName") doc)
  let userPoolId ← getString (element (str "userPoolId") doc)
  let description ← getString (element (str "description") doc)
  let roleArn ← getString (element (str "roleArn") doc)
  let precedence ← getInt32 (element (str "precedence") doc)
  let created ← getDate (element (str "created") doc)
  let modified ← getDate (element (str "modified") doc)
  return {
    oid := oid, region := region, userPoolId := userPoolId, groupName := groupName, description := description,
    roleArn := roleArn, precedence := precedence, created := timeOf created, modified := timeOf modified }

/-- An attribute is read from elements `name` and `value`. -/
def UserAttribute.fromElement (item : Bson) : Option UserAttribute := do
  let name ← getString (memberOf (str "name") item)
  let value ← getString (memberOf (str "value") item)
  return { name := name, value := value }

def User.fromDocument (doc : Document) : Option User := do
  let oid ← getOid (element (str "_id") doc)
  let region ← getString (element (str "region") doc)
  let userName ← getString (element (str "userName") doc)
  let userPoolId ← getString (element (str "userPoolId") doc)
  let enabled ← getBool (element (str "enabled") doc)
  let userStatus ← getString (element (str "userStatus") doc)
  let created ← getDate (element (str "created") doc)
  let modified ← getDate (element (str "modified") doc)
  let userAttributes ← readArray UserAttribute.fromElement (str "userAttributes") doc []
  let groups ← readArray (fun item => (getDocument (some item)).bind Group.fromDocument) (str "groups") doc []
  return {
    oid := oid, region := region, userPoolId := userPoolId, userName := userName, enabled := enabled,
    userAttributes := userAttributes, userStatus := UserStatus.fromString userStatus, groups := groups,
    created := timeOf created, modified := timeOf modified }

/-! ### What a document keeps of a record -/

/-- A time as a document keeps it. -/
def inMillis (time : Int) : Int := timeOf (dateOf time)

def UserPoolClient.plain (c : UserPoolClient) : UserPoolClient :=
  { c with created := inMillis c.created, modified := inMillis c.modified }

/-- Without its id, and with its times in milliseconds. -/
def UserPool.plain (p : UserPool) : UserPool :=
  { p with
    oid := [], userPoolClients := p.userPoolClients.map UserPoolClient.plain, created := inMillis p.created,
    modified := inMillis p.modified }

def Group.plain (g : Group) : Group :=
  { g with oid := [], created := inMillis g.created, modified := inMillis g.modified }

/-- The groups of a user have no ids either. -/
def User.plain (u : User) : User :=
  { u with
    oid := [], groups := u.groups.map Group.plain, created := inMillis u.created, modified := inMillis u.modified }

@[simp] theorem inMillis_inMillis (time : Int) : inMillis (inMillis time) = inMillis time := by
  refine (timeOf_dateOf_iff _).mpr ⟨dateOf time, ?_⟩
  rw [inMillis, timeOf, Int.mul_comm]

@[simp] theorem dateOf_inMillis (time : Int) : dateOf (inMillis time) = dateOf time := by
  rw [inMillis, timeOf, dateOf, Int.mul_tdiv_cancel _ (by decide)]

@[simp] theorem UserPoolClient.plain_plain (c : UserPoolClient) : c.plain.plain = c.plain := by
  simp [plain]

@[simp] theorem UserPool.plain_plain (p : UserPool) : p.plain.plain = p.plain := by
  simp [plain]

@[simp] theorem Group.plain_plain (g : Group) : g.plain.plain = g.plain := by
  simp [plain]

@[simp] theorem User.plain_plain (u : User) : u.plain.plain = u.plain := by
  simp [plain]

/-- Nothing else is written. -/
@[simp] theorem UserPool.toDocument_plain (p : UserPool) : p.plain.toDocument = p.toDocument := by
  simp [toDocument, plain, UserPoolClient.toDocument, UserPoolClient.plain]

@[simp] theorem Group.toDocument_plain (g : Group) : g.plain.toDocument = g.toDocument := by
  simp [toDocument, plain]

@[simp] theorem User.toDocument_plain (u : User) : u.plain.toDocument = u.toDocument := by
  simp [toDocument, plain, Function.comp_def]

theorem UserStatus.fromString_toString (status : UserStatus) : fromString status.toString = status := by
  cases status <;> decide

/-- A client as it is read back. -/
theorem UserPoolClient.document_read (c : UserPoolClient) : fromDocument c.toDocument = some c.plain := rfl

theorem UserPool.document_read (p : UserPool) (oid : Str) :
    fromDocument ((Collection.idName, .oid oid) :: p.toDocument) = some { p.plain with oid := oid } := by
  have hclients : readArray (fun item => (getDocument (some item)).bind UserPoolClient.fromDocument)
      (str "userPoolClients") ((Collection.idName, .oid oid) :: p.toDocument) [] =
        some (p.userPoolClients.map UserPoolClient.plain) :=
    readArray_map (f := UserPoolClient.plain) rfl (fun c _ => c.document_read) []
  rw [fromDocument, hclients]
  rfl

theorem Group.document_read (g : Group) (oid : Str) :
    fromDocument ((Collection.idName, .oid oid) :: g.toDocument) = some { g.plain with oid := oid } := rfl

/-- A group of a user as it is read back. -/
theorem Group.member_read (g : Group) : fromDocument g.toDocument = some g.plain := rfl

/-- An attribute is never read back. -/
theorem UserAttribute.fromElement_written (name value : Str) :
    fromElement (.document [(name, .string value)]) = none := by
  unfold fromElement
  by_cases hname : name = str "name"
  · subst hname
    rfl
  · simp [memberOf, getDocument, element, hname, getString]

/-- A user as it is read back: without a password, and not at all with attributes. -/
theorem User.document_read {u : User} {fields : Document} (h : u.toDocument = some fields) (oid : Str) :
    fromDocument ((Collection.idName, .oid oid) :: fields) =
      if u.userAttributes = [] then some { u.plain with oid := oid, password := [] } else none := by
  obtain ⟨-, hfields⟩ := Option.ite_none_right_eq_some.mp h
  obtain rfl := Option.some.inj hfields
  have hgroups : ∀ doc : Document,
      element (str "groups") doc = some (.array (u.groups.map fun g => .document g.toDocument)) →
      readArray (fun item => (getDocument (some item)).bind Group.fromDocument) (str "groups") doc [] =
        some (u.groups.map Group.plain) :=
    fun doc hdoc => readArray_map (f := Group.plain) hdoc (fun g _ => g.member_read) []
  have hattributes : ∀ doc : Document, element (str "userAttributes") doc =
      some (.array (u.userAttributes.map fun a => .document [(a.name, .string a.value)])) →
      readArray UserAttribute.fromElement (str "userAttributes") doc [] =
        if u.userAttributes = [] then some [] else none := by
    intro doc hdoc
    rw [readArray, hdoc]
    cases u.userAttributes with
    | nil => rfl
    | cons a attributes =>
      rw [if_neg (List.cons_ne_nil _ _), List.map_cons]
      simp [getArray, List.mapM_cons, UserAttribute.fromElement_written]
  rw [fromDocument, hgroups _ rfl, hattributes _ rfl]
  split
  · next hempty =>
    change some ({
      oid := oid, region := u.region, userPoolId := u.userPoolId, userName := u.userName, enabled := u.enabled,
      userAttributes := [], userStatus := UserStatus.fromString u.userStatus.toString,
      groups := u.groups.map Group.plain, created := inMillis u.created, modified := inMillis u.modified } : User) = _
    rw [UserStatus.fromString_toString, ← hempty]
    rfl
  · rfl

/-! ### Calls -/

/-- The collections of user pools, of users and of groups. -/
structure CognitoMongoDb where
  userPools : Collection := []
  users : Collection := []
  groups : Collection := []

namespace CognitoMongoDb

variable (db : CognitoMongoDb)

/-- What is read of the document that was looked for; `none` is an exception that the call does not catch. -/
def readFound {α : Type} (read : Document → Option α) (missing : Error) : Option Document → Option (Except Error α)
  | some doc => (read doc).map .ok
  | none => some (.error missing)

def notFound (text : String) : Error := .pocoException (str ("Database exception, " ++ text))

/-! #### User pools -/

def userPoolNameExists (region name : Str) : Bool :=
  db.userPools.countDocuments (Query.equals [(str "region", region), (str "name", name)]) > 0

def userPoolExists (userPoolId : Str) : Bool :=
  db.userPools.countDocuments (Query.equals [(str "userPoolId", userPoolId)]) > 0

def getUserPoolById (oid : Str) : Option (Except Error UserPool) :=
  readFound UserPool.fromDocument (notFound "Cognito not found ") (db.userPools.findById oid)

def createUserPool (oid : Str) (userPool : UserPool) : Option (Except Error UserPool × CognitoMongoDb) := do
  let db := { db with userPools := db.userPools.insertOne oid userPool.toDocument }
  let reply ← db.getUserPoolById oid
  return (reply, db)

def getUserPoolByUserPoolId (userPoolId : Str) : Option (Except Error UserPool) :=
  readFound UserPool.fromDocument (notFound "user pool not found ")
    (db.userPools.findOne (Query.equals [(str "userPoolId", userPoolId)]))

def getUserPoolByRegionName (region name : Str) : Option (Except Error UserPool) :=
  readFound UserPool.fromDocument (notFound "Cognito not found ")
    (db.userPools.findOne (Query.equals [(str "region", region), (str "name", name)]))

def updateUserPool (userPool : UserPool) : Option (Except Error UserPool × CognitoMongoDb) := do
  let filter := Query.equals [(str "region", userPool.region), (str "name", userPool.name)]
  let db := { db with userPools := db.userPools.replaceOne filter userPool.toDocument }
  let reply ← db.getUserPoolByRegionName userPool.region userPool.name
  return (reply, db)

/-- The filter of a listing by region. -/
def regionQuery (region : Str) : Query := if region = [] then [] else Query.equals [(str "region", region)]

def listUserPools (region : Str) : Option (List UserPool) :=
  (db.userPools.find (regionQuery region)).mapM UserPool.fromDocument

def countUserPools (region : Str) : Nat := db.userPools.countDocuments (regionQuery region)

def deleteUserPool (userPoolId : Str) : CognitoMongoDb :=
  { db with userPools := db.userPools.deleteMany (Query.equals [(str "userPoolId", userPoolId)]) }

/-! #### Users -/

/-- The filter of a user. -/
def userQuery (region userPoolId userName : Str) : Query :=
  Query.equals [(str "region", region), (str "userPoolId", userPoolId), (str "userName", userName)]

/-- The filter of a listing of a region, or of a pool in it. -/
def poolQuery (region userPoolId : Str) : Query :=
  if region ≠ [] ∧ userPoolId ≠ [] then Query.equals [(str "region", region), (str "userPoolId", userPoolId)]
  else regionQuery region

def userExists (region userPoolId userName : Str) : Bool :=
  db.users.countDocuments (userQuery region userPoolId userName) > 0

def getUserById (oid : Str) : Option (Except Error User) :=
  readFound User.fromDocument (notFound "user not found ") (db.users.findById oid)

def getUserByUserName (region userPoolId userName : Str) : Option (Except Error User) :=
  readFound User.fromDocument (notFound "user not found ") (db.users.findOne (userQuery region userPoolId userName))

def createUser (oid : Str) (user : User) : Option (Except Error User × CognitoMongoDb) := do
  let fields ← user.toDocument
  let db := { db with users := db.users.insertOne oid fields }
  let reply ← db.getUserById oid
  return (reply, db)

def countUsers (region userPoolId : Str) : Nat := db.users.countDocuments (poolQuery region userPoolId)

def listUsers (region userPoolId : Str) : Option (List User) :=
  (db.users.find (poolQuery region userPoolId)).mapM User.fromDocument

def listUsersInGroup (region userPoolId groupName : Str) : Option (List User) :=
  (db.users.find (Query.equals [(str "region", region), (str "userPoolId", userPoolId)] ++
    [(str "groups", .elemMatch (str "groupName") (.string groupName))])).mapM User.fromDocument

def updateUser (user : User) : Option (Except Error User × CognitoMongoDb) := do
  let fields ← user.toDocument
  let db := { db with users := db.users.replaceOne (userQuery user.region user.userPoolId user.userName) fields }
  let reply ← db.getUserByUserName user.region user.userPoolId user.userName
  return (reply, db)

def deleteUser (user : User) : CognitoMongoDb :=
  { db with users := db.users.deleteMany (userQuery user.region user.userPoolId user.userName) }

/-! #### Groups -/

/-- The filter of a group. -/
def groupQuery (region userPoolId groupName : Str) : Query :=
  Query.equals [(str "region", region), (str "userPoolId", userPoolId), (str "groupName", groupName)]

def groupExists (region groupName : Str) : Bool :=
  db.groups.countDocuments (Query.equals [(str "region", region), (str "groupName", groupName)]) > 0

def getGroupById (oid : Str) : Option (Except Error Group) :=
  readFound Group.fromDocument (notFound "Cognito not found ") (db.groups.findById oid)

def getGroupByGroupName (region userPoolId groupName : Str) : Option (Except Error Group) :=
  readFound Group.fromDocument (notFound "group not found ")
    (db.groups.findOne (groupQuery region userPoolId groupName))

def createGroup (oid : Str) (group : Group) : Option (Except Error Group × CognitoMongoDb) := do
  let db := { db with groups := db.groups.insertOne oid group.toDocument }
  let reply ← db.getGroupById oid
  return (reply, db)

def listGroups (region userPoolId : Str) : Option (List Group) :=
  (db.groups.find (poolQuery region userPoolId)).mapM Group.fromDocument

def deleteGroup (region userPoolId groupName : Str) : CognitoMongoDb :=
  { db with groups := db.groups.deleteMany (groupQuery region userPoolId groupName) }

end CognitoMongoDb

/-- The meaning of a call on the document database, with the object id it may draw. `none` is an exception that the
    call does not catch. -/
def mongoCall (oid : Str) (db : CognitoMongoDb) : (c : CognitoCall) → Option (c.Reply × CognitoMongoDb)
  | .userPoolNameExists region name => some (db.userPoolNameExists region name, db)
  | .userPoolExists userPoolId => some (db.userPoolExists userPoolId, db)
  | .createUserPool userPool => db.createUserPool oid userPool
  | .getUserPoolByUserPoolId userPoolId => (db.getUserPoolByUserPoolId userPoolId).map fun reply => (reply, db)
  | .getUserPoolByRegionName region name => (db.getUserPoolByRegionName region name).map fun reply => (reply, db)
  | .updateUserPool userPool => db.updateUserPool userPool
  | .listUserPools region => (db.listUserPools region).map fun userPools => (userPools, db)
  | .countUserPools region => some (db.countUserPools region, db)
  | .deleteUserPool userPoolId => some ((), db.deleteUserPool userPoolId)
  | .userExists region userPoolId userName => some (db.userExists region userPoolId userName, db)
  | .createUser user => db.createUser oid user
  | .getUserByUserName region userPoolId userName =>
    (db.getUserByUserName region userPoolId userName).map fun reply => (reply, db)
  | .countUsers region userPoolId => some (db.countUsers region userPoolId, db)
  | .listUsers region userPoolId => (db.listUsers region userPoolId).map fun users => (users, db)
  | .listUsersInGroup region userPoolId groupName =>
    (db.listUsersInGroup region userPoolId groupName).map fun users => (users, db)
  | .updateUser user => db.updateUser user
  | .deleteUser user => some ((), db.deleteUser user)
  | .groupExists region groupName => some (db.groupExists region groupName, db)
  | .getGroupByGroupName region userPoolId groupName =>
    (db.getGroupByGroupName region userPoolId groupName).map fun reply => (reply, db)
  | .createGroup group => db.createGroup oid group
  | .listGroups region userPoolId => (db.listGroups region userPoolId).map fun groups => (groups, db)
  | .deleteGroup region userPoolId groupName => some ((), db.deleteGroup region userPoolId groupName)

end AwsMock.Cognito
