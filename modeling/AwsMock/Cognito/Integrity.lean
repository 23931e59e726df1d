import AwsMock.Cognito.Service

/-!
# Referential integrity of the Cognito store

Users and groups name their pool, and users carry copies of their groups. The requests that create them look
up a pool by its id alone or not at all, those that delete them leave what refers to them, and a group is
looked up by its name in every pool: what is kept is kept by the requests that do not run into this.
-/

namespace AwsMock.Cognito

open Lib

variable {rt : Runtime} {accountId : Str} {db : CognitoMemoryDb} {w : World}

/-! ### Integrity -/

/-- A pool of this id exists in the region. -/
def PoolIn (db : CognitoMemoryDb) (region userPoolId : Str) : Prop :=
  ∃ oid userPool, db.userPools.get? oid = some userPool ∧ userPool.region = region ∧
    userPool.userPoolId = userPoolId

/-- A group of this name exists in the pool. -/
def GroupIn (db : CognitoMemoryDb) (region userPoolId groupName : Str) : Prop :=
  ∃ oid group, db.groups.get? oid = some group ∧ group.region = region ∧ group.userPoolId = userPoolId ∧
    group.groupName = groupName

/-- Every user and every group refers to a pool of its region, and every group of a user exists in the
    user's pool. -/
structure Integral (db : CognitoMemoryDb) : Prop where
  users : ∀ oid user, db.users.get? oid = some user → PoolIn db user.region user.userPoolId
  groups : ∀ oid group, db.groups.get? oid = some group → PoolIn db group.region group.userPoolId
  members : ∀ oid user, db.users.get? oid = some user → ∀ g ∈ user.groups,
    g.region = user.region ∧ g.userPoolId = user.userPoolId ∧
      GroupIn db user.region user.userPoolId g.groupName

/-! ### Groups of different pools -/

/-- The region and the pool of the group that a request names. -/
def Request.groupPool : Request → Option (Str × Str)
  | .createGroup request => some (request.region, request.userPoolId)
  | .deleteGroup request => some (request.region, request.userPoolId)
  | .adminAddUserToGroup request => some (request.region, request.userPoolId)
  | .createUserPool _ | .deleteUserPool _ | .adminCreateUser _ | .adminDeleteUser _ => none

/-- The store without the groups of other pools. -/
def CognitoMemoryDb.onlyPool (db : CognitoMemoryDb) (region userPoolId : Str) : CognitoMemoryDb :=
  { db with groups := db.groups.eraseIf fun _ group => ¬ (group.region = region ∧ group.userPoolId = userPoolId) }

/-- A request that names a group of a pool has the answer that it has without the groups of other pools, and
    leaves the groups and the users of other pools alone. -/
structure Separate (rt : Runtime) (accountId : Str) (request : Request) (w : World) (x : Except Error Unit)
    (w' : World) : Prop where
  answer : ∀ region userPoolId, request.groupPool = some (region, userPoolId) → PoolIn w.db region userPoolId →
    ∃ x₀ w₀, serve rt accountId request ⟨w.db.onlyPool region userPoolId, w.calls⟩ = some (x₀, w₀) ∧
      x.isOk = x₀.isOk
  groups : ∀ region userPoolId, request.groupPool = some (region, userPoolId) → ∀ oid group,
    ¬ (group.region = region ∧ group.userPoolId = userPoolId) →
      (w'.db.groups.get? oid = some group ↔ w.db.groups.get? oid = some group)
  users : ∀ region userPoolId, request.groupPool = some (region, userPoolId) → ∀ oid user,
    ¬ (user.region = region ∧ user.userPoolId = userPoolId) →
      (w'.db.users.get? oid = some user ↔ w.db.users.get? oid = some user)

/-- Integrity in every state of a run, and groups of different pools apart at every request. -/
def Keeps (rt : Runtime) (accountId : Str) : List Request → World → Prop
  | [], w => Integral w.db
  | request :: requests, w => Integral w.db ∧ ∃ x w', serve rt accountId request w = some (x, w') ∧
    Separate rt accountId request w x w' ∧ Keeps rt accountId requests w'

/-! ### The condition -/

/-- Some pool of the region has a group of this name. -/
def NameUsed (db : CognitoMemoryDb) (region groupName : Str) : Prop :=
  ∃ oid group, db.groups.get? oid = some group ∧ group.region = region ∧ group.groupName = groupName

/-- A request that the store is ready for. -/
def Fits (db : CognitoMemoryDb) : Request → Prop
  | .createUserPool _ | .adminDeleteUser _ | .adminAddUserToGroup _ => True
  | .deleteUserPool request =>
    (∀ oid user, db.users.get? oid = some user → user.userPoolId ≠ request.userPoolId) ∧
      ∀ oid group, db.groups.get? oid = some group → group.userPoolId ≠ request.userPoolId
  | .createGroup request =>
    (PoolIn db request.region request.userPoolId → NameUsed db request.region request.groupName →
      GroupIn db request.region request.userPoolId request.groupName) ∧
    (¬ NameUsed db request.region request.groupName → PoolIn db request.region request.userPoolId)
  | .deleteGroup request =>
    (PoolIn db request.region request.userPoolId → NameUsed db request.region request.groupName →
      GroupIn db request.region request.userPoolId request.groupName) ∧
    ∀ oid user, db.users.get? oid = some user → user.region = request.region →
      user.userPoolId = request.userPoolId → ∀ g ∈ user.groups, g.groupName ≠ request.groupName
  | .adminCreateUser request => db.userPoolExists request.userPoolId = true →
    PoolIn db request.region request.userPoolId

/-- Every request fits the store that it comes to. -/
def AllFit (rt : Runtime) (accountId : Str) : List Request → World → Prop
  | [], _ => True
  | request :: requests, w => Fits w.db request ∧
    ∀ x w', serve rt accountId request w = some (x, w') → AllFit rt accountId requests w'

/-! ### Searches -/

theorem userPoolExists_iff {userPoolId : Str} : db.userPoolExists userPoolId = true ↔
    ∃ oid userPool, db.userPools.get? oid = some userPool ∧ userPool.userPoolId = userPoolId := by
  rw [CognitoMemoryDb.userPoolExists, OrderedMap.findIf_isSome]
  simp

theorem groupExists_iff {region groupName : Str} :
    db.groupExists region groupName = true ↔ NameUsed db region groupName := by
  rw [CognitoMemoryDb.groupExists, OrderedMap.findIf_isSome, NameUsed]
  simp

theorem findGroup_isSome_iff {region userPoolId groupName : Str} :
    (db.findGroup region userPoolId groupName).isSome ↔ GroupIn db region userPoolId groupName := by
  rw [CognitoMemoryDb.findGroup, OrderedMap.findIf_isSome, GroupIn]
  simp

theorem GroupIn.nameUsed {region userPoolId groupName : Str} (h : GroupIn db region userPoolId groupName) :
    NameUsed db region groupName := by
  obtain ⟨oid, group, hget, hregion, -, hname⟩ := h
  exact ⟨oid, group, hget, hregion, hname⟩

theorem PoolIn.exists {region userPoolId : Str} (h : PoolIn db region userPoolId) :
    db.userPoolExists userPoolId = true := by
  obtain ⟨oid, userPool, hget, -, hid⟩ := h
  exact userPoolExists_iff.mpr ⟨oid, userPool, hget, hid⟩

/-- In the store of one pool a name is used where the pool has it. -/
theorem nameUsed_onlyPool {region userPoolId groupName : Str} :
    NameUsed (db.onlyPool region userPoolId) region groupName ↔ GroupIn db region userPoolId groupName := by
  unfold NameUsed GroupIn CognitoMemoryDb.onlyPool
  refine exists₂_congr fun oid group => ?_
  simp only [OrderedMap.get?_eraseIf, Option.filter_eq_some_iff, Bool.not_eq_true', decide_eq_false_iff_not, not_not]
  tauto

theorem groupIn_onlyPool {region userPoolId groupName : Str} :
    GroupIn (db.onlyPool region userPoolId) region userPoolId groupName ↔ GroupIn db region userPoolId groupName := by
  unfold GroupIn CognitoMemoryDb.onlyPool
  refine exists₂_congr fun oid group => ?_
  simp only [OrderedMap.get?_eraseIf, Option.filter_eq_some_iff, Bool.not_eq_true', decide_eq_false_iff_not, not_not]
  tauto

/-! ### What a request does -/

section Serve

attribute [local simp] serve Request.prog Prog.run_bind exec memoryCall

@[simp] theorem isOk_ok {α : Type} (a : α) : (.ok a : Except Error α).isOk = true := rfl

@[simp] theorem isOk_error {α : Type} (e : Error) : (.error e : Except Error α).isOk = false := rfl

theorem serve_createGroup (request : CreateGroupRequest) (w : World) :
    ∃ x n group, serve rt accountId (.createGroup request) w =
        some (x, ⟨if w.db.groupExists request.region request.groupName then w.db else
          { w.db with groups := w.db.groups.insert (rt.uuid (w.calls + 1)) group }, n⟩) ∧
      (x.isOk = true ↔ ¬ NameUsed w.db request.region request.groupName) ∧ group.region = request.region ∧
      group.userPoolId = request.userPoolId ∧ group.groupName = request.groupName := by
  rw [← groupExists_iff]
  rcases hexists : w.db.groupExists request.region request.groupName with _ | _
  · refine ⟨.ok (), w.calls + 2, mapGroup ⟨rt.randomString w.calls, (rt.now w.calls).1, (rt.now w.calls).2⟩ request,
      ?_, by simp, rfl, rfl, rfl⟩
    simp [createGroup, hexists, rethrow, CognitoMemoryDb.createGroup, Except.mapError]
  · refine ⟨.error (.serviceException (str "User group exists already, region: " ++ request.region ++
      str " name: " ++ request.groupName)), w.calls + 1, mapGroup ⟨[], 0, 0⟩ request, ?_, by simp, rfl, rfl, rfl⟩
    simp [createGroup, hexists]

theorem serve_deleteGroup (request : DeleteGroupRequest) (w : World) :
    ∃ x n, serve rt accountId (.deleteGroup request) w =
        some (x, ⟨if w.db.groupExists request.region request.groupName then
          w.db.deleteGroup request.region request.userPoolId request.groupName else w.db, n⟩) ∧
      (x.isOk = true ↔ NameUsed w.db request.region request.groupName) := by
  rw [← groupExists_iff]
  rcases hexists : w.db.groupExists request.region request.groupName with _ | _
  · refine ⟨.error (.serviceException (str "Group does not exist, region: " ++ request.region ++
      str " name: " ++ request.groupName)), w.calls + 1, ?_, by simp⟩
    simp [deleteGroup, hexists]
  · exact ⟨.ok (), w.calls + 2, by simp [deleteGroup, hexists], by simp⟩

theorem serve_deleteUserPool (request : DeleteUserPoolRequest) (w : World) :
    ∃ x n, serve rt accountId (.deleteUserPool request) w =
      some (x, ⟨if w.db.userPoolExists request.userPoolId then w.db.deleteUserPool request.userPoolId else w.db, n⟩) := by
  rcases hexists : w.db.userPoolExists request.userPoolId with _ | _
  · refine ⟨.error (noUserPool request.userPoolId), w.calls + 1, ?_⟩
    simp [deleteUserPool, hexists]
  · exact ⟨.ok (), w.calls + 2, by simp [deleteUserPool, hexists]⟩

/-- A record that is put under an object id is found there. -/
theorem fetch_insert {α : Type} (withOid : Str → α → α) (records : OrderedMap Str α) (oid : Str) (record : α)
    (missing : Str) :
    fetch withOid (records.insert oid record) missing ((records.insert oid record).findIf fun key _ => key = oid) =
      (.ok (withOid oid record), records.insert oid (withOid oid record)) := by
  rw [OrderedMap.findIf_key (OrderedMap.get?_insert_self records oid record), fetch, OrderedMap.insert_insert]

theorem serve_createUserPool (request : CreateUserPoolRequest) (w : World) :
    ∃ x n, serve rt accountId (.createUserPool request) w = some (x, ⟨w.db, n⟩) ∨ ∃ userPool,
      serve rt accountId (.createUserPool request) w =
        some (x, ⟨{ w.db with userPools := w.db.userPools.insert (rt.uuid (w.calls + 1)) userPool }, n⟩) := by
  rcases hexists : w.db.userPoolNameExists request.region request.name with _ | _
  · refine ⟨.ok (), w.calls + 2, Or.inr ⟨{
      oid := rt.uuid (w.calls + 1), region := request.region,
      userPoolId := createCognitoUserPoolId request.region (rt.randomString w.calls), name := request.name,
      arn := createArn (str "cognito-idp") request.region accountId
        (createCognitoUserPoolId request.region (rt.randomString w.calls)),
      created := (rt.now w.calls).1, modified := (rt.now w.calls).2 }, ?_⟩⟩
    simp [createUserPool, hexists, rethrow,
      CognitoMemoryDb.createUserPool, CognitoMemoryDb.getUserPoolByOid, CognitoMemoryDb.fetchUserPool, fetch_insert,
      Except.mapError]
  · refine ⟨.error (.serviceException (str "User pool exists already, region: " ++ request.region ++
      str " name: " ++ request.name)), w.calls + 1, Or.inl ?_⟩
    simp [createUserPool, hexists]

theorem serve_adminCreateUser (request : AdminUserRequest) (w : World) :
    ∃ x n, serve rt accountId (.adminCreateUser request) w = some (x, ⟨w.db, n⟩) ∧
        (w.db.userPoolExists request.userPoolId = true →
          w.db.userExists request.region request.userPoolId request.userName = true) ∨
      ∃ user, serve rt accountId (.adminCreateUser request) w =
          some (x, ⟨{ w.db with users := w.db.users.insert (rt.uuid (w.calls + 2)) user }, n⟩) ∧
        w.db.userPoolExists request.userPoolId = true ∧ user.region = request.region ∧
        user.userPoolId = request.userPoolId ∧ user.groups = [] := by
  rcases hpool : w.db.userPoolExists request.userPoolId with _ | _
  · refine ⟨.error (noUserPool request.userPoolId), w.calls + 1, Or.inl ⟨?_, by simp⟩⟩
    simp [adminCreateUser, hpool]
  · rcases hexists : w.db.userExists request.region request.userPoolId request.userName with _ | _
    · refine ⟨.ok (), w.calls + 3, Or.inr ⟨{
        oid := rt.uuid (w.calls + 2), region := request.region, userPoolId := request.userPoolId,
        userName := request.userName, enabled := true, created := (rt.now w.calls).1,
        modified := (rt.now w.calls).2 }, ?_, by simp⟩⟩
      simp [adminCreateUser, hpool, hexists, rethrow,
        CognitoMemoryDb.createUser, CognitoMemoryDb.getUserByOid, CognitoMemoryDb.fetchUser, fetch_insert,
        Except.mapError]
    · refine ⟨.error (.serviceException (str "User exists exists already, userPoolId: " ++ request.userPoolId ++
        str " userName: " ++ request.userName)), w.calls + 2, Or.inl ⟨?_, by simp⟩⟩
      simp [adminCreateUser, hpool, hexists]

theorem findUser_some {region userPoolId userName : Str} {it : Str × User}
    (h : db.findUser region userPoolId userName = some it) : db.users.get? it.1 = some it.2 ∧
      it.2.region = region ∧ it.2.userPoolId = userPoolId ∧ it.2.userName = userName :=
  ⟨(OrderedMap.findIf_some h).1, of_decide_eq_true (OrderedMap.findIf_some h).2⟩

theorem findGroup_some {region userPoolId groupName : Str} {it : Str × Group}
    (h : db.findGroup region userPoolId groupName = some it) : db.groups.get? it.1 = some it.2 ∧
      it.2.region = region ∧ it.2.userPoolId = userPoolId ∧ it.2.groupName = groupName :=
  ⟨(OrderedMap.findIf_some h).1, of_decide_eq_true (OrderedMap.findIf_some h).2⟩

/-- Writing a record of the same ids, another search for the user finds it. -/
theorem findUser_insert {region userPoolId userName uid : Str} {user user' : User}
    (h : db.findUser region userPoolId userName = some (uid, user)) (hregion : user'.region = user.region)
    (hpool : user'.userPoolId = user.userPoolId) (hname : user'.userName = user.userName) :
    ({ db with users := db.users.insert uid user' } : CognitoMemoryDb).findUser region userPoolId userName =
      some (uid, user') := by
  have hget : db.users.get? uid = some user := (findUser_some h).1
  have hfound := @OrderedMap.findIf_insert_of_same _ _ _ db.users
    (fun _ u => u.region = region ∧ u.userPoolId = userPoolId ∧ u.userName = userName) uid user user' hget
    (by rw [hregion, hpool, hname])
  rw [CognitoMemoryDb.findUser] at h ⊢
  rw [hfound, h, Option.map_some, if_pos rfl]

/-- What a membership request writes: object ids, and groups of the pool to the user. -/
structure Adds (request : AdminAddUserToGroupRequest) (db db' : CognitoMemoryDb) : Prop where
  userPools : db'.userPools = db.userPools
  groups : db'.groups = db.groups ∨ ∃ gid group,
    db.findGroup request.region request.userPoolId request.groupName = some (gid, group) ∧
      db'.groups = db.groups.insert gid { group with oid := gid }
  users : db'.users = db.users ∨ ∃ uid user user',
    db.findUser request.region request.userPoolId request.userName = some (uid, user) ∧
      user'.region = user.region ∧ user'.userPoolId = user.userPoolId ∧
      (∀ g ∈ user'.groups, g ∈ user.groups ∨ g.region = request.region ∧ g.userPoolId = request.userPoolId ∧
        GroupIn db request.region request.userPoolId g.groupName) ∧ db'.users = db.users.insert uid user'

/-- The users have no part in reading a group. -/
theorem getGroupByGroupName_users (db : CognitoMemoryDb) (users : OrderedMap Str User)
    (region userPoolId groupName : Str) :
    ({ db with users := users } : CognitoMemoryDb).getGroupByGroupName region userPoolId groupName =
      ((db.getGroupByGroupName region userPoolId groupName).1,
        { (db.getGroupByGroupName region userPoolId groupName).2 with users := users }) := rfl

theorem serve_adminAddUserToGroup (request : AdminAddUserToGroupRequest) (w : World) :
    ∃ x n db', serve rt accountId (.adminAddUserToGroup request) w = some (x, ⟨db', n⟩) ∧
      (x.isOk = true ↔ w.db.userPoolExists request.userPoolId = true ∧
        w.db.userExists request.region request.userPoolId request.userName = true ∧
        GroupIn w.db request.region request.userPoolId request.groupName) ∧ Adds request w.db db' := by
  have hsame : Adds request w.db w.db := ⟨rfl, Or.inl rfl, Or.inl rfl⟩
  rcases hpool : w.db.userPoolExists request.userPoolId with _ | _
  · refine ⟨.error (noUserPool request.userPoolId), w.calls + 1, w.db, ?_, by simp, hsame⟩
    simp [adminAddUserToGroup, hpool]
  rcases hexists : w.db.userExists request.region request.userPoolId request.userName with _ | _
  · refine ⟨.error (.serviceException (str "User does not exists, userName: " ++ request.userName ++
      str " userPoolId: " ++ request.userPoolId)), w.calls + 2, w.db, ?_, by simp, hsame⟩
    simp [adminAddUserToGroup, hpool, hexists]
  rcases hgroup : w.db.groupExists request.region request.groupName with _ | _
  · refine ⟨.error (noGroup request), w.calls + 3, w.db, ?_, ?_, hsame⟩
    · simp [adminAddUserToGroup, hpool, hexists, hgroup]
    · have hnone : ¬ GroupIn w.db request.region request.userPoolId request.groupName := fun h => by
        rw [groupExists_iff.mpr h.nameUsed] at hgroup
        cases hgroup
      simp [hnone]
  obtain ⟨⟨uid, user⟩, huser⟩ := Option.isSome_iff_exists.mp hexists
  obtain ⟨-, hregion, huserPool, hname⟩ := findUser_some huser
  have hread : w.db.getUserByUserName request.region request.userPoolId request.userName =
      (.ok { user with oid := uid }, { w.db with users := w.db.users.insert uid { user with oid := uid } }) := by
    simp [CognitoMemoryDb.getUserByUserName, CognitoMemoryDb.fetchUser, huser, fetch]
  rcases hfound : w.db.findGroup request.region request.userPoolId request.groupName with _ | ⟨gid, group⟩
  · -- the name is used in another pool
    have hnone : ¬ GroupIn w.db request.region request.userPoolId request.groupName := by
      rw [← findGroup_isSome_iff, hfound]
      simp
    have hmissing : w.db.getGroupByGroupName request.region request.userPoolId request.groupName =
        (.error (.pocoException (str "Get cognito group by group name failed, groupName: " ++ request.groupName)),
          w.db) := by
      simp [CognitoMemoryDb.getGroupByGroupName, hfound, fetch]
    refine ⟨.error (.serviceException (str "Get cognito group by group name failed, groupName: " ++ request.groupName)),
      w.calls + 5, { w.db with users := w.db.users.insert uid { user with oid := uid } }, ?_, by simp [hnone], rfl,
      Or.inl rfl, Or.inr ⟨uid, user, { user with oid := uid }, huser, rfl, rfl, fun g hg => Or.inl hg, rfl⟩⟩
    simp [adminAddUserToGroup, hpool, hexists, hgroup, rethrow,
      hread, getGroupByGroupName_users, hmissing, Except.mapError, message]
  have hin : GroupIn w.db request.region request.userPoolId request.groupName := by
    rw [← findGroup_isSome_iff, hfound]
    rfl
  have hreadGroup : w.db.getGroupByGroupName request.region request.userPoolId request.groupName =
      (.ok { group with oid := gid }, { w.db with groups := w.db.groups.insert gid { group with oid := gid } }) := by
    simp [CognitoMemoryDb.getGroupByGroupName, hfound, fetch]
  rcases hmember : user.hasGroup request.userPoolId request.groupName with _ | _
  · have hupdate : (⟨w.db.userPools, w.db.users.insert uid { user with oid := uid },
        w.db.groups.insert gid { group with oid := gid }⟩ : CognitoMemoryDb).updateUser
          { user with oid := uid, groups := user.groups ++ [{ group with oid := gid }] } =
        (.ok { user with oid := uid, groups := user.groups ++ [{ group with oid := gid }] },
          ⟨w.db.userPools, w.db.users.insert uid
            { user with oid := uid, groups := user.groups ++ [{ group with oid := gid }] },
            w.db.groups.insert gid { group with oid := gid }⟩) := by
      have hfind : (⟨w.db.userPools, w.db.users.insert uid { user with oid := uid },
          w.db.groups.insert gid { group with oid := gid }⟩ : CognitoMemoryDb).findUser user.region user.userPoolId
            user.userName = some (uid, { user with oid := uid }) := by
        rw [← hregion, ← huserPool, ← hname] at huser
        exact @findUser_insert w.db _ _ _ uid user { user with oid := uid } huser rfl rfl rfl
      simp [CognitoMemoryDb.updateUser, hfind]
    have hmember' : ({ user with oid := uid } : User).hasGroup request.userPoolId request.groupName = false := hmember
    refine ⟨.ok (), w.calls + 6, ⟨w.db.userPools, w.db.users.insert uid
      { user with oid := uid, groups := user.groups ++ [{ group with oid := gid }] },
      w.db.groups.insert gid { group with oid := gid }⟩, ?_, by simp [hin], rfl, Or.inr ⟨gid, group, hfound, rfl⟩,
      Or.inr ⟨uid, user, { user with oid := uid, groups := user.groups ++ [{ group with oid := gid }] }, huser, rfl,
        rfl, fun g hg => ?_, rfl⟩⟩
    · simp [adminAddUserToGroup, hpool, hexists, hgroup, rethrow,
        hread, getGroupByGroupName_users, hreadGroup, hmember', Prog.when, hupdate, Except.mapError]
    · rcases List.mem_append.mp hg with hg | hg
      · exact Or.inl hg
      · obtain rfl := List.mem_singleton.mp hg
        obtain ⟨-, hgroupRegion, hgroupPool, hgroupName⟩ := findGroup_some hfound
        exact Or.inr ⟨hgroupRegion, hgroupPool, by rw [show group.groupName = request.groupName from hgroupName]; exact hin⟩
  · refine ⟨.ok (), w.calls + 5, ⟨w.db.userPools, w.db.users.insert uid { user with oid := uid },
      w.db.groups.insert gid { group with oid := gid }⟩, ?_, by simp [hin], rfl, Or.inr ⟨gid, group, hfound, rfl⟩,
      Or.inr ⟨uid, user, { user with oid := uid }, huser, rfl, rfl, fun g hg => Or.inl hg, rfl⟩⟩
    have hmember' : ({ user with oid := uid } : User).hasGroup request.userPoolId request.groupName = true := hmember
    simp [adminAddUserToGroup, hpool, hexists, hgroup, rethrow,
      hread, getGroupByGroupName_users, hreadGroup, hmember', Prog.when, Except.mapError]

theorem serve_adminDeleteUser (request : AdminUserRequest) (w : World) :
    ∃ x n db', serve rt accountId (.adminDeleteUser request) w = some (x, ⟨db', n⟩) ∧
      db'.userPools = w.db.userPools ∧ db'.groups = w.db.groups ∧ ∀ oid user', db'.users.get? oid = some user' →
        ∃ user, w.db.users.get? oid = some user ∧ user'.region = user.region ∧
          user'.userPoolId = user.userPoolId ∧ user'.groups = user.groups := by
  have hsame : ∀ oid user', w.db.users.get? oid = some user' → ∃ user, w.db.users.get? oid = some user ∧
      user'.region = user.region ∧ user'.userPoolId = user.userPoolId ∧ user'.groups = user.groups :=
    fun oid user' h => ⟨user', h, rfl, rfl, rfl⟩
  rcases hpool : w.db.userPoolExists request.userPoolId with _ | _
  · refine ⟨.error (noUserPool request.userPoolId), w.calls + 1, w.db, ?_, rfl, rfl, hsame⟩
    simp [adminDeleteUser, hpool]
  rcases hexists : w.db.userExists request.region request.userPoolId request.userName with _ | _
  · refine ⟨.error (.serviceException (str "User does not exists, userPoolId: " ++ request.userPoolId ++
      str " userName: " ++ request.userName)), w.calls + 2, w.db, ?_, rfl, rfl, hsame⟩
    simp [adminDeleteUser, hpool, hexists]
  obtain ⟨⟨uid, user⟩, huser⟩ := Option.isSome_iff_exists.mp hexists
  have hget : w.db.users.get? uid = some user := (findUser_some huser).1
  have hread : w.db.getUserByUserName request.region request.userPoolId request.userName =
      (.ok { user with oid := uid }, { w.db with users := w.db.users.insert uid { user with oid := uid } }) := by
    simp [CognitoMemoryDb.getUserByUserName, CognitoMemoryDb.fetchUser, huser, fetch]
  refine ⟨.ok (), w.calls + 4, ({ w.db with users := w.db.users.insert uid { user with oid := uid } } :
    CognitoMemoryDb).deleteUser { user with oid := uid }, ?_, rfl, rfl, fun oid user' h => ?_⟩
  · simp [adminDeleteUser, hpool, hexists, rethrow, hread, Except.mapError]
  · simp only [CognitoMemoryDb.deleteUser, OrderedMap.get?_eraseIf, OrderedMap.get?_insert,
      Option.filter_eq_some_iff] at h
    split at h
    · next hoid =>
      cases h.1
      exact ⟨user, hoid ▸ hget, rfl, rfl, rfl⟩
    · exact hsame oid user' h.1

end Serve

/-! ### What keeps integrity -/

theorem PoolIn.insert {region userPoolId oid : Str} {userPool : UserPool} (h : PoolIn db region userPoolId)
    (hfresh : db.userPools.get? oid = none) :
    PoolIn { db with userPools := db.userPools.insert oid userPool } region userPoolId := by
  obtain ⟨oid', userPool', hget, hids⟩ := h
  refine ⟨oid', userPool', ?_, hids⟩
  simp only [OrderedMap.get?_insert]
  rw [if_neg, hget]
  rintro rfl
  rw [hfresh] at hget
  cases hget

/-- Every group that is written keeps the ids of the one in its place. -/
theorem groupIn_of_kept {db' : CognitoMemoryDb} (h : ∀ oid group, db.groups.get? oid = some group →
      ∃ group', db'.groups.get? oid = some group' ∧ group'.region = group.region ∧
        group'.userPoolId = group.userPoolId ∧ group'.groupName = group.groupName)
    {region userPoolId groupName : Str} (hin : GroupIn db region userPoolId groupName) :
    GroupIn db' region userPoolId groupName := by
  obtain ⟨oid, group, hget, hregion, hpool, hname⟩ := hin
  obtain ⟨group', hget', hregion', hpool', hname'⟩ := h oid group hget
  exact ⟨oid, group', hget', hregion'.trans hregion, hpool'.trans hpool, hname'.trans hname⟩

/-- What one request is to do. -/
def Serves (rt : Runtime) (accountId : Str) (request : Request) (w : World) : Prop :=
  ∃ x w', serve rt accountId request w = some (x, w') ∧ Integral w'.db ∧ Separate rt accountId request w x w'

/-- A request without a group. -/
theorem separate_of_none {request : Request} (h : request.groupPool = none) (w : World) (x : Except Error Unit)
    (w' : World) : Separate rt accountId request w x w' where
  answer region userPoolId hsome := by rw [h] at hsome; cases hsome
  groups region userPoolId hsome := by rw [h] at hsome; cases hsome
  users region userPoolId hsome := by rw [h] at hsome; cases hsome

/-- Such a request does what it is for exactly when it keeps the store whole. -/
theorem serves_iff_of_none {request : Request} (h : request.groupPool = none) {x : Except Error Unit} {w' : World}
    (hserve : serve rt accountId request w = some (x, w')) :
    Serves rt accountId request w ↔ Integral w'.db := by
  constructor
  · rintro ⟨x₁, w₁, hserve₁, hintegral, -⟩
    rw [hserve] at hserve₁
    cases hserve₁
    exact hintegral
  · exact fun hintegral => ⟨x, w', hserve, hintegral, separate_of_none h w x w'⟩

/-- The object ids of pools and groups come from earlier calls. -/
def Drawn (rt : Runtime) (w : World) : Prop :=
  ∀ oid, (w.db.userPools.get? oid).isSome ∨ (w.db.groups.get? oid).isSome → ∃ n < w.calls, oid = rt.uuid n

theorem Drawn.fresh (h : Drawn rt w) {n : Nat} (hn : w.calls ≤ n) :
    w.db.userPools.get? (rt.uuid n) = none ∧ w.db.groups.get? (rt.uuid n) = none := by
  have hnot : ¬ ((w.db.userPools.get? (rt.uuid n)).isSome ∨ (w.db.groups.get? (rt.uuid n)).isSome) := by
    intro hsome
    obtain ⟨m, hm, hoid⟩ := h _ hsome
    have := rt.uuid_inj hoid
    omega
  simpa [not_or] using hnot

theorem createUserPool_serves (hintegral : Integral w.db) (hdrawn : Drawn rt w) (request : CreateUserPoolRequest) :
    Serves rt accountId (.createUserPool request) w := by
  obtain ⟨x, n, hserve | ⟨userPool, hserve⟩⟩ := @serve_createUserPool rt accountId request w
  · exact (serves_iff_of_none rfl hserve).mpr hintegral
  · have hfresh := (hdrawn.fresh (Nat.le_succ _)).1
    exact (serves_iff_of_none rfl hserve).mpr
      ⟨fun oid user hget => (hintegral.users oid user hget).insert hfresh,
        fun oid group hget => (hintegral.groups oid group hget).insert hfresh, hintegral.members⟩

theorem deleteUserPool_serves_iff (hintegral : Integral w.db) (request : DeleteUserPoolRequest) :
    Serves rt accountId (.deleteUserPool request) w ↔ Fits w.db (.deleteUserPool request) := by
  obtain ⟨x, n, hserve⟩ := @serve_deleteUserPool rt accountId request w
  rw [serves_iff_of_none rfl hserve]
  have hkept : ∀ region userPoolId,
      PoolIn (w.db.deleteUserPool request.userPoolId) region userPoolId ↔
        PoolIn w.db region userPoolId ∧ userPoolId ≠ request.userPoolId := by
    intro region userPoolId
    unfold PoolIn CognitoMemoryDb.deleteUserPool
    simp only [OrderedMap.get?_eraseIf, Option.filter_eq_some_iff, Bool.not_eq_true', decide_eq_false_iff_not]
    constructor
    · rintro ⟨oid, userPool, ⟨hget, hne⟩, hregion, rfl⟩
      exact ⟨⟨oid, userPool, hget, hregion, rfl⟩, hne⟩
    · rintro ⟨⟨oid, userPool, hget, hregion, rfl⟩, hne⟩
      exact ⟨oid, userPool, ⟨hget, hne⟩, hregion, rfl⟩
  rcases hexists : w.db.userPoolExists request.userPoolId with _ | _
  · -- nothing refers to a missing pool
    have hnone : ∀ region, ¬ PoolIn w.db region request.userPoolId := fun region hpool => by
      rw [hpool.exists] at hexists
      cases hexists
    refine iff_of_true hintegral ⟨fun oid user hget hid => ?_, fun oid group hget hid => ?_⟩
    · exact hnone _ (hid ▸ hintegral.users oid user hget)
    · exact hnone _ (hid ▸ hintegral.groups oid group hget)
  · constructor
    · intro h
      exact ⟨fun oid user hget => ((hkept _ _).mp (h.users oid user hget)).2,
        fun oid group hget => ((hkept _ _).mp (h.groups oid group hget)).2⟩
    · rintro ⟨husers, hgroups⟩
      exact ⟨fun oid user hget => (hkept _ _).mpr ⟨hintegral.users oid user hget, husers oid user hget⟩,
        fun oid group hget => (hkept _ _).mpr ⟨hintegral.groups oid group hget, hgroups oid group hget⟩,
        hintegral.members⟩

theorem adminCreateUser_serves_iff (hintegral : Integral w.db) (request : AdminUserRequest) :
    Serves rt accountId (.adminCreateUser request) w ↔ Fits w.db (.adminCreateUser request) := by
  obtain ⟨x, n, ⟨hserve, hexists⟩ | ⟨user, hserve, hpool, hregion, hid, hgroups⟩⟩ :=
    @serve_adminCreateUser rt accountId request w
  · rw [serves_iff_of_none rfl hserve]
    refine iff_of_true hintegral fun hpool => ?_
    obtain ⟨⟨uid, user⟩, huser⟩ := Option.isSome_iff_exists.mp (hexists hpool)
    obtain ⟨hget, hregion, hid, -⟩ := findUser_some huser
    rw [← hregion, ← hid]
    exact hintegral.users uid user hget
  · rw [serves_iff_of_none rfl hserve]
    constructor
    · intro h _
      have hin := h.users _ user (OrderedMap.get?_insert_self ..)
      rw [hregion, hid] at hin
      exact hin
    · intro h
      have hin := h hpool
      refine ⟨fun oid user' hget => ?_, hintegral.groups, fun oid user' hget g hg => ?_⟩
      all_goals
        simp only [OrderedMap.get?_insert] at hget
        split at hget
      · cases hget
        rw [hregion, hid]
        exact hin
      · exact hintegral.users oid user' hget
      · cases hget
        rw [hgroups] at hg
        cases hg
      · exact hintegral.members oid user' hget g hg

theorem adminDeleteUser_serves (hintegral : Integral w.db) (request : AdminUserRequest) :
    Serves rt accountId (.adminDeleteUser request) w := by
  obtain ⟨x, n, db', hserve, hpools, hgroups, husers⟩ := @serve_adminDeleteUser rt accountId request w
  have hpool : ∀ {region userPoolId}, PoolIn w.db region userPoolId → PoolIn db' region userPoolId := fun h => by
    unfold PoolIn
    rw [hpools]
    exact h
  refine (serves_iff_of_none rfl hserve).mpr ⟨fun oid user' hget => ?_, fun oid group hget => ?_,
    fun oid user' hget g hg => ?_⟩
  · obtain ⟨user, huser, hregion, hid, -⟩ := husers oid user' hget
    rw [hregion, hid]
    exact hpool (hintegral.users oid user huser)
  · rw [hgroups] at hget
    exact hpool (hintegral.groups oid group hget)
  · obtain ⟨user, huser, hregion, hid, hsame⟩ := husers oid user' hget
    rw [hsame] at hg
    rw [hregion, hid]
    unfold GroupIn
    rw [hgroups]
    exact hintegral.members oid user huser g hg

/-- Two answers to the same question. -/
theorem isOk_eq {x y : Except Error Unit} {p : Prop} (hx : x.isOk = true ↔ p) (hy : y.isOk = true ↔ p) :
    x.isOk = y.isOk := Bool.eq_iff_iff.mpr (hx.trans hy.symm)

theorem createGroup_serves_iff (hintegral : Integral w.db) (hdrawn : Drawn rt w) (request : CreateGroupRequest) :
    Serves rt accountId (.createGroup request) w ↔ Fits w.db (.createGroup request) := by
  obtain ⟨x, n, group, hserve, hok, hregion, hid, hname⟩ := @serve_createGroup rt accountId request w
  obtain ⟨x₀, n₀, group₀, hserve₀, hok₀, -⟩ := @serve_createGroup rt accountId request
    ⟨w.db.onlyPool request.region request.userPoolId, w.calls⟩
  rw [nameUsed_onlyPool] at hok₀
  rcases hexists : w.db.groupExists request.region request.groupName with _ | _
  · have hunused : ¬ NameUsed w.db request.region request.groupName := by
      rw [← groupExists_iff, hexists]
      simp
    have hfresh := (hdrawn.fresh (Nat.le_succ _)).2
    rw [hexists] at hserve
    constructor
    · rintro ⟨x₁, w₁, hserve₁, h, -⟩
      rw [hserve] at hserve₁
      cases hserve₁
      refine ⟨fun _ hused => absurd hused hunused, fun _ => ?_⟩
      have hin := h.groups _ group (OrderedMap.get?_insert_self ..)
      rw [hregion, hid] at hin
      exact hin
    · rintro ⟨-, hpool⟩
      have hin := hpool hunused
      have hget : ∀ oid old, w.db.groups.get? oid = some old →
          (w.db.groups.insert (rt.uuid (w.calls + 1)) group).get? oid = some old := fun oid old hold => by
        rw [OrderedMap.get?_insert_of_ne, hold]
        rintro rfl
        rw [hfresh] at hold
        cases hold
      refine ⟨x, _, hserve, ⟨hintegral.users, fun oid old hold => ?_, fun oid user huser g hg => ?_⟩,
        ⟨fun region userPoolId hsome _ => ?_, fun region userPoolId hsome oid old hother => ?_, fun _ _ _ _ _ _ => Iff.rfl⟩⟩
      · simp only [Bool.false_eq_true, if_false, OrderedMap.get?_insert] at hold
        split at hold
        · cases hold
          rw [hregion, hid]
          exact hin
        · exact hintegral.groups oid old hold
      · obtain ⟨hgregion, hgpool, hgin⟩ := hintegral.members oid user huser g hg
        refine ⟨hgregion, hgpool, groupIn_of_kept (fun oid old hold => ⟨old, hget oid old hold, rfl, rfl, rfl⟩) hgin⟩
      · cases hsome
        refine ⟨x₀, _, hserve₀, isOk_eq hok (hok₀.trans ?_)⟩
        exact ⟨fun _ => hunused, fun _ hgroup => hunused hgroup.nameUsed⟩
      · cases hsome
        simp only [Bool.false_eq_true, if_false, OrderedMap.get?_insert]
        split
        · next hoid =>
          rw [hoid, hfresh, Option.some.injEq]
          exact iff_of_false (fun h => hother (h ▸ ⟨hregion, hid⟩)) (by simp)
        · rfl
  · have hused := groupExists_iff.mp hexists
    rw [hexists, if_pos rfl] at hserve
    constructor
    · rintro ⟨x₁, w₁, hserve₁, -, hseparate⟩
      rw [hserve] at hserve₁
      cases hserve₁
      refine ⟨fun hpool _ => ?_, fun hunused => absurd hused hunused⟩
      obtain ⟨x₂, w₂, hserve₂, hanswer⟩ := hseparate.answer _ _ rfl hpool
      rw [hserve₀] at hserve₂
      cases hserve₂
      by_contra hnone
      exact hok.mp (hanswer.trans (hok₀.mpr hnone)) hused
    · rintro ⟨hgroup, -⟩
      refine ⟨x, _, hserve, hintegral, ⟨fun region userPoolId hsome hpool => ?_, fun _ _ _ _ _ _ => Iff.rfl,
        fun _ _ _ _ _ _ => Iff.rfl⟩⟩
      cases hsome
      refine ⟨x₀, _, hserve₀, isOk_eq hok (hok₀.trans ?_)⟩
      exact iff_of_false (not_not.mpr (hgroup hpool hused)) (not_not.mpr hused)

theorem deleteGroup_serves_iff (hintegral : Integral w.db) (request : DeleteGroupRequest) :
    Serves rt accountId (.deleteGroup request) w ↔ Fits w.db (.deleteGroup request) := by
  obtain ⟨x, n, hserve, hok⟩ := @serve_deleteGroup rt accountId request w
  obtain ⟨x₀, n₀, hserve₀, hok₀⟩ := @serve_deleteGroup rt accountId request
    ⟨w.db.onlyPool request.region request.userPoolId, w.calls⟩
  rw [nameUsed_onlyPool] at hok₀
  have hget : ∀ oid group, (w.db.deleteGroup request.region request.userPoolId request.groupName).groups.get? oid =
      some group ↔ w.db.groups.get? oid = some group ∧ ¬ (group.region = request.region ∧
        group.userPoolId = request.userPoolId ∧ group.groupName = request.groupName) := by
    intro oid group
    simp only [CognitoMemoryDb.deleteGroup, OrderedMap.get?_eraseIf, Option.filter_eq_some_iff, Bool.not_eq_true',
      decide_eq_false_iff_not]
  have hanswer : ∀ {w'}, Separate rt accountId (.deleteGroup request) w x w' →
      PoolIn w.db request.region request.userPoolId → NameUsed w.db request.region request.groupName →
        GroupIn w.db request.region request.userPoolId request.groupName := fun hseparate hpool hused => by
    obtain ⟨x₂, w₂, hserve₂, hanswer⟩ := hseparate.answer _ _ rfl hpool
    rw [hserve₀] at hserve₂
    cases hserve₂
    exact hok₀.mp (hanswer.symm.trans (hok.mpr hused))
  rcases hexists : w.db.groupExists request.region request.groupName with _ | _
  · have hunused : ¬ NameUsed w.db request.region request.groupName := by
      rw [← groupExists_iff, hexists]
      simp
    rw [hexists, if_neg Bool.false_ne_true] at hserve
    refine iff_of_true ⟨x, _, hserve, hintegral, ⟨fun region userPoolId hsome hpool => ?_, fun _ _ _ _ _ _ => Iff.rfl,
      fun _ _ _ _ _ _ => Iff.rfl⟩⟩ ⟨fun _ hused => absurd hused hunused, fun oid user huser hregion hid g hg hname => ?_⟩
    · cases hsome
      refine ⟨x₀, _, hserve₀, isOk_eq hok (hok₀.trans ?_)⟩
      exact iff_of_false (fun hgroup => hunused hgroup.nameUsed) hunused
    · -- a member's group is stored
      obtain ⟨-, -, hgin⟩ := hintegral.members oid user huser g hg
      rw [hregion, hname] at hgin
      exact hunused hgin.nameUsed
  · have hused := groupExists_iff.mp hexists
    rw [hexists, if_pos rfl] at hserve
    constructor
    · rintro ⟨x₁, w₁, hserve₁, h, hseparate⟩
      rw [hserve] at hserve₁
      cases hserve₁
      refine ⟨hanswer hseparate, fun oid user huser hregion hid g hg hname => ?_⟩
      obtain ⟨-, -, oid', group, hgroup, h₁, h₂, h₃⟩ := h.members oid user huser g hg
      exact ((hget oid' group).mp hgroup).2 ⟨h₁.trans hregion, h₂.trans hid, h₃.trans hname⟩
    · rintro ⟨hgroup, hmembers⟩
      refine ⟨x, _, hserve, ⟨hintegral.users, fun oid group h => hintegral.groups oid group ((hget _ _).mp h).1,
        fun oid user huser g hg => ?_⟩, ⟨fun region userPoolId hsome hpool => ?_,
          fun region userPoolId hsome oid group hother => ?_, fun _ _ _ _ _ _ => Iff.rfl⟩⟩
      · obtain ⟨hgregion, hgpool, oid', group, hstored, h₁, h₂, h₃⟩ := hintegral.members oid user huser g hg
        refine ⟨hgregion, hgpool, oid', group, (hget _ _).mpr ⟨hstored, ?_⟩, h₁, h₂, h₃⟩
        rintro ⟨h₁', h₂', h₃'⟩
        exact hmembers oid user huser (h₁.symm.trans h₁') (h₂.symm.trans h₂') g hg (h₃.symm.trans h₃')
      · cases hsome
        refine ⟨x₀, _, hserve₀, isOk_eq hok (hok₀.trans ?_)⟩
        exact iff_of_true (hgroup hpool hused) hused
      · cases hsome
        rw [hget]
        exact and_iff_left fun h => hother ⟨h.1, h.2.1⟩

section

variable {request : AdminAddUserToGroupRequest} {db' : CognitoMemoryDb}

/-- A group that is stored afterwards was stored, up to its object id, and is the same in other pools. -/
theorem Adds.group_iff (h : Adds request db db') (oid : Str) :
    (db'.groups.get? oid = db.groups.get? oid) ∨ ∃ group, db.groups.get? oid = some group ∧
      group.region = request.region ∧ group.userPoolId = request.userPoolId ∧
        db'.groups.get? oid = some { group with oid := oid } := by
  rcases h.groups with hsame | ⟨gid, group, hfound, hwritten⟩
  · exact Or.inl (by rw [hsame])
  · obtain ⟨hget, hregion, hid, -⟩ := findGroup_some hfound
    by_cases hoid : oid = gid
    · subst hoid
      exact Or.inr ⟨group, hget, hregion, hid, by rw [hwritten, OrderedMap.get?_insert_self]⟩
    · exact Or.inl (by rw [hwritten, OrderedMap.get?_insert_of_ne _ _ hoid])

theorem Adds.integral (h : Adds request db db') (hintegral : Integral db) : Integral db' := by
  have hpool : ∀ {region userPoolId}, PoolIn db region userPoolId → PoolIn db' region userPoolId := fun hin => by
    unfold PoolIn
    rw [h.userPools]
    exact hin
  have hgroup : ∀ {region userPoolId groupName}, GroupIn db region userPoolId groupName →
      GroupIn db' region userPoolId groupName := by
    refine groupIn_of_kept fun oid group hget => ?_
    rcases h.group_iff oid with hsame | ⟨group', hget', -, -, hwritten⟩
    · exact ⟨group, hsame.trans hget, rfl, rfl, rfl⟩
    · rw [hget] at hget'
      cases hget'
      exact ⟨_, hwritten, rfl, rfl, rfl⟩
  have hold : ∀ oid user, db.users.get? oid = some user → PoolIn db' user.region user.userPoolId ∧
      ∀ g ∈ user.groups, g.region = user.region ∧ g.userPoolId = user.userPoolId ∧
        GroupIn db' user.region user.userPoolId g.groupName := fun oid user hget =>
    ⟨hpool (hintegral.users oid user hget), fun g hg =>
      let ⟨h₁, h₂, h₃⟩ := hintegral.members oid user hget g hg
      ⟨h₁, h₂, hgroup h₃⟩⟩
  have husers : ∀ oid user, db'.users.get? oid = some user → PoolIn db' user.region user.userPoolId ∧
      ∀ g ∈ user.groups, g.region = user.region ∧ g.userPoolId = user.userPoolId ∧
        GroupIn db' user.region user.userPoolId g.groupName := by
    intro oid user hget
    rcases h.users with hsame | ⟨uid, old, new, hfound, hregion, hid, hgroups, hwritten⟩
    · exact hold oid user (hsame ▸ hget)
    · rw [hwritten, OrderedMap.get?_insert] at hget
      split at hget
      · cases hget
        obtain ⟨hget, holdRegion, holdId, -⟩ := findUser_some hfound
        obtain ⟨hin, hmembers⟩ := hold uid old hget
        rw [hregion, hid]
        refine ⟨hin, fun g hg => ?_⟩
        rcases hgroups g hg with hg | ⟨h₁, h₂, h₃⟩
        · exact hmembers g hg
        · exact ⟨h₁.trans holdRegion.symm, h₂.trans holdId.symm, by rw [holdRegion, holdId]; exact hgroup h₃⟩
      · exact hold oid user hget
  refine ⟨fun oid user hget => (husers oid user hget).1, fun oid group hget => ?_,
    fun oid user hget => (husers oid user hget).2⟩
  rcases h.group_iff oid with hsame | ⟨group', hget', hregion, hid, hwritten⟩
  · exact hpool (hintegral.groups oid group (hsame.symm.trans hget))
  · rw [hwritten] at hget
    cases hget
    exact hpool (hintegral.groups oid group' hget')

/-- Records of other pools stay as they are. -/
theorem Adds.others (h : Adds request db db') :
    (∀ oid group, ¬ (group.region = request.region ∧ group.userPoolId = request.userPoolId) →
      (db'.groups.get? oid = some group ↔ db.groups.get? oid = some group)) ∧
    ∀ oid user, ¬ (user.region = request.region ∧ user.userPoolId = request.userPoolId) →
      (db'.users.get? oid = some user ↔ db.users.get? oid = some user) := by
  constructor
  · intro oid group hother
    rcases h.group_iff oid with hsame | ⟨group', hget, hregion, hid, hwritten⟩
    · rw [hsame]
    · rw [hwritten, hget, Option.some.injEq, Option.some.injEq]
      exact iff_of_false (fun he => hother (he ▸ ⟨hregion, hid⟩)) fun he => hother (he ▸ ⟨hregion, hid⟩)
  · intro oid user hother
    rcases h.users with hsame | ⟨uid, old, new, hfound, hregion, hid, -, hwritten⟩
    · rw [hsame]
    · obtain ⟨hget, holdRegion, holdId, -⟩ := findUser_some hfound
      rw [hwritten, OrderedMap.get?_insert]
      split
      · next hoid =>
        rw [hoid, hget, Option.some.injEq, Option.some.injEq]
        exact iff_of_false (fun he => hother (he ▸ ⟨hregion.trans holdRegion, hid.trans holdId⟩))
          fun he => hother (he ▸ ⟨holdRegion, holdId⟩)
      · rfl

end

theorem adminAddUserToGroup_serves (hintegral : Integral w.db) (request : AdminAddUserToGroupRequest) :
    Serves rt accountId (.adminAddUserToGroup request) w := by
  obtain ⟨x, n, db', hserve, hok, hadds⟩ := @serve_adminAddUserToGroup rt accountId request w
  refine ⟨x, _, hserve, hadds.integral hintegral, ⟨fun region userPoolId hsome _ => ?_,
    fun region userPoolId hsome => ?_, fun region userPoolId hsome => ?_⟩⟩
  · cases hsome
    obtain ⟨x₀, n₀, db₀, hserve₀, hok₀, -⟩ := @serve_adminAddUserToGroup rt accountId request
      ⟨w.db.onlyPool request.region request.userPoolId, w.calls⟩
    rw [groupIn_onlyPool] at hok₀
    exact ⟨x₀, _, hserve₀, isOk_eq hok hok₀⟩
  · cases hsome
    exact hadds.others.1
  · cases hsome
    exact hadds.others.2

/-- A request does what it is for exactly when it fits. -/
theorem serves_iff (hintegral : Integral w.db) (hdrawn : Drawn rt w) (request : Request) :
    Serves rt accountId request w ↔ Fits w.db request := by
  cases request with
  | createUserPool request => exact iff_of_true (createUserPool_serves hintegral hdrawn request) trivial
  | deleteUserPool request => exact deleteUserPool_serves_iff hintegral request
  | createGroup request => exact createGroup_serves_iff hintegral hdrawn request
  | deleteGroup request => exact deleteGroup_serves_iff hintegral request
  | adminCreateUser request => exact adminCreateUser_serves_iff hintegral request
  | adminDeleteUser request => exact iff_of_true (adminDeleteUser_serves hintegral request) trivial
  | adminAddUserToGroup request => exact iff_of_true (adminAddUserToGroup_serves hintegral request) trivial

/-! ### Every run -/

/-- A map gets no other key than this one. -/
def NewKey {α : Type} (oid : Str) (m m' : OrderedMap Str α) : Prop :=
  ∀ k, (m'.get? k).isSome → k = oid ∨ (m.get? k).isSome

section

variable {α : Type} {m : OrderedMap Str α} {oid : Str}

theorem NewKey.same : NewKey oid m m := fun _ h => Or.inr h

theorem NewKey.insert_at {k : Str} (v : α) (hk : k = oid ∨ (m.get? k).isSome) : NewKey oid m (m.insert k v) := by
  intro k' h
  rw [OrderedMap.get?_insert] at h
  split at h
  · next he => rw [he]; exact hk
  · exact Or.inr h

theorem NewKey.eraseIf (p : Str → α → Bool) : NewKey oid m (m.eraseIf p) := by
  intro k h
  rw [OrderedMap.get?_eraseIf] at h
  exact Or.inr (by rcases hget : m.get? k with _ | v <;> simp_all)

/-- A lookup writes a record that is there. -/
theorem NewKey.fetch {withOid : Str → α → α} {missing : Str} {p : Str → α → Bool} :
    NewKey oid m (Cognito.fetch withOid m missing (m.findIf p)).2 := by
  rcases hfind : m.findIf p with _ | ⟨k, v⟩
  · exact NewKey.same
  · exact NewKey.insert_at _ (Or.inr (by rw [(OrderedMap.findIf_some hfind).1]; rfl))

end

/-- A call draws the object id of what it creates. -/
theorem memoryCall_newKey (oid : Str) (db : CognitoMemoryDb) (call : CognitoCall) :
    NewKey oid db.userPools (memoryCall oid db call).2.userPools ∧
      NewKey oid db.groups (memoryCall oid db call).2.groups := by
  cases call with
  | createUserPool userPool =>
    refine ⟨?_, NewKey.same⟩
    rw [memoryCall, CognitoMemoryDb.createUserPool, CognitoMemoryDb.getUserPoolByOid, CognitoMemoryDb.fetchUserPool]
    simp only [fetch_insert]
    exact NewKey.insert_at _ (Or.inl rfl)
  | getUserPoolByUserPoolId | getUserPoolByRegionName => exact ⟨NewKey.fetch, NewKey.same⟩
  | updateUserPool userPool =>
    simp only [memoryCall, CognitoMemoryDb.updateUserPool]
    rcases hfind : db.userPools.findIf fun _ u => u.region = userPool.region ∧ u.name = userPool.name with _ | it
    · exact ⟨NewKey.same, NewKey.same⟩
    · exact ⟨NewKey.insert_at _ (Or.inr (by rw [(OrderedMap.findIf_some hfind).1]; rfl)), NewKey.same⟩
  | deleteUserPool userPoolId => exact ⟨NewKey.eraseIf _, NewKey.same⟩
  | updateUser user =>
    simp only [memoryCall, CognitoMemoryDb.updateUser]
    cases db.findUser user.region user.userPoolId user.userName <;> exact ⟨NewKey.same, NewKey.same⟩
  | createGroup group => exact ⟨NewKey.same, NewKey.insert_at _ (Or.inl rfl)⟩
  | getGroupByGroupName region userPoolId groupName => exact ⟨NewKey.same, NewKey.fetch⟩
  | deleteGroup region userPoolId groupName => exact ⟨NewKey.same, NewKey.eraseIf _⟩
  | userPoolNameExists | userPoolExists | listUserPools | countUserPools | userExists | createUser
  | getUserByUserName | countUsers | listUsers | listUsersInGroup | deleteUser | groupExists | listGroups =>
    exact ⟨NewKey.same, NewKey.same⟩

theorem drawn_exec (call : CognitoCall) (w : World) (r : call.Reply × World) (hdrawn : Drawn rt w)
    (hr : exec rt call w = some r) : Drawn rt r.2 := by
  cases hr
  obtain ⟨hpools, hgroups⟩ := memoryCall_newKey (rt.uuid w.calls) w.db call
  have hlater : ∀ oid, oid = rt.uuid w.calls ∨ (w.db.userPools.get? oid).isSome ∨ (w.db.groups.get? oid).isSome →
      ∃ n < w.calls + 1, oid = rt.uuid n := by
    rintro oid (rfl | hold)
    · exact ⟨w.calls, Nat.lt_succ_self _, rfl⟩
    · obtain ⟨n, hn, hoid⟩ := hdrawn oid hold
      exact ⟨n, Nat.lt_succ_of_lt hn, hoid⟩
  rintro oid (h | h)
  · exact hlater oid ((hpools oid h).imp_right Or.inl)
  · exact hlater oid ((hgroups oid h).imp_right Or.inr)

theorem drawn_serve {request : Request} {x : Except Error Unit} {w' : World} (hdrawn : Drawn rt w)
    (h : serve rt accountId request w = some (x, w')) : Drawn rt w' :=
  Prog.run_invariant drawn_exec hdrawn h

theorem keeps_iff {requests : List Request} (hintegral : Integral w.db) (hdrawn : Drawn rt w) :
    Keeps rt accountId requests w ↔ AllFit rt accountId requests w := by
  induction requests generalizing w with
  | nil => exact iff_of_true hintegral trivial
  | cons request requests ih =>
    constructor
    · rintro ⟨-, x, w', hserve, hseparate, hrest⟩
      have hintegral' : Integral w'.db := by
        cases requests with
        | nil => exact hrest
        | cons => exact hrest.1
      refine ⟨(serves_iff hintegral hdrawn request).mp ⟨x, w', hserve, hintegral', hseparate⟩,
        fun x₂ w₂ hserve₂ => ?_⟩
      rw [hserve] at hserve₂
      cases hserve₂
      exact (ih hintegral' (drawn_serve hdrawn hserve)).mp hrest
    · rintro ⟨hfits, hrest⟩
      obtain ⟨x, w', hserve, hintegral', hseparate⟩ := (serves_iff hintegral hdrawn request).mpr hfits
      exact ⟨hintegral, x, w', hserve, hseparate, (ih hintegral' (drawn_serve hdrawn hserve)).mpr (hrest x w' hserve)⟩

theorem integral_empty : Integral {} where
  users _ _ h := by cases h
  groups _ _ h := by cases h
  members _ _ h := by cases h

theorem drawn_empty : Drawn rt {} := by
  rintro oid (h | h) <;> cases h

/-- From the empty store, in every order of requests: integrity holds in every state and groups of different
    pools stay apart exactly when every request fits the store that it comes to. -/
theorem cognito_integrity (rt : Runtime) (accountId : Str) (requests : List Request) :
    Keeps rt accountId requests {} ↔ AllFit rt accountId requests {} :=
  keeps_iff integral_empty drawn_empty

/-! ### Histories -/

/-- Requests one after the other. -/
def serveAll (rt : Runtime) (accountId : Str) : List Request → World → Option World
  | [], w => some w
  | request :: requests, w => (serve rt accountId request w).bind fun r => serveAll rt accountId requests r.2

theorem AllFit.last {requests : List Request} {request : Request} {w' : World}
    (h : AllFit rt accountId (requests ++ [request]) w) (hrun : serveAll rt accountId requests w = some w') :
    Fits w'.db request := by
  induction requests generalizing w with
  | nil =>
    cases hrun
    exact h.1
  | cons first requests ih =>
    obtain ⟨⟨x, w₁⟩, hserve, hrest⟩ := Option.bind_eq_some_iff.mp hrun
    exact ih (h.2 x w₁ hserve) hrest

/-- Draws that are counted. -/
def Runtime.counting : Runtime where
  uuid n := List.replicate n (byte 'u')
  randomString n := List.replicate n (byte 'p')
  now _ := (0, 0)
  uuid_inj := @replicate_u_inj

/-- A last request that does not fit breaks a run. -/
theorem not_keeps {requests : List Request} {request : Request} {p : CognitoMemoryDb → Bool}
    (h : (serveAll .counting [] requests {}).any (fun w => p w.db) = true)
    (hp : ∀ db, p db = true → ¬ Fits db request) : ¬ Keeps .counting [] (requests ++ [request]) {} := by
  obtain ⟨w, hrun, hdb⟩ := (Option.any_eq_true _ _).mp h
  rw [keeps_iff integral_empty drawn_empty]
  exact fun hfit => hp w.db hdb (hfit.last hrun)

/-- Two pools with the ids that the first two requests draw. -/
def twoPools : List Request := [.createUserPool ⟨str "eu", str "a"⟩, .createUserPool ⟨str "eu", str "b"⟩]

def firstPool : Str := str "eu_"

def secondPool : Str := str "eu_pp"

def groupOf (userPoolId : Str) : CreateGroupRequest where
  region := str "eu"
  groupName := str "g"
  precedence := 0
  userPoolId := userPoolId

def memberOf (userPoolId : Str) : AdminAddUserToGroupRequest where
  region := str "eu"
  userPoolId := userPoolId
  userName := str "u"
  groupName := str "g"

/-- The deletion of a pool leaves its user, a group of one pool blocks that of another, and the deletion of a
    group leaves its member. -/
theorem cognito_integrity_breaks :
    ¬ Keeps .counting [] (twoPools ++ [.adminCreateUser ⟨str "eu", firstPool, str "u"⟩] ++
      [.deleteUserPool ⟨firstPool⟩]) {} ∧
    ¬ Keeps .counting [] (twoPools ++ [.createGroup (groupOf firstPool)] ++
      [.createGroup (groupOf secondPool)]) {} ∧
    ¬ Keeps .counting [] (twoPools ++ [.adminCreateUser ⟨str "eu", firstPool, str "u"⟩,
      .createGroup (groupOf firstPool), .adminAddUserToGroup (memberOf firstPool)] ++
        [.deleteGroup ⟨str "eu", firstPool, str "g"⟩]) {} := by
  refine ⟨?_, ?_, ?_⟩
  · refine @not_keeps _ _ (fun db => db.users.values.any fun user => user.userPoolId = firstPool)
      (by decide +kernel) fun db hdb hfits => ?_
    obtain ⟨user, hmem, hid⟩ := List.any_eq_true.mp hdb
    obtain ⟨⟨oid, _⟩, hentry, rfl⟩ := List.mem_map.mp hmem
    exact hfits.1 oid _ (OrderedMap.get?_eq_some.mpr hentry) (of_decide_eq_true hid)
  · refine @not_keeps _ _ (fun db => (db.userPools.findIf fun _ userPool => userPool.region = str "eu" ∧
      userPool.userPoolId = secondPool).isSome && db.groupExists (str "eu") (str "g") &&
        ! (db.findGroup (str "eu") secondPool (str "g")).isSome) (by decide +kernel) fun db hdb hfits => ?_
    simp only [Bool.and_eq_true, OrderedMap.findIf_isSome, decide_eq_true_eq, Bool.not_eq_true'] at hdb
    obtain ⟨⟨hpool, hused⟩, hnone⟩ := hdb
    have hin : (db.findGroup (str "eu") secondPool (str "g")).isSome = true :=
      findGroup_isSome_iff.mpr (hfits.1 hpool (groupExists_iff.mp hused))
    rw [hnone] at hin
    cases hin
  · refine @not_keeps _ _ (fun db => db.users.values.any fun user => decide (user.region = str "eu" ∧
      user.userPoolId = firstPool) && user.groups.any fun g => g.groupName = str "g") (by decide +kernel)
      fun db hdb hfits => ?_
    obtain ⟨user, hmem, hp⟩ := List.any_eq_true.mp hdb
    obtain ⟨⟨oid, _⟩, hentry, rfl⟩ := List.mem_map.mp hmem
    obtain ⟨hids, hg⟩ := Bool.and_eq_true_iff.mp hp
    obtain ⟨g, hg, hname⟩ := List.any_eq_true.mp hg
    obtain ⟨hregion, hid⟩ := of_decide_eq_true hids
    exact hfits.2 oid _ (OrderedMap.get?_eq_some.mpr hentry) hregion hid g hg (of_decide_eq_true hname)

end AwsMock.Cognito
