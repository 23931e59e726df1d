import AwsMock.Cognito.Documents
import AwsMock.Cognito.Integrity
import AwsMock.Lib.Mirror
import AwsMock.Lib.Twin

/-!
# The two Cognito backends

The same calls on the in-memory store and on the document database. The two give the same results, and end with the
same user pools, users and groups, as long as every call `Conforms`: a user that has attributes or a password does not
come back from its document, one branch counts the users of a region and not those of a pool, and where several records
have one name the two may come to different ones.
-/

namespace AwsMock.Cognito

open Lib Bson

abbrev Backends := Twin CognitoMemoryDb CognitoMongoDb

def memoryStore (ids : ObjectIds) : Store CognitoCall CognitoCall.Reply CognitoMemoryDb :=
  fun n c db => some (memoryCall (ids.map n) db c)

def mongoStore (ids : ObjectIds) : Store CognitoCall CognitoCall.Reply CognitoMongoDb :=
  fun n c db => mongoCall (ids.collection n) db c

/-- The same result up to ids, to less than a millisecond and to the order. -/
def CognitoCall.SameReply : (c : CognitoCall) → c.Reply → c.Reply → Prop
  | userPoolNameExists .. | userPoolExists .. | userExists .. | groupExists .. => (· = ·)
  | createUserPool _ | getUserPoolByUserPoolId _ | getUserPoolByRegionName .. | updateUserPool _ =>
    Outcomes fun userPool userPool' => userPool.plain = userPool'.plain
  | listUserPools _ => fun r r' => (r.map UserPool.plain).Perm (r'.map UserPool.plain)
  | countUserPools _ | countUsers .. => (· = ·)
  | createUser _ | getUserByUserName .. | updateUser _ => Outcomes fun user user' => user.plain = user'.plain
  | listUsers .. | listUsersInGroup .. => fun r r' => (r.map User.plain).Perm (r'.map User.plain)
  | getGroupByGroupName .. | createGroup _ => Outcomes fun group group' => group.plain = group'.plain
  | listGroups .. => fun r r' => (r.map Group.plain).Perm (r'.map Group.plain)
  | deleteUserPool _ | deleteUser _ | deleteGroup .. => (· = ·)

structure StoresAgree (memory : CognitoMemoryDb) (mongo : CognitoMongoDb) : Prop where
  userPools : SameContents UserPool.plain UserPool.fromDocument memory.userPools mongo.userPools
  users : SameContents User.plain User.fromDocument memory.users mongo.users
  groups : SameContents Group.plain Group.fromDocument memory.groups mongo.groups

/-! ### Calls that fit -/

def SameUserPoolId (userPoolId : Str) (s : Backends) : Prop :=
  SameFirst UserPool.plain UserPool.fromDocument
    (s.left.userPools.findIf fun _ userPool => userPool.userPoolId = userPoolId)
    (s.right.userPools.findOne (Query.equals [(str "userPoolId", userPoolId)]))

def SameUserPool (region name : Str) (s : Backends) : Prop :=
  SameFirst UserPool.plain UserPool.fromDocument
    (s.left.userPools.findIf fun _ userPool => userPool.region = region ∧ userPool.name = name)
    (s.right.userPools.findOne (Query.equals [(str "region", region), (str "name", name)]))

def SameUser (region userPoolId userName : Str) (s : Backends) : Prop :=
  SameFirst User.plain User.fromDocument (s.left.findUser region userPoolId userName)
    (s.right.users.findOne (CognitoMongoDb.userQuery region userPoolId userName))

def SameGroup (region userPoolId groupName : Str) (s : Backends) : Prop :=
  SameFirst Group.plain Group.fromDocument (s.left.findGroup region userPoolId groupName)
    (s.right.groups.findOne (CognitoMongoDb.groupQuery region userPoolId groupName))

/-- Nothing of the user is lost in its document. -/
structure User.Storable (u : User) : Prop where
  userAttributes : u.userAttributes = []
  password : u.password = []

def Conforms (c : CognitoCall) (s : Backends) : Prop :=
  match c with
  | .getUserPoolByUserPoolId userPoolId => SameUserPoolId userPoolId s
  | .getUserPoolByRegionName region name => SameUserPool region name s
  | .updateUserPool userPool => SameUserPool userPool.region userPool.name s
  | .createUser user => user.Storable
  | .getUserByUserName region userPoolId userName => SameUser region userPoolId userName s
  | .updateUser user => SameUser user.region user.userPoolId user.userName s ∧
      if s.left.userExists user.region user.userPoolId user.userName then user.Storable
      else ∀ a ∈ user.userAttributes, 0 ∉ a.name
  | .countUsers region userPoolId => region ≠ [] → userPoolId ≠ [] →
      ∀ user ∈ s.left.users.values, user.region = region → user.userPoolId = userPoolId
  | .getGroupByGroupName region userPoolId groupName => SameGroup region userPoolId groupName s
  | .userPoolNameExists .. | .userPoolExists _ | .createUserPool _ | .listUserPools _ | .countUserPools _
  | .deleteUserPool _ | .userExists .. | .listUsers .. | .listUsersInGroup .. | .deleteUser _ | .groupExists ..
  | .createGroup _ | .listGroups .. | .deleteGroup .. => True

/-! ### How records are kept -/

def userPoolKeeping : Keeping UserPool where
  keeps p := p.plain = p
  write p := some p.toDocument

def userKeeping : Keeping User where
  keeps u := u.plain = u ∧ u.Storable
  write := User.toDocument

def groupKeeping : Keeping Group where
  keeps g := g.plain = g
  write g := some g.toDocument

theorem reads_userPools : userPoolKeeping.Reads UserPool.fromDocument UserPool.plain := by
  intro p oid fields hkeeps hwrite
  obtain rfl := Option.some.inj hwrite
  exact ⟨_, p.document_read oid, p.plain_plain.trans hkeeps⟩

theorem User.Storable.read {u : User} {fields : Document} (h : u.Storable) (hfields : u.toDocument = some fields)
    (oid : Str) : User.fromDocument ((Collection.idName, .oid oid) :: fields) = some { u.plain with oid := oid } := by
  rw [User.document_read hfields, if_pos h.userAttributes, ← h.password]
  rfl

theorem reads_users : userKeeping.Reads User.fromDocument User.plain := by
  intro u oid fields hkeeps hwrite
  exact ⟨_, hkeeps.2.read hwrite oid, u.plain_plain.trans hkeeps.1⟩

theorem reads_groups : groupKeeping.Reads Group.fromDocument Group.plain := by
  intro g oid fields hkeeps hwrite
  obtain rfl := Option.some.inj hwrite
  exact ⟨_, g.document_read oid, g.plain_plain.trans hkeeps⟩

theorem User.Storable.plain {u : User} (h : u.Storable) : userKeeping.keeps u.plain :=
  ⟨u.plain_plain, h.userAttributes, h.password⟩

theorem User.Storable.toDocument {u : User} (h : u.Storable) : ∃ fields, u.toDocument = some fields := by
  unfold User.toDocument
  rw [h.userAttributes, if_pos (by intro a ha; cases ha)]
  exact ⟨_, rfl⟩

/-! ### What the queries select -/

theorem selects_userPool (region name : Str) :
    userPoolKeeping.Selects (Query.equals [(str "region", region), (str "name", name)])
      fun p => p.region = region ∧ p.name = name := by
  intro p oid fields _ hwrite
  obtain rfl := Option.some.inj hwrite
  rw [Query.meets_equals_cons (by decide) (s := p.region) rfl, Query.meets_equals_cons (by decide) (s := p.name) rfl]
  simp [Query.equals]

theorem selects_userPoolId (userPoolId : Str) :
    userPoolKeeping.Selects (Query.equals [(str "userPoolId", userPoolId)]) fun p => p.userPoolId = userPoolId := by
  intro p oid fields _ hwrite
  obtain rfl := Option.some.inj hwrite
  rw [Query.meets_equals_cons (by decide) (s := p.userPoolId) rfl]
  simp [Query.equals]

/-- All records, or those of a region. -/
theorem selects_region {α : Type} {K : Keeping α} {region : α → Str}
    (helement : ∀ a oid fields, K.write a = some fields →
      element (str "region") ((Collection.idName, .oid oid) :: fields) = some (.string (region a))) (wanted : Str) :
    K.Selects (CognitoMongoDb.regionQuery wanted) fun a => wanted = [] ∨ region a = wanted := by
  intro a oid fields _ hwrite
  unfold CognitoMongoDb.regionQuery
  split
  · next hempty => simp [hempty]
  · next hne =>
    rw [Query.meets_equals_cons (by decide) (helement a oid fields hwrite)]
    simp [Query.equals, hne]

/-- All records, those of a region, or those of a pool in it. -/
theorem selects_pool {α : Type} {K : Keeping α} {region userPoolId : α → Str}
    (hregion : ∀ a oid fields, K.write a = some fields →
      element (str "region") ((Collection.idName, .oid oid) :: fields) = some (.string (region a)))
    (hpool : ∀ a oid fields, K.write a = some fields →
      element (str "userPoolId") ((Collection.idName, .oid oid) :: fields) = some (.string (userPoolId a)))
    (wanted pool : Str) :
    K.Selects (CognitoMongoDb.poolQuery wanted pool) fun a =>
      wanted = [] ∨ region a = wanted ∧ (pool = [] ∨ userPoolId a = pool) := by
  intro a oid fields hkeeps hwrite
  unfold CognitoMongoDb.poolQuery
  split
  · next hne =>
    rw [Query.meets_equals_cons (by decide) (hregion a oid fields hwrite),
      Query.meets_equals_cons (by decide) (hpool a oid fields hwrite)]
    simp [Query.equals, hne.1, hne.2]
  · next hempty =>
    rw [selects_region hregion wanted a oid fields hkeeps hwrite, decide_eq_decide]
    rw [not_and_or, not_not, not_not] at hempty
    constructor
    · rintro (hnone | hsame)
      · exact .inl hnone
      · rcases hempty with hempty | hempty
        · exact .inl hempty
        · exact .inr ⟨hsame, .inl hempty⟩
    · rintro (hnone | ⟨hsame, -⟩)
      · exact .inl hnone
      · exact .inr hsame

/-- The elements of a user's document. -/
theorem user_elements {u : User} {fields : Document} (h : u.toDocument = some fields) (oid : Str) :
    element (str "region") ((Collection.idName, .oid oid) :: fields) = some (.string u.region) ∧
      element (str "userPoolId") ((Collection.idName, .oid oid) :: fields) = some (.string u.userPoolId) ∧
      element (str "userName") ((Collection.idName, .oid oid) :: fields) = some (.string u.userName) ∧
      element (str "groups") ((Collection.idName, .oid oid) :: fields) =
        some (.array (u.groups.map fun g => .document g.toDocument)) := by
  obtain ⟨-, hfields⟩ := Option.ite_none_right_eq_some.mp h
  obtain rfl := Option.some.inj hfields
  exact ⟨rfl, rfl, rfl, rfl⟩

theorem user_meets {u : User} {fields : Document} (h : u.toDocument = some fields)
    (oid region userPoolId userName : Str) :
    (CognitoMongoDb.userQuery region userPoolId userName).meets ((Collection.idName, .oid oid) :: fields) =
      decide (u.region = region ∧ u.userPoolId = userPoolId ∧ u.userName = userName) := by
  obtain ⟨hregion, hpool, hname, -⟩ := user_elements h oid
  rw [CognitoMongoDb.userQuery, Query.meets_equals_cons (by decide) hregion, Query.meets_equals_cons (by decide) hpool,
    Query.meets_equals_cons (by decide) hname]
  simp [Query.equals]

theorem selects_user (region userPoolId userName : Str) :
    userKeeping.Selects (CognitoMongoDb.userQuery region userPoolId userName)
      fun u => u.region = region ∧ u.userPoolId = userPoolId ∧ u.userName = userName :=
  fun _ oid _ _ hwrite => user_meets hwrite oid region userPoolId userName

theorem selects_usersInGroup (region userPoolId groupName : Str) :
    userKeeping.Selects (Query.equals [(str "region", region), (str "userPoolId", userPoolId)] ++
        [(str "groups", .elemMatch (str "groupName") (.string groupName))])
      fun u => u.region = region ∧ u.userPoolId = userPoolId ∧ u.groups.any fun g => g.groupName = groupName := by
  intro u oid fields _ hwrite
  obtain ⟨hregion, hpool, -, hgroups⟩ := user_elements hwrite oid
  have hany : Test.holds (.elemMatch (str "groupName") (.string groupName))
      (.array (u.groups.map fun g => .document g.toDocument)) = u.groups.any fun g => g.groupName = groupName := by
    rw [Test.holds, List.any_map]
    refine congrArg (List.any u.groups) (funext fun g => ?_)
    change decide (some (Scalar.string g.groupName) = some (.string groupName)) = _
    simp
  rw [Query.meets_append, Query.meets_equals_cons (by decide) hregion, Query.meets_equals_cons (by decide) hpool,
    Query.meets_cons (by decide), hgroups, Option.any_some, hany, Bool.eq_iff_iff]
  simp [Query.equals, and_assoc]

theorem selects_group (region userPoolId groupName : Str) :
    groupKeeping.Selects (CognitoMongoDb.groupQuery region userPoolId groupName)
      fun g => g.region = region ∧ g.userPoolId = userPoolId ∧ g.groupName = groupName := by
  intro g oid fields _ hwrite
  obtain rfl := Option.some.inj hwrite
  rw [CognitoMongoDb.groupQuery, Query.meets_equals_cons (by decide) (s := g.region) rfl,
    Query.meets_equals_cons (by decide) (s := g.userPoolId) rfl,
    Query.meets_equals_cons (by decide) (s := g.groupName) rfl]
  simp [Query.equals]

theorem selects_groupName (region groupName : Str) :
    groupKeeping.Selects (Query.equals [(str "region", region), (str "groupName", groupName)])
      fun g => g.region = region ∧ g.groupName = groupName := by
  intro g oid fields _ hwrite
  obtain rfl := Option.some.inj hwrite
  rw [Query.meets_equals_cons (by decide) (s := g.region) rfl,
    Query.meets_equals_cons (by decide) (s := g.groupName) rfl]
  simp [Query.equals]

/-! ### One kind of records -/

section Records

open CognitoMongoDb (readFound)

variable {α : Type} {K : Keeping α} {plain : α → α} {ids : ObjectIds} {n : Nat} {m : OrderedMap Str α}
  {coll : Collection} {query : Query} {q p : α → Bool} {read : Document → Option α} {missing : Str}
  {e : Error} (withOid : Str → α → α)

/-- Both give the record they find first, when it is the same. -/
theorem fetch_readFound (missing : Str) (e : Error) (h : Mirrors K plain ids n m coll) (hq : K.Selects query q)
    (hp : ∀ v ∈ m.values, q (plain v) = p v) (hread : K.Reads read plain)
    (hsame : SameFirst plain read (m.findIf fun _ v => p v) (coll.findOne query))
    (hplain : ∀ oid v, plain (withOid oid v) = plain v) :
    ∃ reply, readFound read e (coll.findOne query) = some reply ∧
      Outcomes (fun v w => plain v = plain w ∧ K.keeps (plain v))
        (fetch withOid m missing (m.findIf fun _ v => p v)).1 reply ∧
      Mirrors K plain ids (n + 1) (fetch withOid m missing (m.findIf fun _ v => p v)).2 coll := by
  rcases h.findOne hq hp with ⟨hnone, hdoc⟩ | ⟨k, v, doc, a, hfind, hdoc, hkeeps, -⟩
  · rw [hnone, hdoc]
    exact ⟨_, rfl, trivial, h.mono (Nat.le_succ n)⟩
  · obtain ⟨w, hw, hwa⟩ := hread.keeps hkeeps
    rw [hfind, hdoc, SameFirst, Option.map_some, Option.bind_some, hw, Option.map_some, Option.some.injEq] at hsame
    rw [hfind, hdoc, readFound, hw]
    refine ⟨_, rfl, ⟨(hplain k v).trans hsame, ?_⟩, ?_⟩
    · rw [hplain, hsame, hwa]
      exact hkeeps.1
    · exact (h.touch (OrderedMap.findIf_some hfind).1 (hplain k v)).mono (Nat.le_succ n)

/-- Only then do they give the same. -/
theorem sameFirst_of_outcomes {found : Option (Str × α)} {doc : Option Document} {reply : Except Error α}
    (hreply : readFound read e doc = some reply) (hplain : ∀ oid v, plain (withOid oid v) = plain v)
    (hsame : Outcomes (fun v w => plain v = plain w) (fetch withOid m missing found).1 reply) :
    SameFirst plain read found doc := by
  rcases doc with _ | doc
  · obtain rfl := Option.some.inj hreply
    rcases found with _ | ⟨k, v⟩
    · rfl
    · exact hsame.elim
  · obtain ⟨w, hw, rfl⟩ := Option.map_eq_some_iff.mp hreply
    rcases found with _ | ⟨k, v⟩
    · exact hsame.elim
    · have hvw : plain (withOid k v) = plain w := hsame
      rw [hplain] at hvw
      rw [SameFirst, Option.map_some, Option.bind_some, hw, Option.map_some, hvw]

/-- A record is created in both. -/
theorem fetch_created {v : α} {fields : Document} (h : Mirrors K plain ids n m coll) (hread : K.Reads read plain)
    (hv : K.keeps (plain v)) (hwrite : K.write (plain v) = some fields)
    (hplain : ∀ oid v, plain (withOid oid v) = plain v) :
    ∃ w, readFound read e ((coll.insertOne (ids.collection n) fields).findById (ids.collection n)) = some (.ok w) ∧
      plain v = plain w ∧ Mirrors K plain ids (n + 1) (m.insert (ids.map n) (withOid (ids.map n) v))
        (coll.insertOne (ids.collection n) fields) := by
  obtain ⟨w, hw, hwv⟩ := hread (plain v) (ids.collection n) fields hv hwrite
  refine ⟨w, ?_, hwv.symm, ?_⟩
  · rw [h.findById_insertOne, readFound, hw]
    rfl
  · exact h.insertOne (by rwa [hplain]) (by rwa [hplain])

/-- The record found first is replaced in both, when it is the same. -/
theorem readFound_replaced {k : Str} {v old : α} {fields : Document} (h : Mirrors K plain ids n m coll)
    (hq : K.Selects query q) (hp : ∀ v ∈ m.values, q (plain v) = p v) (hread : K.Reads read plain)
    (hfind : (m.findIf fun _ v => p v) = some (k, old))
    (hsame : SameFirst plain read (m.findIf fun _ v => p v) (coll.findOne query)) (hv : K.keeps (plain v))
    (hwrite : K.write (plain v) = some fields) (hself : q (plain v) = true) :
    ∃ w, readFound read e ((coll.replaceOne query fields).findOne query) = some (.ok w) ∧ plain v = plain w ∧
      Mirrors K plain ids (n + 1) (m.insert k v) (coll.replaceOne query fields) := by
  rcases h.findOne hq hp with ⟨hnone, -⟩ | ⟨_, _, doc, a, -, hdoc, hkeeps, -⟩
  · rw [hfind] at hnone
    cases hnone
  obtain ⟨first, hfirst, -⟩ := hread.keeps hkeeps
  rw [hfind, hdoc, SameFirst, Option.map_some, Option.bind_some, hfirst, Option.map_some, Option.some.injEq] at hsame
  obtain ⟨oid, hagain⟩ := findOne_replaced h hq hp hdoc fun oid => (hq _ oid fields hv hwrite).trans hself
  obtain ⟨w, hw, hwv⟩ := hread (plain v) oid fields hv hwrite
  refine ⟨w, ?_, hwv.symm, ?_⟩
  · rw [hagain, readFound, hw]
    rfl
  · exact (h.replaceOne hread (OrderedMap.findIf_some hfind).1 hdoc hfirst hsame.symm hv hwrite).mono (Nat.le_succ n)

/-- Neither finds a record to replace. -/
theorem readFound_not_replaced (fields : Document) (read : Document → Option α) (e : Error)
    (h : Mirrors K plain ids n m coll) (hq : K.Selects query q)
    (hp : ∀ v ∈ m.values, q (plain v) = p v) (hfind : (m.findIf fun _ v => p v) = none) :
    coll.replaceOne query fields = coll ∧ readFound read e (coll.findOne query) = some (.error e) := by
  rcases h.findOne hq hp with ⟨-, hnone⟩ | ⟨_, _, _, _, hsome, -⟩
  · exact ⟨Collection.replaceOne_eq_self hnone, by rw [hnone, readFound]⟩
  · rw [hfind] at hsome
    cases hsome

end Records

/-! ### Calls that conform -/

/-- After the calls so far both backends have the same user pools, users and groups. -/
structure Sound (ids : ObjectIds) (s : Backends) : Prop where
  userPools : Mirrors userPoolKeeping UserPool.plain ids s.calls s.left.userPools s.right.userPools
  users : Mirrors userKeeping User.plain ids s.calls s.left.users s.right.users
  groups : Mirrors groupKeeping Group.plain ids s.calls s.left.groups s.right.groups

/-- What a call has to do: the same in both backends, which stay in step. -/
def Served (ids : ObjectIds) (c : CognitoCall) (s : Backends) : Prop :=
  ∃ r, Twin.both (memoryStore ids) (mongoStore ids) c s = some r ∧ c.SameReply r.1.1 r.2.1 ∧
    Sound ids { left := r.1.2, right := r.2.2, calls := s.calls + 1 }

section Calls

variable {ids : ObjectIds} {s : Backends}

/-- A call that both backends answer. -/
theorem served {c : CognitoCall} {mongo : c.Reply × CognitoMongoDb}
    (hmongo : mongoCall (ids.collection s.calls) s.right c = some mongo)
    (hreply : c.SameReply (memoryCall (ids.map s.calls) s.left c).1 mongo.1)
    (hsound : Sound ids { left := (memoryCall (ids.map s.calls) s.left c).2, right := mongo.2, calls := s.calls + 1 }) :
    Served ids c s :=
  ⟨(_, mongo), Twin.both_of_eq_some rfl hmongo, hreply, hsound⟩

theorem Sound.succ (h : Sound ids s) : Sound ids { s with calls := s.calls + 1 } :=
  ⟨h.userPools.mono (Nat.le_succ _), h.users.mono (Nat.le_succ _), h.groups.mono (Nat.le_succ _)⟩

/-- A call that only reads. -/
theorem served_reading {c : CognitoCall} {reply : c.Reply} (h : Sound ids s)
    (hmongo : mongoCall (ids.collection s.calls) s.right c = some (reply, s.right))
    (hmemory : (memoryCall (ids.map s.calls) s.left c).2 = s.left)
    (hreply : c.SameReply (memoryCall (ids.map s.calls) s.left c).1 reply) : Served ids c s := by
  refine served hmongo hreply ?_
  rw [hmemory]
  exact h.succ

/-! #### User pools -/

theorem userPoolNameExists_served (h : Sound ids s) (region name : Str) :
    Served ids (.userPoolNameExists region name) s :=
  served_reading h rfl rfl (h.userPools.findIf_isSome (selects_userPool region name) fun _ _ => rfl)

theorem userPoolExists_served (h : Sound ids s) (userPoolId : Str) : Served ids (.userPoolExists userPoolId) s :=
  served_reading h rfl rfl (h.userPools.findIf_isSome (selects_userPoolId userPoolId) fun _ _ => rfl)

theorem createUserPool_eq (db : CognitoMemoryDb) (oid : Str) (userPool : UserPool) :
    db.createUserPool oid userPool = (.ok { userPool with oid := oid },
      { db with userPools := db.userPools.insert oid { userPool with oid := oid } }) := by
  rw [CognitoMemoryDb.createUserPool, CognitoMemoryDb.getUserPoolByOid, CognitoMemoryDb.fetchUserPool, fetch_insert]

theorem createUserPool_served (h : Sound ids s) (userPool : UserPool) : Served ids (.createUserPool userPool) s := by
  obtain ⟨w, hw, hplain, hmirrors⟩ := fetch_created (v := userPool)
    (e := CognitoMongoDb.notFound "Cognito not found ") (fun oid p => { p with oid := oid }) h.userPools
    reads_userPools userPool.plain_plain
    (congrArg some userPool.toDocument_plain) fun _ _ => rfl
  have hmongo : mongoCall (ids.collection s.calls) s.right (.createUserPool userPool) = some (.ok w, { s.right with
      userPools := s.right.userPools.insertOne (ids.collection s.calls) userPool.toDocument }) := by
    rw [mongoCall, CognitoMongoDb.createUserPool, CognitoMongoDb.getUserPoolById, hw]
    rfl
  refine served hmongo ?_ ?_
  · rw [memoryCall, createUserPool_eq]
    exact hplain
  · rw [memoryCall, createUserPool_eq]
    exact ⟨hmirrors, h.succ.users, h.succ.groups⟩

/-- What the lookups of a user pool have in common. -/
theorem fetchUserPool_served {query : Query} {q p : UserPool → Bool} {missing : Str} {e : Error}
    (h : Sound ids s) (hq : userPoolKeeping.Selects query q) (hp : ∀ v, q (UserPool.plain v) = p v)
    (hsame : SameFirst UserPool.plain UserPool.fromDocument (s.left.userPools.findIf fun _ v => p v)
      (s.right.userPools.findOne query)) :
    ∃ reply, CognitoMongoDb.readFound UserPool.fromDocument e (s.right.userPools.findOne query) = some reply ∧
      Outcomes (fun userPool userPool' => userPool.plain = userPool'.plain)
        (s.left.fetchUserPool missing (s.left.userPools.findIf fun _ v => p v)).1 reply ∧
      Sound ids {
        left := (s.left.fetchUserPool missing (s.left.userPools.findIf fun _ v => p v)).2, right := s.right,
        calls := s.calls + 1 } := by
  obtain ⟨reply, hreply, houtcome, hmirrors⟩ := fetch_readFound
    (fun oid p => { p with oid := oid }) missing e h.userPools hq (fun v _ => hp v) reads_userPools hsame fun _ _ => rfl
  exact ⟨reply, hreply, houtcome.mono fun _ _ => And.left, hmirrors, h.succ.users, h.succ.groups⟩

theorem getUserPoolByUserPoolId_served (h : Sound ids s) {userPoolId : Str} (hsame : SameUserPoolId userPoolId s) :
    Served ids (.getUserPoolByUserPoolId userPoolId) s := by
  obtain ⟨reply, hreply, houtcome, hsound⟩ :=
    fetchUserPool_served h (selects_userPoolId userPoolId) (fun _ => rfl) hsame
  have hmongo : mongoCall (ids.collection s.calls) s.right (.getUserPoolByUserPoolId userPoolId) =
      some (reply, s.right) := by
    rw [mongoCall, CognitoMongoDb.getUserPoolByUserPoolId, hreply]
    rfl
  exact served hmongo houtcome hsound

theorem getUserPoolByRegionName_served (h : Sound ids s) {region name : Str} (hsame : SameUserPool region name s) :
    Served ids (.getUserPoolByRegionName region name) s := by
  obtain ⟨reply, hreply, houtcome, hsound⟩ :=
    fetchUserPool_served h (selects_userPool region name) (fun _ => rfl) hsame
  have hmongo : mongoCall (ids.collection s.calls) s.right (.getUserPoolByRegionName region name) =
      some (reply, s.right) := by
    rw [mongoCall, CognitoMongoDb.getUserPoolByRegionName, hreply]
    rfl
  exact served hmongo houtcome hsound

theorem updateUserPool_served (h : Sound ids s) {userPool : UserPool}
    (hsame : SameUserPool userPool.region userPool.name s) : Served ids (.updateUserPool userPool) s := by
  have hselects := selects_userPool userPool.region userPool.name
  rcases hfind : s.left.userPools.findIf fun _ p => p.region = userPool.region ∧ p.name = userPool.name with
    _ | ⟨oid, old⟩
  · obtain ⟨hreplace, hreply⟩ := readFound_not_replaced userPool.toDocument UserPool.fromDocument
      (CognitoMongoDb.notFound "Cognito not found ") h.userPools hselects (fun _ _ => rfl) hfind
    have hmongo : mongoCall (ids.collection s.calls) s.right (.updateUserPool userPool) =
        some (.error (CognitoMongoDb.notFound "Cognito not found "), s.right) := by
      rw [mongoCall, CognitoMongoDb.updateUserPool, CognitoMongoDb.getUserPoolByRegionName, hreplace, hreply]
      rfl
    refine served hmongo ?_ ?_
    · rw [memoryCall, CognitoMemoryDb.updateUserPool, hfind]
      trivial
    · rw [memoryCall, CognitoMemoryDb.updateUserPool, hfind]
      exact h.succ
  · obtain ⟨w, hw, hplain, hmirrors⟩ := readFound_replaced (e := CognitoMongoDb.notFound "Cognito not found ")
      h.userPools hselects (fun _ _ => rfl) reads_userPools hfind hsame userPool.plain_plain
      (congrArg some userPool.toDocument_plain) (decide_eq_true ⟨rfl, rfl⟩)
    have hmongo : mongoCall (ids.collection s.calls) s.right (.updateUserPool userPool) = some (.ok w, { s.right with
        userPools := s.right.userPools.replaceOne (Query.equals [(str "region", userPool.region),
          (str "name", userPool.name)]) userPool.toDocument }) := by
      rw [mongoCall, CognitoMongoDb.updateUserPool, CognitoMongoDb.getUserPoolByRegionName, hw]
      rfl
    refine served hmongo ?_ ?_
    · rw [memoryCall, CognitoMemoryDb.updateUserPool, hfind]
      exact hplain
    · rw [memoryCall, CognitoMemoryDb.updateUserPool, hfind]
      exact ⟨hmirrors, h.succ.users, h.succ.groups⟩

theorem listUserPools_eq (db : CognitoMemoryDb) (region : Str) :
    db.listUserPools region = db.userPools.values.filter fun p => region = [] ∨ p.region = region := by
  unfold CognitoMemoryDb.listUserPools
  split
  · next hempty => simp [hempty]
  · next hne => simp [hne]

theorem selects_userPools (region : Str) :
    userPoolKeeping.Selects (CognitoMongoDb.regionQuery region) fun p => region = [] ∨ p.region = region :=
  selects_region (fun _ _ _ hwrite => by obtain rfl := Option.some.inj hwrite; rfl) region

theorem listUserPools_served (h : Sound ids s) (region : Str) : Served ids (.listUserPools region) s := by
  obtain ⟨userPools, hread, hperm⟩ := h.userPools.find (selects_userPools region) (fun _ _ => rfl) reads_userPools
  have hmongo : mongoCall (ids.collection s.calls) s.right (.listUserPools region) = some (userPools, s.right) := by
    rw [mongoCall, CognitoMongoDb.listUserPools, hread]
    rfl
  refine served_reading h hmongo rfl ?_
  rw [memoryCall, listUserPools_eq]
  exact hperm.symm

theorem countUserPools_served (h : Sound ids s) (region : Str) : Served ids (.countUserPools region) s := by
  refine served_reading h rfl rfl ?_
  change s.left.countUserPools region = s.right.countUserPools region
  rw [CognitoMemoryDb.countUserPools, listUserPools_eq, ← List.countP_eq_length_filter]
  exact (h.userPools.countDocuments (selects_userPools region) fun _ _ => rfl).symm

theorem deleteUserPool_served (h : Sound ids s) (userPoolId : Str) : Served ids (.deleteUserPool userPoolId) s := by
  have hdelete := h.succ.userPools.deleteMany (selects_userPoolId userPoolId) fun _ _ => rfl
  exact served rfl rfl ⟨hdelete, h.succ.users, h.succ.groups⟩

/-! #### Users -/

theorem userExists_served (h : Sound ids s) (region userPoolId userName : Str) :
    Served ids (.userExists region userPoolId userName) s :=
  served_reading h rfl rfl (h.users.findIf_isSome (selects_user region userPoolId userName) fun _ _ => rfl)

theorem createUser_eq (db : CognitoMemoryDb) (oid : Str) (user : User) :
    db.createUser oid user =
      (.ok { user with oid := oid }, { db with users := db.users.insert oid { user with oid := oid } }) := by
  rw [CognitoMemoryDb.createUser, CognitoMemoryDb.getUserByOid, CognitoMemoryDb.fetchUser, fetch_insert]

theorem createUser_served (h : Sound ids s) {user : User} (hfit : user.Storable) :
    Served ids (.createUser user) s := by
  obtain ⟨fields, hfields⟩ := hfit.toDocument
  obtain ⟨w, hw, hplain, hmirrors⟩ := fetch_created (v := user) (e := CognitoMongoDb.notFound "user not found ")
    (fun oid u => { u with oid := oid }) h.users reads_users hfit.plain (user.toDocument_plain.trans hfields)
    fun _ _ => rfl
  have hmongo : mongoCall (ids.collection s.calls) s.right (.createUser user) =
      some (.ok w, { s.right with users := s.right.users.insertOne (ids.collection s.calls) fields }) := by
    rw [mongoCall, CognitoMongoDb.createUser, hfields]
    change (CognitoMongoDb.readFound _ _ _).bind _ = _
    rw [hw]
    rfl
  refine served hmongo ?_ ?_
  · rw [memoryCall, createUser_eq]
    exact hplain
  · rw [memoryCall, createUser_eq]
    exact ⟨h.succ.userPools, hmirrors, h.succ.groups⟩

theorem getUserByUserName_served (h : Sound ids s) {region userPoolId userName : Str}
    (hsame : SameUser region userPoolId userName s) : Served ids (.getUserByUserName region userPoolId userName) s := by
  obtain ⟨reply, hreply, houtcome, hmirrors⟩ := fetch_readFound (fun oid u => { u with oid := oid })
    (str "Get cognito user by user name failed, userName: " ++ userName)
    (CognitoMongoDb.notFound "user not found ") h.users
    (selects_user region userPoolId userName) (fun _ _ => rfl) reads_users hsame fun _ _ => rfl
  have hmongo : mongoCall (ids.collection s.calls) s.right (.getUserByUserName region userPoolId userName) =
      some (reply, s.right) := by
    rw [mongoCall, CognitoMongoDb.getUserByUserName, hreply]
    rfl
  exact served hmongo (houtcome.mono fun _ _ => And.left) ⟨h.succ.userPools, hmirrors, h.succ.groups⟩

theorem listUsers_eq (db : CognitoMemoryDb) (region userPoolId : Str) :
    db.listUsers region userPoolId = db.users.values.filter fun u =>
      region = [] ∨ u.region = region ∧ (userPoolId = [] ∨ u.userPoolId = userPoolId) := by
  unfold CognitoMemoryDb.listUsers
  by_cases hregion : region = []
  · simp [hregion]
  · by_cases hpool : userPoolId = []
    · simp [hregion, hpool]
    · simp [hregion, hpool]

theorem selects_users (region userPoolId : Str) :
    userKeeping.Selects (CognitoMongoDb.poolQuery region userPoolId) fun u =>
      region = [] ∨ u.region = region ∧ (userPoolId = [] ∨ u.userPoolId = userPoolId) :=
  selects_pool (fun _ oid _ hwrite => (user_elements hwrite oid).1)
    (fun _ oid _ hwrite => (user_elements hwrite oid).2.1) region userPoolId

theorem listUsers_served (h : Sound ids s) (region userPoolId : Str) : Served ids (.listUsers region userPoolId) s := by
  obtain ⟨users, hread, hperm⟩ := h.users.find (selects_users region userPoolId) (fun _ _ => rfl) reads_users
  have hmongo : mongoCall (ids.collection s.calls) s.right (.listUsers region userPoolId) =
      some (users, s.right) := by
    rw [mongoCall, CognitoMongoDb.listUsers, hread]
    rfl
  refine served_reading h hmongo rfl ?_
  rw [memoryCall, listUsers_eq]
  exact hperm.symm

/-- The pool makes no difference when the region has no users outside it. -/
theorem countUsers_iff (h : Sound ids s) (region userPoolId : Str) :
    s.left.countUsers region [] = s.right.countUsers region userPoolId ↔
      Conforms (.countUsers region userPoolId) s := by
  have hcount : s.right.countUsers region userPoolId = s.left.users.values.countP fun u =>
      region = [] ∨ u.region = region ∧ (userPoolId = [] ∨ u.userPoolId = userPoolId) :=
    h.users.countDocuments (selects_users region userPoolId) fun _ _ => rfl
  rw [CognitoMemoryDb.countUsers, listUsers_eq, hcount, ← List.countP_eq_length_filter]
  by_cases hregion : region = []
  · simp [Conforms, hregion]
  · by_cases hpool : userPoolId = []
    · simp [Conforms, hpool]
    · have hmine : (s.left.users.values.countP fun u => u.region = region ∧ u.userPoolId = userPoolId) =
          (s.left.users.values.filter fun u => u.region = region).countP fun u => u.userPoolId = userPoolId := by
        rw [List.countP_filter]
        exact List.countP_congr fun u _ => by simp [and_comm]
      simp only [hregion, hpool, false_or, true_or, and_true]
      rw [hmine, List.countP_eq_length_filter, eq_comm, List.countP_eq_length]
      simp [Conforms, hregion, hpool]

theorem countUsers_served (h : Sound ids s) {region userPoolId : Str}
    (hfit : Conforms (.countUsers region userPoolId) s) : Served ids (.countUsers region userPoolId) s :=
  served_reading h rfl rfl ((countUsers_iff h region userPoolId).mpr hfit)

theorem listUsersInGroup_served (h : Sound ids s) (region userPoolId groupName : Str) :
    Served ids (.listUsersInGroup region userPoolId groupName) s := by
  have hplain : ∀ u ∈ s.left.users.values,
      decide (u.plain.region = region ∧ u.plain.userPoolId = userPoolId ∧
        u.plain.groups.any fun g => g.groupName = groupName) =
      decide (u.region = region ∧ u.userPoolId = userPoolId ∧ u.groups.any fun g => g.groupName = groupName) := by
    intro u _
    rw [User.plain, List.any_map]
    rfl
  obtain ⟨users, hread, hperm⟩ := h.users.find (selects_usersInGroup region userPoolId groupName) hplain reads_users
  have hmongo : mongoCall (ids.collection s.calls) s.right (.listUsersInGroup region userPoolId groupName) =
      some (users, s.right) := by
    rw [mongoCall, CognitoMongoDb.listUsersInGroup, hread]
    rfl
  exact served_reading h hmongo rfl hperm.symm

/-- A user that neither store has is not updated. -/
theorem updateUser_missing (h : Sound ids s) {user : User} {fields : Document} (hfields : user.toDocument = some fields)
    (hfind : s.left.findUser user.region user.userPoolId user.userName = none) :
    mongoCall (ids.collection s.calls) s.right (.updateUser user) =
      some (.error (CognitoMongoDb.notFound "user not found "), s.right) := by
  obtain ⟨hreplace, hreply⟩ := readFound_not_replaced fields User.fromDocument
    (CognitoMongoDb.notFound "user not found ") h.users
    (selects_user user.region user.userPoolId user.userName) (fun _ _ => rfl) hfind
  rw [mongoCall, CognitoMongoDb.updateUser, hfields]
  change (CognitoMongoDb.getUserByUserName { s.right with users := _ } _ _ _).bind _ = _
  rw [hreplace, CognitoMongoDb.getUserByUserName, hreply]
  rfl

theorem userExists_of_found {db : CognitoMemoryDb} {region userPoolId userName : Str} {it : Str × User}
    (hfind : db.findUser region userPoolId userName = some it) : db.userExists region userPoolId userName = true := by
  rw [CognitoMemoryDb.userExists, hfind]
  rfl

theorem updateUser_served (h : Sound ids s) {user : User} (hfit : Conforms (.updateUser user) s) :
    Served ids (.updateUser user) s := by
  obtain ⟨hsame, hfit⟩ := hfit
  rcases hfind : s.left.findUser user.region user.userPoolId user.userName with _ | ⟨oid, old⟩
  · have hnames : ∀ a ∈ user.userAttributes, 0 ∉ a.name := by
      rw [CognitoMemoryDb.userExists, hfind] at hfit
      exact hfit
    have hmongo := updateUser_missing h (if_pos hnames) hfind
    refine served hmongo ?_ ?_
    · rw [memoryCall, CognitoMemoryDb.updateUser, hfind]
      trivial
    · rw [memoryCall, CognitoMemoryDb.updateUser, hfind]
      exact h.succ
  · have hstorable : user.Storable := by
      rwa [if_pos (userExists_of_found hfind)] at hfit
    obtain ⟨fields, hfields⟩ := hstorable.toDocument
    obtain ⟨w, hw, hplain, hmirrors⟩ := readFound_replaced (e := CognitoMongoDb.notFound "user not found ")
      h.users (selects_user user.region user.userPoolId user.userName) (fun _ _ => rfl) reads_users hfind hsame
      hstorable.plain (user.toDocument_plain.trans hfields) (decide_eq_true ⟨rfl, rfl, rfl⟩)
    have hmongo : mongoCall (ids.collection s.calls) s.right (.updateUser user) = some (.ok w, { s.right with
        users := s.right.users.replaceOne (CognitoMongoDb.userQuery user.region user.userPoolId user.userName)
          fields }) := by
      rw [mongoCall, CognitoMongoDb.updateUser, hfields]
      change (CognitoMongoDb.readFound _ _ _).bind _ = _
      rw [hw]
      rfl
    refine served hmongo ?_ ?_
    · rw [memoryCall, CognitoMemoryDb.updateUser, hfind]
      exact hplain
    · rw [memoryCall, CognitoMemoryDb.updateUser, hfind]
      exact ⟨h.succ.userPools, hmirrors, h.succ.groups⟩

theorem deleteUser_served (h : Sound ids s) (user : User) : Served ids (.deleteUser user) s := by
  have hdelete := h.succ.users.deleteMany (selects_user user.region user.userPoolId user.userName) fun _ _ => rfl
  exact served rfl rfl ⟨h.succ.userPools, hdelete, h.succ.groups⟩

/-! #### Groups -/

theorem groupExists_served (h : Sound ids s) (region groupName : Str) : Served ids (.groupExists region groupName) s :=
  served_reading h rfl rfl (h.groups.findIf_isSome (selects_groupName region groupName) fun _ _ => rfl)

theorem getGroupByGroupName_served (h : Sound ids s) {region userPoolId groupName : Str}
    (hsame : SameGroup region userPoolId groupName s) :
    Served ids (.getGroupByGroupName region userPoolId groupName) s := by
  obtain ⟨reply, hreply, houtcome, hmirrors⟩ := fetch_readFound (fun oid g => { g with oid := oid })
    (str "Get cognito group by group name failed, groupName: " ++ groupName)
    (CognitoMongoDb.notFound "group not found ") h.groups (selects_group region userPoolId groupName)
    (fun _ _ => rfl) reads_groups hsame fun _ _ => rfl
  have hmongo : mongoCall (ids.collection s.calls) s.right (.getGroupByGroupName region userPoolId groupName) =
      some (reply, s.right) := by
    rw [mongoCall, CognitoMongoDb.getGroupByGroupName, hreply]
    rfl
  exact served hmongo (houtcome.mono fun _ _ => And.left) ⟨h.succ.userPools, h.succ.users, hmirrors⟩

theorem createGroup_served (h : Sound ids s) (group : Group) : Served ids (.createGroup group) s := by
  obtain ⟨w, hw, hplain, hmirrors⟩ := fetch_created (v := group) (e := CognitoMongoDb.notFound "Cognito not found ")
    (fun _ g => g) h.groups reads_groups group.plain_plain (congrArg some group.toDocument_plain) fun _ _ => rfl
  have hmongo : mongoCall (ids.collection s.calls) s.right (.createGroup group) = some (.ok w, { s.right with
      groups := s.right.groups.insertOne (ids.collection s.calls) group.toDocument }) := by
    rw [mongoCall, CognitoMongoDb.createGroup, CognitoMongoDb.getGroupById, hw]
    rfl
  exact served hmongo hplain ⟨h.succ.userPools, h.succ.users, hmirrors⟩

theorem listGroups_eq (db : CognitoMemoryDb) (region userPoolId : Str) :
    db.listGroups region userPoolId = db.groups.values.filter fun g =>
      region = [] ∨ g.region = region ∧ (userPoolId = [] ∨ g.userPoolId = userPoolId) := by
  unfold CognitoMemoryDb.listGroups
  by_cases hregion : region = []
  · simp [hregion]
  · by_cases hpool : userPoolId = []
    · simp [hregion, hpool]
    · simp [hregion, hpool]

theorem listGroups_served (h : Sound ids s) (region userPoolId : Str) :
    Served ids (.listGroups region userPoolId) s := by
  have hselects : groupKeeping.Selects (CognitoMongoDb.poolQuery region userPoolId) fun g =>
      region = [] ∨ g.region = region ∧ (userPoolId = [] ∨ g.userPoolId = userPoolId) :=
    selects_pool (fun _ _ _ hwrite => by obtain rfl := Option.some.inj hwrite; rfl)
      (fun _ _ _ hwrite => by obtain rfl := Option.some.inj hwrite; rfl) region userPoolId
  obtain ⟨groups, hread, hperm⟩ := h.groups.find hselects (fun _ _ => rfl) reads_groups
  have hmongo : mongoCall (ids.collection s.calls) s.right (.listGroups region userPoolId) =
      some (groups, s.right) := by
    rw [mongoCall, CognitoMongoDb.listGroups, hread]
    rfl
  refine served_reading h hmongo rfl ?_
  rw [memoryCall, listGroups_eq]
  exact hperm.symm

theorem deleteGroup_served (h : Sound ids s) (region userPoolId groupName : Str) :
    Served ids (.deleteGroup region userPoolId groupName) s := by
  have hdelete := h.succ.groups.deleteMany (selects_group region userPoolId groupName) fun _ _ => rfl
  exact served rfl rfl ⟨h.succ.userPools, h.succ.users, hdelete⟩

/-- A call that conforms does the same in both backends. -/
theorem served_of_conforms {c : CognitoCall} (h : Sound ids s) (hfit : Conforms c s) : Served ids c s := by
  cases c with
  | userPoolNameExists region name => exact userPoolNameExists_served h region name
  | userPoolExists userPoolId => exact userPoolExists_served h userPoolId
  | createUserPool userPool => exact createUserPool_served h userPool
  | getUserPoolByUserPoolId userPoolId => exact getUserPoolByUserPoolId_served h hfit
  | getUserPoolByRegionName region name => exact getUserPoolByRegionName_served h hfit
  | updateUserPool userPool => exact updateUserPool_served h hfit
  | listUserPools region => exact listUserPools_served h region
  | countUserPools region => exact countUserPools_served h region
  | deleteUserPool userPoolId => exact deleteUserPool_served h userPoolId
  | userExists region userPoolId userName => exact userExists_served h region userPoolId userName
  | createUser user => exact createUser_served h hfit
  | getUserByUserName region userPoolId userName => exact getUserByUserName_served h hfit
  | countUsers region userPoolId => exact countUsers_served h hfit
  | listUsers region userPoolId => exact listUsers_served h region userPoolId
  | listUsersInGroup region userPoolId groupName => exact listUsersInGroup_served h region userPoolId groupName
  | updateUser user => exact updateUser_served h hfit
  | deleteUser user => exact deleteUser_served h user
  | groupExists region groupName => exact groupExists_served h region groupName
  | getGroupByGroupName region userPoolId groupName => exact getGroupByGroupName_served h hfit
  | createGroup group => exact createGroup_served h group
  | listGroups region userPoolId => exact listGroups_served h region userPoolId
  | deleteGroup region userPoolId groupName => exact deleteGroup_served h region userPoolId groupName

end Calls

/-! ### Calls that do not conform -/

/-- Both backends answer the call, with the same result, and hold the same records afterwards. -/
def Agrees (ids : ObjectIds) (c : CognitoCall) (s : Backends) : Prop :=
  Twin.Agrees (memoryStore ids) (mongoStore ids) CognitoCall.SameReply StoresAgree c s

section Converse

variable {ids : ObjectIds} {s : Backends}

/-- What both answered. -/
theorem Agrees.answers {c : CognitoCall} (h : Agrees ids c s) :
    ∃ r, mongoCall (ids.collection s.calls) s.right c = some r ∧
      c.SameReply (memoryCall (ids.map s.calls) s.left c).1 r.1 ∧
      StoresAgree (memoryCall (ids.map s.calls) s.left c).2 r.2 := by
  obtain ⟨⟨left, right⟩, hboth, hreply, hstores⟩ := h
  obtain ⟨hleft, hright⟩ := Twin.both_eq_some hboth
  obtain rfl := Option.some.inj hleft
  exact ⟨right, hright, hreply, hstores⟩

theorem getUserPoolByUserPoolId_conforms {userPoolId : Str} (h : Agrees ids (.getUserPoolByUserPoolId userPoolId) s) :
    SameUserPoolId userPoolId s := by
  obtain ⟨r, hmongo, hreply, -⟩ := h.answers
  obtain ⟨reply, hread, rfl⟩ := Option.map_eq_some_iff.mp hmongo
  exact sameFirst_of_outcomes (fun oid (p : UserPool) => { p with oid := oid }) hread (fun _ _ => rfl) hreply

theorem getUserPoolByRegionName_conforms {region name : Str} (h : Agrees ids (.getUserPoolByRegionName region name) s) :
    SameUserPool region name s := by
  obtain ⟨r, hmongo, hreply, -⟩ := h.answers
  obtain ⟨reply, hread, rfl⟩ := Option.map_eq_some_iff.mp hmongo
  exact sameFirst_of_outcomes (fun oid (p : UserPool) => { p with oid := oid }) hread (fun _ _ => rfl) hreply

theorem getUserByUserName_conforms {region userPoolId userName : Str}
    (h : Agrees ids (.getUserByUserName region userPoolId userName) s) : SameUser region userPoolId userName s := by
  obtain ⟨r, hmongo, hreply, -⟩ := h.answers
  obtain ⟨reply, hread, rfl⟩ := Option.map_eq_some_iff.mp hmongo
  exact sameFirst_of_outcomes (fun oid (u : User) => { u with oid := oid }) hread (fun _ _ => rfl) hreply

theorem getGroupByGroupName_conforms {region userPoolId groupName : Str}
    (h : Agrees ids (.getGroupByGroupName region userPoolId groupName) s) :
    SameGroup region userPoolId groupName s := by
  obtain ⟨r, hmongo, hreply, -⟩ := h.answers
  obtain ⟨reply, hread, rfl⟩ := Option.map_eq_some_iff.mp hmongo
  exact sameFirst_of_outcomes (fun oid (g : Group) => { g with oid := oid }) hread (fun _ _ => rfl) hreply

theorem updateUserPool_conforms {userPool : UserPool} (hs : Sound ids s) (h : Agrees ids (.updateUserPool userPool) s) :
    SameUserPool userPool.region userPool.name s := by
  obtain ⟨r, hmongo, -, hstores⟩ := h.answers
  obtain ⟨reply, -, hmongo⟩ := Option.bind_eq_some_iff.mp hmongo
  obtain rfl := Option.some.inj hmongo
  have hselects := selects_userPool userPool.region userPool.name
  rcases hfind : s.left.userPools.findIf fun _ p => p.region = userPool.region ∧ p.name = userPool.name with
    _ | ⟨oid, old⟩
  · exact sameFirst_none hs.userPools hselects (fun _ _ => rfl) hfind
  · rw [memoryCall, CognitoMemoryDb.updateUserPool, hfind] at hstores
    exact sameFirst_of_replaced hs.userPools hselects (fun _ _ => rfl) reads_userPools hfind userPool.plain_plain
      (congrArg some userPool.toDocument_plain) hstores.userPools

/-- A user that is read back is one that loses nothing. -/
theorem storable_of_read {user w : User} {fields : Document} {oid : Str} (hfields : user.toDocument = some fields)
    (hread : User.fromDocument ((Collection.idName, .oid oid) :: fields) = some w) (hplain : user.plain = w.plain) :
    user.Storable := by
  rw [User.document_read hfields] at hread
  obtain ⟨hattributes, hw⟩ := Option.ite_none_right_eq_some.mp hread
  obtain rfl := Option.some.inj hw
  exact ⟨hattributes, congrArg User.password hplain⟩

theorem createUser_conforms {user : User} (hs : Sound ids s) (h : Agrees ids (.createUser user) s) :
    user.Storable := by
  obtain ⟨r, hmongo, hreply, -⟩ := h.answers
  obtain ⟨fields, hfields, hmongo⟩ := Option.bind_eq_some_iff.mp hmongo
  obtain ⟨reply, hread, hmongo⟩ := Option.bind_eq_some_iff.mp hmongo
  obtain rfl := Option.some.inj hmongo
  rw [CognitoMongoDb.getUserById, hs.users.findById_insertOne] at hread
  obtain ⟨w, hw, rfl⟩ := Option.map_eq_some_iff.mp hread
  rw [memoryCall, createUser_eq] at hreply
  exact storable_of_read hfields hw hreply

theorem updateUser_conforms {user : User} (hs : Sound ids s) (h : Agrees ids (.updateUser user) s) :
    Conforms (.updateUser user) s := by
  obtain ⟨r, hmongo, hreply, hstores⟩ := h.answers
  obtain ⟨fields, hfields, hmongo⟩ := Option.bind_eq_some_iff.mp hmongo
  obtain ⟨reply, hread, hmongo⟩ := Option.bind_eq_some_iff.mp hmongo
  obtain rfl := Option.some.inj hmongo
  have hselects := selects_user user.region user.userPoolId user.userName
  rcases hfind : s.left.findUser user.region user.userPoolId user.userName with _ | ⟨oid, old⟩
  · refine ⟨sameFirst_none hs.users hselects (fun _ _ => rfl) hfind, ?_⟩
    rw [CognitoMemoryDb.userExists, hfind]
    exact (Option.ite_none_right_eq_some.mp hfields).1
  · rcases hs.users.findOne hselects (fun _ _ => rfl) with ⟨hnone, -⟩ | ⟨_, _, doc, _, -, hdoc, -⟩
    · cases hnone.symm.trans hfind
    obtain ⟨id, hagain⟩ := findOne_replaced hs.users hselects (fun _ _ => rfl) hdoc fun oid =>
      (user_meets hfields oid _ _ _).trans (decide_eq_true ⟨rfl, rfl, rfl⟩)
    have hread' : CognitoMongoDb.readFound User.fromDocument (CognitoMongoDb.notFound "user not found ")
        ((s.right.users.replaceOne (CognitoMongoDb.userQuery user.region user.userPoolId user.userName)
          fields).findOne (CognitoMongoDb.userQuery user.region user.userPoolId user.userName)) = some reply := hread
    rw [hagain] at hread'
    obtain ⟨w, hw, rfl⟩ := Option.map_eq_some_iff.mp hread'
    rw [memoryCall, CognitoMemoryDb.updateUser, hfind] at hreply hstores
    have hstorable := storable_of_read hfields hw hreply
    refine ⟨sameFirst_of_replaced hs.users hselects (fun _ _ => rfl) reads_users hfind hstorable.plain
      (user.toDocument_plain.trans hfields) hstores.users, ?_⟩
    rwa [if_pos (userExists_of_found hfind)]

theorem conforms_of_agrees {c : CognitoCall} (hs : Sound ids s) (h : Agrees ids c s) : Conforms c s := by
  cases c with
  | getUserPoolByUserPoolId userPoolId => exact getUserPoolByUserPoolId_conforms h
  | getUserPoolByRegionName region name => exact getUserPoolByRegionName_conforms h
  | updateUserPool userPool => exact updateUserPool_conforms hs h
  | createUser user => exact createUser_conforms hs h
  | getUserByUserName region userPoolId userName => exact getUserByUserName_conforms h
  | updateUser user => exact updateUser_conforms hs h
  | countUsers region userPoolId =>
    obtain ⟨r, hmongo, hreply, -⟩ := h.answers
    obtain rfl := Option.some.inj hmongo
    exact (countUsers_iff hs region userPoolId).mp hreply
  | getGroupByGroupName region userPoolId groupName => exact getGroupByGroupName_conforms h
  | userPoolNameExists | userPoolExists | createUserPool | listUserPools | countUserPools | deleteUserPool
  | userExists | listUsers | listUsersInGroup | deleteUser | groupExists | createGroup | listGroups | deleteGroup =>
    trivial

end Converse

/-! ### Runs -/

theorem backends_judged (ids : ObjectIds) : Twin.Judged (memoryStore ids) (mongoStore ids) CognitoCall.SameReply
    StoresAgree (Sound ids) Conforms where
  serves := served_of_conforms
  conforms := conforms_of_agrees
  alike h := ⟨sameContents_of_mirrors h.userPools reads_userPools, sameContents_of_mirrors h.users reads_users,
    sameContents_of_mirrors h.groups reads_groups⟩

theorem sound_empty (ids : ObjectIds) : Sound ids { left := {}, right := {} } := ⟨.nil, .nil, .nil⟩

/-- From empty stores the backends agree along a run of calls exactly when every call conforms, and then the run is
    answered to its end and leaves the same user pools, users and groups. -/
theorem stores_agree_iff (ids : ObjectIds) (calls : List CognitoCall) :
    (Along (Twin.next (memoryStore ids) (mongoStore ids)) (Agrees ids) calls { left := {}, right := {} } ↔
      Along (Twin.next (memoryStore ids) (mongoStore ids)) Conforms calls { left := {}, right := {} }) ∧
    (Along (Twin.next (memoryStore ids) (mongoStore ids)) Conforms calls { left := {}, right := {} } →
      ∃ s, steps (Twin.next (memoryStore ids) (mongoStore ids)) calls { left := {}, right := {} } = some s ∧
        StoresAgree s.left s.right) :=
  (backends_judged ids).agrees_iff (sound_empty ids)

/-- A pool with a user, listed and counted. -/
example (ids : ObjectIds) (pool : UserPool) (user : User) (huser : user.Storable) :
    Along (Twin.next (memoryStore ids) (mongoStore ids)) Conforms
      [.createUserPool pool, .createUser user, .listUsers (str "eu") pool.userPoolId, .countUsers (str "eu") []]
      { left := {}, right := {} } :=
  ⟨trivial, fun _ _ => ⟨huser, fun _ _ => ⟨trivial, fun _ _ => ⟨fun _ hne => absurd rfl hne, fun _ _ => trivial⟩⟩⟩⟩

end AwsMock.Cognito
