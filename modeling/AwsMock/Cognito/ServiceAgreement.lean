import AwsMock.Cognito.BackendAgreement
import AwsMock.Cognito.Responses
import AwsMock.Lib.Edits

/-!
# The Cognito service on either backend

The requests to `CognitoService` come to the same responses on the in-memory store and on the document database. The
service makes only calls that conform: the names it has looked up before it creates a record keep every record the only
one of its name, and no request gives a user attributes or a password.
-/

namespace AwsMock.Cognito

open Lib OrderedMap

/-! ### Responses -/

def Dto.UserPool.plain (p : Dto.UserPool) : Dto.UserPool :=
  { p with created := inMillis p.created, modified := inMillis p.modified }

def Dto.Group.plain (g : Dto.Group) : Dto.Group :=
  { g with created := inMillis g.created, modified := inMillis g.modified }

def Dto.User.plain (u : Dto.User) : Dto.User :=
  { u with groups := u.groups.map Dto.Group.plain, created := inMillis u.created, modified := inMillis u.modified }

/-- The same response up to ids of records, to less than a millisecond and to the order of a list. -/
def Response.Same : Response → Response → Prop
  | .userPools ps, .userPools ps' => (ps.map Dto.UserPool.plain).Perm (ps'.map Dto.UserPool.plain)
  | .userPool p, .userPool p' => p.plain = p'.plain
  | .users us, .users us' => (us.map User.plain).Perm (us'.map User.plain)
  | .usersInGroup us, .usersInGroup us' => (us.map Dto.User.plain).Perm (us'.map Dto.User.plain)
  | .group g, .group g' => g.plain = g'.plain
  | .groups gs, .groups gs' => (gs.map Dto.Group.plain).Perm (gs'.map Dto.Group.plain)
  | response, response' => response = response'

/-- A transfer object has no more than the entity has without its id. -/
theorem perm_map {α β : Type} {f : α → β} {plain : α → α} {plain' : β → β} (hf : ∀ a, plain' (f a) = f (plain a))
    {as as' : List α} (h : (as.map plain).Perm (as'.map plain)) :
    ((as.map f).map plain').Perm ((as'.map f).map plain') := by
  have hmap : ∀ as : List α, (as.map f).map plain' = (as.map plain).map f := by
    intro as
    rw [List.map_map, List.map_map]
    exact List.map_congr_left fun a _ => hf a
  rw [hmap, hmap]
  exact h.map f

theorem mapUserPool_plain (p : UserPool) : (mapUserPool p).plain = mapUserPool p.plain := rfl

theorem mapGroupDto_plain (g : Group) : (mapGroupDto g).plain = mapGroupDto g.plain := rfl

theorem mapUser_plain (u : User) : (mapUser u).plain = mapUser u.plain := by
  simp [mapUser, Dto.User.plain, User.plain, Function.comp_def, mapGroupDto, Dto.Group.plain, Group.plain]

/-! ### Names -/

/-- The name of a user pool in its region, and its id. -/
def poolName (p : UserPool) : (Str × Str) × Str := ((p.region, p.name), p.userPoolId)

def userKey (u : User) : Str × Str × Str := (u.region, u.userPoolId, u.userName)

def groupKey (g : Group) : Str × Str × Str := (g.region, g.userPoolId, g.groupName)

/-- An id that the `i`-th call drew for a user pool. -/
def PoolIdOf (rt : ServiceRuntime) (i : Nat) (userPoolId : Str) : Prop :=
  ∃ region, userPoolId = createCognitoUserPoolId region (rt.randomString i)

theorem PoolIdOf.inj {rt : ServiceRuntime} {i j : Nat} {userPoolId : Str} (h : PoolIdOf rt i userPoolId)
    (h' : PoolIdOf rt j userPoolId) : i = j := by
  obtain ⟨region, hid⟩ := h
  obtain ⟨region', hid'⟩ := h'
  exact rt.userPoolId_inj (hid.symm.trans hid')

/-- Every record is the only one of its name; the ids of the user pools are from the first `n` calls. -/
structure Named (rt : ServiceRuntime) (n : Nat) (db : CognitoMemoryDb) : Prop where
  poolNames : UniqueBy (fun p => (poolName p).1) db.userPools
  poolIds : UniqueBy (fun p => (poolName p).2) db.userPools
  drawn : ∀ oid p, db.userPools.get? oid = some p → ∃ i < n, PoolIdOf rt i (poolName p).2
  users : UniqueBy userKey db.users
  groups : UniqueBy groupKey db.groups

/-- A value whose name no value has. -/
def NewName {α ν : Type} (name : α → ν) (m : OrderedMap Str α) (v : α) : Prop :=
  ∀ k v', m.get? k = some v' → name v' ≠ name v

/-- A user pool whose name is new, with an id that is drawn now. -/
def NewPool (rt : ServiceRuntime) (n n' : Nat) (m : OrderedMap Str UserPool) (p : UserPool) : Prop :=
  NewName (fun p => (poolName p).1) m p ∧ ∃ i, n ≤ i ∧ i < n' ∧ PoolIdOf rt i p.userPoolId

section Names

variable {rt : ServiceRuntime} {n n' : Nat} {db : CognitoMemoryDb}

theorem Named.mono (h : Named rt n db) (hn : n ≤ n') : Named rt n' db where
  poolNames := h.poolNames
  poolIds := h.poolIds
  drawn oid p hp := by
    obtain ⟨i, hi, hid⟩ := h.drawn oid p hp
    exact ⟨i, Nat.lt_of_lt_of_le hi hn, hid⟩
  users := h.users
  groups := h.groups

theorem Named.editPools {userPools : OrderedMap Str UserPool} (h : Named rt n db) (hn : n ≤ n')
    (hedit : Edit poolName (NewPool rt n n' db.userPools) db.userPools userPools) :
    Named rt n' { db with userPools := userPools } where
  poolNames := hedit.uniqueBy Prod.fst h.poolNames fun _ hnew => hnew.1
  poolIds := hedit.uniqueBy_drawn Prod.snd (PoolIdOf rt) PoolIdOf.inj h.poolIds h.drawn fun _ hnew => hnew.2
  drawn := hedit.drawn Prod.snd (PoolIdOf rt) hn h.drawn fun _ hnew => hnew.2
  users := h.users
  groups := h.groups

theorem Named.editUsers {users : OrderedMap Str User} (h : Named rt n db)
    (hedit : Edit userKey (NewName userKey db.users) db.users users) : Named rt n { db with users := users } :=
  { h with users := hedit.uniqueBy id h.users fun _ hnew => hnew }

theorem Named.editGroups {groups : OrderedMap Str Group} (h : Named rt n db)
    (hedit : Edit groupKey (NewName groupKey db.groups) db.groups groups) :
    Named rt n { db with groups := groups } :=
  { h with groups := hedit.uniqueBy id h.groups fun _ hnew => hnew }

/-- A lookup writes the id into the record that it finds. -/
theorem edit_fetch {α ν : Type} {name : α → ν} {new : α → Prop} {withOid : Str → α → α} (m : OrderedMap Str α)
    (missing : Str) (p : Str → α → Bool) (hname : ∀ oid v, name (withOid oid v) = name v) :
    Edit name new m (fetch withOid m missing (m.findIf p)).2 := by
  rcases hfind : m.findIf p with _ | ⟨oid, v⟩
  · exact .same
  · exact .replace oid v _ (findIf_some hfind).1 (hname oid v)

/-- The name of a user is the same in its document. -/
theorem key_of_plain {user user' : User} (h : user.plain = user'.plain) :
    user.region = user'.region ∧ user.userPoolId = user'.userPoolId ∧ user.userName = user'.userName :=
  ⟨(congrArg User.region h :), (congrArg User.userPoolId h :), (congrArg User.userName h :)⟩

end Names

/-! ### Both stores -/

/-- Since the request began at the `n`-th call the stores have been in step, and every record has a name of its own. -/
structure Inv (rt : ServiceRuntime) (n : Nat) (w : World) (w' : MongoWorld) : Prop where
  calls : w'.calls = w.calls
  started : n ≤ w.calls
  sound : Sound rt.ids { left := w.db, right := w'.db, calls := w.calls }
  named : Named rt n w.db

section Stores

variable {rt : ServiceRuntime} {n n' : Nat} {w : World} {w' : MongoWorld}

theorem Inv.sameUserPoolId (h : Inv rt n w w') (userPoolId : Str) :
    SameUserPoolId userPoolId { left := w.db, right := w'.db, calls := w.calls } :=
  sameFirst_of_unique h.sound.userPools (selects_userPoolId userPoolId) (fun _ _ => rfl) reads_userPools
    fun k k' p p' hp hp' heq heq' =>
      h.named.poolIds k k' p p' hp hp' ((of_decide_eq_true heq).trans (of_decide_eq_true heq').symm)

theorem Inv.sameUserPool (h : Inv rt n w w') (region name : Str) :
    SameUserPool region name { left := w.db, right := w'.db, calls := w.calls } := by
  refine sameFirst_of_unique h.sound.userPools (selects_userPool region name) (fun _ _ => rfl) reads_userPools
    fun k k' p p' hp hp' heq heq' => h.named.poolNames k k' p p' hp hp' ?_
  obtain ⟨hregion, hname⟩ := of_decide_eq_true heq
  obtain ⟨hregion', hname'⟩ := of_decide_eq_true heq'
  simp only [poolName, hregion, hname, hregion', hname']

theorem Inv.sameUser (h : Inv rt n w w') (region userPoolId userName : Str) :
    SameUser region userPoolId userName { left := w.db, right := w'.db, calls := w.calls } := by
  refine sameFirst_of_unique h.sound.users (selects_user region userPoolId userName) (fun _ _ => rfl) reads_users
    fun k k' u u' hu hu' heq heq' => h.named.users k k' u u' hu hu' ?_
  obtain ⟨hregion, hpool, hname⟩ := of_decide_eq_true heq
  obtain ⟨hregion', hpool', hname'⟩ := of_decide_eq_true heq'
  simp only [userKey, hregion, hpool, hname, hregion', hpool', hname']

theorem Inv.sameGroup (h : Inv rt n w w') (region userPoolId groupName : Str) :
    SameGroup region userPoolId groupName { left := w.db, right := w'.db, calls := w.calls } := by
  refine sameFirst_of_unique h.sound.groups (selects_group region userPoolId groupName) (fun _ _ => rfl) reads_groups
    fun k k' g g' hg hg' heq heq' => h.named.groups k k' g g' hg hg' ?_
  obtain ⟨hregion, hpool, hname⟩ := of_decide_eq_true heq
  obtain ⟨hregion', hpool', hname'⟩ := of_decide_eq_true heq'
  simp only [groupKey, hregion, hpool, hname, hregion', hpool', hname']

/-- The documents hold the users without attributes and passwords only. -/
theorem Inv.storable (h : Inv rt n w w') {oid : Str} {user : User} (huser : w.db.users.get? oid = some user) :
    user.Storable := by
  have hmem := List.mem_map_of_mem (f := User.plain) (mem_values.mpr ⟨oid, huser⟩)
  obtain ⟨-, hstorable⟩ := h.sound.users.holds.keeps_of_mem hmem
  exact ⟨hstorable.userAttributes, hstorable.password⟩

/-- What a call replies on the two stores, from states in `S`. -/
abbrev Answered (rt : ServiceRuntime) (S : World → MongoWorld → Prop) (c c' : CognitoCall)
    (P : c.Reply → c'.Reply → Prop) (Q : c.Reply → World → MongoWorld → Prop) : Prop :=
  Prog.Replies (exec rt.toRuntime) (mongoExec rt.ids.collection) S c c' P Q

/-- A call that conforms, of a request that began at the `n`-th call; `T` is what its reply tells of the store. -/
theorem answered_telling {S : World → MongoWorld → Prop} (c : CognitoCall) (T : c.Reply → CognitoMemoryDb → Prop)
    (hn : n' ≤ n + 1)
    (hS : ∀ w w', S w w' → Inv rt n w w' ∧ Conforms c { left := w.db, right := w'.db, calls := w.calls } ∧
      Named rt n' (memoryCall (rt.ids.map w.calls) w.db c).2 ∧
      T (memoryCall (rt.ids.map w.calls) w.db c).1 (memoryCall (rt.ids.map w.calls) w.db c).2) :
    Answered rt S c c c.SameReply fun r w w' => Inv rt n' w w' ∧ T r w.db := by
  intro w w' hw
  obtain ⟨hinv, hfit, hnamed, hT⟩ := hS w w' hw
  obtain ⟨⟨left, right⟩, hboth, hreply, hsound⟩ := served_of_conforms hinv.sound hfit
  obtain ⟨hleft, hright⟩ := Twin.both_eq_some hboth
  obtain rfl := Option.some.inj hleft
  refine ⟨_, (right.1, { db := right.2, calls := w'.calls + 1 }), rfl, ?_, hreply, ⟨?_, ?_, hsound, hnamed⟩, hT⟩
  · rw [mongoExec, hinv.calls]
    exact congrArg (Option.map _) hright
  · exact congrArg (· + 1) hinv.calls
  · exact Nat.le_trans hn (Nat.add_le_add_right hinv.started 1)

theorem answered {S : World → MongoWorld → Prop} (c : CognitoCall) (hn : n' ≤ n + 1)
    (hS : ∀ w w', S w w' → Inv rt n w w' ∧ Conforms c { left := w.db, right := w'.db, calls := w.calls } ∧
      Named rt n' (memoryCall (rt.ids.map w.calls) w.db c).2) :
    Answered rt S c c c.SameReply fun _ w w' => Inv rt n' w w' := by
  refine (answered_telling c (fun _ _ => True) hn fun w w' hw => ?_).weaken (fun _ _ hs => hs) fun _ _ _ hq => hq.1
  obtain ⟨hinv, hfit, hnamed⟩ := hS w w' hw
  exact ⟨hinv, hfit, hnamed, trivial⟩

end Stores

/-! ### The calls of the service -/

section Calls

variable {rt : ServiceRuntime} {n : Nat} {S : World → MongoWorld → Prop}

/-- A call that only reads: what it tells of the store is still so. -/
theorem answered_reading (c : CognitoCall) (hfit : ∀ s, Conforms c s)
    (hread : ∀ oid db, (memoryCall oid db c).2 = db) (hS : ∀ w w', S w w' → Inv rt n w w') :
    Answered rt S c c c.SameReply fun r w w' => Inv rt n w w' ∧ ∃ oid, r = (memoryCall oid w.db c).1 := by
  refine answered_telling c (fun r db => ∃ oid, r = (memoryCall oid db c).1) (Nat.le_succ n) fun w w' hw =>
    ⟨hS w w' hw, hfit _, ?_, rt.ids.map w.calls, ?_⟩
  · rw [hread]
    exact (hS w w' hw).named
  · rw [hread]

theorem answered_createUserPool {userPool : UserPool} (hid : PoolIdOf rt n userPool.userPoolId)
    (hS : ∀ w w', S w w' → Inv rt n w w' ∧ w.db.userPoolNameExists userPool.region userPool.name = false) :
    Answered rt S (.createUserPool userPool) (.createUserPool userPool)
      (CognitoCall.SameReply (.createUserPool userPool)) fun _ w w' => Inv rt (n + 1) w w' := by
  refine answered (.createUserPool userPool) (Nat.le_refl _) fun w w' hw => ?_
  obtain ⟨hinv, habsent⟩ := hS w w' hw
  refine ⟨hinv, trivial, ?_⟩
  rw [memoryCall, createUserPool_eq]
  refine hinv.named.editPools (Nat.le_succ n)
    (.create _ _ ⟨fun k p hp heq => ?_, n, Nat.le_refl n, Nat.lt_succ_self n, hid⟩)
  exact ne_of_not_found habsent hp (Prod.mk.inj heq)

theorem answered_getUserPool (userPoolId : Str) (hS : ∀ w w', S w w' → Inv rt n w w') :
    Answered rt S (.getUserPoolByUserPoolId userPoolId) (.getUserPoolByUserPoolId userPoolId)
      (CognitoCall.SameReply (.getUserPoolByUserPoolId userPoolId))
      fun r w w' => Inv rt n w w' ∧ ∀ p, r = .ok p → ∃ oid, w.db.userPools.get? oid = some p := by
  refine answered_telling (.getUserPoolByUserPoolId userPoolId)
    (fun r db => ∀ p, r = .ok p → ∃ oid, db.userPools.get? oid = some p) (Nat.le_succ n) fun w w' hw => ?_
  have hinv := hS w w' hw
  refine ⟨hinv, hinv.sameUserPoolId userPoolId,
    hinv.named.editPools (Nat.le_refl n) (edit_fetch _ _ _ fun _ _ => rfl), ?_⟩
  intro p hp
  rw [memoryCall, CognitoMemoryDb.getUserPoolByUserPoolId, CognitoMemoryDb.fetchUserPool] at hp ⊢
  rcases hfind : w.db.userPools.findIf fun _ p => decide (p.userPoolId = userPoolId) with _ | ⟨oid, old⟩
  · rw [hfind] at hp
    cases hp
  · rw [hfind] at hp
    obtain rfl := Except.ok.inj hp
    exact ⟨oid, get?_insert_self ..⟩

/-- The record that is replaced is the one that was read. -/
theorem answered_updateUserPool {userPool userPool' : UserPool} (hsame : userPool.plain = userPool'.plain)
    (hS : ∀ w w', S w w' → Inv rt n w w' ∧
      ∃ oid p, w.db.userPools.get? oid = some p ∧ poolName p = poolName userPool) :
    Answered rt S (.updateUserPool userPool) (.updateUserPool userPool')
      (CognitoCall.SameReply (.updateUserPool userPool)) fun _ w w' => Inv rt n w w' := by
  have hmongo : ∀ w', mongoExec rt.ids.collection (.updateUserPool userPool') w' =
      mongoExec rt.ids.collection (.updateUserPool userPool) w' := by
    intro w'
    have hfields : userPool'.toDocument = userPool.toDocument := by
      rw [← userPool.toDocument_plain, hsame, userPool'.toDocument_plain]
    have hregion : userPool'.region = userPool.region := (congrArg UserPool.region hsame).symm
    have hname : userPool'.name = userPool.name := (congrArg UserPool.name hsame).symm
    simp only [mongoExec, mongoCall, CognitoMongoDb.updateUserPool, hfields, hregion, hname]
  intro w w' hw
  obtain ⟨x, y, hx, hy, hreply⟩ := answered (.updateUserPool userPool) (Nat.le_succ n) (fun w w' hw => by
    obtain ⟨hinv, oid, p, hp, hname⟩ := hS w w' hw
    refine ⟨hinv, hinv.sameUserPool _ _, ?_⟩
    rw [memoryCall, CognitoMemoryDb.updateUserPool]
    split
    · next oid' old hfind =>
      obtain ⟨hold, heq⟩ := findIf_some hfind
      have hnames : (poolName old).1 = (poolName userPool).1 := Prod.mk.injEq .. ▸ of_decide_eq_true heq
      obtain rfl : oid = oid' := hinv.named.poolNames oid oid' p old hp hold
        ((congrArg Prod.fst hname).trans hnames.symm)
      exact hinv.named.editPools (Nat.le_refl n) (.replace oid p userPool hp hname.symm)
    · exact hinv.named) w w' hw
  exact ⟨x, y, hx, (hmongo w').trans hy, hreply⟩

theorem answered_deleteUserPool (userPoolId : Str) (hS : ∀ w w', S w w' → Inv rt n w w') :
    Answered rt S (.deleteUserPool userPoolId) (.deleteUserPool userPoolId)
      (CognitoCall.SameReply (.deleteUserPool userPoolId)) fun _ w w' => Inv rt n w w' :=
  answered (.deleteUserPool userPoolId) (Nat.le_succ n) fun w w' hw =>
    ⟨hS w w' hw, trivial, (hS w w' hw).named.editPools (Nat.le_refl n) (.erase _)⟩

theorem answered_createUser {user : User} (hstorable : user.Storable)
    (hS : ∀ w w', S w w' → Inv rt n w w' ∧ w.db.userExists user.region user.userPoolId user.userName = false) :
    Answered rt S (.createUser user) (.createUser user) (CognitoCall.SameReply (.createUser user))
      fun _ w w' => Inv rt n w w' := by
  refine answered (.createUser user) (Nat.le_succ n) fun w w' hw => ?_
  obtain ⟨hinv, habsent⟩ := hS w w' hw
  refine ⟨hinv, hstorable, ?_⟩
  rw [memoryCall, createUser_eq]
  refine hinv.named.editUsers (.create _ _ fun k u hu heq => ?_)
  simp only [userKey, Prod.mk.injEq] at heq
  exact ne_of_not_found habsent hu heq

/-- A user that is read from the map has neither attributes nor a password. -/
theorem answered_getUser (region userPoolId userName : Str) (hS : ∀ w w', S w w' → Inv rt n w w') :
    Answered rt S (.getUserByUserName region userPoolId userName) (.getUserByUserName region userPoolId userName)
      (fun r r' => CognitoCall.SameReply (.getUserByUserName region userPoolId userName) r r' ∧
        ∀ u, r = .ok u → u.Storable) fun _ w w' => Inv rt n w w' := by
  have htelling := answered_telling (.getUserByUserName region userPoolId userName)
    (fun r _ => ∀ u, r = .ok u → u.Storable) (Nat.le_succ n) fun w w' hw => by
      have hinv := hS w w' hw
      refine ⟨hinv, hinv.sameUser region userPoolId userName,
        hinv.named.editUsers (edit_fetch _ _ _ fun _ _ => rfl), ?_⟩
      intro u hu
      rw [memoryCall, CognitoMemoryDb.getUserByUserName, CognitoMemoryDb.fetchUser] at hu
      rcases hfind : w.db.findUser region userPoolId userName with _ | ⟨oid, old⟩
      · rw [hfind] at hu
        cases hu
      · rw [hfind] at hu
        obtain rfl := Except.ok.inj hu
        have hstorable := hinv.storable (findIf_some hfind).1
        exact ⟨hstorable.userAttributes, hstorable.password⟩
  exact (htelling.known fun _ _ _ hq => hq.2).weaken (fun _ _ hs => hs) fun _ _ _ hq => hq.1

theorem answered_updateUser {user user' : User} (hsame : user.plain = user'.plain) (hstorable : user.Storable)
    (hS : ∀ w w', S w w' → Inv rt n w w') :
    Answered rt S (.updateUser user) (.updateUser user') (CognitoCall.SameReply (.updateUser user))
      fun _ w w' => Inv rt n w w' := by
  have hmongo : ∀ w', mongoExec rt.ids.collection (.updateUser user') w' =
      mongoExec rt.ids.collection (.updateUser user) w' := by
    intro w'
    have hfields : user'.toDocument = user.toDocument := by
      rw [← user.toDocument_plain, hsame, user'.toDocument_plain]
    obtain ⟨hregion, hpool, hname⟩ := key_of_plain hsame
    simp only [mongoExec, mongoCall, CognitoMongoDb.updateUser, hfields, hregion, hpool, hname]
  intro w w' hw
  obtain ⟨x, y, hx, hy, hreply⟩ := answered (.updateUser user) (Nat.le_succ n) (fun w w' hw => by
    have hinv := hS w w' hw
    refine ⟨hinv, ⟨hinv.sameUser _ _ _, ?_⟩, ?_⟩
    · split
      · exact hstorable
      · rw [hstorable.userAttributes]
        exact fun a ha => by cases ha
    · rw [memoryCall, CognitoMemoryDb.updateUser]
      split
      · next oid old hfind =>
        obtain ⟨hold, heq⟩ := findIf_some hfind
        have hkey : old.region = user.region ∧ old.userPoolId = user.userPoolId ∧ old.userName = user.userName :=
          of_decide_eq_true heq
        exact hinv.named.editUsers (.replace oid old user hold (by simp only [userKey, hkey]))
      · exact hinv.named) w w' hw
  exact ⟨x, y, hx, (hmongo w').trans hy, hreply⟩

theorem answered_deleteUser {user user' : User} (hsame : user.plain = user'.plain)
    (hS : ∀ w w', S w w' → Inv rt n w w') :
    Answered rt S (.deleteUser user) (.deleteUser user') (CognitoCall.SameReply (.deleteUser user))
      fun _ w w' => Inv rt n w w' := by
  have hmongo : ∀ w', mongoExec rt.ids.collection (.deleteUser user') w' =
      mongoExec rt.ids.collection (.deleteUser user) w' := by
    intro w'
    obtain ⟨hregion, hpool, hname⟩ := key_of_plain hsame
    simp only [mongoExec, mongoCall, CognitoMongoDb.deleteUser, hregion, hpool, hname]
  intro w w' hw
  obtain ⟨x, y, hx, hy, hreply⟩ := answered (.deleteUser user) (Nat.le_succ n) (fun w w' hw =>
    ⟨hS w w' hw, trivial, (hS w w' hw).named.editUsers (.erase _)⟩) w w' hw
  exact ⟨x, y, hx, (hmongo w').trans hy, hreply⟩

theorem answered_createGroup {group : Group}
    (hS : ∀ w w', S w w' → Inv rt n w w' ∧ w.db.groupExists group.region group.groupName = false) :
    Answered rt S (.createGroup group) (.createGroup group) (CognitoCall.SameReply (.createGroup group))
      fun _ w w' => Inv rt n w w' := by
  refine answered (.createGroup group) (Nat.le_succ n) fun w w' hw => ?_
  obtain ⟨hinv, habsent⟩ := hS w w' hw
  refine ⟨hinv, trivial, hinv.named.editGroups (.create _ _ fun k g hg heq => ?_)⟩
  simp only [groupKey, Prod.mk.injEq] at heq
  exact ne_of_not_found habsent hg ⟨heq.1, heq.2.2⟩

theorem answered_getGroup (region userPoolId groupName : Str) (hS : ∀ w w', S w w' → Inv rt n w w') :
    Answered rt S (.getGroupByGroupName region userPoolId groupName) (.getGroupByGroupName region userPoolId groupName)
      (CognitoCall.SameReply (.getGroupByGroupName region userPoolId groupName)) fun _ w w' => Inv rt n w w' :=
  answered (.getGroupByGroupName region userPoolId groupName) (Nat.le_succ n) fun w w' hw =>
    ⟨hS w w' hw, (hS w w' hw).sameGroup region userPoolId groupName,
      (hS w w' hw).named.editGroups (edit_fetch _ _ _ fun _ _ => rfl)⟩

theorem answered_deleteGroup (region userPoolId groupName : Str) (hS : ∀ w w', S w w' → Inv rt n w w') :
    Answered rt S (.deleteGroup region userPoolId groupName) (.deleteGroup region userPoolId groupName)
      (CognitoCall.SameReply (.deleteGroup region userPoolId groupName)) fun _ w w' => Inv rt n w w' :=
  answered (.deleteGroup region userPoolId groupName) (Nat.le_succ n) fun w w' hw =>
    ⟨hS w w' hw, trivial, (hS w w' hw).named.editGroups (.erase _)⟩

end Calls

/-! ### The requests -/

/-- The stores are in step, and every record has a name of its own. -/
def InStep (rt : ServiceRuntime) (w : World) (w' : MongoWorld) : Prop := ∃ n, Inv rt n w w'

/-- A request that begins at the `n`-th call comes to the same result on both stores. -/
abbrev Agreed {α : Type} (rt : ServiceRuntime) (n : Nat) (p : CognitoProg α) (A : α → α → Prop) : Prop :=
  Prog.Corresponds (exec rt.toRuntime) (mongoExec rt.ids.collection) (Inv rt n) p p A (InStep rt)

section Requests

open Prog

variable {rt : ServiceRuntime} {n : Nat}

/-- A request that goes on when a record is there, and fails when it is not. -/
theorem agreed_if {α : Type} {A : α → α → Prop} (c : CognitoCall) (test : c.Reply → Bool)
    (htest : ∀ r r', c.SameReply r r' → test r = test r') (hfit : ∀ s, Conforms c s)
    (hread : ∀ oid db, (memoryCall oid db c).2 = db) {p : CognitoProg α} {e : Error} (hp : Agreed rt n p A) :
    Agreed rt n (call c >>= fun r => if test r = true then p else .throw e) A :=
  corresponds_call (answered_reading c hfit hread fun _ _ h => h) fun r r' hr =>
    corresponds_ite (by rw [htest r r' hr]) (fun _ => hp.weaken (fun _ _ h => h.1) fun _ _ h => h)
      fun _ => corresponds_throw fun _ _ h => ⟨n, h.1⟩

/-- A request that fails when a record is there; otherwise what was looked up still holds when it goes on. -/
theorem agreed_unless {α : Type} {A : α → α → Prop} (c : CognitoCall) (test : c.Reply → Bool)
    (htest : ∀ r r', c.SameReply r r' → test r = test r') (hfit : ∀ s, Conforms c s)
    (hread : ∀ oid db, (memoryCall oid db c).2 = db) {p : CognitoProg α} {e : Error}
    (hp : Corresponds (exec rt.toRuntime) (mongoExec rt.ids.collection)
      (fun w w' => Inv rt n w w' ∧ ∃ oid, test (memoryCall oid w.db c).1 = false) p p A (InStep rt)) :
    Agreed rt n (call c >>= fun r => if test r = true then .throw e else p) A := by
  refine corresponds_call (answered_reading c hfit hread fun _ _ h => h) fun r r' hr =>
    corresponds_ite (by rw [htest r r' hr]) (fun _ => corresponds_throw fun _ _ h => ⟨n, h.1⟩) fun habsent =>
      hp.weaken (fun w w' h => ?_) fun _ _ h => h
  obtain ⟨hinv, oid, rfl⟩ := h
  exact ⟨hinv, oid, Bool.eq_false_of_not_eq_true habsent⟩

/-- A listing. -/
theorem agreed_list {α : Type} {A : α → α → Prop} (c : CognitoCall) (f : c.Reply → α)
    (hf : ∀ r r', c.SameReply r r' → A (f r) (f r')) (hfit : ∀ s, Conforms c s)
    (hread : ∀ oid db, (memoryCall oid db c).2 = db) : Agreed rt n (rethrow (call c >>= fun r => pure (f r))) A :=
  (corresponds_call (answered_reading c hfit hread fun _ _ h => h) fun r r' hr =>
    corresponds_ret (hf r r' hr) fun _ _ h => ⟨n, h.1⟩).mapThrow

theorem createUserPool_agreed (accountId : Str) (request : CreateUserPoolRequest) :
    Agreed rt n (createUserPool accountId (rt.draws n).toDraws request) fun p p' => p.plain = p'.plain := by
  refine agreed_unless (.userPoolNameExists request.region request.name) id (fun _ _ h => h) (fun _ => trivial)
    (fun _ _ => rfl) ?_
  refine (corresponds_call (answered_createUserPool ⟨request.region, rfl⟩ fun w w' h => ?_)
    fun _ _ hsame => corresponds_ofExcept hsame fun _ _ h => ⟨n + 1, h⟩).mapThrow
  obtain ⟨hinv, oid, habsent⟩ := h
  exact ⟨hinv, habsent⟩

/-- The changed user pool has the name and the id of the one that was read, and is alike when that one is. -/
theorem changeUserPool_agreed {userPoolId : Str} {change : UserPool → UserPool}
    (hname : ∀ p, poolName (change p) = poolName p)
    (hchange : ∀ p p' : UserPool, p.plain = p'.plain → (change p).plain = (change p').plain) :
    Agreed rt n (changeUserPool userPoolId change) Response.Same := by
  refine agreed_if (.userPoolExists userPoolId) id (fun _ _ h => h) (fun _ => trivial) (fun _ _ => rfl) ?_
  refine (corresponds_call (answered_getUserPool userPoolId fun _ _ h => h) fun found found' hfound => ?_).mapThrow
  refine corresponds_ofExcept_bind hfound (fun _ _ h => ⟨n, h.1⟩) fun p p' hp hplain => ?_
  refine corresponds_call (answered_updateUserPool (n := n) (hchange p p' hplain) fun w w' h => ?_)
    fun updated updated' hsame => ?_
  · obtain ⟨hinv, hstored⟩ := h
    obtain ⟨oid, hget⟩ := hstored p hp
    exact ⟨hinv, oid, p, hget, (hname p).symm⟩
  · refine corresponds_ofExcept_bind hsame (fun _ _ h => ⟨n, h⟩) fun q q' _ hplain => ?_
    exact corresponds_ret (congrArg (fun p : UserPool => Response.userPoolChanged p.region p.domain.domain) hplain :)
      fun _ _ h => ⟨n, h⟩

theorem createUserPoolDomain_agreed (request : CreateUserPoolDomainRequest) :
    Agreed rt n (createUserPoolDomain request) Response.Same :=
  changeUserPool_agreed (fun _ => rfl) fun p p' h => by
    exact congrArg (fun p : UserPool => { p with domain := { domain := request.domain } }) h

theorem createUserPoolClient_agreed (draws : ServiceDraws) (request : CreateUserPoolClientRequest) :
    Agreed rt n (createUserPoolClient draws request) Response.Same := by
  refine changeUserPool_agreed (fun _ => rfl) fun p p' h => ?_
  have hclients : ∀ p : UserPool, UserPool.plain
      { p with userPoolClients := p.userPoolClients ++ [mapClient draws request] } =
      { p.plain with userPoolClients := p.plain.userPoolClients ++ [(mapClient draws request).plain] } := by
    intro p
    simp [UserPool.plain]
  rw [hclients, hclients, h]

theorem listUserPools_agreed (region : Str) : Agreed rt n (listUserPools region) Response.Same :=
  agreed_list (.listUserPools region) (fun ps => Response.userPools (ps.map mapUserPool))
    (fun _ _ h => perm_map mapUserPool_plain h) (fun _ => trivial) fun _ _ => rfl

theorem describeUserPool_agreed (userPoolId : Str) : Agreed rt n (describeUserPool userPoolId) Response.Same := by
  refine agreed_if (.userPoolExists userPoolId) id (fun _ _ h => h) (fun _ => trivial) (fun _ _ => rfl) ?_
  refine (corresponds_call (answered_getUserPool userPoolId fun _ _ h => h) fun found found' hfound => ?_).mapThrow
  refine corresponds_ofExcept_bind hfound (fun _ _ h => ⟨n, h.1⟩) fun p p' _ hplain => ?_
  exact corresponds_ret (congrArg mapUserPool hplain) fun _ _ h => ⟨n, h.1⟩

theorem deleteUserPool_agreed (request : DeleteUserPoolRequest) :
    Agreed rt n (deleteUserPool request) (· = ·) := by
  refine agreed_if (.userPoolExists request.userPoolId) id (fun _ _ h => h) (fun _ => trivial) (fun _ _ => rfl) ?_
  exact corresponds_perform (answered_deleteUserPool request.userPoolId fun _ _ h => h) fun _ _ _ h => ⟨n, h⟩

theorem adminCreateUser_agreed (draws : Draws) (request : AdminUserRequest) :
    Agreed rt n (adminCreateUser draws request) fun u u' => u.plain = u'.plain := by
  refine agreed_if (.userPoolExists request.userPoolId) id (fun _ _ h => h) (fun _ => trivial) (fun _ _ => rfl) ?_
  refine agreed_unless (.userExists request.region request.userPoolId request.userName) id (fun _ _ h => h)
    (fun _ => trivial) (fun _ _ => rfl) ?_
  refine (corresponds_call (answered_createUser ⟨rfl, rfl⟩ fun w w' h => ?_)
    fun _ _ hsame => corresponds_ofExcept hsame fun _ _ h => ⟨n, h⟩).mapThrow
  obtain ⟨hinv, oid, habsent⟩ := h
  exact ⟨hinv, habsent⟩

theorem hasGroup_plain (user : User) (userPoolId groupName : Str) :
    user.plain.hasGroup userPoolId groupName = user.hasGroup userPoolId groupName := by
  rw [User.hasGroup, User.plain, List.any_map]
  rfl

theorem adminAddUserToGroup_agreed (request : AdminAddUserToGroupRequest) :
    Agreed rt n (adminAddUserToGroup request) (· = ·) := by
  refine agreed_if (.userPoolExists request.userPoolId) id (fun _ _ h => h) (fun _ => trivial) (fun _ _ => rfl) ?_
  refine agreed_if (.userExists request.region request.userPoolId request.userName) id (fun _ _ h => h)
    (fun _ => trivial) (fun _ _ => rfl) ?_
  refine agreed_if (.groupExists request.region request.groupName) id (fun _ _ h => h) (fun _ => trivial)
    (fun _ _ => rfl) ?_
  refine (corresponds_call (answered_getUser request.region request.userPoolId request.userName fun _ _ h => h)
    fun found found' hfound => ?_).mapThrow
  refine corresponds_ofExcept_bind hfound.1 (fun _ _ h => ⟨n, h⟩) fun user user' huser hplain => ?_
  have hstorable := hfound.2 user huser
  refine corresponds_call (answered_getGroup request.region request.userPoolId request.groupName fun _ _ h => h)
    fun found found' hfound => ?_
  refine corresponds_ofExcept_bind hfound (fun _ _ h => ⟨n, h⟩) fun group group' _ hgroup => ?_
  refine corresponds_when ?_ rfl (fun _ _ h => ⟨n, h⟩) ?_
  · rw [← hasGroup_plain user, hplain, hasGroup_plain user']
  · have hsame : ({ user with groups := user.groups ++ [group] } : User).plain =
        ({ user' with groups := user'.groups ++ [group'] } : User).plain := by
      have hadd : ∀ (user : User) (group : Group), ({ user with groups := user.groups ++ [group] } : User).plain =
          { user.plain with groups := user.plain.groups ++ [group.plain] } := by
        intro user group
        simp [User.plain]
      rw [hadd, hadd, hplain, hgroup]
    refine corresponds_call (answered_updateUser hsame ⟨hstorable.userAttributes, hstorable.password⟩ fun _ _ h => h)
      fun updated updated' hupdated => ?_
    exact corresponds_ofExcept_bind hupdated (fun _ _ h => ⟨n, h⟩) fun _ _ _ _ =>
      corresponds_ret rfl fun _ _ h => ⟨n, h⟩

theorem listUsers_agreed (request : ListUsersRequest) : Agreed rt n (listUsers request) Response.Same :=
  agreed_list (.listUsers request.region request.userPoolId) Response.users (fun _ _ h => h) (fun _ => trivial)
    fun _ _ => rfl

theorem listUsersInGroup_agreed (request : DeleteGroupRequest) :
    Agreed rt n (listUsersInGroup request) Response.Same := by
  refine agreed_if (.userPoolExists request.userPoolId) id (fun _ _ h => h) (fun _ => trivial) (fun _ _ => rfl) ?_
  refine agreed_if (.groupExists request.region request.groupName) id (fun _ _ h => h) (fun _ => trivial)
    (fun _ _ => rfl) ?_
  exact agreed_list (.listUsersInGroup request.region request.userPoolId request.groupName)
    (fun us => Response.usersInGroup (us.map mapUser)) (fun _ _ h => perm_map mapUser_plain h) (fun _ => trivial)
    fun _ _ => rfl

theorem adminDeleteUser_agreed (request : AdminUserRequest) :
    Agreed rt n (adminDeleteUser request) (· = ·) := by
  refine agreed_if (.userPoolExists request.userPoolId) id (fun _ _ h => h) (fun _ => trivial) (fun _ _ => rfl) ?_
  refine agreed_if (.userExists request.region request.userPoolId request.userName) id (fun _ _ h => h)
    (fun _ => trivial) (fun _ _ => rfl) ?_
  refine (corresponds_call (answered_getUser request.region request.userPoolId request.userName fun _ _ h => h)
    fun found found' hfound => ?_).mapThrow
  refine corresponds_ofExcept_bind hfound.1 (fun _ _ h => ⟨n, h⟩) fun user user' _ hplain => ?_
  exact corresponds_perform (answered_deleteUser hplain fun _ _ h => h) fun _ _ _ h => ⟨n, h⟩

theorem createGroup_agreed (draws : Draws) (request : CreateGroupRequest) :
    Agreed rt n (createGroup draws request) fun g g' => g.plain = g'.plain := by
  refine agreed_unless (.groupExists request.region request.groupName) id (fun _ _ h => h) (fun _ => trivial)
    (fun _ _ => rfl) ?_
  refine (corresponds_call (answered_createGroup fun w w' h => ?_)
    fun _ _ hsame => corresponds_ofExcept hsame fun _ _ h => ⟨n, h⟩).mapThrow
  obtain ⟨hinv, oid, habsent⟩ := h
  exact ⟨hinv, habsent⟩

theorem listGroups_agreed (region : Str) : Agreed rt n (listGroups region) Response.Same :=
  agreed_list (.listGroups region []) (fun gs => Response.groups (gs.map mapGroupDto))
    (fun _ _ h => perm_map mapGroupDto_plain h) (fun _ => trivial) fun _ _ => rfl

theorem deleteGroup_agreed (request : DeleteGroupRequest) :
    Agreed rt n (deleteGroup request) (· = ·) := by
  refine agreed_if (.groupExists request.region request.groupName) id (fun _ _ h => h) (fun _ => trivial)
    (fun _ _ => rfl) ?_
  exact corresponds_perform (answered_deleteGroup request.region request.userPoolId request.groupName fun _ _ h => h)
    fun _ _ _ h => ⟨n, h⟩

/-- The response to a request is made of its result. -/
theorem respond {α : Type} {p : CognitoProg α} {A : α → α → Prop} {f : α → Response}
    (h : Agreed rt n p A) (hf : ∀ a a', A a a' → (f a).Same (f a')) :
    Agreed rt n (p >>= fun a => pure (f a)) Response.Same :=
  h.bind (fun _ _ h => h) fun a a' hA => corresponds_ret (hf a a' hA) fun _ _ h => h

theorem prog_agreed (accountId : Str) (request : ServiceRequest) :
    Agreed rt n (request.prog accountId (rt.draws n)) Response.Same := by
  cases request with
  | createUserPool request =>
    exact respond (createUserPool_agreed accountId request) fun _ _ h =>
      (congrArg (fun p : UserPool => Response.userPoolCreated p.region p.name p.arn p.userPoolId) h :)
  | createUserPoolDomain request => exact createUserPoolDomain_agreed request
  | createUserPoolClient request => exact createUserPoolClient_agreed _ request
  | listUserPools region => exact listUserPools_agreed region
  | describeUserPool userPoolId => exact describeUserPool_agreed userPoolId
  | deleteUserPool request => exact respond (deleteUserPool_agreed request) fun _ _ _ => rfl
  | adminCreateUser request =>
    exact respond (adminCreateUser_agreed _ request) fun _ _ h =>
      (congrArg (fun u : User => Response.userCreated u.region u.userName u.enabled) h :)
  | adminAddUserToGroup request => exact respond (adminAddUserToGroup_agreed request) fun _ _ _ => rfl
  | listUsers request => exact listUsers_agreed request
  | listUsersInGroup request => exact listUsersInGroup_agreed request
  | adminDeleteUser request => exact respond (adminDeleteUser_agreed request) fun _ _ _ => rfl
  | createGroup request => exact respond (createGroup_agreed _ request) fun _ _ h => congrArg mapGroupDto h
  | listGroups region => exact listGroups_agreed region
  | deleteGroup request => exact respond (deleteGroup_agreed request) fun _ _ _ => rfl

end Requests

/-! ### Runs -/

section Runs

variable (rt : ServiceRuntime) (accountId : Str)

abbrev ServiceReply (_ : ServiceRequest) : Type := Except Error Response

def memoryService : Store ServiceRequest ServiceReply World := fun _ => memoryServe rt accountId

def mongoService : Store ServiceRequest ServiceReply MongoWorld := fun _ => mongoServe rt accountId

/-- Both services answer the request, alike, and their stores hold the same user pools, users and groups. -/
def ServicesAgree (request : ServiceRequest) (s : Twin World MongoWorld) : Prop :=
  Twin.Agrees (memoryService rt accountId) (mongoService rt accountId) (fun _ => Outcomes Response.Same)
    (fun w w' => StoresAgree w.db w'.db) request s

variable {rt}

theorem InStep.storesAgree {w : World} {w' : MongoWorld} (h : InStep rt w w') : StoresAgree w.db w'.db := by
  obtain ⟨n, hinv⟩ := h
  exact (backends_judged rt.ids).alike hinv.sound

/-- A request begins at the call that comes next. -/
theorem InStep.begins {w : World} {w' : MongoWorld} (h : InStep rt w w') : Inv rt w.calls w w' := by
  obtain ⟨n, hinv⟩ := h
  exact { hinv with started := Nat.le_refl _, named := hinv.named.mono hinv.started }

theorem services_judged : Twin.Judged (memoryService rt accountId) (mongoService rt accountId)
    (fun _ => Outcomes Response.Same) (fun w w' => StoresAgree w.db w'.db) (fun s => InStep rt s.left s.right)
    fun _ _ => True where
  serves := by
    intro request s hs _
    have hbegins := hs.begins
    obtain ⟨x, y, hx, hy, hsame, hnext⟩ := prog_agreed accountId request s.left s.right hbegins
    refine ⟨(x, y), Twin.both_of_eq_some hx ?_, hsame, hnext⟩
    rw [mongoService, mongoServe, hbegins.calls]
    exact hy
  conforms _ _ := trivial
  alike := InStep.storesAgree

theorem inStep_empty : InStep rt {} {} :=
  ⟨0, rfl, Nat.le_refl 0, sound_empty rt.ids, uniqueBy_empty, uniqueBy_empty, fun _ _ hp => (by cases hp),
    uniqueBy_empty, uniqueBy_empty⟩

/-- From empty stores the services on the two backends answer every request of a run alike: both fail, or both give the
    same response. After each the stores hold the same user pools, users and groups. -/
theorem services_agree (requests : List ServiceRequest) :
    Along (Twin.next (memoryService rt accountId) (mongoService rt accountId)) (ServicesAgree rt accountId) requests
        { left := {}, right := {} } ∧
      ∃ s, steps (Twin.next (memoryService rt accountId) (mongoService rt accountId)) requests
        { left := {}, right := {} } = some s ∧ StoresAgree s.left.db s.right.db :=
  (services_judged accountId).agrees (fun _ => trivial) inStep_empty

/-- The random string is what stands behind the last underscore. -/
theorem counted_inj {region region' : Str} {n m : Nat} (h : createCognitoUserPoolId region
    (List.replicate n (byte 'p')) = createCognitoUserPoolId region' (List.replicate m (byte 'p'))) : n = m := by
  rw [createCognitoUserPoolId, createCognitoUserPoolId, List.append_assoc, List.append_assoc] at h
  exact replicate_suffix_inj (a := byte '_') (b := byte 'p') (by decide) h

/-- Draws that are counted. -/
def ServiceRuntime.counting : ServiceRuntime where
  ids := {
    map n := List.replicate n (byte 'u'), collection n := List.replicate n (byte 'u')
    map_inj := @replicate_u_inj, collection_inj := @replicate_u_inj }
  randomString n := List.replicate n (byte 'p')
  clientId _ := []
  clientSecret _ := []
  now _ := (0, 0)
  userPoolId_inj := counted_inj

/-- A group of another pool in the region passes the check, and is then found on neither store. -/
example :
    ((steps (Twin.next (memoryService .counting []) (mongoService .counting []))
      [.createUserPool ⟨str "eu", str "a"⟩, .createUserPool ⟨str "eu", str "b"⟩,
        .createGroup { region := str "eu", groupName := str "g", precedence := 0, userPoolId := str "eu_" },
        .adminCreateUser ⟨str "eu", str "eu_pp", str "u"⟩] { left := {}, right := {} }).bind fun s =>
      (Twin.both (memoryService .counting []) (mongoService .counting [])
        (.adminAddUserToGroup ⟨⟨str "eu", str "eu_pp", str "u"⟩, str "g"⟩) s).map fun r =>
          (r.1.1.isOk, r.2.1.isOk)) = some (false, false) := by
  decide +kernel

end Runs

end AwsMock.Cognito
