import AwsMock.Lib.Pool
import AwsMock.Transfer.Service

/-!
# The stored records in every run

Requests one after the other beside the thread of the transfer server, let forward by any schedule: the
requests leave the list of FTP servers alone, the thread leaves the ids of the records alone, and both
keep the records in order.
-/

namespace AwsMock.Transfer

open Lib

variable {rt : Runtime} {cfg : TransferConfiguration} {w : World}

/-- The stored records: their ids come from earlier calls and tell them apart, and they are online or
    offline. -/
structure Records (rt : Runtime) (w : World) : Prop where
  drawn : ∀ key t, w.db.transfers.get? key = some t →
    ∃ n < w.calls, t.serverId = str "s-" ++ toLower (rt.hexString n)
  unique : ∀ key key' t t', w.db.transfers.get? key = some t → w.db.transfers.get? key' = some t' →
    t.serverId = t'.serverId → key = key'
  state : ∀ key t, w.db.transfers.get? key = some t → t.state = .online ∨ t.state = .offline

/-- The same servers are stored. -/
def SameIds (db db' : TransferMemoryDb) : Prop :=
  ∀ key, (db'.transfers.get? key).map (fun t => (t.region, t.serverId)) =
    (db.transfers.get? key).map fun t => (t.region, t.serverId)

theorem SameIds.refl (db : TransferMemoryDb) : SameIds db db := fun _ => rfl

theorem SameIds.trans {db db' db'' : TransferMemoryDb} (h : SameIds db db') (h' : SameIds db' db'') :
    SameIds db db'' := fun key => (h' key).trans (h key)

/-- A server that is not stored stays so. -/
theorem SameIds.notFound {db db' : TransferMemoryDb} (h : SameIds db db') {p : Str × Str → Bool}
    (hnone : (db.transfers.findIf fun _ t => p (t.region, t.serverId)) = none) :
    (db'.transfers.findIf fun _ t => p (t.region, t.serverId)) = none := by
  rw [OrderedMap.findIf_none] at hnone ⊢
  intro key t hget
  have hsame := h key
  rw [hget, Option.map_some] at hsame
  obtain ⟨u, hu, hid⟩ := Option.map_eq_some_iff.mp hsame.symm
  rw [← hid]
  exact hnone key u hu

/-- Records that keep their ids, under a state of the module. -/
theorem Records.of (hw : Records rt w) {db : TransferMemoryDb} {servers : OrderedMap Str FtpServer} {n : Nat}
    (hn : w.calls ≤ n) (h : ∀ key t', db.transfers.get? key = some t' → ∃ t,
      w.db.transfers.get? key = some t ∧ t'.serverId = t.serverId ∧ (t'.state = .online ∨ t'.state = .offline)) :
    Records rt ⟨db, servers, n⟩ where
  drawn key t' hget := by
    obtain ⟨t, ht, hid, -⟩ := h key t' hget
    obtain ⟨m, hm, hdrawn⟩ := hw.drawn key t ht
    exact ⟨m, Nat.lt_of_lt_of_le hm hn, hid.trans hdrawn⟩
  unique key key' t t' hget hget' hid := by
    obtain ⟨u, hu, hid₁, -⟩ := h key t hget
    obtain ⟨u', hu', hid₂, -⟩ := h key' t' hget'
    exact hw.unique key key' u u' hu hu' (hid₁.symm.trans (hid.trans hid₂))
  state key t' hget := (h key t' hget).choose_spec.2.2

/-- A later count of calls, another list of servers. -/
theorem Records.later (hw : Records rt w) (servers : OrderedMap Str FtpServer) {n : Nat} (hn : w.calls ≤ n) :
    Records rt ⟨w.db, servers, n⟩ :=
  hw.of hn fun key t ht => ⟨t, ht, rfl, hw.state key t ht⟩

/-- A lookup writes an object id. -/
theorem fetchTransfer_cases (db : TransferMemoryDb) (missing : Error) (p : Str → Transfer → Bool) :
    let r := db.fetchTransfer missing (db.transfers.findIf p)
    SameIds db r.2 ∧ (∀ key t', r.2.transfers.get? key = some t' → ∃ t, db.transfers.get? key = some t ∧
      t'.serverId = t.serverId ∧ t'.state = t.state) ∧
      ∀ server, r.1 = .ok server → ∃ oid t, p oid t = true ∧ server = { t with oid := oid } := by
  rcases hfind : db.transfers.findIf p with _ | ⟨oid, t⟩
  · exact ⟨.refl db, fun key t' ht => ⟨t', ht, rfl, rfl⟩, fun _ h => by cases h⟩
  · obtain ⟨hget, hp⟩ := OrderedMap.findIf_some hfind
    refine ⟨fun key => ?_, fun key t' ht => ?_, fun server h => ?_⟩
    · simp only [TransferMemoryDb.fetchTransfer, OrderedMap.get?_insert]
      split
      · next hkey => rw [hkey, hget]; rfl
      · rfl
    · simp only [TransferMemoryDb.fetchTransfer, OrderedMap.get?_insert] at ht
      split at ht
      · next hkey =>
        cases ht
        exact ⟨t, hkey ▸ hget, rfl, rfl⟩
      · exact ⟨t', ht, rfl, rfl⟩
    · cases h
      exact ⟨oid, t, hp, rfl⟩

/-! ### The thread of the transfer server -/

def SameServers (x y : World × Unit) : Prop := y.1.servers = x.1.servers ∧ x.1.calls ≤ y.1.calls

def SameRecords (x y : World × Unit) : Prop := SameIds x.1.db y.1.db ∧ x.1.calls ≤ y.1.calls

theorem SameServers.refl (x : World × Unit) : SameServers x x := ⟨rfl, Nat.le_refl _⟩

theorem SameServers.trans {x y z : World × Unit} (h : SameServers x y) (h' : SameServers y z) :
    SameServers x z := ⟨h'.1.trans h.1, Nat.le_trans h.2 h'.2⟩

theorem SameRecords.refl (x : World × Unit) : SameRecords x x := ⟨.refl _, Nat.le_refl _⟩

theorem SameRecords.trans {x y z : World × Unit} (h : SameRecords x y) (h' : SameRecords y z) :
    SameRecords x z := ⟨h.1.trans h'.1, Nat.le_trans h.2 h'.2⟩

/-- The thread, as long as the requests leave its list alone. -/
def serverContract (rt : Runtime) {α : Type} (post : World × Unit → Prop) :
    Prog.Contract TransferCall Error α World Unit :=
  { inv := fun x => Records rt x.1, rely := SameServers, guar := SameRecords, cond := fun _ _ => True,
    post := fun _ => post }

/-- Any end. -/
def Ends (_ : World × Unit) : Prop := True

/-- An end with these servers in the list. -/
def Lists (serverIds : List Str) (x : World × Unit) : Prop :=
  ∀ serverId ∈ serverIds, (x.1.servers.get? serverId).isSome

theorem Lists.of_same {serverIds : List Str} {x y : World × Unit} (h : Lists serverIds x)
    (hy : SameServers x y) : Lists serverIds y := by
  intro serverId hmem
  rw [hy.1]
  exact h serverId hmem

/-- A call of the thread that leaves the store alone. -/
theorem server_call {α : Type} {post : World × Unit → Prop} {c : TransferCall}
    {k : c.Reply → TransferProg α} {x : World × Unit}
    (h : ∀ y, SameServers x y → Records rt y.1 → ∃ r servers,
      apply rt y.1 c = some (r, ⟨y.1.db, servers, y.1.calls⟩) ∧
        (k r).Keeps (exec rt) (serverContract rt post) (⟨y.1.db, servers, y.1.calls + 1⟩, ())) :
    Prog.Keeps (exec rt) (serverContract rt post) (.call c k) x := by
  intro y hy hw _
  obtain ⟨r, servers, hr, hk⟩ := h y hy hw
  exact ⟨(r, ⟨y.1.db, servers, y.1.calls + 1⟩), (), by rw [exec, hr]; rfl,
    Records.later hw servers (Nat.le_succ _), ⟨.refl _, Nat.le_succ _⟩, hk⟩

/-- The end of a part of the thread. -/
theorem server_ends {α : Type} (a : α) (x : World × Unit) :
    (pure a : TransferProg α).Keeps (exec rt) (serverContract rt Ends) x := fun _ _ _ => trivial

theorem startTransferServer_keeps (t : Transfer) (x : World × Unit) :
    (startTransferServer t).Keeps (exec rt) (serverContract rt Ends) x :=
  server_call fun _ _ _ => ⟨(), _, rfl, server_ends _ _⟩

/-- A server is stopped when it is listed, and stays so. -/
theorem stopTransferServer_keeps {serverIds : List Str} {t : Transfer} {x : World × Unit}
    (hlisted : Lists serverIds x) (hmem : t.serverId ∈ serverIds) :
    (stopTransferServer t).Keeps (exec rt) (serverContract rt (Lists serverIds)) x := by
  refine server_call fun y hy _ => ?_
  obtain ⟨server, hget⟩ := Option.isSome_iff_exists.mp (hlisted t.serverId hmem)
  refine ⟨(), y.1.servers.insert t.serverId { server with running := false },
    by rw [apply, hy.1, hget]; rfl, ?_⟩
  intro z hz _ serverId hid
  rw [hz.1, OrderedMap.get?_insert]
  split
  · rfl
  · rw [hy.1]
    exact hlisted serverId hid

theorem checkTransfer_keeps (t : Transfer) (x : World × Unit) :
    (checkTransfer t).Keeps (exec rt) (serverContract rt Ends) x := by
  unfold checkTransfer
  split_ifs
  · refine server_call fun y _ _ => ⟨_, _, rfl, ?_⟩
    simp only [Prog.bind, Prog.when]
    split_ifs
    · exact startTransferServer_keeps t _
    · exact server_ends _ _
  · unfold Prog.when
    split_ifs
    · refine server_call fun y _ _ => ⟨_, _, rfl, ?_⟩
      simp only [Prog.bind]
      split_ifs with hlisted
      · exact Prog.Keeps.mono (K := serverContract rt (Lists [t.serverId])) (fun _ _ _ _ => trivial)
          (stopTransferServer_keeps (by simpa [Lists] using hlisted) List.mem_cons_self)
      · exact server_ends _ _
    · exact server_ends _ _

/-- The server looked up is the one asked for. -/
theorem getTransferByServerId_serverId {db : TransferMemoryDb} {serverId : Str} {server : Transfer}
    (h : (db.getTransferByServerId serverId).1 = .ok server) : server.serverId = serverId := by
  obtain ⟨oid, t, ht, rfl⟩ := (fetchTransfer_cases db _ _).2.2 server h
  exact of_decide_eq_true ht

/-- Records whose object ids were written. -/
theorem Records.fetched (hw : Records rt w) {db : TransferMemoryDb} (h : ∀ key t',
    db.transfers.get? key = some t' → ∃ t, w.db.transfers.get? key = some t ∧ t'.serverId = t.serverId ∧
      t'.state = t.state) : Records rt ⟨db, w.servers, w.calls + 1⟩ :=
  hw.of (Nat.le_succ _) fun key t' hget => by
    obtain ⟨t, ht, hid, hstate⟩ := h key t' hget
    exact ⟨t, ht, hid, hstate ▸ hw.state key t ht⟩

theorem checkStarted_keeps {serverIds : List Str} {serverId : Str} (hmem : serverId ∈ serverIds)
    {x : World × Unit} (hlisted : Lists serverIds x) :
    (checkStarted serverId).Keeps (exec rt) (serverContract rt (Lists serverIds)) x := by
  unfold checkStarted
  refine server_call fun y hy _ => ⟨_, _, rfl, ?_⟩
  have hy' : Lists serverIds (⟨y.1.db, y.1.servers, y.1.calls + 1⟩, ()) :=
    hlisted.of_same ⟨hy.1, Nat.le_succ_of_le hy.2⟩
  simp only [Prog.bind, Prog.when]
  split_ifs
  · intro z hz hw _
    obtain ⟨hsame, hrecords, -⟩ := fetchTransfer_cases z.1.db
      (.pocoException (str "Get transfer by serverId failed, serverId: " ++ serverId))
      fun _ t => t.serverId = serverId
    refine ⟨_, (), rfl, Records.fetched hw hrecords, ⟨hsame, Nat.le_succ _⟩, ?_⟩
    have hz' : Lists serverIds (⟨(z.1.db.getTransferByServerId serverId).2,
        z.1.servers, z.1.calls + 1⟩, ()) := hy'.of_same ⟨hz.1, Nat.le_succ_of_le hz.2⟩
    rcases hfound : (z.1.db.getTransferByServerId serverId).1 with ex | server
    · simp only [Prog.bind]
      exact fun _ hv _ => hz'.of_same hv
    · simp only [Prog.bind]
      exact stopTransferServer_keeps hz' (by rw [getTransferByServerId_serverId hfound]; exact hmem)
  · exact fun _ hz _ => hy'.of_same hz

/-- A loop of the thread whose rounds end anyhow. -/
theorem server_forEach {α : Type} {xs : List α} {body : α → TransferProg Unit} {x : World × Unit}
    (hx : Records rt x.1) (hbody : ∀ a x, (body a).Keeps (exec rt) (serverContract rt Ends) x) :
    (Prog.forEach xs body).Keeps (exec rt) (serverContract rt Ends) x :=
  Prog.keeps_forEach (J := Ends) SameServers.refl (fun _ _ _ _ => trivial) (fun _ _ _ => trivial) trivial hx
    fun a _ y _ _ => Prog.Keeps.mono (K := serverContract rt Ends)
      (fun b _ _ _ => by cases b with | error e => exact fun _ _ _ => trivial | ok u => trivial) (hbody a y)

theorem checkTransferServers_keeps (x : World × Unit) :
    checkTransferServers.Keeps (exec rt) (serverContract rt Ends) x := by
  refine server_call fun y _ hw => ⟨_, _, rfl, ?_⟩
  have hw' : Records rt ⟨y.1.db, y.1.servers, y.1.calls + 1⟩ := hw.later _ (Nat.le_succ _)
  simp only [Prog.bind]
  refine Prog.keeps_bind SameServers.refl hw' ?_
  refine Prog.Keeps.mono (K := serverContract rt Ends) (fun a z _ _ => ?_)
    (server_forEach hw' fun t z => checkTransfer_keeps t z)
  cases a with
  | error e => exact fun _ _ _ => trivial
  | ok u =>
    change Prog.Keeps (exec rt) (serverContract rt Ends)
      (.call .serverIds fun serverIds => Prog.forEach serverIds checkStarted) z
    refine server_call fun v _ hv => ⟨_, _, rfl, ?_⟩
    have hlists : Lists (v.1.servers.entries.map Prod.fst) (⟨v.1.db, v.1.servers, v.1.calls + 1⟩, ()) := by
      intro serverId hmem
      rw [Option.isSome_iff_ne_none, Ne, OrderedMap.get?_eq_none]
      simpa using hmem
    refine Prog.keeps_forEach (J := Lists (v.1.servers.entries.map Prod.fst)) SameServers.refl
      (fun _ _ h hsame => h.of_same hsame) (fun _ _ _ => trivial) hlists (hv.later _ (Nat.le_succ _))
      fun serverId hmem z hz _ => ?_
    exact Prog.Keeps.mono (K := serverContract rt (Lists (v.1.servers.entries.map Prod.fst)))
      (fun a _ _ h => by cases a with | error e => exact fun _ _ _ => trivial | ok u => exact h)
      (checkStarted_keeps hmem hz)

theorem serverThread_keeps (passes : Nat) (x : World × Unit) (hx : Records rt x.1) :
    (serverThread passes).Keeps (exec rt) (serverContract rt Ends) x := by
  refine Prog.keeps_bind SameServers.refl hx ?_
  refine Prog.Keeps.mono (K := serverContract rt Ends) (fun a y hy _ => ?_) ?start
  · cases a with
    | error e => exact fun _ _ _ => trivial
    | ok u => exact server_forEach hy fun _ x => checkTransferServers_keeps x
  case start =>
    refine server_call fun y _ hw => ⟨_, _, rfl, ?_⟩
    simp only [Prog.bind]
    refine server_forEach (hw.later _ (Nat.le_succ _)) fun t z => ?_
    unfold Prog.when
    split_ifs
    · exact startTransferServer_keeps t z
    · exact server_ends _ _

/-! ### The requests -/

/-- The requests, as long as the thread leaves the ids of the records alone. -/
def requestContract (rt : Runtime) {α : Type} : Prog.Contract TransferCall Error α World Unit :=
  { inv := fun x => Records rt x.1, rely := SameRecords, guar := SameServers, cond := fun _ _ => True,
    post := fun _ _ => True }

/-- A call of a request. -/
theorem request_call {α : Type} {c : TransferCall} {k : c.Reply → TransferProg α} {x : World × Unit}
    (h : ∀ y, SameRecords x y → Records rt y.1 → ∃ r db,
      apply rt y.1 c = some (r, ⟨db, y.1.servers, y.1.calls⟩) ∧
        Records rt ⟨db, y.1.servers, y.1.calls + 1⟩ ∧
        (k r).Keeps (exec rt) (requestContract rt) (⟨db, y.1.servers, y.1.calls + 1⟩, ())) :
    Prog.Keeps (exec rt) (requestContract rt) (.call c k) x := by
  intro y hy hw _
  obtain ⟨r, db, hr, hrecords, hk⟩ := h y hy hw
  exact ⟨(r, ⟨db, y.1.servers, y.1.calls + 1⟩), (), by rw [exec, hr]; rfl, hrecords, ⟨rfl, Nat.le_succ _⟩, hk⟩

theorem request_ends {α : Type} (a : α) (x : World × Unit) :
    Prog.Keeps (exec rt) (requestContract rt) (.ret a) x := fun _ _ _ => trivial

theorem request_throws {α : Type} (e : Error) (x : World × Unit) :
    Prog.Keeps (α := α) (exec rt) (requestContract rt) (.throw e) x := fun _ _ _ => trivial

/-- No record has an id that is still to be drawn. -/
theorem Records.undrawn (hw : Records rt w) {n : Nat} (hn : w.calls ≤ n) {key : Str} {t : Transfer}
    (ht : w.db.transfers.get? key = some t) : t.serverId ≠ str "s-" ++ toLower (rt.hexString n) := by
  obtain ⟨m, hm, hid⟩ := hw.drawn key t ht
  rw [hid]
  intro h
  have := rt.hexString_inj (List.append_cancel_left h)
  omega

/-- A new record under an id that was drawn. -/
theorem Records.created (hw : Records rt w) {n : Nat} (hn : n < w.calls) (oid : Str) {t : Transfer}
    (hid : t.serverId = str "s-" ++ toLower (rt.hexString n)) (hstate : t.state = .online ∨ t.state = .offline)
    (hnew : ∀ key u, w.db.transfers.get? key = some u → u.serverId ≠ t.serverId) :
    Records rt ⟨{ w.db with transfers := w.db.transfers.insert oid t }, w.servers, w.calls⟩ where
  drawn key u hget := by
    simp only [OrderedMap.get?_insert] at hget
    split at hget
    · cases hget
      exact ⟨n, hn, hid⟩
    · exact hw.drawn key u hget
  unique key key' u u' hget hget' hsame := by
    simp only [OrderedMap.get?_insert] at hget hget'
    split at hget <;> split at hget'
    · next hkey hkey' => rw [hkey, hkey']
    · cases hget
      exact absurd hsame.symm (hnew key' u' hget')
    · cases hget'
      exact absurd hsame (hnew key u hget)
    · exact hw.unique key key' u u' hget hget' hsame
  state key u hget := by
    simp only [OrderedMap.get?_insert] at hget
    split at hget
    · cases hget
      exact hstate
    · exact hw.state key u hget

theorem createTransferServer_keeps (request : CreateServerRequest) (x : World × Unit) :
    (createTransferServer cfg request).Keeps (exec rt) (requestContract rt) x := by
  refine request_call fun y _ hw => ⟨_, _, rfl, hw.later _ (Nat.le_succ _), ?_⟩
  simp only [Prog.bind]
  split_ifs
  · exact request_throws _ _
  refine request_call fun z _ hz => ⟨_, _, rfl, hz.later _ (Nat.le_succ _), ?_⟩
  have hdrawn : ∀ key u, z.1.db.transfers.get? key = some u →
      u.serverId ≠ str "s-" ++ toLower (rt.hexString z.1.calls) := fun key u hu => hz.undrawn (Nat.le_refl _) hu
  simp only [Prog.bind]
  refine request_call fun v hv hrecords => ⟨_, _, rfl, ?_, request_ends _ _⟩
  obtain ⟨hsame, hcalls⟩ := hv
  have hinserted := hrecords.created hcalls (rt.uuid v.1.calls) (t := {
    region := request.region, serverId := str "s-" ++ toLower (rt.hexString z.1.calls),
    arn := createArn (str "transfer") request.region cfg.accountId
      (str "manager/" ++ (str "s-" ++ toLower (rt.hexString z.1.calls))),
    protocols := request.protocols, port := cfg.ftpPort,
    users := [{ userName := str "anonymous", password := str "123", homeDirectory := str "/" }] })
    rfl (Or.inr rfl) fun key u hu => by
      have hid := hsame key
      rw [hu, Option.map_some] at hid
      obtain ⟨t, ht, hsameId⟩ := Option.map_eq_some_iff.mp hid.symm
      rw [← (Prod.mk.inj hsameId).2]
      exact hdrawn key t ht
  exact hinserted.fetched (fetchTransfer_cases _ _ _).2.1

/-- An update of a server that is not stored fails. -/
theorem updateTransfer_cases (db : TransferMemoryDb) (t : Transfer) :
    (∃ key old, db.transfers.get? key = some old ∧ old.region = t.region ∧ old.serverId = t.serverId ∧
      db.updateTransfer t = (.ok t, { db with transfers := db.transfers.insert key t })) ∨
    ((db.transfers.findIf fun _ u => u.region = t.region ∧ u.serverId = t.serverId) = none ∧
      ∃ e, db.updateTransfer t = (.error e, db)) := by
  unfold TransferMemoryDb.updateTransfer
  rcases hfind : db.transfers.findIf fun _ u => u.region = t.region ∧ u.serverId = t.serverId with _ | ⟨key, old⟩
  · exact Or.inr ⟨rfl, _, rfl⟩
  · obtain ⟨hget, hsame⟩ := OrderedMap.findIf_some hfind
    obtain ⟨hregion, hid⟩ := of_decide_eq_true hsame
    exact Or.inl ⟨key, old, hget, hregion, hid, rfl⟩

/-- The handler of a failure finds nothing to update. -/
theorem failed_keeps {t : Transfer} {state : ServerState} {ex : Error} {x : World × Unit}
    (h : ∀ y, SameRecords x y → Records rt y.1 →
      (y.1.db.transfers.findIf fun _ u => u.region = t.region ∧ u.serverId = t.serverId) = none) :
    (failed t state ex).Keeps (exec rt) (requestContract rt) x := by
  refine request_call fun y hy hw => ?_
  rcases updateTransfer_cases y.1.db { t with state := state } with ⟨key, old, hget, hregion, hid, -⟩ | ⟨-, e, he⟩
  · have hnone := OrderedMap.findIf_none.mp (h y hy hw) key old hget
    simp [hregion, hid] at hnone
  · exact ⟨.error e, y.1.db, by rw [apply, he], hw.later _ (Nat.le_succ _), request_throws _ _⟩

/-- The default record, which names no server. -/
theorem failed_default_keeps (state : ServerState) (ex : Error) (x : World × Unit) :
    (failed {} state ex).Keeps (exec rt) (requestContract rt) x := by
  refine failed_keeps fun y _ hw => OrderedMap.findIf_none.mpr fun key u hget => ?_
  obtain ⟨n, -, hid⟩ := hw.drawn key u hget
  simp [hid, str]

theorem setServerState_keeps {state failure : ServerState} (hstate : state = .online ∨ state = .offline)
    (request : ServerRequest) (x : World × Unit) :
    (setServerState state failure request).Keeps (exec rt) (requestContract rt) x := by
  refine request_call fun y _ hw => ⟨_, _, rfl, hw.later _ (Nat.le_succ _), ?_⟩
  simp only [Prog.bind]
  split_ifs
  · refine request_call fun z _ hz =>
      ⟨_, _, rfl, hz.fetched (fetchTransfer_cases _ _ _).2.1, ?_⟩
    simp only [Prog.bind]
    rcases (z.1.db.getTransferByServerId request.serverId).1 with ex | server
    · exact failed_default_keeps _ _ _
    · refine request_call fun v _ hv => ?_
      rcases updateTransfer_cases v.1.db { server with state := state } with
        ⟨key, old, hget, hregion, hid, hupdate⟩ | ⟨hnone, ex, hupdate⟩
      · refine ⟨.ok { server with state := state }, _, by rw [apply, hupdate], ?_, request_ends _ _⟩
        refine hv.of (Nat.le_succ _) fun key' t' hget' => ?_
        simp only [OrderedMap.get?_insert] at hget'
        split at hget'
        · next hkey =>
          cases hget'
          exact ⟨old, hkey ▸ hget, hid.symm, hstate⟩
        · exact ⟨t', hget', rfl, hv.state key' t' hget'⟩
      · refine ⟨.error ex, v.1.db, by rw [apply, hupdate], hv.later _ (Nat.le_succ _), ?_⟩
        -- nothing creates this server meanwhile
        refine failed_keeps fun y hy _ => ?_
        exact hy.1.notFound (p := fun id => id.1 = server.region ∧ id.2 = server.serverId) hnone
  · exact failed_default_keeps _ _ _

theorem deleteServer_keeps (request : ServerRequest) (x : World × Unit) (hx : Records rt x.1) :
    (deleteServer request).Keeps (exec rt) (requestContract rt) x := by
  refine Prog.keeps_bind SameRecords.refl hx ?_
  refine Prog.Keeps.mono (K := requestContract rt) (fun a y _ _ => ?_)
    (setServerState_keeps (Or.inr rfl) request x)
  cases a with
  | error e => exact fun _ _ _ => trivial
  | ok server =>
    refine request_call fun z _ hz => ⟨_, _, rfl, ?_, request_ends _ _⟩
    refine hz.of (Nat.le_succ _) fun key t hget => ?_
    have hkept := (Option.filter_eq_some_iff.mp ((OrderedMap.get?_eraseIf _ _ _).symm.trans hget)).1
    exact ⟨t, hkept, rfl, hz.state key t hkept⟩

/-- A request, whatever comes of it. -/
theorem answered_keeps {α : Type} {p : TransferProg α} {x : World × Unit} (hx : Records rt x.1)
    (hp : p.Keeps (exec rt) (requestContract rt) x) :
    (do let _ ← p.attempt : TransferProg Unit).Keeps (exec rt) (requestContract rt) x := by
  refine Prog.keeps_bind SameRecords.refl hx ?_
  refine Prog.keeps_attempt ?_
  exact Prog.Keeps.mono (K := requestContract rt) (fun _ y _ _ => request_ends () y) hp

theorem serveAll_keeps (requests : List Request) (x : World × Unit) (hx : Records rt x.1) :
    (serveAll cfg requests).Keeps (exec rt) (requestContract rt) x := by
  refine Prog.keeps_forEach (J := fun _ => True) SameRecords.refl (fun _ _ _ _ => trivial)
    (fun _ _ _ => trivial) trivial hx fun request _ y _ hy => ?_
  refine Prog.Keeps.mono (K := requestContract rt)
    (fun a _ _ _ => by cases a with | error e => exact fun _ _ _ => trivial | ok u => trivial) ?_
  cases request with
  | createServer request => exact answered_keeps hy (createTransferServer_keeps request y)
  | startServer request => exact answered_keeps hy (setServerState_keeps (Or.inl rfl) request y)
  | stopServer request => exact answered_keeps hy (setServerState_keeps (Or.inr rfl) request y)
  | deleteServer request => exact answered_keeps hy (deleteServer_keeps request y hy)

/-! ### Every schedule -/

/-- The two sides of the process. -/
def processContract (rt : Runtime) : Nat → Prog.Contract TransferCall Error Unit World Unit
  | 0 => serverContract rt Ends
  | 1 => requestContract rt
  | _ => .idle (fun x => Records rt x.1) fun _ _ => True

theorem processContract_compatible :
    Prog.Compatible (processContract rt) (fun x => Records rt x.1) fun _ _ => True where
  inv_eq i := by rcases i with _ | _ | _ <;> rfl
  cond_eq i := by rcases i with _ | _ | _ <;> rfl
  refl i x := by
    rcases i with _ | _ | _
    · exact SameServers.refl x
    · exact SameRecords.refl x
    · trivial
  trans i x y z hxy hyz := by
    rcases i with _ | _ | _
    · exact SameServers.trans hxy hyz
    · exact SameRecords.trans hxy hyz
    · trivial
  relies i j x y hij h := by
    -- both sides guarantee what the other relies on; a place without a program does nothing
    rcases i with _ | _ | _ <;> rcases j with _ | _ | _
    case zero.zero => exact absurd rfl hij
    case succ.zero.succ.zero => exact absurd rfl hij
    case zero.succ.zero => exact h
    case succ.zero.zero => exact h
    case succ.succ.zero => exact (h : y = x) ▸ SameServers.refl x
    case succ.succ.succ.zero => exact (h : y = x) ▸ SameRecords.refl x
    all_goals trivial

/-- The thread of the transfer server beside the requests. -/
def process (cfg : TransferConfiguration) (passes : Nat) (requests : List Request) : List (TransferProg Unit) :=
  [serverThread passes, serveAll cfg requests]

/-- The worlds of a process that starts with an empty store. -/
def Reached (rt : Runtime) (cfg : TransferConfiguration) (passes : Nat) (requests : List Request)
    (sched : List Nat) (w : World) : Prop :=
  ∃ ps, Prog.runPool (exec rt) sched (process cfg passes requests) {} = some (ps, w)

theorem Records.empty : Records rt {} where
  drawn _ _ h := by cases h
  unique _ _ _ _ h := by cases h
  state _ _ h := by cases h

/-- The process runs on under every schedule, and its records are in order. -/
theorem process_runs (passes : Nat) (requests : List Request) (sched : List Nat) :
    ∃ ps w, Prog.runPool (exec rt) sched (process cfg passes requests) {} = some (ps, w) ∧ Records rt w := by
  have hkeeps : Prog.PoolKeeps (exec rt) (processContract rt) (process cfg passes requests) (({} : World), ()) := by
    intro i p hp
    rcases i with _ | _ | _
    · cases hp
      exact serverThread_keeps passes _ Records.empty
    · cases hp
      exact serveAll_keeps requests _ Records.empty
    · simp [process] at hp
  obtain ⟨ps, w, _, hrun, -, hw, -⟩ := Prog.poolKeeps_run processContract_compatible hkeeps Records.empty
    fun e (_ : e ∈ Prog.poolTrace (exec rt) sched _ _) => trivial
  exact ⟨ps, w, hrun, hw⟩

theorem Reached.records {passes : Nat} {requests : List Request} {sched : List Nat}
    (h : Reached rt cfg passes requests sched w) : Records rt w := by
  obtain ⟨ps, hrun⟩ := h
  obtain ⟨ps', w', hrun', hw⟩ := @process_runs rt cfg passes requests sched
  rw [hrun] at hrun'
  cases hrun'
  exact hw

end AwsMock.Transfer
