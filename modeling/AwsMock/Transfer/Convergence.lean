import AwsMock.Transfer.Records
import Mathlib.Data.List.Nodup

/-!
# Convergence of the transfer servers

A pass over the stored servers starts and stops FTP servers. It keeps every server it has started in its
list: a server that was stopped is never started again, and one whose record is deleted makes the pass
throw.
-/

namespace AwsMock.Transfer

open Lib

variable {rt : Runtime} {cfg : TransferConfiguration} {w : World}

/-! ### The loop over the stored servers -/

/-- A server is to be started. -/
def New (servers : OrderedMap Str FtpServer) (t : Transfer) : Prop :=
  t.state = .online ∧ servers.get? t.serverId = none

instance (servers : OrderedMap Str FtpServer) (t : Transfer) : Decidable (New servers t) :=
  inferInstanceAs (Decidable (_ ∧ _))

/-- What `checkTransfer` makes of the list. -/
def checked (rt : Runtime) (servers : OrderedMap Str FtpServer) (t : Transfer) : OrderedMap Str FtpServer :=
  match t.state, servers.get? t.serverId with
  | .online, none => servers.insert t.serverId (startedServer rt servers t)
  | .offline, some server => servers.insert t.serverId { server with running := false }
  | _, _ => servers

/-- The FTP server with an id runs. -/
def Runs (servers : OrderedMap Str FtpServer) (serverId : Str) : Prop :=
  ∃ server, servers.get? serverId = some server ∧ server.running = true

theorem checkTransfer_run (t : Transfer) (w : World) :
    ∃ n, (checkTransfer t).run (exec rt) w = some (.ok (), ⟨w.db, checked rt w.servers t, n⟩) := by
  unfold checkTransfer checked
  rcases hstate : t.state with _ | _ | _ | _ | _ | _
  case online =>
    rcases hget : w.servers.get? t.serverId with _ | server
    · exact ⟨w.calls + 2, by simp [Prog.run_perform_bind, exec, apply, hget, Prog.when, startTransferServer]⟩
    · exact ⟨w.calls + 1, by simp [Prog.run_perform_bind, exec, apply, hget, Prog.when]⟩
  case offline =>
    rcases hget : w.servers.get? t.serverId with _ | server
    · exact ⟨w.calls + 1, by simp [Prog.run_perform_bind, exec, apply, hget, Prog.when]⟩
    · exact ⟨w.calls + 2, by simp [Prog.run_perform_bind, exec, apply, hget, Prog.when, stopTransferServer]⟩
  all_goals exact ⟨w.calls, by simp [Prog.when]⟩

theorem forEach_checkTransfer_run (ts : List Transfer) (w : World) :
    ∃ n, (Prog.forEach ts checkTransfer).run (exec rt) w =
      some (.ok (), ⟨w.db, ts.foldl (checked rt) w.servers, n⟩) := by
  induction ts generalizing w with
  | nil => exact ⟨w.calls, rfl⟩
  | cons t ts ih =>
    obtain ⟨n, hrun⟩ := @checkTransfer_run rt t w
    obtain ⟨m, hrest⟩ := ih ⟨w.db, checked rt w.servers t, n⟩
    exact ⟨m, by rw [Prog.forEach, Prog.run_bind, hrun]; exact hrest⟩

theorem checked_get?_of_ne {servers : OrderedMap Str FtpServer} {t : Transfer} {serverId : Str}
    (h : serverId ≠ t.serverId) : (checked rt servers t).get? serverId = servers.get? serverId := by
  unfold checked
  split
  · exact OrderedMap.get?_insert_of_ne _ _ h
  · exact OrderedMap.get?_insert_of_ne _ _ h
  · rfl

theorem foldl_checked_get? {ts : List Transfer} {serverId : Str} (h : ∀ t ∈ ts, serverId ≠ t.serverId)
    (servers : OrderedMap Str FtpServer) :
    (ts.foldl (checked rt) servers).get? serverId = servers.get? serverId := by
  induction ts generalizing servers with
  | nil => rfl
  | cons t ts ih =>
    rw [List.foldl_cons, ih (fun u hu => h u (List.mem_cons_of_mem _ hu)),
      checked_get?_of_ne (h t List.mem_cons_self)]

/-- A listed server stays listed, and a new one is one of those stored. -/
theorem mem_foldl_checked {ts : List Transfer} {servers : OrderedMap Str FtpServer} {serverId : Str}
    (h : (ts.foldl (checked rt) servers).get? serverId ≠ none) :
    servers.get? serverId ≠ none ∨ ∃ t ∈ ts, serverId = t.serverId := by
  by_cases hts : ∀ t ∈ ts, serverId ≠ t.serverId
  · rw [foldl_checked_get? hts] at h
    exact Or.inl h
  · simp only [not_forall, not_not] at hts
    obtain ⟨t, ht, hid⟩ := hts
    exact Or.inr ⟨t, ht, hid⟩

theorem listed_foldl_checked {ts : List Transfer} {servers : OrderedMap Str FtpServer} {serverId : Str}
    (h : servers.get? serverId ≠ none) : (ts.foldl (checked rt) servers).get? serverId ≠ none := by
  induction ts generalizing servers with
  | nil => exact h
  | cons t ts ih =>
    refine ih ?_
    by_cases hid : serverId = t.serverId
    · subst hid
      unfold checked
      split
      · simp
      · simp
      · exact h
    · rwa [checked_get?_of_ne hid]

/-! ### Ports -/

/-- An acceptor of the process listens there. -/
def Holds (servers : OrderedMap Str FtpServer) (endpoint : Str × Int) : Prop :=
  ∃ serverId server, servers.get? serverId = some server ∧ server.listening = true ∧ server.endpoint = endpoint

theorem listens_iff {servers : OrderedMap Str FtpServer} {endpoint : Str × Int} :
    listens rt servers endpoint = true ↔ rt.free endpoint = true ∧ ¬ Holds servers endpoint := by
  unfold listens Holds
  rw [decide_eq_true_iff, List.all_eq_true]
  refine and_congr_right fun _ => ⟨?_, ?_⟩
  · rintro h ⟨serverId, server, hget, hlistening, hendpoint⟩
    have hmem : server ∈ servers.values :=
      List.mem_map.mpr ⟨(serverId, server), OrderedMap.get?_eq_some.mp hget, rfl⟩
    exact (decide_eq_true_iff.mp (h server hmem)) ⟨hlistening, hendpoint⟩
  · intro h server hmem
    obtain ⟨⟨serverId, _⟩, hentry, rfl⟩ := List.mem_map.mp hmem
    refine decide_eq_true_iff.mpr fun hserver => h ⟨serverId, _, ?_, hserver.1, hserver.2⟩
    exact OrderedMap.get?_eq_some.mpr hentry

/-- The servers to be started are on different endpoints, which the system and the process leave them. -/
structure Ports (rt : Runtime) (servers : OrderedMap Str FtpServer) (ts : List Transfer) : Prop where
  granted : ∀ t ∈ ts, New servers t → rt.free (endpointOf t) = true ∧ ¬ Holds servers (endpointOf t)
  distinct : ts.Pairwise fun t u => New servers t → New servers u → endpointOf t ≠ endpointOf u

theorem ports_cons {servers : OrderedMap Str FtpServer} {t : Transfer} {ts : List Transfer} :
    Ports rt servers (t :: ts) ↔
      (New servers t → listens rt servers (endpointOf t) = true ∧
        ∀ u ∈ ts, New servers u → endpointOf t ≠ endpointOf u) ∧ Ports rt servers ts := by
  constructor
  · rintro ⟨hgranted, hdistinct⟩
    obtain ⟨hfirst, hrest⟩ := List.pairwise_cons.mp hdistinct
    exact ⟨fun hnew => ⟨listens_iff.mpr (hgranted t List.mem_cons_self hnew), fun u hu => hfirst u hu hnew⟩,
      fun u hu => hgranted u (List.mem_cons_of_mem _ hu), hrest⟩
  · rintro ⟨hfirst, hgranted, hrest⟩
    refine ⟨fun u hu hnew => ?_, List.pairwise_cons.mpr ⟨fun u hu hnew => (hfirst hnew).2 u hu, hrest⟩⟩
    rcases List.mem_cons.mp hu with rfl | hu
    · exact listens_iff.mp (hfirst hnew).1
    · exact hgranted u hu hnew

/-- What the ports of other servers depend on. -/
theorem ports_congr {servers servers' : OrderedMap Str FtpServer} {ts : List Transfer}
    (hnew : ∀ t ∈ ts, New servers t ↔ New servers' t)
    (hholds : ∀ t ∈ ts, New servers t → (Holds servers (endpointOf t) ↔ Holds servers' (endpointOf t))) :
    Ports rt servers ts ↔ Ports rt servers' ts := by
  constructor
  · rintro ⟨hgranted, hdistinct⟩
    refine ⟨fun t ht h => ?_, ?_⟩
    · have h' := (hnew t ht).mpr h
      rw [← hholds t ht h']
      exact hgranted t ht h'
    · refine hdistinct.imp_of_mem fun ht hu h h₁ h₂ => h ((hnew _ ht).mpr h₁) ((hnew _ hu).mpr h₂)
  · rintro ⟨hgranted, hdistinct⟩
    refine ⟨fun t ht h => ?_, ?_⟩
    · rw [hholds t ht h]
      exact hgranted t ht ((hnew t ht).mp h)
    · refine hdistinct.imp_of_mem fun ht hu h h₁ h₂ => h ((hnew _ ht).mp h₁) ((hnew _ hu).mp h₂)

/-- The endpoints held after an entry is written. -/
theorem holds_insert {servers : OrderedMap Str FtpServer} {serverId : Str} {server : FtpServer}
    {endpoint : Str × Int} (hold : ∀ old, servers.get? serverId = some old →
      old.listening = server.listening ∧ old.endpoint = server.endpoint) :
    Holds (servers.insert serverId server) endpoint ↔
      Holds servers endpoint ∨ server.listening = true ∧ server.endpoint = endpoint := by
  constructor
  · rintro ⟨id, found, hget, hlistening, hendpoint⟩
    rw [OrderedMap.get?_insert] at hget
    split at hget
    · cases hget
      exact Or.inr ⟨hlistening, hendpoint⟩
    · exact Or.inl ⟨id, found, hget, hlistening, hendpoint⟩
  · rintro (⟨id, found, hget, hlistening, hendpoint⟩ | ⟨hlistening, hendpoint⟩)
    · by_cases hid : id = serverId
      · subst hid
        obtain ⟨hsame, hsame'⟩ := hold found hget
        exact ⟨id, server, OrderedMap.get?_insert_self .., hsame ▸ hlistening, hsame' ▸ hendpoint⟩
      · exact ⟨id, found, by rwa [OrderedMap.get?_insert_of_ne _ _ hid], hlistening, hendpoint⟩
    · exact ⟨serverId, server, OrderedMap.get?_insert_self .., hlistening, hendpoint⟩

/-! ### What runs after the loop -/

theorem checked_new {servers : OrderedMap Str FtpServer} {t : Transfer} (h : New servers t) :
    checked rt servers t = servers.insert t.serverId (startedServer rt servers t) := by
  rw [checked, h.1, h.2]

/-- Without a new server the endpoints that are held stay. -/
theorem holds_checked {servers : OrderedMap Str FtpServer} {t : Transfer} (h : ¬ New servers t)
    (endpoint : Str × Int) : Holds (checked rt servers t) endpoint ↔ Holds servers endpoint := by
  unfold checked
  split
  · next hstate hget => exact absurd ⟨hstate, hget⟩ h
  · next server hstate hget =>
    rw [holds_insert fun old hold => by rw [hget] at hold; cases hold; exact ⟨rfl, rfl⟩]
    exact or_iff_left_of_imp fun hserver => ⟨t.serverId, server, hget, hserver⟩
  · rfl

/-- A server that is listed and online is left alone. -/
theorem checked_listed {servers : OrderedMap Str FtpServer} {t : Transfer} (h : ¬ New servers t)
    (hstate : t.state = .online) : checked rt servers t = servers := by
  rcases hget : servers.get? t.serverId with _ | server
  · exact absurd ⟨hstate, hget⟩ h
  · rw [checked, hstate, hget]

/-- The servers that are online run after the loop exactly when those that are listed ran before and the
    others get their ports. -/
theorem online_runs_iff {ts : List Transfer} (hids : (ts.map Transfer.serverId).Nodup)
    (servers : OrderedMap Str FtpServer) :
    (∀ t ∈ ts, t.state = .online → Runs (ts.foldl (checked rt) servers) t.serverId) ↔
      (∀ t ∈ ts, t.state = .online → servers.get? t.serverId ≠ none → Runs servers t.serverId) ∧
        Ports rt servers ts := by
  induction ts generalizing servers with
  | nil => simp [Ports.mk]
  | cons t ts ih =>
    obtain ⟨hid, hids⟩ := List.nodup_cons.mp hids
    have hother : ∀ u ∈ ts, u.serverId ≠ t.serverId := fun u hu he =>
      hid (List.mem_map.mpr ⟨u, hu, he⟩)
    have hothers : ∀ u ∈ ts, (checked rt servers t).get? u.serverId = servers.get? u.serverId :=
      fun u hu => checked_get?_of_ne (hother u hu)
    have hsame : Runs ((t :: ts).foldl (checked rt) servers) t.serverId ↔
        Runs (checked rt servers t) t.serverId := by
      unfold Runs
      rw [List.foldl_cons, foldl_checked_get? fun u hu => (hother u hu).symm]
    have hlisted : (∀ u ∈ ts, u.state = .online → (checked rt servers t).get? u.serverId ≠ none →
        Runs (checked rt servers t) u.serverId) ↔
        ∀ u ∈ ts, u.state = .online → servers.get? u.serverId ≠ none → Runs servers u.serverId := by
      refine forall₂_congr fun u hu => ?_
      rw [Runs, Runs, hothers u hu]
    have hnews : ∀ u ∈ ts, New servers u ↔ New (checked rt servers t) u := fun u hu => by
      rw [New, New, hothers u hu]
    rw [List.forall_mem_cons, List.forall_mem_cons, hsame, ports_cons, List.foldl_cons, ih hids, hlisted]
    by_cases hnew : New servers t
    · -- it is started, when its port is left to it
      have hruns : Runs (checked rt servers t) t.serverId ↔ listens rt servers (endpointOf t) = true := by
        rw [Runs, checked_new hnew, OrderedMap.get?_insert_self]
        simp [startedServer]
      have hholds : ∀ endpoint, Holds (checked rt servers t) endpoint ↔ Holds servers endpoint ∨
          listens rt servers (endpointOf t) = true ∧ endpointOf t = endpoint := fun endpoint => by
        rw [checked_new hnew, holds_insert fun old hold => by rw [hnew.2] at hold; cases hold]
        rfl
      have hunlisted : t.state = .online → servers.get? t.serverId ≠ none → Runs servers t.serverId :=
        fun _ h => absurd hnew.2 h
      have hports : listens rt servers (endpointOf t) = true → (Ports rt (checked rt servers t) ts ↔
          (∀ u ∈ ts, New servers u → endpointOf t ≠ endpointOf u) ∧ Ports rt servers ts) := by
        intro hlistens
        constructor
        · intro h
          have hdistinct : ∀ u ∈ ts, New servers u → endpointOf t ≠ endpointOf u := fun u hu hu' he =>
            (h.granted u hu ((hnews u hu).mp hu')).2 ((hholds _).mpr (Or.inr ⟨hlistens, he⟩))
          refine ⟨hdistinct, (ports_congr hnews fun u hu hu' => ?_).mpr h⟩
          rw [hholds]
          exact (or_iff_left fun he => hdistinct u hu hu' he.2).symm
        · rintro ⟨hdistinct, h⟩
          refine (ports_congr hnews fun u hu hu' => ?_).mp h
          rw [hholds]
          exact (or_iff_left fun he => hdistinct u hu hu' he.2).symm
      rw [hruns]
      constructor
      · rintro ⟨hlistens, hrest, hts⟩
        obtain ⟨hdistinct, hts⟩ := (hports (hlistens hnew.1)).mp hts
        exact ⟨⟨hunlisted, hrest⟩, fun _ => ⟨hlistens hnew.1, hdistinct⟩, hts⟩
      · rintro ⟨⟨-, hrest⟩, hfirst, hts⟩
        obtain ⟨hlistens, hdistinct⟩ := hfirst hnew
        exact ⟨fun _ => hlistens, hrest, (hports hlistens).mpr ⟨hdistinct, hts⟩⟩
    · have hports : Ports rt (checked rt servers t) ts ↔ Ports rt servers ts :=
        (ports_congr hnews fun u _ _ => (holds_checked hnew _).symm).symm
      have hfirst : (t.state = .online → Runs (checked rt servers t) t.serverId) ↔
          (t.state = .online → servers.get? t.serverId ≠ none → Runs servers t.serverId) := by
        refine forall_congr' fun hstate => ?_
        rw [checked_listed hnew hstate]
        exact ⟨fun h _ => h, fun h => h fun hget => hnew ⟨hstate, hget⟩⟩
      rw [hfirst, hports]
      exact ⟨fun ⟨h, hrest, hts⟩ => ⟨⟨h, hrest⟩, fun h' => absurd h' hnew, hts⟩,
        fun ⟨⟨h, hrest⟩, _, hts⟩ => ⟨h, hrest, hts⟩⟩

/-- A server that is offline does not run after the loop. -/
theorem offline_not_runs {ts : List Transfer} (hids : (ts.map Transfer.serverId).Nodup)
    (servers : OrderedMap Str FtpServer) {t : Transfer} (ht : t ∈ ts) (hstate : t.state = .offline) :
    ¬ Runs (ts.foldl (checked rt) servers) t.serverId := by
  induction ts generalizing servers with
  | nil => cases ht
  | cons u ts ih =>
    obtain ⟨hid, hids⟩ := List.nodup_cons.mp hids
    rcases List.mem_cons.mp ht with rfl | ht
    · have hother : ∀ u ∈ ts, t.serverId ≠ u.serverId := fun u hu he =>
        hid (List.mem_map.mpr ⟨u, hu, he.symm⟩)
      rw [Runs, List.foldl_cons, foldl_checked_get? hother, checked, hstate]
      rcases hget : servers.get? t.serverId with _ | server
      · simp [hget]
      · simp
    · exact ih hids _ ht

/-! ### The loop over the list -/

theorem serverIdExists_iff {db : TransferMemoryDb} {serverId : Str} :
    db.serverIdExists serverId = true ↔ ∃ t ∈ db.transfers.values, t.serverId = serverId := by
  rw [TransferMemoryDb.serverIdExists, OrderedMap.findIf_isSome]
  constructor
  · rintro ⟨key, t, hget, ht⟩
    exact ⟨t, List.mem_map.mpr ⟨(key, t), OrderedMap.get?_eq_some.mp hget, rfl⟩, by simpa using ht⟩
  · rintro ⟨t, hmem, ht⟩
    obtain ⟨⟨key, _⟩, hentry, rfl⟩ := List.mem_map.mp hmem
    exact ⟨key, _, OrderedMap.get?_eq_some.mpr hentry, by simpa using ht⟩

/-- The loop throws at the first server that is no longer stored, and changes nothing before. -/
theorem forEach_checkStarted_run (serverIds : List Str) (w : World) :
    ∃ x w', (Prog.forEach serverIds checkStarted).run (exec rt) w = some (x, w') ∧
      (x = .ok () ↔ ∀ serverId ∈ serverIds, w.db.serverIdExists serverId = true) ∧
      w'.servers = w.servers ∧ w'.db = w.db := by
  induction serverIds generalizing w with
  | nil => exact ⟨.ok (), w, rfl, by simp, rfl, rfl⟩
  | cons serverId serverIds ih =>
    rcases hexists : w.db.serverIdExists serverId with _ | _
    · have hfind : (w.db.transfers.findIf fun _ t => t.serverId = serverId) = none := by
        rw [TransferMemoryDb.serverIdExists] at hexists
        simpa using hexists
      refine ⟨.error (.pocoException (str "Get transfer by serverId failed, serverId: " ++ serverId)),
        ⟨w.db, w.servers, w.calls + 2⟩, ?_, ?_, rfl, rfl⟩
      · rw [Prog.forEach, Prog.run_bind, checkStarted]
        simp [Prog.run_perform_bind, exec, apply, hexists, Prog.when, TransferMemoryDb.getTransferByServerId,
          hfind, TransferMemoryDb.fetchTransfer, Prog.ofExcept_error_bind]
      · simp [hexists]
    · obtain ⟨x, w', hrun, hiff, hsame⟩ := ih ⟨w.db, w.servers, w.calls + 1⟩
      refine ⟨x, w', ?_, by rw [hiff]; simp [hexists], hsame⟩
      rw [Prog.forEach, Prog.run_bind, checkStarted]
      simpa [Prog.run_perform_bind, exec, apply, hexists, Prog.when] using hrun

/-! ### One pass -/

/-- A pass by itself completes, and then FTP servers run for exactly the stored servers of the region that
    are online. -/
def Converges (rt : Runtime) (w : World) : Prop :=
  ∃ w', checkTransferServers.run (exec rt) w = some (.ok (), w') ∧
    ∀ serverId, Runs w'.servers serverId ↔
      ∃ t ∈ w'.db.listServers region, t.serverId = serverId ∧ t.state = .online

/-- Every server that was ever started is still stored, those among them that are online have not been
    stopped, and the others that are online get their ports. -/
structure Settled (rt : Runtime) (w : World) : Prop where
  stored : ∀ serverId server, w.servers.get? serverId = some server → w.db.serverIdExists serverId = true
  running : ∀ t ∈ w.db.listServers region, t.state = .online → ∀ server,
    w.servers.get? t.serverId = some server → server.running = true
  ports : Ports rt w.servers (w.db.listServers region)

/-- The empty region lists every record. -/
theorem listServers_region (db : TransferMemoryDb) : db.listServers region = db.transfers.values :=
  if_pos rfl

theorem Records.nodup (hw : Records rt w) : ((w.db.listServers region).map Transfer.serverId).Nodup := by
  rw [listServers_region, OrderedMap.values, List.map_map]
  have hkeys := w.db.transfers.keys_nodup
  refine List.Nodup.map_on (fun e he e' he' hid => ?_) (List.Nodup.of_map _ hkeys)
  have hkey := hw.unique e.1 e'.1 e.2 e'.2 (OrderedMap.get?_eq_some.mpr he) (OrderedMap.get?_eq_some.mpr he') hid
  exact List.inj_on_of_nodup_map hkeys he he' hkey

theorem Records.state_of_mem (hw : Records rt w) {t : Transfer} (ht : t ∈ w.db.listServers region) :
    t.state = .online ∨ t.state = .offline := by
  rw [listServers_region] at ht
  obtain ⟨e, he, rfl⟩ := List.mem_map.mp ht
  exact hw.state e.1 e.2 (OrderedMap.get?_eq_some.mpr he)

theorem converges_iff (hw : Records rt w) : Converges rt w ↔ Settled rt w := by
  have hids := hw.nodup
  obtain ⟨n, hloop⟩ := @forEach_checkTransfer_run rt (w.db.listServers region) ⟨w.db, w.servers, w.calls + 1⟩
  have honline := @online_runs_iff rt _ hids w.servers
  generalize hfinal : (w.db.listServers region).foldl (checked rt) w.servers = final at hloop honline
  obtain ⟨x, w', hstarted, hok, hservers, hdb⟩ := @forEach_checkStarted_run rt
    (final.entries.map Prod.fst) ⟨w.db, final, n + 1⟩
  have hrun : checkTransferServers.run (exec rt) w = some (x, w') := by
    rw [checkTransferServers, Prog.run_perform_bind]
    simp only [exec, apply, Option.map_some, Option.bind_some]
    rw [Prog.run_bind, hloop]
    exact hstarted
  -- a listed server is stored when its record is
  have hkeys : ∀ serverId, serverId ∈ final.entries.map Prod.fst ↔ final.get? serverId ≠ none := by
    intro serverId
    rw [Ne, OrderedMap.get?_eq_none]
    simp
  have hlisted : ∀ serverId, final.get? serverId ≠ none → w.servers.get? serverId ≠ none ∨
      ∃ t ∈ w.db.listServers region, serverId = t.serverId := fun serverId h => by
    rw [← hfinal] at h
    exact mem_foldl_checked h
  have hexists : ∀ t ∈ w.db.listServers region, w.db.serverIdExists t.serverId = true := fun t ht =>
    serverIdExists_iff.mpr ⟨t, by rwa [listServers_region] at ht, rfl⟩
  have hstored : (∀ serverId ∈ final.entries.map Prod.fst, w.db.serverIdExists serverId = true) ↔
      ∀ serverId server, w.servers.get? serverId = some server → w.db.serverIdExists serverId = true := by
    constructor
    · intro h serverId server hget
      refine h serverId ((hkeys serverId).mpr ?_)
      rw [← hfinal]
      exact listed_foldl_checked (by simp [hget])
    · intro h serverId hmem
      rcases hlisted serverId ((hkeys serverId).mp hmem) with hget | ⟨t, ht, rfl⟩
      · obtain ⟨server, hget⟩ := Option.ne_none_iff_exists'.mp hget
        exact h serverId server hget
      · exact hexists t ht
  rw [hstored] at hok
  constructor
  · rintro ⟨w'', hrun', hruns⟩
    rw [hrun] at hrun'
    cases hrun'
    rw [hservers, hdb] at hruns
    obtain ⟨hrunning, hports⟩ := honline.mp fun t ht hstate => (hruns t.serverId).mpr ⟨t, ht, rfl, hstate⟩
    refine ⟨hok.mp rfl, fun t ht hstate server hget => ?_, hports⟩
    obtain ⟨found, hfound, hr⟩ := hrunning t ht hstate (by simp [hget])
    rw [hget] at hfound
    cases hfound
    exact hr
  · rintro ⟨hstored', hrunning, hports⟩
    have hx := hok.mpr hstored'
    subst hx
    refine ⟨w', hrun, fun serverId => ?_⟩
    rw [hservers, hdb]
    constructor
    · intro hruns
      have hruns' := hruns
      obtain ⟨server, hget, -⟩ := hruns'
      have hmem : ∃ t ∈ w.db.listServers region, serverId = t.serverId := by
        rcases hlisted serverId (by simp [hget]) with hold | hmem
        · obtain ⟨server, hold⟩ := Option.ne_none_iff_exists'.mp hold
          obtain ⟨t, ht, hid⟩ := serverIdExists_iff.mp (hstored' serverId server hold)
          exact ⟨t, by rwa [listServers_region], hid.symm⟩
        · exact hmem
      obtain ⟨t, ht, rfl⟩ := hmem
      rcases hw.state_of_mem ht with hstate | hstate
      · exact ⟨t, ht, rfl, hstate⟩
      · rw [← hfinal] at hruns
        exact absurd hruns (offline_not_runs hids _ ht hstate)
    · rintro ⟨t, ht, rfl, hstate⟩
      refine honline.mpr ⟨fun u hu hstate' hne => ?_, hports⟩ t ht hstate
      obtain ⟨server, hget⟩ := Option.ne_none_iff_exists'.mp hne
      exact ⟨server, hget, hrunning u hu hstate' server hget⟩

/-- In every run of requests beside the thread: a pass without requests does what it is for exactly when
    the world before it is settled. -/
theorem transfer_convergence {passes : Nat} {requests : List Request} {sched : List Nat}
    (h : Reached rt cfg passes requests sched w) : Converges rt w ↔ Settled rt w :=
  converges_iff h.records

/-! ### Histories -/

/-- A process whose draws are counted and that may listen everywhere. -/
def Runtime.counting : Runtime where
  uuid n := List.replicate n (byte 'u')
  hexString n := List.replicate n (byte 'a')
  baseDir := str "/tmp"
  free _ := true
  uuid_inj := @replicate_u_inj
  hexString_inj h := by
    have hlength := congrArg List.length h
    rwa [toLower, toLower, List.length_map, List.length_map, List.length_replicate, List.length_replicate] at hlength

/-- What holds of the world of a run, by evaluation. -/
theorem exists_reached {passes : Nat} {requests : List Request} {sched : List Nat} {p : World → Bool}
    (h : (Prog.runPool (exec .counting) sched (process {} passes requests) {}).any (fun r => p r.2) = true) :
    ∃ w, Reached .counting {} passes requests sched w ∧ p w = true := by
  obtain ⟨⟨ps, w⟩, hrun, hp⟩ := (Option.any_eq_true _ _).mp h
  exact ⟨w, ⟨ps, hrun⟩, hp⟩

/-- The server that the first request creates. -/
def firstServer : ServerRequest := { region := str "eu", serverId := str "s-aa" }

/-- A server is created and started, then the thread makes a pass. -/
theorem transfer_convergence_started : ∃ w,
    Reached .counting {} 1 [.createServer ⟨str "eu", []⟩, .startServer firstServer]
      ([0] ++ List.replicate 6 1 ++ List.replicate 5 0) w ∧
    Runs w.servers firstServer.serverId ∧ (Converges .counting w ↔ Settled .counting w) := by
  obtain ⟨w, hw, hruns⟩ := @exists_reached 1 [.createServer ⟨str "eu", []⟩, .startServer firstServer]
    ([0] ++ List.replicate 6 1 ++ List.replicate 5 0)
    (fun w => (w.servers.get? firstServer.serverId).any FtpServer.running) (by decide +kernel)
  obtain ⟨server, hget, hrunning⟩ := (Option.any_eq_true _ _).mp hruns
  exact ⟨w, hw, ⟨server, hget, hrunning⟩, transfer_convergence hw⟩

/-- A server that was stopped is not started again, and after the deletion of one that was started the
    pass throws. -/
theorem transfer_diverges :
    (∃ w, Reached .counting {} 2 [.createServer ⟨str "eu", []⟩, .startServer firstServer,
        .stopServer firstServer, .startServer firstServer]
      ([0] ++ List.replicate 6 1 ++ List.replicate 5 0 ++ List.replicate 3 1 ++ List.replicate 5 0 ++
        List.replicate 3 1) w ∧ ¬ Converges .counting w) ∧
    ∃ w, Reached .counting {} 1 [.createServer ⟨str "eu", []⟩, .startServer firstServer,
        .deleteServer firstServer]
      ([0] ++ List.replicate 6 1 ++ List.replicate 5 0 ++ List.replicate 4 1) w ∧
      ¬ Converges .counting w := by
  constructor
  · obtain ⟨w, hw, hp⟩ := @exists_reached 2 [.createServer ⟨str "eu", []⟩, .startServer firstServer,
        .stopServer firstServer, .startServer firstServer]
      ([0] ++ List.replicate 6 1 ++ List.replicate 5 0 ++ List.replicate 3 1 ++ List.replicate 5 0 ++
        List.replicate 3 1)
      (fun w => (w.db.listServers region).any fun t => decide (t.state = .online) &&
        (w.servers.get? t.serverId).any fun server => ! server.running) (by decide +kernel)
    refine ⟨w, hw, fun h => ?_⟩
    obtain ⟨t, ht, hp⟩ := List.any_eq_true.mp hp
    obtain ⟨hstate, hp⟩ := Bool.and_eq_true_iff.mp hp
    obtain ⟨server, hget, hstopped⟩ := (Option.any_eq_true _ _).mp hp
    have hrunning := ((converges_iff hw.records).mp h).running t ht (of_decide_eq_true hstate) server hget
    simp [hrunning] at hstopped
  · obtain ⟨w, hw, hp⟩ := @exists_reached 1 [.createServer ⟨str "eu", []⟩, .startServer firstServer,
        .deleteServer firstServer]
      ([0] ++ List.replicate 6 1 ++ List.replicate 5 0 ++ List.replicate 4 1)
      (fun w => (w.servers.get? firstServer.serverId).isSome && ! w.db.serverIdExists firstServer.serverId)
      (by decide +kernel)
    refine ⟨w, hw, fun h => ?_⟩
    obtain ⟨hlisted, hdeleted⟩ := Bool.and_eq_true_iff.mp hp
    obtain ⟨server, hget⟩ := Option.isSome_iff_exists.mp hlisted
    have hstored := ((converges_iff hw.records).mp h).stored _ server hget
    simp [hstored] at hdeleted

end AwsMock.Transfer
