import AwsMock.Ftp.Effects
import AwsMock.Lib.Machine
import AwsMock.Lib.Related

/-!
# Whose upload it is

A file keeps the name of its user and its path from the moment `STOR` or `APPE` is accepted. When its
data ends, the request to S3 takes the owner and the key from the file, and the metadata from the user
that is logged in then. Beside the session stand the uploads that were accepted and the order in which
they ended.
-/

namespace AwsMock.Ftp

open Lib

/-- The user and the local path when an upload was accepted. -/
structure Accepted where
  user : Str
  localPath : Str
  deriving DecidableEq

structure Tracked where
  process : FtpProcess
  accepted : List Accepted := []
  ended : List Nat := []

/-- What an event adds to the uploads that were accepted: the user and the path in force, when a transfer is
    added. -/
def FtpEvent.accepts (e : FtpEvent) (s t : FtpSession) : List Accepted :=
  match e, s.loggedInUser with
  | .command line _, some user =>
    if s.transfers.length < t.transfers.length then
      [⟨user.username, s.toLocalPath user (FtpSession.parseCommand line).2⟩]
    else []
  | _, _ => []

/-- The upload that ends. -/
def FtpEvent.ends : FtpEvent → List Nat
  | .ended i _ => [i]
  | _ => []

def Tracked.step (cfg : Config) (e : FtpEvent) (x : Tracked) : Option Tracked :=
  (FtpProcess.step cfg e x.process).map fun q =>
    { process := q
      accepted := x.accepted ++ e.accepts x.process.session q.session
      ended := x.ended ++ e.ends }

/-- A new session. -/
def Tracked.start (userDatabase : UserDatabase) : Tracked := { process := startSession userDatabase }

/-- The request and the file of an upload for this user. -/
def uploadOf (cfg : Config) (a : Accepted) : Option (S3.PutObjectRequest × Str) :=
  (FtpSession.getKey cfg a.localPath).map fun key =>
    ({ region := cfg.region, bucket := cfg.bucket, key := key, owner := a.user,
       metadata := OrderedMap.ofList [(str "user-agent", cfg.serverName),
         (str "user-agent-id", a.user ++ str "@" ++ cfg.serverName)] }, a.localPath)

/-- Each upload that ended was sent for the user and the path with which it was accepted, in the order in
    which they ended; and no missing user was dereferenced. -/
structure Attributed (cfg : Config) (x : Tracked) : Prop where
  sent : List.Forall₂ (fun i r => ∃ a, x.accepted[i]? = some a ∧ uploadOf cfg a = some r) x.ended
    (uploads x.process.outputs)
  defined : x.process.ending ≠ some .undefined

/-- When an upload ends, the user whose upload it is is logged in, and its path is long enough to be
    stripped. -/
def StillLoggedIn (cfg : Config) (e : FtpEvent) (x : Tracked) : Prop :=
  ∀ i ∈ e.ends, ∀ a, x.accepted[i]? = some a →
    x.process.session.loggedInUser.map FtpUser.username = some a.user ∧
      cfg.transferDir.length ≤ a.localPath.length

/-- The uploads of the session are those that were accepted. -/
structure Recorded (x : Tracked) : Prop where
  files : x.process.session.transfers.map Transferring.file = x.accepted.map fun a => ⟨a.localPath, a.user⟩
  ended : ∀ i ∈ x.ended, i < x.accepted.length
  sent : (uploads x.process.outputs).length ≤ x.ended.length

variable {cfg : Config} {e : FtpEvent} {x y : Tracked}

theorem uploads_append (outputs outputs' : List Output) :
    uploads (outputs ++ outputs') = uploads outputs ++ uploads outputs' := List.filterMap_append

/-! ### One event -/

/-- Completions keep the files of the transfers. -/
theorem setStage_files (p : FtpProcess) (i : Nat) (stage : Stage) :
    (p.setStage i stage).session.transfers.map Transferring.file =
      p.session.transfers.map Transferring.file := by
  refine List.ext_getElem? fun j => ?_
  rw [FtpProcess.setStage]
  simp only [List.getElem?_map, List.getElem?_modify]
  rcases p.session.transfers[j]? with _ | t
  · rfl
  · by_cases hj : i = j <;> simp [hj]

/-- A line accepts the upload that it adds. -/
theorem accepts_command (line : Str) (host : Host) {s t : FtpSession}
    (h : Changes s (FtpSession.parseCommand line).2 t) :
    t.transfers.map Transferring.file = s.transfers.map Transferring.file ++
      ((FtpEvent.command line host).accepts s t).map fun a => ⟨a.localPath, a.user⟩ := by
  rcases h.transfers with hsame | ⟨user, huser, hadd⟩
  · rcases huser : s.loggedInUser with _ | user <;> simp [FtpEvent.accepts, huser, hsame]
  · simp [FtpEvent.accepts, huser, hadd]

/-- The end of an upload: the request that is sent, and for whom. -/
theorem endDataReceiving_uploads (cfg : Config) (host : Host) (p : FtpProcess) (i : Nat) (file : IoFile) :
    uploads (p.endDataReceiving cfg host i file).outputs = uploads p.outputs ++
      ((p.session.loggedInUser.bind fun user => (uploadOf cfg ⟨user.username, file.fileName⟩).map fun r =>
        ({ r.1 with owner := file.user }, r.2)).toList) := by
  unfold FtpProcess.endDataReceiving FtpSession.sendCreateObjectRequest uploadOf
  dsimp only [FtpProcess.take, FtpProcess.say, FtpProcess.setStage]
  rcases FtpSession.getKey cfg file.fileName with _ | key
  · rcases p.session.loggedInUser with _ | user
    · rw [uploads_append, uploads_append, List.append_assoc]
      rfl
    · rw [uploads_append, uploads_append, List.append_assoc]
      rfl
  · rcases p.session.loggedInUser with _ | user
    · rw [uploads_append, uploads_append, List.append_assoc]
      rfl
    · rw [uploads_append, uploads_append, List.append_assoc]
      rfl

theorem endDataReceiving_ending {host : Host} {p : FtpProcess} {i : Nat} {file : IoFile} {user : FtpUser}
    (huser : p.session.loggedInUser = some user) :
    (p.endDataReceiving cfg host i file).ending ≠ some .undefined := by
  unfold FtpProcess.endDataReceiving FtpSession.sendCreateObjectRequest
  dsimp only [FtpProcess.take, FtpProcess.say, FtpProcess.setStage]
  rw [huser]
  rcases FtpSession.getKey cfg file.fileName with _ | key
  · exact nofun
  · rcases host.s3Returns with _ | _ <;> exact nofun

/-- A session takes no event after its end. -/
theorem step_ending {p q : FtpProcess} (h : FtpProcess.step cfg e p = some q) : p.ending = none := by
  unfold FtpProcess.step at h
  split at h
  · cases h
  · next hending => exact not_not.mp hending

/-- An event that ends no upload: what it accepts, and what stays. -/
structure Continues (x y : Tracked) : Prop where
  accepted : ∃ more, y.accepted = x.accepted ++ more ∧ y.process.session.transfers.map Transferring.file =
    x.process.session.transfers.map Transferring.file ++ more.map fun a => ⟨a.localPath, a.user⟩
  ended : y.ended = x.ended
  uploads : uploads y.process.outputs = uploads x.process.outputs
  before : x.process.ending = none
  after : y.process.ending ≠ some .undefined

/-- An event ends an upload or lets the session continue. -/
theorem tracked_step (h : x.step cfg e = some y) :
    Continues x y ∧ e.ends = [] ∨
      ∃ i host file, e = .ended i host ∧ x.process.session.transfers[i]? = some ⟨file, .receiving⟩ ∧
        y = { x with
          process := x.process.endDataReceiving cfg host i file, ended := x.ended ++ [i] } := by
  obtain ⟨q, hq, rfl⟩ := Option.map_eq_some_iff.mp h
  have hbefore := step_ending hq
  rcases step_session hq with ⟨line, host, rfl, rfl⟩ | ⟨rfl, rfl⟩ | ⟨i, file, rfl, -, rfl⟩ |
    ⟨i, file, rfl, -, rfl⟩ | ⟨i, host, file, rfl, hi, rfl⟩
  · have heffect := effect_handleFtpCommand cfg host x.process.session line
    refine Or.inl ⟨⟨⟨_, rfl, accepts_command line host heffect.changes⟩, List.append_nil _, ?_, hbefore,
      heffect.ending⟩, rfl⟩
    rw [FtpProcess.take, uploads_append, heffect.uploads, List.append_nil]
  · refine Or.inl ⟨⟨⟨[], rfl, by simp⟩, List.append_nil _, rfl, hbefore, ?_⟩, rfl⟩
    simp [hbefore]
  · refine Or.inl ⟨⟨⟨[], rfl, ?_⟩, List.append_nil _, ?_, hbefore, ?_⟩, rfl⟩
    · exact (setStage_files x.process i .aborted).trans (List.append_nil _).symm
    · exact (uploads_append _ _).trans (List.append_nil _)
    · simp [FtpProcess.say, FtpProcess.setStage, hbefore]
  · refine Or.inl ⟨⟨⟨[], rfl, ?_⟩, List.append_nil _, rfl, hbefore, ?_⟩, rfl⟩
    · simpa using setStage_files x.process i .receiving
    · simp [FtpProcess.setStage, hbefore]
  · refine Or.inr ⟨i, host, file, rfl, hi, ?_⟩
    simp [FtpEvent.accepts, FtpEvent.ends]

theorem Recorded.step (hx : Recorded x) (h : x.step cfg e = some y) : Recorded y := by
  rcases tracked_step h with ⟨hc, -⟩ | ⟨i, host, file, -, hi, rfl⟩
  · obtain ⟨more, haccepted, hfiles⟩ := hc.accepted
    refine ⟨?_, ?_, ?_⟩
    · rw [hfiles, haccepted, hx.files, List.map_append]
    · intro i hi
      have hlt := hx.ended i (hc.ended ▸ hi)
      rw [haccepted, List.length_append]
      omega
    · rw [hc.uploads, hc.ended]
      exact hx.sent
  · have hlength : i < x.accepted.length := by
      have hlt := (List.getElem?_eq_some_iff.mp hi).1
      have hsame := congrArg List.length hx.files
      simp only [List.length_map] at hsame
      omega
    refine ⟨?_, ?_, ?_⟩
    · rw [endDataReceiving_session, setStage_files]
      exact hx.files
    · intro j hj
      rcases List.mem_append.mp hj with hj | hj
      · exact hx.ended j hj
      · rw [List.mem_singleton.mp hj]
        exact hlength
    · have hsent := hx.sent
      rw [endDataReceiving_uploads, List.length_append, List.length_append, List.length_singleton]
      have hone := Option.length_toList_le (o := x.process.session.loggedInUser.bind fun user =>
        (uploadOf cfg ⟨user.username, file.fileName⟩).map fun r => ({ r.1 with owner := file.user }, r.2))
      omega

/-! ### The uploads of a run -/

/-- The file of an upload is the one that was accepted. -/
theorem Recorded.file (hx : Recorded x) {i : Nat} {file : IoFile} {stage : Stage}
    (hi : x.process.session.transfers[i]? = some ⟨file, stage⟩) :
    x.accepted[i]? = some ⟨file.user, file.fileName⟩ := by
  have hfiles := congrArg (fun l => l[i]?) hx.files
  simp only [List.getElem?_map, hi, Option.map_some] at hfiles
  obtain ⟨a, ha, hfile⟩ := Option.map_eq_some_iff.mp hfiles.symm
  rw [ha, ← hfile]

theorem get?_metadata (serverName agent : Str) : (OrderedMap.ofList [(str "user-agent", serverName),
    (str "user-agent-id", agent)]).get? (str "user-agent-id") = some agent := by
  have hne : str "user-agent" ≠ str "user-agent-id" := by decide
  exact OrderedMap.get?_ofList (by simp [hne]) (by simp)

/-- An upload that is sent for the user logged in is sent for the one that was accepted. -/
theorem upload_iff {user? : Option FtpUser} {a : Accepted} :
    (∃ r, (user?.bind fun user => (uploadOf cfg ⟨user.username, a.localPath⟩).map fun r =>
        ({ r.1 with owner := a.user }, r.2)) = some r ∧ uploadOf cfg a = some r) ↔
      user?.map FtpUser.username = some a.user ∧ cfg.transferDir.length ≤ a.localPath.length := by
  rcases user? with _ | user
  · simp
  by_cases hlength : cfg.transferDir.length ≤ a.localPath.length
  · obtain ⟨key, hkey⟩ : ∃ key, FtpSession.getKey cfg a.localPath = some key := ⟨_, if_pos hlength⟩
    constructor
    · rintro ⟨r, hsent, hwanted⟩
      simp only [uploadOf, hkey, Option.map_some, Option.bind_some, Option.some.injEq] at hsent hwanted
      have hagent := congrArg (fun r => r.1.metadata.get? (str "user-agent-id")) (hsent.trans hwanted.symm)
      simp only [get?_metadata, Option.some.injEq, List.append_left_inj] at hagent
      exact ⟨congrArg some hagent, hlength⟩
    · rintro ⟨huser, -⟩
      simp only [Option.map_some, Option.some.injEq] at huser
      refine ⟨_, ?_, congrArg _ hkey⟩
      simp [uploadOf, hkey, huser]
  · have hkey : FtpSession.getKey cfg a.localPath = none := if_neg hlength
    simp [uploadOf, hkey, hlength]

theorem attributed_step (hx : Recorded x) (h : x.step cfg e = some y) :
    Attributed cfg y ↔ Attributed cfg x ∧ StillLoggedIn cfg e x := by
  rcases tracked_step h with ⟨hc, hends⟩ | ⟨i, host, file, rfl, hi, rfl⟩
  · -- what was accepted before stays
    obtain ⟨more, haccepted, -⟩ := hc.accepted
    have hsame : ∀ i ∈ x.ended, y.accepted[i]? = x.accepted[i]? := fun i hi => by
      rw [haccepted, List.getElem?_append_left (hx.ended i hi)]
    have hstill : StillLoggedIn cfg e x := fun i hi => by
      rw [hends] at hi
      cases hi
    constructor
    · intro hy
      have hsent := hy.sent
      rw [hc.ended, hc.uploads] at hsent
      refine ⟨⟨forall₂_mem_imp hsent fun i r hi hr => hsame i hi ▸ hr, ?_⟩, hstill⟩
      simp [hc.before]
    · rintro ⟨hattributed, -⟩
      refine ⟨?_, hc.after⟩
      rw [hc.ended, hc.uploads]
      exact forall₂_mem_imp hattributed.sent fun i r hi hr => (hsame i hi).symm ▸ hr
  · have hbefore : x.process.ending ≠ some .undefined := by
      obtain ⟨q, hq, -⟩ := Option.map_eq_some_iff.mp h
      simp [step_ending hq]
    have haccepted := hx.file hi
    have hstill : StillLoggedIn cfg (.ended i host) x ↔
        x.process.session.loggedInUser.map FtpUser.username = some file.user ∧
          cfg.transferDir.length ≤ file.fileName.length := by
      simp [StillLoggedIn, FtpEvent.ends, haccepted]
    have hlast := @upload_iff cfg x.process.session.loggedInUser ⟨file.user, file.fileName⟩
    rw [hstill, ← hlast]
    constructor
    · rintro ⟨hsent, -⟩
      rw [endDataReceiving_uploads, forall₂_concat_toList hx.sent] at hsent
      obtain ⟨hsent, r, hr, a, ha, hwanted⟩ := hsent
      rw [haccepted] at ha
      cases ha
      exact ⟨⟨hsent, hbefore⟩, r, hr, hwanted⟩
    · rintro ⟨hattributed, r, hr, hwanted⟩
      obtain ⟨huser, -⟩ := hlast.mp ⟨r, hr, hwanted⟩
      obtain ⟨user, huser, -⟩ := Option.map_eq_some_iff.mp huser
      refine ⟨?_, endDataReceiving_ending huser⟩
      rw [endDataReceiving_uploads, forall₂_concat_toList hx.sent]
      exact ⟨hattributed.sent, r, hr, _, haccepted, hwanted⟩

/-- In every run of a session the uploads are sent for the users and the paths with which they were
    accepted, and no missing user is dereferenced, exactly when each upload ends while its user is logged
    in and its path can be stripped. -/
theorem uploads_attributed (cfg : Config) (userDatabase : UserDatabase) (events : List FtpEvent) (x : Tracked)
    (hx : steps (Tracked.step cfg) events (.start userDatabase) = some x) :
    Attributed cfg x ↔ Along (Tracked.step cfg) (StillLoggedIn cfg) events (.start userDatabase) := by
  have hstart : Recorded (.start userDatabase) := ⟨rfl, by simp [Tracked.start], Nat.le_refl 0⟩
  have hattributed : Attributed cfg (.start userDatabase) := ⟨.nil, nofun⟩
  have hrun := steps_iff_along (I := Recorded) (P := Attributed cfg) (C := StillLoggedIn cfg)
    (fun h hi => hi.step h) (fun h hi => attributed_step hi h) hx hstart
  rw [hrun]
  exact and_iff_right hattributed

/-- An upload is accepted, other commands arrive, and its data ends. -/
def storing (commands : List FtpEvent) : List FtpEvent :=
  [.command (str "USER anonymous") .willing, .command (str "PASS 123") .willing,
   .command (str "PASV") .willing, .command (str "STOR a.txt") .empty, .accepted 0 false] ++ commands ++
    [.ended 0 .willing]

/-- The user only changes the directory. -/
theorem uploads_attributed_cwd : ∃ x, steps (Tracked.step .sample)
    (storing [.command (str "CWD docs") .willing])
    (.start (addUsers (str "/data") [anonymous])) = some x ∧ x.ended = [0] ∧ Attributed .sample x ∧
    Along (Tracked.step .sample) (StillLoggedIn .sample) (storing [.command (str "CWD docs") .willing])
      (.start (addUsers (str "/data") [anonymous])) := by
  obtain ⟨x, hx, hended, r, hr, hsent, hending⟩ : ∃ x, steps (Tracked.step .sample)
      (storing [.command (str "CWD docs") .willing])
      (.start (addUsers (str "/data") [anonymous])) = some x ∧ x.ended = [0] ∧
      ∃ r, uploads x.process.outputs = [r] ∧ x.accepted[0]?.bind (uploadOf .sample) = some r ∧
        x.process.ending = none := ⟨_, rfl, rfl, _, rfl, rfl, rfl⟩
  have hattributed : Attributed .sample x := by
    refine ⟨?_, by simp [hending]⟩
    rw [hended, hr]
    exact .cons (Option.bind_eq_some_iff.mp hsent) .nil
  exact ⟨x, hx, hended, hattributed, (uploads_attributed .sample _ _ x hx).mp hattributed⟩

/-- The client quits before the data ends: the end of the upload dereferences the user that was reset. -/
theorem uploads_attributed_quit : ∃ x, steps (Tracked.step .sample)
    (storing [.command (str "QUIT") .willing])
    (.start (addUsers (str "/data") [anonymous])) = some x ∧
    x.process.ending = some .undefined ∧ ¬ Attributed .sample x :=
  ⟨_, rfl, rfl, fun h => h.defined rfl⟩

end AwsMock.Ftp
