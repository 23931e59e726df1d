import AwsMock.Ftp.Session

/-!
# What the events of an FTP session do

One lemma for each command, put together for a line; and what each event does.
-/

namespace AwsMock.Ftp

open Lib

variable {cfg : Config} {host : Host} {s t : FtpSession} {param : Str}

/-! ### What a command changes -/

/-- What a command can do to the user, the working directory and the transfers of a session. -/
structure Changes (s : FtpSession) (param : Str) (t : FtpSession) : Prop where
  userDatabase : t.userDatabase = s.userDatabase
  user : t.loggedInUser = s.loggedInUser ∨ t.loggedInUser = none ∨
    ∃ name password user, s.userDatabase.getUser name password = some user ∧ t.loggedInUser = some user
  directory : t.ftpWorkingDirectory = s.ftpWorkingDirectory ∨ t.ftpWorkingDirectory = str "/" ∨
    ∃ path, (isAbsolute path ∨ ∃ rest, path = s.ftpWorkingDirectory ++ rest) ∧
      t.ftpWorkingDirectory = cleanPathNative path
  transfers : t.transfers = s.transfers ∨ ∃ user, s.loggedInUser = some user ∧
    t.transfers = s.transfers ++ [{ file := ⟨s.toLocalPath user param, user.username⟩ }]

/-- A command that changes none of them. -/
theorem Changes.none (hdatabase : t.userDatabase = s.userDatabase) (huser : t.loggedInUser = s.loggedInUser)
    (hdirectory : t.ftpWorkingDirectory = s.ftpWorkingDirectory) (htransfers : t.transfers = s.transfers) :
    Changes s param t :=
  ⟨hdatabase, Or.inl huser, Or.inl hdirectory, Or.inl htransfers⟩

/-- The upload an output is. -/
def Output.upload? : Output → Option (S3.PutObjectRequest × Str)
  | .putObject request fileName => some (request, fileName)
  | _ => none

/-- The uploads among some outputs. -/
def uploads (outputs : List Output) : List (S3.PutObjectRequest × Str) := outputs.filterMap Output.upload?

/-- What a command can do: it uploads nothing, and dereferences no missing user. -/
structure Effect (s : FtpSession) (param : Str) (r : Reaction) : Prop where
  changes : Changes s param r.session
  uploads : uploads r.outputs = []
  ending : r.ending ≠ some .undefined

variable {r : Reaction}

/-- A command that changes none of the fields. -/
theorem Effect.none (hdatabase : r.session.userDatabase = s.userDatabase)
    (huser : r.session.loggedInUser = s.loggedInUser)
    (hdirectory : r.session.ftpWorkingDirectory = s.ftpWorkingDirectory)
    (htransfers : r.session.transfers = s.transfers) (huploads : Ftp.uploads r.outputs = [])
    (hending : r.ending ≠ some .undefined) : Effect s param r :=
  ⟨⟨hdatabase, Or.inl huser, Or.inl hdirectory, Or.inl htransfers⟩, huploads, hending⟩

/-- The fields that a handler's caller sets are not among them. -/
theorem Changes.after {u : FtpSession} (h : Changes s param t) (hdatabase : u.userDatabase = t.userDatabase)
    (huser : u.loggedInUser = t.loggedInUser) (hdirectory : u.ftpWorkingDirectory = t.ftpWorkingDirectory)
    (htransfers : u.transfers = t.transfers) : Changes s param u where
  userDatabase := hdatabase.trans h.userDatabase
  user := by rw [huser]; exact h.user
  directory := by rw [hdirectory]; exact h.directory
  transfers := by rw [htransfers]; exact h.transfers

theorem effect_reply (code : FtpReplyCode) (message : Str) :
    Effect s param (s.reply code message) := .none rfl rfl rfl rfl rfl nofun

theorem effect_USER (s : FtpSession) (param param' : Str) :
    Effect s param' (s.handleFtpCommandUSER param) := by
  unfold FtpSession.handleFtpCommandUSER
  split <;> exact ⟨⟨rfl, Or.inr (Or.inl rfl), Or.inr (Or.inl rfl), Or.inl rfl⟩, rfl, nofun⟩

theorem effect_PASS (s : FtpSession) (param param' : Str) :
    Effect s param' (s.handleFtpCommandPASS param) := by
  unfold FtpSession.handleFtpCommandPASS
  split
  · exact effect_reply ..
  · split
    · next user huser =>
      exact ⟨⟨rfl, Or.inr (Or.inr ⟨_, _, user, huser, rfl⟩), Or.inl rfl, Or.inl rfl⟩, rfl, nofun⟩
    · exact effect_reply ..

theorem changes_executeCWD (host : Host) (s : FtpSession) (param param' : Str) :
    Changes s param' (FtpSession.executeCWD host s param).2 := by
  have hdirectory : ∃ path, (isAbsolute path ∨ ∃ rest, path = s.ftpWorkingDirectory ++ rest) ∧
      (if param.head? = some slash then cleanPath param slash
        else cleanPath (s.ftpWorkingDirectory ++ str "/" ++ param) slash) = cleanPathNative path := by
    split
    · next habsolute => exact ⟨param, Or.inl (by simpa [isAbsolute] using habsolute), rfl⟩
    · exact ⟨_, Or.inr ⟨_, List.append_assoc ..⟩, rfl⟩
  unfold FtpSession.executeCWD
  split
  · exact .none rfl rfl rfl rfl
  split
  · exact .none rfl rfl rfl rfl
  split
  · exact .none rfl rfl rfl rfl
  dsimp only
  generalize (if param.head? = some slash then _ else _) = dir at hdirectory ⊢
  split
  · exact .none rfl rfl rfl rfl
  split
  · exact .none rfl rfl rfl rfl
  split
  · exact .none rfl rfl rfl rfl
  · exact ⟨rfl, Or.inl rfl, Or.inr (Or.inr hdirectory), Or.inl rfl⟩

theorem effect_CWD (host : Host) (s : FtpSession) (param param' : Str) :
    Effect s param' (s.handleFtpCommandCWD host param) :=
  ⟨changes_executeCWD .., rfl, nofun⟩

theorem effect_CDUP (host : Host) (s : FtpSession) (param : Str) :
    Effect s param (s.handleFtpCommandCDUP host) := by
  have hchanges := changes_executeCWD host s (str "..") param
  unfold FtpSession.handleFtpCommandCDUP
  split
  · exact effect_reply ..
  split_ifs
  · exact effect_reply ..
  · dsimp only
    split
    · exact ⟨hchanges.after rfl rfl rfl rfl, rfl, nofun⟩
    · exact ⟨hchanges, rfl, nofun⟩
  · exact effect_reply ..

theorem effect_PASV (host : Host) (s : FtpSession) (param : Str) :
    Effect s param (s.handleFtpCommandPASV host) := by
  unfold FtpSession.handleFtpCommandPASV
  split
  · exact effect_reply ..
  · split <;> exact .none rfl rfl rfl rfl rfl nofun

theorem effect_TYPE (s : FtpSession) (param param' : Str) :
    Effect s param' (s.handleFtpCommandTYPE param) := by
  unfold FtpSession.handleFtpCommandTYPE
  split_ifs <;> exact .none rfl rfl rfl rfl rfl nofun

theorem effect_RETR (host : Host) (s : FtpSession) (param param' : Str) :
    Effect s param' (s.handleFtpCommandRETR host param) := by
  unfold FtpSession.handleFtpCommandRETR
  split
  · exact effect_reply ..
  · dsimp only
    split_ifs <;> exact .none rfl rfl rfl rfl rfl nofun

theorem effect_SIZE (host : Host) (s : FtpSession) (param param' : Str) :
    Effect s param' (s.handleFtpCommandSIZE host param) := by
  unfold FtpSession.handleFtpCommandSIZE
  split
  · exact effect_reply ..
  dsimp only
  split_ifs
  · exact effect_reply ..
  · exact effect_reply ..
  · split <;> exact effect_reply ..

theorem effect_receiveFile (host : Host) {user : FtpUser} (hs : s.loggedInUser = some user) (param : Str)
    (mode : OpenMode) :
    Effect s param (s.receiveFile host user (s.toLocalPath user param) mode) := by
  unfold FtpSession.receiveFile
  split
  · exact effect_reply ..
  · exact ⟨⟨rfl, Or.inl rfl, Or.inl rfl, Or.inr ⟨user, hs, rfl⟩⟩, rfl, nofun⟩

theorem effect_STOR (host : Host) (s : FtpSession) (param : Str) :
    Effect s param (s.handleFtpCommandSTOR host param) := by
  unfold FtpSession.handleFtpCommandSTOR
  split
  · exact effect_reply ..
  · next user hs =>
    dsimp only
    split_ifs
    · exact effect_reply ..
    · exact effect_reply ..
    · exact effect_reply ..
    · exact effect_reply ..
    · exact effect_receiveFile host hs param _

theorem effect_APPE (host : Host) (s : FtpSession) (param : Str) :
    Effect s param (s.handleFtpCommandAPPE host param) := by
  unfold FtpSession.handleFtpCommandAPPE
  split
  · exact effect_reply ..
  · next user hs =>
    dsimp only
    split_ifs
    · exact effect_reply ..
    · exact effect_reply ..
    · exact effect_reply ..
    · exact effect_receiveFile host hs param _

theorem effect_RNFR (host : Host) (s : FtpSession) (param param' : Str) :
    Effect s param' (s.handleFtpCommandRNFR host param) := by
  unfold FtpSession.handleFtpCommandRNFR
  dsimp only
  split <;> exact .none rfl rfl rfl rfl rfl nofun

theorem effect_RNTO (host : Host) (s : FtpSession) (param param' : Str) :
    Effect s param' (s.handleFtpCommandRNTO host param) := by
  unfold FtpSession.handleFtpCommandRNTO
  split
  · exact effect_reply ..
  · dsimp only
    split_ifs <;> exact .none rfl rfl rfl rfl rfl nofun

theorem effect_sendDeleteObjectRequest (cfg : Config) (host : Host) (s : FtpSession)
    (user fileName param : Str) (code : FtpReplyCode) (message : Str) :
    Effect s param (s.sendDeleteObjectRequest cfg host user fileName (s.reply code message)) := by
  unfold FtpSession.sendDeleteObjectRequest
  split
  · exact .none rfl rfl rfl rfl rfl nofun
  · dsimp only
    split <;> exact .none rfl rfl rfl rfl rfl nofun

theorem effect_DELE (cfg : Config) (host : Host) (s : FtpSession) (param param' : Str) :
    Effect s param' (s.handleFtpCommandDELE cfg host param) := by
  unfold FtpSession.handleFtpCommandDELE
  split
  · exact effect_reply ..
  dsimp only
  split
  · exact effect_reply ..
  split_ifs
  · exact effect_reply ..
  · exact effect_reply ..
  · exact effect_sendDeleteObjectRequest ..
  · exact effect_reply ..

theorem effect_RMD (host : Host) (s : FtpSession) (param param' : Str) :
    Effect s param' (s.handleFtpCommandRMD host param) := by
  unfold FtpSession.handleFtpCommandRMD
  split
  · exact effect_reply ..
  · split_ifs <;> exact effect_reply ..

theorem effect_MKD (host : Host) (s : FtpSession) (param param' : Str) :
    Effect s param' (s.handleFtpCommandMKD host param) := by
  unfold FtpSession.handleFtpCommandMKD
  split
  · exact effect_reply ..
  · split_ifs <;> exact effect_reply ..

theorem effect_PWD (s : FtpSession) (param : Str) : Effect s param s.handleFtpCommandPWD := by
  unfold FtpSession.handleFtpCommandPWD
  split_ifs <;> exact effect_reply ..

theorem effect_listDirectory (host : Host) (s : FtpSession) (path sending param : Str)
    {send : Str → Output} (hsend : ∀ path, (send path).upload? = none) :
    Effect s param (s.listDirectory host path sending send) := by
  unfold FtpSession.listDirectory
  split
  · exact effect_reply ..
  split_ifs
  · exact effect_reply ..
  dsimp only
  split
  · exact effect_reply ..
  split_ifs
  · exact effect_reply ..
  · refine .none rfl rfl rfl rfl ?_ nofun
    have hmessage : ∀ m, (Output.message m).upload? = none := fun _ => rfl
    simp [uploads, hsend, hmessage]
  · exact effect_reply ..

theorem effect_OPTS (s : FtpSession) (param param' : Str) :
    Effect s param' (s.handleFtpCommandOPTS param) := by
  unfold FtpSession.handleFtpCommandOPTS
  split_ifs <;> exact effect_reply ..

/-- Every entry of the command map has such an effect. -/
theorem effect_commandMap (cfg : Config) (host : Host) (s : FtpSession) (param : Str) :
    ∀ entry ∈ s.commandMap cfg host param, Effect s param entry.2 := by
  simp only [FtpSession.commandMap, List.forall_mem_cons, List.not_mem_nil, false_implies, implies_true,
    and_true]
  refine ⟨effect_USER .., effect_PASS .., effect_reply .., effect_CWD .., effect_CDUP ..,
    effect_reply .., ⟨⟨rfl, Or.inr (Or.inl rfl), Or.inl rfl, Or.inl rfl⟩, rfl, nofun⟩, effect_reply .., effect_PASV ..,
    effect_TYPE .., effect_reply .., effect_reply .., effect_RETR .., effect_STOR .., effect_reply ..,
    effect_APPE .., effect_reply .., effect_reply .., effect_RNFR .., effect_RNTO .., effect_reply ..,
    effect_DELE .., effect_RMD .., effect_MKD .., effect_PWD ..,
    effect_listDirectory _ _ _ _ _ fun _ => rfl, effect_listDirectory _ _ _ _ _ fun _ => rfl, effect_reply .., effect_reply .., effect_reply .., effect_reply ..,
    effect_reply .., .none rfl rfl rfl rfl rfl nofun, effect_OPTS .., effect_SIZE ..⟩

/-- What a line can do. -/
theorem effect_handleFtpCommand (cfg : Config) (host : Host) (s : FtpSession) (line : Str) :
    Effect s (FtpSession.parseCommand line).2 (s.handleFtpCommand cfg host line) := by
  unfold FtpSession.handleFtpCommand
  dsimp only
  split
  · next entry r hfind =>
    have heffect := effect_commandMap cfg host s _ _ (List.mem_of_find?_eq_some hfind)
    split
    · exact ⟨heffect.changes.after rfl rfl rfl rfl, heffect.uploads, heffect.ending⟩
    · exact heffect
  · exact .none rfl rfl rfl rfl rfl nofun

variable {e : FtpEvent} {p q : FtpProcess}

/-- What one event does to a session: a command has its effect, and the rest leaves the users and the
    working directory alone. -/
theorem step_session (h : FtpProcess.step cfg e p = some q) :
    (∃ line host, e = .command line host ∧ q = p.take (p.session.handleFtpCommand cfg host line)) ∨
    (e = .disconnected ∧ q = { p with session := { p.session with reading := false, acceptorOpen := false } }) ∨
    (∃ i file, e = .accepted i true ∧ p.session.transfers[i]? = some ⟨file, .accepting⟩ ∧
      q = (p.setStage i .aborted).say ⟨.transferAborted, str "Data transfer aborted"⟩) ∨
    (∃ i file, e = .accepted i false ∧ p.session.transfers[i]? = some ⟨file, .accepting⟩ ∧
      q = p.setStage i .receiving) ∨
    (∃ i host file, e = .ended i host ∧ p.session.transfers[i]? = some ⟨file, .receiving⟩ ∧
      q = p.endDataReceiving cfg host i file) := by
  unfold FtpProcess.step at h
  split at h
  · cases h
  split at h
  · next line host =>
    split at h
    · cases h
      exact Or.inl ⟨line, host, rfl, rfl⟩
    · cases h
  · split at h
    · cases h
      exact Or.inr (Or.inl ⟨rfl, rfl⟩)
    · cases h
  · next i error =>
    split at h
    · next file hi =>
      rcases error with _ | _
      · cases h
        exact Or.inr (Or.inr (Or.inr (Or.inl ⟨i, file, rfl, hi, rfl⟩)))
      · cases h
        exact Or.inr (Or.inr (Or.inl ⟨i, file, rfl, hi, rfl⟩))
    · cases h
  · next i host =>
    split at h
    · next file hi =>
      cases h
      exact Or.inr (Or.inr (Or.inr (Or.inr ⟨i, host, file, rfl, hi, rfl⟩)))
    · cases h

/-- The end of a transfer changes nothing else. -/
theorem endDataReceiving_session (cfg : Config) (host : Host) (p : FtpProcess) (i : Nat) (file : IoFile) :
    (p.endDataReceiving cfg host i file).session = (p.setStage i .ended).session := by
  unfold FtpProcess.endDataReceiving FtpSession.sendCreateObjectRequest
  dsimp only
  split <;> rfl

end AwsMock.Ftp
