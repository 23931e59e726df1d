import AwsMock.Ftp.Effects
import AwsMock.Lib.Machine

/-!
# Who may do what in an FTP session

Who is logged in is read from the lines of a session alone. Every command needs the permission it is about: without it,
nothing is sent or received and the operating system is not asked to change anything, which is to say that the reaction
is the same whatever it would answer.
-/

namespace AwsMock.Ftp

open Lib

/-! ### Logins -/

/-- What the lines read so far come to. -/
inductive Access where
  | denied
  | named (username : Str)
  | granted (user : FtpUser)
  deriving DecidableEq

/-- The names in the command map. -/
def commandNames : List Str :=
  ["USER", "PASS", "ACCT", "CWD", "CDUP", "REIN", "QUIT", "PORT", "PASV", "TYPE", "STRU", "MODE", "RETR", "STOR", "STOU",
    "APPE", "ALLO", "REST", "RNFR", "RNTO", "ABOR", "DELE", "RMD", "MKD", "PWD", "LIST", "NLST", "SITE", "SYST", "STAT",
    "HELP", "NOOP", "FEAT", "OPTS", "SIZE"].map str

/-- A password counts directly after a user name; lines without a known command are passed over. -/
def Access.after (db : UserDatabase) (a : Access) (line : Str) : Access :=
  let (ftpCommand, parameters) := FtpSession.parseCommand line
  if ftpCommand = str "USER" then .named parameters
  else if ftpCommand = str "PASS" then
    match a with
    | .named username =>
      match db.getUser username parameters with
      | some user => .granted user
      | none => .denied
    | a => a
  else if ftpCommand = str "QUIT" then .denied
  else if ftpCommand ∈ commandNames then
    match a with
    | .named _ => .denied
    | a => a
  else a

/-- The user that is logged in. -/
def Access.user? : Access → Option FtpUser
  | granted user => some user
  | _ => none

/-- The access of a session. -/
structure Grants (s : FtpSession) (a : Access) : Prop where
  user : s.loggedInUser = a.user?
  last : s.lastCommand = str "USER" ↔ ∃ username, a = .named username
  name : ∀ username, a = .named username → s.usernameForLogin = username

/-! ### Permissions -/

/-- A user with this permission is logged in. -/
def Permits (user? : Option FtpUser) (permission : Permission) : Prop :=
  ∃ user, user? = some user ∧ user.lacks permission = false

/-- What may be done for a user that is logged in. -/
def Output.Permitted (user? : Option FtpUser) : Output → Prop
  | message _ | raw _ => True
  | sendFile file => Permits user? Permission.fileRead ∧ ∃ user, user? = some user ∧ file.user = user.password
  | sendDirectoryListing _ | sendNameList _ => Permits user? Permission.dirList
  | deleteObject username _ => Permits user? Permission.fileDelete ∧ ∃ user, user? = some user ∧ username = user.username
  | putObject .. => False

/-- All that a command sends, and the file it awaits, is permitted. -/
structure Lawful (s : FtpSession) (r : Reaction) : Prop where
  outputs : ∀ o ∈ r.outputs, o.Permitted s.loggedInUser
  transfers : r.session.transfers = s.transfers ∨
    (Permits s.loggedInUser Permission.fileWrite ∨ Permits s.loggedInUser Permission.fileAppend) ∧
      ∃ file user, s.loggedInUser = some user ∧ r.session.transfers = s.transfers ++ [{ file := file }] ∧
        file.user = user.username

/-- A command that neither logs in nor out. -/
structure Guarded (s : FtpSession) (r : Reaction) : Prop where
  lawful : Lawful s r
  user : r.session.loggedInUser = s.loggedInUser
  name : r.session.usernameForLogin = s.usernameForLogin

variable {cfg : Config} {host : Host} {s t : FtpSession} {param : Str} {r : Reaction} {user : FtpUser}

/-! ### The commands, one by one -/

/-- A command that only answers. -/
theorem Lawful.answer {code : FtpReplyCode} {message : Str} (htransfers : t.transfers = s.transfers) :
    Lawful s (t.reply code message) := by
  refine ⟨fun o ho => ?_, .inl htransfers⟩
  rw [List.mem_singleton.mp ho]
  trivial

theorem Guarded.answer {code : FtpReplyCode} {message : Str} (huser : t.loggedInUser = s.loggedInUser)
    (hname : t.usernameForLogin = s.usernameForLogin) (htransfers : t.transfers = s.transfers) :
    Guarded s (t.reply code message) := ⟨.answer htransfers, huser, hname⟩

theorem guarded_reply (code : FtpReplyCode) (message : Str) : Guarded s (s.reply code message) :=
  .answer rfl rfl rfl

theorem executeCWD_guarded (host : Host) (s : FtpSession) (param : Str) :
    (FtpSession.executeCWD host s param).2.loggedInUser = s.loggedInUser ∧
      (FtpSession.executeCWD host s param).2.usernameForLogin = s.usernameForLogin ∧
      (FtpSession.executeCWD host s param).2.transfers = s.transfers := by
  unfold FtpSession.executeCWD
  split
  · exact ⟨rfl, rfl, rfl⟩
  split
  · exact ⟨rfl, rfl, rfl⟩
  split
  · exact ⟨rfl, rfl, rfl⟩
  dsimp only
  split
  · exact ⟨rfl, rfl, rfl⟩
  split
  · exact ⟨rfl, rfl, rfl⟩
  split <;> exact ⟨rfl, rfl, rfl⟩

theorem guarded_message (m : FtpMessage) (huser : t.loggedInUser = s.loggedInUser)
    (hname : t.usernameForLogin = s.usernameForLogin) (htransfers : t.transfers = s.transfers) :
    Guarded s { session := t, outputs := [.message m] } :=
  Guarded.answer huser hname htransfers

theorem guarded_CWD (host : Host) (s : FtpSession) (param : Str) : Guarded s (s.handleFtpCommandCWD host param) := by
  obtain ⟨huser, hname, htransfers⟩ := executeCWD_guarded host s param
  exact guarded_message _ huser hname htransfers

theorem guarded_CDUP (host : Host) (s : FtpSession) : Guarded s (s.handleFtpCommandCDUP host) := by
  obtain ⟨huser, hname, htransfers⟩ := executeCWD_guarded host s (str "..")
  unfold FtpSession.handleFtpCommandCDUP
  split
  · exact guarded_reply ..
  split_ifs
  · exact guarded_reply ..
  · dsimp only
    split
    · exact .answer huser hname htransfers
    · exact guarded_message _ huser hname htransfers
  · exact guarded_reply ..

theorem guarded_PASV (host : Host) (s : FtpSession) : Guarded s (s.handleFtpCommandPASV host) := by
  unfold FtpSession.handleFtpCommandPASV
  split
  · exact guarded_reply ..
  · split <;> exact .answer rfl rfl rfl

theorem guarded_TYPE (s : FtpSession) (param : Str) : Guarded s (s.handleFtpCommandTYPE param) := by
  unfold FtpSession.handleFtpCommandTYPE
  split_ifs <;> exact .answer rfl rfl rfl

theorem permits_of (huser : s.loggedInUser = some user) {permission : Permission} (h : ¬ user.lacks permission = true) :
    Permits s.loggedInUser permission := ⟨user, huser, by simpa using h⟩

theorem guarded_RETR (host : Host) (s : FtpSession) (param : Str) : Guarded s (s.handleFtpCommandRETR host param) := by
  unfold FtpSession.handleFtpCommandRETR
  split
  · exact guarded_reply ..
  · next user huser =>
    dsimp only
    split_ifs with hread hopen hgood
    · exact guarded_reply ..
    · exact guarded_reply ..
    · exact guarded_reply ..
    · refine ⟨⟨fun o ho => ?_, .inl rfl⟩, rfl, rfl⟩
      rcases List.mem_cons.mp ho with rfl | ho
      · trivial
      · rw [List.mem_singleton.mp ho]
        exact ⟨permits_of huser hread, user, huser, rfl⟩

theorem guarded_SIZE (host : Host) (s : FtpSession) (param : Str) : Guarded s (s.handleFtpCommandSIZE host param) := by
  unfold FtpSession.handleFtpCommandSIZE
  split
  · exact guarded_reply ..
  dsimp only
  split_ifs
  · exact guarded_reply ..
  · exact guarded_reply ..
  · split <;> exact guarded_reply ..

theorem guarded_receiveFile (host : Host) {user : FtpUser} (huser : s.loggedInUser = some user) (localPath : Str)
    (mode : OpenMode)
    (h : Permits s.loggedInUser Permission.fileWrite ∨ Permits s.loggedInUser Permission.fileAppend) :
    Guarded s (s.receiveFile host user localPath mode) := by
  unfold FtpSession.receiveFile
  split
  · exact guarded_reply ..
  · refine ⟨⟨fun o ho => ?_, .inr ⟨h, _, user, huser, rfl, rfl⟩⟩, rfl, rfl⟩
    rw [List.mem_singleton.mp ho]
    trivial

theorem guarded_STOR (host : Host) (s : FtpSession) (param : Str) : Guarded s (s.handleFtpCommandSTOR host param) := by
  unfold FtpSession.handleFtpCommandSTOR
  split
  · exact guarded_reply ..
  · next user huser =>
    dsimp only
    split_ifs with hwrite
    · exact guarded_reply ..
    · exact guarded_reply ..
    · exact guarded_reply ..
    · exact guarded_reply ..
    · exact guarded_receiveFile host huser _ _ (.inl (permits_of huser hwrite))

theorem guarded_APPE (host : Host) (s : FtpSession) (param : Str) : Guarded s (s.handleFtpCommandAPPE host param) := by
  unfold FtpSession.handleFtpCommandAPPE
  split
  · exact guarded_reply ..
  · next user huser =>
    dsimp only
    split_ifs with happend
    · exact guarded_reply ..
    · exact guarded_reply ..
    · exact guarded_reply ..
    · exact guarded_receiveFile host huser _ _ (.inr (permits_of huser happend))

theorem guarded_RNFR (host : Host) (s : FtpSession) (param : Str) : Guarded s (s.handleFtpCommandRNFR host param) := by
  unfold FtpSession.handleFtpCommandRNFR
  dsimp only
  split
  · exact .answer rfl rfl rfl
  · exact guarded_message _ rfl rfl rfl

theorem guarded_RNTO (host : Host) (s : FtpSession) (param : Str) : Guarded s (s.handleFtpCommandRNTO host param) := by
  unfold FtpSession.handleFtpCommandRNTO
  split
  · exact guarded_reply ..
  · dsimp only
    split_ifs
    · exact guarded_reply ..
    · exact guarded_reply ..
    · exact guarded_reply ..
    · exact guarded_reply ..
    · exact guarded_reply ..
    · exact guarded_message _ rfl rfl rfl

theorem guarded_DELE (cfg : Config) (host : Host) (s : FtpSession) (param : Str) :
    Guarded s (s.handleFtpCommandDELE cfg host param) := by
  unfold FtpSession.handleFtpCommandDELE
  split
  · exact guarded_reply ..
  next user huser =>
  dsimp only
  split
  · exact guarded_reply ..
  split_ifs with htype hdelete hunlink
  · exact guarded_reply ..
  · exact guarded_reply ..
  · -- the file is deleted, and then the object
    have hpermitted : ∀ request, (Output.deleteObject user.username request).Permitted s.loggedInUser :=
      fun _ => ⟨permits_of huser hdelete, user, huser, rfl⟩
    unfold FtpSession.sendDeleteObjectRequest
    split
    · exact ⟨⟨by simp, .inl rfl⟩, rfl, rfl⟩
    · dsimp only
      split
      · refine ⟨⟨fun o ho => ?_, .inl rfl⟩, rfl, rfl⟩
        rcases List.mem_cons.mp ho with rfl | ho
        · exact hpermitted _
        · rw [List.mem_singleton.mp ho]
          trivial
      · refine ⟨⟨fun o ho => ?_, .inl rfl⟩, rfl, rfl⟩
        rw [List.mem_singleton.mp ho]
        exact hpermitted _
  · exact guarded_reply ..

theorem guarded_RMD (host : Host) (s : FtpSession) (param : Str) : Guarded s (s.handleFtpCommandRMD host param) := by
  unfold FtpSession.handleFtpCommandRMD
  split
  · exact guarded_reply ..
  · split_ifs <;> exact guarded_reply ..

theorem guarded_MKD (host : Host) (s : FtpSession) (param : Str) : Guarded s (s.handleFtpCommandMKD host param) := by
  unfold FtpSession.handleFtpCommandMKD
  split
  · exact guarded_reply ..
  · split_ifs <;> exact guarded_reply ..

theorem guarded_PWD (s : FtpSession) : Guarded s s.handleFtpCommandPWD := by
  unfold FtpSession.handleFtpCommandPWD
  split_ifs <;> exact guarded_reply ..

theorem guarded_listDirectory (host : Host) (s : FtpSession) (path sending : Str) {send : Str → Output}
    (hsend : ∀ path, (send path).Permitted s.loggedInUser ↔ Permits s.loggedInUser Permission.dirList) :
    Guarded s (s.listDirectory host path sending send) := by
  unfold FtpSession.listDirectory
  split
  · exact guarded_reply ..
  next user huser =>
  split_ifs with hlist
  · exact guarded_reply ..
  dsimp only
  split
  · exact guarded_reply ..
  split_ifs
  · exact guarded_reply ..
  · refine ⟨⟨fun o ho => ?_, .inl rfl⟩, rfl, rfl⟩
    rcases List.mem_cons.mp ho with rfl | ho
    · trivial
    · rw [List.mem_singleton.mp ho]
      exact (hsend _).mpr (permits_of huser hlist)
  · exact guarded_reply ..

theorem guarded_OPTS (s : FtpSession) (param : Str) : Guarded s (s.handleFtpCommandOPTS param) := by
  unfold FtpSession.handleFtpCommandOPTS
  split_ifs <;> exact guarded_reply ..

theorem lawful_USER (s : FtpSession) (param : Str) : Lawful s (s.handleFtpCommandUSER param) := by
  unfold FtpSession.handleFtpCommandUSER
  dsimp only
  split <;> exact .answer rfl

theorem lawful_PASS (s : FtpSession) (param : Str) : Lawful s (s.handleFtpCommandPASS param) := by
  unfold FtpSession.handleFtpCommandPASS
  split
  · exact .answer rfl
  · split <;> exact .answer rfl

/-- What is shown of an entry of the command map: some log in or out. -/
def EntryLawful (s : FtpSession) (entry : Str × Reaction) : Prop :=
  Lawful s entry.2 ∧
    (entry.1 ≠ str "USER" → entry.1 ≠ str "PASS" → entry.1 ≠ str "QUIT" → Guarded s entry.2)

theorem Guarded.entry (h : Guarded s r) (name : Str) : EntryLawful s (name, r) := ⟨h.lawful, fun _ _ _ => h⟩

theorem lawful_commandMap (cfg : Config) (host : Host) (s : FtpSession) (param : Str) :
    ∀ entry ∈ s.commandMap cfg host param, EntryLawful s entry := by
  have hreply : ∀ name code message, EntryLawful s (name, s.reply code message) :=
    fun name code message => (guarded_reply code message).entry name
  simp only [FtpSession.commandMap, List.forall_mem_cons, List.not_mem_nil, false_implies, implies_true, and_true]
  refine ⟨⟨lawful_USER .., fun h => absurd rfl h⟩, ⟨lawful_PASS .., fun _ h => absurd rfl h⟩, hreply .., ?_⟩
  refine ⟨(guarded_CWD ..).entry _, (guarded_CDUP ..).entry _, hreply .., ⟨.answer rfl, fun _ _ h => absurd rfl h⟩,
    hreply .., (guarded_PASV ..).entry _, (guarded_TYPE ..).entry _, hreply .., hreply .., (guarded_RETR ..).entry _,
    (guarded_STOR ..).entry _, hreply .., (guarded_APPE ..).entry _, hreply .., hreply .., (guarded_RNFR ..).entry _,
    (guarded_RNTO ..).entry _, hreply .., (guarded_DELE ..).entry _, (guarded_RMD ..).entry _,
    (guarded_MKD ..).entry _, (guarded_PWD ..).entry _, ?_⟩
  refine ⟨(guarded_listDirectory _ _ _ _ fun _ => Iff.rfl).entry _,
    (guarded_listDirectory _ _ _ _ fun _ => Iff.rfl).entry _, hreply .., hreply .., hreply .., hreply .., hreply .., ?_,
    (guarded_OPTS ..).entry _, (guarded_SIZE ..).entry _⟩
  have hfeat : Guarded s s.handleFtpCommandFEAT := by
    refine ⟨⟨fun o ho => ?_, .inl rfl⟩, rfl, rfl⟩
    rw [List.mem_singleton.mp ho]
    trivial
  exact hfeat.entry _

/-! ### What the system is asked -/

/-- Where nobody is logged in, the answers of the system do not matter. -/
theorem commandMap_denied (cfg : Config) (host host' : Host) {s : FtpSession} (hs : s.loggedInUser = none)
    (param : Str) : s.commandMap cfg host param = s.commandMap cfg host' param := by
  simp only [FtpSession.commandMap, FtpSession.handleFtpCommandCWD, FtpSession.executeCWD,
    FtpSession.handleFtpCommandCDUP, FtpSession.handleFtpCommandPASV, FtpSession.handleFtpCommandRETR,
    FtpSession.handleFtpCommandSTOR, FtpSession.handleFtpCommandAPPE, FtpSession.handleFtpCommandRNFR,
    FtpSession.checkIfPathIsRenamable, FtpSession.handleFtpCommandRNTO, FtpSession.handleFtpCommandDELE,
    FtpSession.handleFtpCommandRMD, FtpSession.handleFtpCommandMKD, FtpSession.handleFtpCommandLIST,
    FtpSession.handleFtpCommandNLST, FtpSession.listDirectory, FtpSession.handleFtpCommandSIZE, hs, if_true]

theorem lacks_of_not_permits {permission : Permission} (huser : s.loggedInUser = some user)
    (h : ¬ Permits s.loggedInUser permission) : user.lacks permission = true := by
  by_contra hlacks
  exact h (permits_of huser hlacks)

/-- Without its permission, no file is deleted. -/
theorem commandMap_unlink (h : ¬ Permits s.loggedInUser Permission.fileDelete) (f : Str → Bool) (param : Str) :
    s.commandMap cfg { host with unlink := f } param = s.commandMap cfg host param := by
  have hdele : s.handleFtpCommandDELE cfg { host with unlink := f } param = s.handleFtpCommandDELE cfg host param := by
    unfold FtpSession.handleFtpCommandDELE
    split
    · rfl
    · next user huser => simp only [lacks_of_not_permits huser h, if_true]
  simp only [FtpSession.commandMap, hdele]
  rfl

/-- Without its permission, no directory is removed. -/
theorem commandMap_rmdir (h : ¬ Permits s.loggedInUser Permission.dirDelete) (f : Str → Bool) (param : Str) :
    s.commandMap cfg { host with rmdir := f } param = s.commandMap cfg host param := by
  have hrmd : s.handleFtpCommandRMD { host with rmdir := f } param = s.handleFtpCommandRMD host param := by
    unfold FtpSession.handleFtpCommandRMD
    split
    · rfl
    · next user huser => simp only [lacks_of_not_permits huser h, if_true]
  simp only [FtpSession.commandMap, hrmd]
  rfl

/-- Without its permission, no directory is made. -/
theorem commandMap_mkdir (h : ¬ Permits s.loggedInUser Permission.dirCreate) (f : Str → Bool) (param : Str) :
    s.commandMap cfg { host with mkdir := f } param = s.commandMap cfg host param := by
  have hmkd : s.handleFtpCommandMKD { host with mkdir := f } param = s.handleFtpCommandMKD host param := by
    unfold FtpSession.handleFtpCommandMKD
    split
    · rfl
    · next user huser => simp only [lacks_of_not_permits huser h, if_true]
  simp only [FtpSession.commandMap, hmkd]
  rfl

/-- A path can be renamed with the permission for its kind. -/
theorem checkIfPathIsRenamable_commandOk {path : Str}
    (h : (FtpSession.checkIfPathIsRenamable host s path).code = .commandOk) :
    Permits s.loggedInUser Permission.dirRename ∨ Permits s.loggedInUser Permission.fileRename := by
  unfold FtpSession.checkIfPathIsRenamable at h
  split at h
  · cases h
  next user huser =>
  split at h
  · cases h
  split at h
  · cases h
  next status _ =>
  dsimp only at h
  by_cases hdir : status.type = .dir
  · rw [if_pos hdir] at h
    split at h
    · cases h
    · next hrequired =>
      refine .inl (permits_of huser ?_)
      rw [FtpUser.lacks, not_ne_iff.mp hrequired]
      decide
  · rw [if_neg hdir] at h
    split at h
    · cases h
    · next hrequired =>
      refine .inr (permits_of huser ?_)
      rw [FtpUser.lacks, not_ne_iff.mp hrequired]
      decide

/-- Nothing is renamed without a permission, or when the command before was not `RNFR`. -/
theorem commandMap_rename (h : ¬ (Permits s.loggedInUser Permission.dirRename ∨
      Permits s.loggedInUser Permission.fileRename) ∨ s.lastCommand ≠ str "RNFR") (f : Str → Str → Bool) (param : Str) :
    s.commandMap cfg { host with rename := f } param = s.commandMap cfg host param := by
  have hcheck : ∀ path, FtpSession.checkIfPathIsRenamable { host with rename := f } s path =
      FtpSession.checkIfPathIsRenamable host s path := fun _ => rfl
  have hrnto : s.handleFtpCommandRNTO { host with rename := f } param = s.handleFtpCommandRNTO host param := by
    unfold FtpSession.handleFtpCommandRNTO
    split
    · rfl
    · rcases h with hdenied | hlast
      · have hcode : (FtpSession.checkIfPathIsRenamable host s s.renameFromPath).code ≠ .commandOk :=
          fun hcode => hdenied (checkIfPathIsRenamable_commandOk hcode)
        simp only [hcheck, hcode, if_false]
      · simp only [hlast, ne_eq, not_false_eq_true, true_or, if_true]
  simp only [FtpSession.commandMap, hrnto]
  rfl

/-- A line has the same reaction when its commands do. -/
theorem handleFtpCommand_congr {host' : Host} (h : ∀ param, s.commandMap cfg host' param = s.commandMap cfg host param)
    (line : Str) : s.handleFtpCommand cfg host' line = s.handleFtpCommand cfg host line := by
  simp only [FtpSession.handleFtpCommand, h]

/-- What a line can do in a session. -/
structure Authorized (cfg : Config) (host : Host) (s : FtpSession) (line : Str) : Prop where
  outputs : ∀ o ∈ (s.handleFtpCommand cfg host line).outputs, o.Permitted s.loggedInUser
  transfers : (s.handleFtpCommand cfg host line).session.transfers = s.transfers ∨
    (Permits s.loggedInUser Permission.fileWrite ∨ Permits s.loggedInUser Permission.fileAppend) ∧
      ∃ file user, s.loggedInUser = some user ∧
        (s.handleFtpCommand cfg host line).session.transfers = s.transfers ++ [{ file := file }] ∧
        file.user = user.username
  system : s.loggedInUser = none → ∀ host', s.handleFtpCommand cfg host' line = s.handleFtpCommand cfg host line
  unlink : ¬ Permits s.loggedInUser Permission.fileDelete → ∀ f,
    s.handleFtpCommand cfg { host with unlink := f } line = s.handleFtpCommand cfg host line
  rmdir : ¬ Permits s.loggedInUser Permission.dirDelete → ∀ f,
    s.handleFtpCommand cfg { host with rmdir := f } line = s.handleFtpCommand cfg host line
  mkdir : ¬ Permits s.loggedInUser Permission.dirCreate → ∀ f,
    s.handleFtpCommand cfg { host with mkdir := f } line = s.handleFtpCommand cfg host line
  rename : ¬ (Permits s.loggedInUser Permission.dirRename ∨ Permits s.loggedInUser Permission.fileRename) ∨
      s.lastCommand ≠ str "RNFR" → ∀ f,
    s.handleFtpCommand cfg { host with rename := f } line = s.handleFtpCommand cfg host line

/-! ### Whole sessions -/

theorem commandMap_names (cfg : Config) (host : Host) (s : FtpSession) (param : Str) :
    (s.commandMap cfg host param).map Prod.fst = commandNames := rfl

/-- A line is handled by the entry of its command, if there is one. -/
theorem handleFtpCommand_cases (cfg : Config) (host : Host) (s : FtpSession) (line : Str) :
    (∃ r, ((FtpSession.parseCommand line).1, r) ∈ s.commandMap cfg host (FtpSession.parseCommand line).2 ∧
      s.handleFtpCommand cfg host line =
        if r.ending = none then
          { r with session := { r.session with
              lastCommand := (FtpSession.parseCommand line).1
              reading := (FtpSession.parseCommand line).1 ≠ str "QUIT" } }
        else r) ∨
    ((FtpSession.parseCommand line).1 ∉ commandNames ∧
      s.handleFtpCommand cfg host line = { s with reading := s.lastCommand ≠ str "QUIT" }.reply
        .syntaxErrorUnrecognizedCommand (str "Unrecognized command")) := by
  unfold FtpSession.handleFtpCommand
  dsimp only
  split
  · next name r hfind =>
    have hname : name = (FtpSession.parseCommand line).1 := by simpa using List.find?_some hfind
    refine .inl ⟨r, ?_, rfl⟩
    rw [← hname]
    exact List.mem_of_find?_eq_some hfind
  · next hfind =>
    refine .inr ⟨?_, rfl⟩
    rw [← commandMap_names cfg host s (FtpSession.parseCommand line).2, List.mem_map]
    rintro ⟨entry, hmem, hname⟩
    have hnot := List.find?_eq_none.mp hfind entry hmem
    simp [hname] at hnot

/-- The commands but those that log in or out give no user access. -/
theorem access_after_other (db : UserDatabase) (a : Access) (line : Str)
    (huser : (FtpSession.parseCommand line).1 ≠ str "USER") (hpass : (FtpSession.parseCommand line).1 ≠ str "PASS")
    (hquit : (FtpSession.parseCommand line).1 ≠ str "QUIT") (hknown : (FtpSession.parseCommand line).1 ∈ commandNames) :
    (a.after db line).user? = a.user? ∧ ∀ username, a.after db line ≠ .named username := by
  simp only [Access.after, if_neg huser, if_neg hpass, if_neg hquit, if_pos hknown]
  cases a with
  | denied => exact ⟨rfl, nofun⟩
  | named username => exact ⟨rfl, nofun⟩
  | granted user => exact ⟨rfl, nofun⟩

/-- A line changes the access of a session as it changes the access itself. -/
theorem Grants.line {a : Access} (h : Grants s a) (line : Str)
    (hending : (s.handleFtpCommand cfg host line).ending = none) :
    Grants (s.handleFtpCommand cfg host line).session (a.after s.userDatabase line) := by
  rcases hline : FtpSession.parseCommand line with ⟨ftpCommand, parameters⟩
  simp only [FtpSession.handleFtpCommand, hline] at hending ⊢
  by_cases huser : ftpCommand = str "USER"
  · subst huser
    have hfind : (s.commandMap cfg host parameters).find? (fun entry => entry.1 = str "USER") =
        some (str "USER", s.handleFtpCommandUSER parameters) := rfl
    have hafter : a.after s.userDatabase line = .named parameters := by simp [Access.after, hline]
    rw [hafter]
    simp only [hfind]
    unfold FtpSession.handleFtpCommandUSER
    dsimp only
    split <;> exact ⟨rfl, by simp [FtpSession.reply], fun _ hname => by cases hname; rfl⟩
  by_cases hpass : ftpCommand = str "PASS"
  · subst hpass
    have hfind : (s.commandMap cfg host parameters).find? (fun entry => entry.1 = str "PASS") =
        some (str "PASS", s.handleFtpCommandPASS parameters) := rfl
    simp only [hfind]
    unfold FtpSession.handleFtpCommandPASS
    have hne : str "PASS" ≠ str "USER" := by decide
    by_cases hlast : s.lastCommand = str "USER"
    · obtain ⟨username, rfl⟩ := h.last.mp hlast
      have hname := h.name username rfl
      rw [if_neg (not_ne_iff.mpr hlast), hname]
      have hafter : (Access.named username).after s.userDatabase line =
          match s.userDatabase.getUser username parameters with
          | some user => .granted user
          | none => .denied := by
        simp [Access.after, hline, hne]
      rw [hafter]
      rcases s.userDatabase.getUser username parameters with _ | user
      · exact ⟨h.user, by simp [FtpSession.reply, hne], nofun⟩
      · exact ⟨rfl, by simp [FtpSession.reply, hne], nofun⟩
    · have hafter : a.after s.userDatabase line = a := by
        cases a with
        | denied => simp [Access.after, hline, hne]
        | named username => exact absurd (h.last.mpr ⟨username, rfl⟩) hlast
        | granted user => simp [Access.after, hline, hne]
      rw [hafter, if_pos hlast]
      have hnamed : ∀ username, a ≠ .named username := fun username ha => hlast (h.last.mpr ⟨username, ha⟩)
      exact ⟨h.user, by simp [FtpSession.reply, hne, hnamed], fun username ha => absurd ha (hnamed username)⟩
  by_cases hquit : ftpCommand = str "QUIT"
  · subst hquit
    have hfind : (s.commandMap cfg host parameters).find? (fun entry => entry.1 = str "QUIT") =
        some (str "QUIT", s.handleFtpCommandQUIT) := rfl
    have hne : str "QUIT" ≠ str "USER" := by decide
    have hne' : str "QUIT" ≠ str "PASS" := by decide
    have hafter : a.after s.userDatabase line = .denied := by simp [Access.after, hline, hne, hne']
    rw [hafter]
    simp only [hfind]
    exact ⟨rfl, by simp [FtpSession.handleFtpCommandQUIT, FtpSession.reply, hne], nofun⟩
  have hcases := handleFtpCommand_cases cfg host s line
  simp only [FtpSession.handleFtpCommand, hline] at hcases
  obtain ⟨r, hmem, heq⟩ | ⟨hunknown, heq⟩ := hcases
  · rw [heq] at hending ⊢
    have hguarded := (lawful_commandMap cfg host s parameters _ hmem).2 huser hpass hquit
    have hknown : ftpCommand ∈ commandNames := by
      rw [← commandMap_names cfg host s parameters]
      exact List.mem_map_of_mem hmem
    obtain ⟨hsame, hnamed⟩ := access_after_other s.userDatabase a line
      (by rw [hline]; exact huser) (by rw [hline]; exact hpass) (by rw [hline]; exact hquit)
      (by rw [hline]; exact hknown)
    have hnone : r.ending = none := by
      split at hending
      · assumption
      · exact hending
    rw [if_pos hnone]
    exact ⟨by rw [hsame, ← h.user]; exact hguarded.user, by simp [huser, hnamed],
      fun username ha => absurd ha (hnamed _)⟩
  · -- not a command
    have hafter : a.after s.userDatabase line = a := by
      simp [Access.after, hline, huser, hpass, hquit, hunknown]
    rw [hafter, heq]
    exact ⟨h.user, h.last, h.name⟩

theorem authorized (cfg : Config) (host : Host) (s : FtpSession) (line : Str) : Authorized cfg host s line := by
  refine ⟨?_, ?_, fun hs host' => handleFtpCommand_congr (commandMap_denied cfg host' host hs) line,
    fun h f => handleFtpCommand_congr (commandMap_unlink h f) line,
    fun h f => handleFtpCommand_congr (commandMap_rmdir h f) line,
    fun h f => handleFtpCommand_congr (commandMap_mkdir h f) line,
    fun h f => handleFtpCommand_congr (commandMap_rename h f) line⟩
  · obtain ⟨r, hmem, heq⟩ | ⟨-, heq⟩ := handleFtpCommand_cases cfg host s line
    · have hlawful := (lawful_commandMap cfg host s _ _ hmem).1
      rw [heq]
      split <;> exact hlawful.outputs
    · rw [heq]
      exact (Lawful.answer (s := s) rfl).outputs
  · obtain ⟨r, hmem, heq⟩ | ⟨-, heq⟩ := handleFtpCommand_cases cfg host s line
    · have hlawful := (lawful_commandMap cfg host s _ _ hmem).1
      rw [heq]
      split <;> exact hlawful.transfers
    · rw [heq]
      exact .inl rfl

/-- The line of an event. -/
def FtpEvent.line? : FtpEvent → Option Str
  | command line _ => some line
  | _ => none

/-- The access that the lines of a session come to. -/
def accessOf (db : UserDatabase) (events : List FtpEvent) : Access :=
  (events.filterMap FtpEvent.line?).foldl (Access.after db) .denied

variable {e : FtpEvent} {p q : FtpProcess} {a : Access}

/-- A process that has ended does nothing. -/
theorem ending_of_step (h : FtpProcess.step cfg e p = some q) : p.ending = none := by
  unfold FtpProcess.step at h
  split at h
  · cases h
  · next hnone => exact not_ne_iff.mp hnone

theorem Grants.step (hp : Grants p.session a) (h : FtpProcess.step cfg e p = some q) (hq : q.ending = none) :
    Grants q.session ((e.line?.toList).foldl (Access.after p.session.userDatabase) a) ∧
      q.session.userDatabase = p.session.userDatabase := by
  rcases step_session h with ⟨line, host, rfl, rfl⟩ | ⟨rfl, rfl⟩ | ⟨i, file, rfl, -, rfl⟩ | ⟨i, file, rfl, -, rfl⟩ |
    ⟨i, host, file, rfl, -, rfl⟩
  · exact ⟨hp.line line hq, (effect_handleFtpCommand cfg host p.session line).changes.userDatabase⟩
  · exact ⟨⟨hp.user, hp.last, hp.name⟩, rfl⟩
  · exact ⟨⟨hp.user, hp.last, hp.name⟩, rfl⟩
  · exact ⟨⟨hp.user, hp.last, hp.name⟩, rfl⟩
  · rw [endDataReceiving_session]
    exact ⟨⟨hp.user, hp.last, hp.name⟩, rfl⟩

theorem Grants.steps {events : List FtpEvent} (hp : Grants p.session a)
    (h : Lib.steps (FtpProcess.step cfg) events p = some q) (hq : q.ending = none) :
    Grants q.session ((events.filterMap FtpEvent.line?).foldl (Access.after p.session.userDatabase) a) := by
  induction events generalizing p a with
  | nil =>
    cases h
    exact hp
  | cons e events ih =>
    obtain ⟨u, hu, huq⟩ := steps_cons_eq_some.mp h
    have hend : u.ending = none := by
      cases events with
      | nil =>
        cases huq
        exact hq
      | cons e' events =>
        obtain ⟨w, hw, -⟩ := steps_cons_eq_some.mp huq
        exact ending_of_step hw
    obtain ⟨hgrants, hdatabase⟩ := hp.step hu hend
    have hrest := ih hgrants huq
    rw [hdatabase] at hrest
    rcases hline : e.line? with _ | line
    · simpa [List.filterMap_cons, hline] using hrest
    · simpa [List.filterMap_cons, hline] using hrest

/-- A user that logs in, and one that types a command before the password. -/
def loginEvents : List FtpEvent :=
  [.command (str "USER anonymous") .willing, .command (str "NOOP") .willing, .command (str "PASS 123") .willing,
    .command (str "user anonymous") .willing, .command (str "what") .willing, .command (str "PASS 123") .willing]

end AwsMock.Ftp
