import AwsMock.Ftp.ControlChannel

/-!
# The conversation of a session

Every command says one thing to the client. The lines that are answered are the lines of all that came in, however it was
cut; this carries over to who is logged in.
-/

namespace AwsMock.Ftp

open Lib

/-! ### One answer to each line -/

/-- A command that does not end the process says one thing to the client. -/
def Answers (r : Reaction) : Prop := r.ending = none → ∃ text, r.outputs.filterMap Output.text? = [text]

variable {cfg : Config} {host : Host} {s t : FtpSession} {param : Str}

theorem answers_reply (t : FtpSession) (code : FtpReplyCode) (message : Str) : Answers (t.reply code message) :=
  fun _ => ⟨_, rfl⟩

theorem answers_USER (s : FtpSession) (param : Str) : Answers (s.handleFtpCommandUSER param) := by
  unfold FtpSession.handleFtpCommandUSER
  split <;> exact answers_reply _ _ _

theorem answers_PASS (s : FtpSession) (param : Str) : Answers (s.handleFtpCommandPASS param) := by
  unfold FtpSession.handleFtpCommandPASS
  split_ifs
  · exact answers_reply _ _ _
  · split <;> exact answers_reply _ _ _

theorem answers_CDUP (host : Host) (s : FtpSession) : Answers (s.handleFtpCommandCDUP host) := by
  unfold FtpSession.handleFtpCommandCDUP
  split
  · exact answers_reply _ _ _
  split_ifs
  · exact answers_reply _ _ _
  · dsimp only
    split <;> exact answers_reply _ _ _
  · exact answers_reply _ _ _

theorem answers_PASV (host : Host) (s : FtpSession) : Answers (s.handleFtpCommandPASV host) := by
  unfold FtpSession.handleFtpCommandPASV
  split_ifs
  · exact answers_reply _ _ _
  · split <;> exact answers_reply _ _ _

theorem answers_TYPE (s : FtpSession) (param : Str) : Answers (s.handleFtpCommandTYPE param) := by
  unfold FtpSession.handleFtpCommandTYPE
  split_ifs <;> exact answers_reply _ _ _

theorem answers_RETR (host : Host) (s : FtpSession) (param : Str) : Answers (s.handleFtpCommandRETR host param) := by
  unfold FtpSession.handleFtpCommandRETR
  split
  · exact answers_reply _ _ _
  split_ifs
  · exact answers_reply _ _ _
  · exact answers_reply _ _ _
  · dsimp only
    split_ifs
    · exact answers_reply _ _ _
    · exact fun _ => ⟨_, rfl⟩

theorem answers_SIZE (host : Host) (s : FtpSession) (param : Str) : Answers (s.handleFtpCommandSIZE host param) := by
  unfold FtpSession.handleFtpCommandSIZE
  split
  · exact answers_reply _ _ _
  split_ifs
  · exact answers_reply _ _ _
  · dsimp only
    split_ifs
    · exact answers_reply _ _ _
    · split <;> exact answers_reply _ _ _

theorem answers_receiveFile (host : Host) (s : FtpSession) (user : FtpUser) (localPath : Str) (mode : OpenMode) :
    Answers (s.receiveFile host user localPath mode) := by
  unfold FtpSession.receiveFile
  split <;> exact answers_reply _ _ _

theorem answers_STOR (host : Host) (s : FtpSession) (param : Str) : Answers (s.handleFtpCommandSTOR host param) := by
  unfold FtpSession.handleFtpCommandSTOR
  split
  · exact answers_reply _ _ _
  split_ifs
  · exact answers_reply _ _ _
  · exact answers_reply _ _ _
  · dsimp only
    split_ifs
    · exact answers_reply _ _ _
    · exact answers_reply _ _ _
    · exact answers_receiveFile _ _ _ _ _

theorem answers_APPE (host : Host) (s : FtpSession) (param : Str) : Answers (s.handleFtpCommandAPPE host param) := by
  unfold FtpSession.handleFtpCommandAPPE
  split
  · exact answers_reply _ _ _
  split_ifs
  · exact answers_reply _ _ _
  · exact answers_reply _ _ _
  · dsimp only
    split_ifs
    · exact answers_reply _ _ _
    · exact answers_receiveFile _ _ _ _ _

theorem answers_RNFR (host : Host) (s : FtpSession) (param : Str) : Answers (s.handleFtpCommandRNFR host param) := by
  unfold FtpSession.handleFtpCommandRNFR
  dsimp only
  split
  · exact answers_reply _ _ _
  · exact fun _ => ⟨_, rfl⟩

theorem answers_RNTO (host : Host) (s : FtpSession) (param : Str) : Answers (s.handleFtpCommandRNTO host param) := by
  unfold FtpSession.handleFtpCommandRNTO
  split
  · exact answers_reply _ _ _
  · dsimp only
    split_ifs
    · exact answers_reply _ _ _
    · exact answers_reply _ _ _
    · exact answers_reply _ _ _
    · exact answers_reply _ _ _
    · exact answers_reply _ _ _
    · exact fun _ => ⟨_, rfl⟩

/-- A deleted file is answered after the request to S3, if this returns. -/
theorem answers_DELE (cfg : Config) (host : Host) (s : FtpSession) (param : Str) :
    Answers (s.handleFtpCommandDELE cfg host param) := by
  unfold FtpSession.handleFtpCommandDELE
  split
  · exact answers_reply _ _ _
  dsimp only
  split
  · exact answers_reply _ _ _
  split_ifs
  · exact answers_reply _ _ _
  · exact answers_reply _ _ _
  · unfold FtpSession.sendDeleteObjectRequest
    split
    · exact nofun
    · dsimp only
      split
      · exact fun _ => ⟨_, rfl⟩
      · exact nofun
  · exact answers_reply _ _ _

theorem answers_RMD (host : Host) (s : FtpSession) (param : Str) : Answers (s.handleFtpCommandRMD host param) := by
  unfold FtpSession.handleFtpCommandRMD
  split
  · exact answers_reply _ _ _
  · split_ifs <;> exact answers_reply _ _ _

theorem answers_MKD (host : Host) (s : FtpSession) (param : Str) : Answers (s.handleFtpCommandMKD host param) := by
  unfold FtpSession.handleFtpCommandMKD
  split
  · exact answers_reply _ _ _
  · split_ifs <;> exact answers_reply _ _ _

theorem answers_PWD (s : FtpSession) : Answers s.handleFtpCommandPWD := by
  unfold FtpSession.handleFtpCommandPWD
  split_ifs <;> exact answers_reply _ _ _

/-- What is sent over a data connection is not an answer. -/
theorem answers_listDirectory (host : Host) (s : FtpSession) (path sending : Str) {send : Str → Output}
    (hsend : ∀ path, (send path).text? = none) : Answers (s.listDirectory host path sending send) := by
  unfold FtpSession.listDirectory
  split
  · exact answers_reply _ _ _
  split_ifs
  · exact answers_reply _ _ _
  dsimp only
  split
  · exact answers_reply _ _ _
  split_ifs
  · exact answers_reply _ _ _
  · refine fun _ => ⟨FtpMessage.str ⟨.fileStatusOkOpeningDataConnection, sending⟩, ?_⟩
    simp only [List.filterMap_cons, hsend]
    rfl
  · exact answers_reply _ _ _

theorem answers_OPTS (s : FtpSession) (param : Str) : Answers (s.handleFtpCommandOPTS param) := by
  unfold FtpSession.handleFtpCommandOPTS
  split_ifs <;> exact answers_reply _ _ _

theorem answers_commandMap (cfg : Config) (host : Host) (s : FtpSession) (param : Str) :
    ∀ entry ∈ s.commandMap cfg host param, Answers entry.2 := by
  have hreply : ∀ code message, Answers (s.reply code message) := answers_reply s
  simp only [FtpSession.commandMap, List.forall_mem_cons, List.not_mem_nil, false_implies, implies_true, and_true]
  refine ⟨answers_USER _ _, answers_PASS _ _, hreply _ _, fun _ => ⟨_, rfl⟩, answers_CDUP _ _, hreply _ _,
    answers_reply _ _ _, hreply _ _, answers_PASV _ _, answers_TYPE _ _, hreply _ _, hreply _ _, answers_RETR _ _ _,
    answers_STOR _ _ _, hreply _ _, answers_APPE _ _ _, hreply _ _, hreply _ _, answers_RNFR _ _ _, answers_RNTO _ _ _,
    hreply _ _, answers_DELE _ _ _ _, answers_RMD _ _ _, answers_MKD _ _ _, answers_PWD _,
    answers_listDirectory _ _ _ _ fun _ => rfl, answers_listDirectory _ _ _ _ fun _ => rfl, hreply _ _, hreply _ _,
    hreply _ _, hreply _ _, hreply _ _, fun _ => ⟨_, rfl⟩, answers_OPTS _ _, answers_SIZE _ _ _⟩

theorem answers_handleFtpCommand (cfg : Config) (host : Host) (s : FtpSession) (line : Str) :
    Answers (s.handleFtpCommand cfg host line) := by
  obtain ⟨r, hmem, heq⟩ | ⟨-, heq⟩ := handleFtpCommand_cases cfg host s line
  · have hanswers := answers_commandMap cfg host s _ _ hmem
    rw [heq]
    split
    · next hnone => exact fun _ => hanswers hnone
    · exact hanswers
  · rw [heq]
    exact answers_reply _ _ _

variable {e : FtpEvent} {p q : FtpProcess}

/-- An event adds to what a session does, and a line to what it says. -/
theorem step_outputs (h : FtpProcess.step cfg e p = some q) : ∃ new, q.outputs = p.outputs ++ new ∧
    ∀ line, e.line? = some line → q.ending = none → ∃ text, new.filterMap Output.text? = [text] := by
  rcases step_session h with ⟨line, host, rfl, rfl⟩ | ⟨rfl, rfl⟩ | ⟨i, file, rfl, -, rfl⟩ | ⟨i, file, rfl, -, rfl⟩ |
    ⟨i, host, file, rfl, -, rfl⟩
  · exact ⟨_, rfl, fun _ _ hending => answers_handleFtpCommand cfg host p.session line hending⟩
  · exact ⟨[], (List.append_nil _).symm, nofun⟩
  · exact ⟨_, rfl, nofun⟩
  · exact ⟨[], (List.append_nil _).symm, nofun⟩
  · exact ⟨_, List.append_assoc .., nofun⟩

/-! ### The lines of the client -/

/-- A line with the command `QUIT`. -/
def IsQuit (line : Str) : Prop := (FtpSession.parseCommand line).1 = str "QUIT"

instance : DecidablePred IsQuit := fun _ => inferInstanceAs (Decidable (_ = _))

/-- The lines that were answered. -/
def ControlChannel.answered (c : ControlChannel) : List Str := c.posted.filterMap Posted.answers

/-- Until a `QUIT` is answered the next line is awaited, unless the client is gone. -/
inductive Quits (c : ControlChannel) : Prop where
  | awaits (hreading : c.process.session.reading = !c.gone) (hlast : c.process.session.lastCommand ≠ str "QUIT")
      (hquit : ∀ line ∈ c.answered, ¬ IsQuit line)
  | quit (lines : List Str) (last : Str) (hreading : c.process.session.reading = false) (hgone : c.gone = false)
      (hanswered : c.answered = lines ++ [last]) (hquit : ∀ line ∈ lines, ¬ IsQuit line) (hlast : IsQuit last)

/-- The bytes that came in are the lines that were answered, and the bytes at hand. -/
structure Conversing (db : UserDatabase) (c : ControlChannel) : Prop where
  lines : splitLines lineEnd c.received = (c.answered ++ (splitLines lineEnd c.commandInputStream).1,
    (splitLines lineEnd c.commandInputStream).2)
  grants : Grants c.process.session (c.answered.foldl (Access.after db) .denied)
  database : c.process.session.userDatabase = db
  quits : Quits c

variable {c c' : ControlChannel} {db : UserDatabase}

theorem handle_eq_some (h : ControlChannel.handle cfg e c = some c') : ∃ q texts,
    FtpProcess.step cfg e c.process = some q ∧
    c' = ControlChannel.post { c with process := q } (texts.map fun text => ⟨text, e.line?⟩) ∧
    ∀ line, e.line? = some line → q.ending = none → ∃ text, texts = [text] := by
  obtain ⟨q, hq, rfl⟩ := Option.map_eq_some_iff.mp h
  obtain ⟨new, hnew, hone⟩ := step_outputs hq
  refine ⟨q, _, hq, rfl, ?_⟩
  rw [hnew, List.drop_left]
  exact hone

/-- Handling an event answers its line. -/
theorem answered_post {texts : List Str} {line? : Option Str}
    (hone : ∀ line, line? = some line → ∃ text, texts = [text]) :
    (c.post (texts.map fun text => ⟨text, line?⟩)).answered = c.answered ++ line?.toList := by
  rw [ControlChannel.answered, ControlChannel.post, List.filterMap_append, ControlChannel.answered]
  congr 1
  cases line? with
  | none => simp [List.filterMap_map]
  | some line =>
    obtain ⟨text, rfl⟩ := hone line rfl
    rfl

/-- After a line another one is awaited, or this was a `QUIT`. -/
theorem reading_handleFtpCommand {line : Str} (hlast : s.lastCommand ≠ str "QUIT")
    (hending : (s.handleFtpCommand cfg host line).ending = none) :
    ((s.handleFtpCommand cfg host line).session.reading = true ∧
      (s.handleFtpCommand cfg host line).session.lastCommand ≠ str "QUIT" ∧ ¬ IsQuit line) ∨
    ((s.handleFtpCommand cfg host line).session.reading = false ∧ IsQuit line) := by
  obtain ⟨r, hmem, heq⟩ | ⟨hunknown, heq⟩ := handleFtpCommand_cases cfg host s line
  · have hnone : r.ending = none := by
      rw [heq] at hending
      split at hending
      · assumption
      · exact hending
    rw [heq, if_pos hnone]
    by_cases hquit : IsQuit line
    · exact .inr ⟨decide_eq_false (not_not.mpr hquit), hquit⟩
    · exact .inl ⟨decide_eq_true hquit, hquit, hquit⟩
  · rw [heq]
    refine .inl ⟨decide_eq_true hlast, hlast, fun hquit => hunknown ?_⟩
    rw [show (FtpSession.parseCommand line).1 = str "QUIT" from hquit]
    decide

/-- What handling an event leaves of a conversation: who is logged in follows from the answered lines. -/
theorem handle_grants (h : ControlChannel.handle cfg e c = some c') (hending : c'.process.ending = none)
    (hgrants : Grants c.process.session (c.answered.foldl (Access.after db) .denied))
    (hdatabase : c.process.session.userDatabase = db) :
    c'.answered = c.answered ++ e.line?.toList ∧ c'.received = c.received ∧
      c'.commandInputStream = c.commandInputStream ∧ c'.gone = c.gone ∧
      FtpProcess.step cfg e c.process = some c'.process ∧
      Grants c'.process.session (c'.answered.foldl (Access.after db) .denied) ∧
      c'.process.session.userDatabase = db := by
  obtain ⟨q, texts, hq, rfl, hone⟩ := handle_eq_some h
  have hanswered := answered_post (c := { c with process := q }) fun line hline => hone line hline hending
  obtain ⟨hafter, hsame⟩ := hgrants.step hq hending
  refine ⟨hanswered, rfl, rfl, rfl, hq, ?_, hsame.trans hdatabase⟩
  rw [hanswered, List.foldl_append, ← hdatabase]
  rw [← hdatabase] at hafter
  exact hafter

theorem reading_of_command {line : Str} (h : FtpProcess.step cfg (.command line host) p = some q) :
    p.session.reading = true ∧ q = p.take (p.session.handleFtpCommand cfg host line) := by
  unfold FtpProcess.step at h
  simp only [ite_eq_iff, reduceCtorEq, and_false, Option.some.injEq, false_or, or_false] at h
  exact ⟨h.2.1, h.2.2.symm⟩

/-- Data connections do not read lines. -/
theorem step_reading (h : FtpProcess.step cfg e p = some q) (hline : e.line? = none) (hopen : e ≠ .disconnected) :
    q.session.reading = p.session.reading ∧ q.session.lastCommand = p.session.lastCommand := by
  rcases step_session h with ⟨line, host, rfl, rfl⟩ | ⟨rfl, rfl⟩ | ⟨i, file, rfl, -, rfl⟩ | ⟨i, file, rfl, -, rfl⟩ |
    ⟨i, host, file, rfl, -, rfl⟩
  · cases hline
  · exact absurd rfl hopen
  · exact ⟨rfl, rfl⟩
  · exact ⟨rfl, rfl⟩
  · rw [endDataReceiving_session]
    exact ⟨rfl, rfl⟩

theorem Quits.same (h : Quits c) (hreading : c'.process.session.reading = c.process.session.reading)
    (hlast : c'.process.session.lastCommand = c.process.session.lastCommand) (hanswered : c'.answered = c.answered)
    (hgone : c'.gone = c.gone) : Quits c' := by
  cases h with
  | awaits hr hl hq => exact .awaits (by rw [hreading, hgone, hr]) (hlast ▸ hl) (hanswered ▸ hq)
  | quit lines last hr hg ha hq hl => exact .quit lines last (hreading ▸ hr) (hgone ▸ hg) (hanswered ▸ ha) hq hl

/-- What happens on a data connection leaves the conversation. -/
theorem Conversing.handle (hc : Conversing db c) (h : ControlChannel.handle cfg e c = some c')
    (hending : c'.process.ending = none) (hline : e.line? = none) (hopen : e ≠ .disconnected) : Conversing db c' := by
  obtain ⟨hanswered, hreceived, hstream, hgone, hstep, hgrants, hdatabase⟩ :=
    handle_grants h hending hc.grants hc.database
  rw [hline, Option.toList_none, List.append_nil] at hanswered
  obtain ⟨hreading, hlast⟩ := step_reading hstep hline hopen
  exact ⟨by rw [hreceived, hstream, hanswered]; exact hc.lines, hgrants, hdatabase,
    hc.quits.same hreading hlast hanswered hgone⟩

/-- The next line is answered. -/
theorem Conversing.read {line rest : Str} (hc : Conversing db c)
    (hcut : cutLine lineEnd c.commandInputStream = some (line, rest))
    (h : ControlChannel.handle cfg (.command line host) { c with commandInputStream := rest } = some c')
    (hending : c'.process.ending = none) : Conversing db c' := by
  obtain ⟨hanswered, hreceived, hstream, hgone, hstep, hgrants, hdatabase⟩ :=
    handle_grants h hending hc.grants hc.database
  have hanswered : c'.answered = c.answered ++ [line] := hanswered
  refine ⟨?_, hgrants, hdatabase, ?_⟩
  · have hlines := hc.lines
    rw [splitLines_of_cut hcut] at hlines
    rw [hreceived, hstream, hanswered, hlines, List.append_assoc, List.singleton_append]
  · obtain ⟨hreading, hprocess⟩ := reading_of_command hstep
    rw [hprocess] at hending
    cases hc.quits with
    | quit lines last hr =>
      rw [show c.process.session.reading = true from hreading] at hr
      cases hr
    | awaits hr hl hq =>
      have hopen : c.gone = false := by simpa [show c.process.session.reading = true from hreading] using hr
      obtain ⟨hread, hlast, hquit⟩ | ⟨hread, hquit⟩ := reading_handleFtpCommand hl hending
      · refine .awaits ?_ ?_ ?_
        · rw [hprocess, hgone, hopen]
          exact hread
        · rw [hprocess]
          exact hlast
        · rw [hanswered]
          simpa [or_imp, forall_and] using ⟨hq, hquit⟩
      · refine .quit c.answered line ?_ (hgone.trans hopen) hanswered hq hquit
        rw [hprocess]
        exact hread

/-- The client is gone. -/
theorem Conversing.closed (hc : Conversing db c)
    (h : ControlChannel.handle cfg .disconnected { c with gone := true } = some c')
    (hending : c'.process.ending = none) : Conversing db c' := by
  obtain ⟨hanswered, hreceived, hstream, hgone, hstep, hgrants, hdatabase⟩ :=
    handle_grants h hending hc.grants hc.database
  have hanswered : c'.answered = c.answered := by rw [hanswered]; exact List.append_nil _
  refine ⟨by rw [hreceived, hstream, hanswered]; exact hc.lines, hgrants, hdatabase, ?_⟩
  simp only [FtpProcess.step, ite_eq_iff, reduceCtorEq, and_false, Option.some.injEq, false_or, or_false] at hstep
  obtain ⟨-, hreading, hprocess⟩ := hstep
  cases hc.quits with
  | quit lines last hr =>
    rw [hreading] at hr
    cases hr
  | awaits hr hl hq =>
    refine .awaits ?_ ?_ (hanswered ▸ hq)
    · rw [← hprocess, hgone]
      rfl
    · rw [← hprocess]
      exact hl

variable {event : ControlEvent}

/-- The strand and the socket do not touch what was said. -/
theorem Conversing.of_same (hc : Conversing db c) (hprocess : c'.process = c.process)
    (hreceived : c'.received = c.received) (hstream : c'.commandInputStream = c.commandInputStream)
    (hanswered : c'.answered = c.answered) (hgone : c'.gone = c.gone) : Conversing db c' where
  lines := by rw [hreceived, hstream, hanswered]; exact hc.lines
  grants := by rw [hprocess, hanswered]; exact hc.grants
  database := by rw [hprocess]; exact hc.database
  quits := hc.quits.same (by rw [hprocess]) (by rw [hprocess]) hanswered hgone

theorem runTask_same (c : ControlChannel) (task : StrandTask) :
    (c.runTask task).process = c.process ∧ (c.runTask task).received = c.received ∧
      (c.runTask task).commandInputStream = c.commandInputStream ∧ (c.runTask task).posted = c.posted ∧
      (c.runTask task).gone = c.gone ∧ (c.runTask task).sent = c.sent ∧ (c.runTask task).failed = c.failed := by
  unfold ControlChannel.runTask
  split <;> exact ⟨rfl, rfl, rfl, rfl, rfl, rfl, rfl⟩

theorem Conversing.step (hc : Conversing db c) (h : ControlChannel.step cfg event c = some c')
    (hending : c'.process.ending = none) : Conversing db c' := by
  unfold ControlChannel.step at h
  split at h
  · cases h
  cases event with
  | arrive data =>
    dsimp only at h
    split at h
    · next hidle =>
      cases h
      have hlines := hc.lines
      refine ⟨?_, hc.grants, hc.database, hc.quits.same rfl rfl rfl rfl⟩
      dsimp only
      rw [splitLines_append, splitLines_append, hlines, List.append_assoc]
      rfl
    · cases h
  | read host =>
    dsimp only at h
    split at h
    · next line rest hcut => exact hc.read hcut h hending
    · cases h
  | closed =>
    dsimp only at h
    split at h
    · exact hc.closed h hending
    · cases h
  | accepted i error => exact hc.handle h hending rfl nofun
  | ended i host => exact hc.handle h hending rfl nofun
  | other m =>
    cases h
    exact hc.of_same rfl rfl rfl (by simp [ControlChannel.answered, ControlChannel.post]) rfl
  | strand =>
    dsimp only at h
    split at h
    · next task tasks hstrand =>
      cases h
      obtain ⟨hprocess, hreceived, hstream, hposted, hgone, -, -⟩ :=
        runTask_same { c with commandWriteStrand := tasks } task
      exact hc.of_same hprocess hreceived hstream (congrArg (List.filterMap Posted.answers) hposted) hgone
    · cases h
  | wrote error =>
    dsimp only at h
    split at h
    · cases h
      exact hc.of_same rfl rfl rfl rfl rfl
    · cases h

theorem ending_of_control (h : ControlChannel.step cfg event c = some c') : c.process.ending = none := by
  unfold ControlChannel.step at h
  split at h
  · cases h
  · next hnone => exact not_ne_iff.mp hnone

theorem conversing_start (db : UserDatabase) : Conversing db (ControlChannel.start db) where
  lines := rfl
  grants := ⟨rfl, by
    simp [ControlChannel.start, ControlChannel.post, startSession, ControlChannel.answered, Output.text?, str], nofun⟩
  database := rfl
  quits := .awaits rfl (by simp [ControlChannel.start, ControlChannel.post, startSession, str]) nofun

theorem conversing_of_run {events : List ControlEvent}
    (hrun : steps (ControlChannel.step cfg) events (ControlChannel.start db) = some c)
    (hending : c.process.ending = none) : Conversing db c :=
  steps_inv (I := fun c => c.process.ending = none → Conversing db c)
    (fun h hc hending => (hc (ending_of_control h)).step h hending) hrun (fun _ => conversing_start db) hending

/-- However the bytes of a client arrive, and whatever happens on its data connections: the lines that were answered,
    each with one text, are the first lines up to a `QUIT`; they are all of these when the session waits, unless the client
    is gone; and who is logged in follows from them. -/
theorem replies_in_order {cfg : Config} {db : UserDatabase} {events : List ControlEvent} {c : ControlChannel}
    (hrun : steps (ControlChannel.step cfg) events (ControlChannel.start db) = some c)
    (hending : c.process.ending = none) :
    c.answered <+: takeThrough IsQuit (splitLines lineEnd c.received).1 ∧
      (c.gone = false → c.process.session.reading = false ∨ cutLine lineEnd c.commandInputStream = none →
        c.answered = takeThrough IsQuit (splitLines lineEnd c.received).1) ∧
      c.process.session.loggedInUser = (c.answered.foldl (Access.after db) .denied).user? := by
  obtain ⟨hlines, hgrants, -, hquits⟩ := conversing_of_run hrun hending
  rw [hlines]
  refine ⟨?_, fun hgone hwaits => ?_, hgrants.user⟩
  · cases hquits with
    | awaits hr hl hq =>
      rw [takeThrough_append hq]
      exact List.prefix_append ..
    | quit lines last hr hg ha hq hl =>
      rw [ha, takeThrough_of_mem hq hl]
  · cases hquits with
    | awaits hr hl hq =>
      have hreading : c.process.session.reading = true := by rw [hr, hgone]; rfl
      have hcut := hwaits.resolve_left (by rw [hreading]; nofun)
      rw [takeThrough_append hq, splitLines_of_not_cut hcut, takeThrough, List.append_nil]
    | quit lines last hr hg ha hq hl =>
      rw [ha, takeThrough_of_mem hq hl]

/-- A client that logs in and out; its bytes do not arrive line by line. -/
def chunks : List ControlEvent :=
  [.arrive (str "user anony"), .arrive (str "mous\r"), .arrive (str "\nPASS 123\r\nquit\r\nNO"), .read .willing, .strand,
    .read .willing, .wrote none, .strand, .strand, .read .willing]

theorem chunks_answered : ∃ c,
    steps (ControlChannel.step .sample) chunks (ControlChannel.start (addUsers (str "/data") [anonymous])) = some c ∧
    c.answered <+: takeThrough IsQuit (splitLines lineEnd c.received).1 ∧
      (c.gone = false → c.process.session.reading = false ∨ cutLine lineEnd c.commandInputStream = none →
        c.answered = takeThrough IsQuit (splitLines lineEnd c.received).1) ∧
      c.process.session.loggedInUser =
        (c.answered.foldl (Access.after (addUsers (str "/data") [anonymous])) .denied).user? := by
  have hrun : steps (ControlChannel.step .sample) chunks
      (ControlChannel.start (addUsers (str "/data") [anonymous])) = some _ := rfl
  exact ⟨_, hrun, replies_in_order hrun rfl⟩

end AwsMock.Ftp
