import AwsMock.Ftp.Filesystem
import AwsMock.Ftp.UserDatabase
import AwsMock.S3.Service

/-!
# FTP sessions

`FtpSession`: one function for each command, and the completions of a file transfer. What the operating
system answers is an argument. The bytes sent over the data connection are left out.
-/

namespace AwsMock.Ftp

open Lib

/-! ### Replies -/

inductive FtpReplyCode where
  | serviceReadyForNewUser
  | commandOk
  | syntaxErrorUnrecognizedCommand
  | syntaxErrorParameters
  | commandNotImplemented
  | commandsBadSequence
  | commandNotImplementedForParameter
  | fileStatus
  | nameSystemType
  | serviceClosingControlConnection
  | serviceNotAvailable
  | errorOpeningDataConnection
  | closingDataConnection
  | transferAborted
  | enteringPassiveMode
  | userLoggedIn
  | notLoggedIn
  | userNameOk
  | fileStatusOkOpeningDataConnection
  | fileActionCompleted
  | pathnameCreated
  | fileActionNeedsFurtherInfo
  | fileActionNotTaken
  | actionNotTaken
  | actionAbortedLocalError
  | actionNotTakenFilenameNotAllowed
  deriving DecidableEq

def FtpReplyCode.toNat : FtpReplyCode → Nat
  | serviceReadyForNewUser => 220
  | commandOk => 200
  | syntaxErrorUnrecognizedCommand => 500
  | syntaxErrorParameters => 501
  | commandNotImplemented => 502
  | commandsBadSequence => 503
  | commandNotImplementedForParameter => 504
  | fileStatus => 213
  | nameSystemType => 215
  | serviceClosingControlConnection => 221
  | serviceNotAvailable => 421
  | errorOpeningDataConnection => 425
  | closingDataConnection => 226
  | transferAborted => 426
  | enteringPassiveMode => 227
  | userLoggedIn => 230
  | notLoggedIn => 530
  | userNameOk => 331
  | fileStatusOkOpeningDataConnection => 150
  | fileActionCompleted => 250
  | pathnameCreated => 257
  | fileActionNeedsFurtherInfo => 350
  | fileActionNotTaken => 450
  | actionNotTaken => 550
  | actionAbortedLocalError => 451
  | actionNotTakenFilenameNotAllowed => 553

structure FtpMessage where
  code : FtpReplyCode
  message : Str
  deriving DecidableEq

/-- `FtpMessage::str`. -/
def FtpMessage.str (m : FtpMessage) : Str :=
  toStr m.code.toNat ++ Lib.str " " ++ m.message ++ Lib.str "\r\n"

/-! ### The operating system -/

inductive FileType where
  | regularFile
  | dir
  | other
  deriving DecidableEq

/-- `FileStatus` of a path that exists. -/
structure FileStatus where
  type : FileType
  canOpenDir : Bool
  deriving DecidableEq

/-- The flags of `std::ios::openmode`. -/
structure OpenMode where
  input : Bool := false
  output : Bool := false
  append : Bool := false
  atEnd : Bool := false
  binary : Bool := false
  deriving DecidableEq

/-- What opening, binding and listening on the data acceptor comes to. -/
inductive Listening where
  | openFailed
  | listenFailed
  | listening (ip : List Nat) (port : Nat)
  deriving DecidableEq

/-- The answers of the system during one command. -/
structure Host where
  fileStatus : Str → Option FileStatus
  good : Str → OpenMode → Bool
  fileSize : Str → Option Int
  rename : Str → Str → Bool
  unlink : Str → Bool
  rmdir : Str → Bool
  mkdir : Str → Bool
  listen : Listening
  /-- The S3 service returns. -/
  s3Returns : Bool

/-! ### Sessions -/

/-- `FtpSession::IoFile`. -/
structure IoFile where
  fileName : Str
  user : Str
  deriving DecidableEq

/-- How far the transfer of a file to the server has come. -/
inductive Stage where
  | accepting
  | receiving
  | aborted
  | ended
  deriving DecidableEq

structure Transferring where
  file : IoFile
  stage : Stage := .accepting
  deriving DecidableEq

/-- What the session reads from the configuration. -/
structure Config where
  region : Str
  bucket : Str
  transferDir : Str
  serverName : Str

structure FtpSession where
  userDatabase : UserDatabase
  loggedInUser : Option FtpUser := none
  usernameForLogin : Str := []
  lastCommand : Str := []
  renameFromPath : Str := []
  ftpWorkingDirectory : Str := str "/"
  dataTypeBinary : Bool := false
  acceptorOpen : Bool := false
  /-- The next command is awaited. -/
  reading : Bool := true
  /-- The files received, in the order in which the commands were accepted. -/
  transfers : List Transferring := []

/-- What a session does to the outside. -/
inductive Output where
  | message (m : FtpMessage)
  | raw (text : Str)
  | sendFile (file : IoFile)
  | sendDirectoryListing (path : Str)
  | sendNameList (path : Str)
  | deleteObject (user : Str) (request : S3.DeleteObjectRequest)
  | putObject (request : S3.PutObjectRequest) (fileName : Str)

/-- How a handler can end the process. -/
inductive Ending where
  | exception
  | undefined
  deriving DecidableEq

structure Reaction where
  session : FtpSession
  outputs : List Output := []
  ending : Option Ending := none

namespace FtpSession

/-- Answer and do nothing else. -/
def reply (s : FtpSession) (code : FtpReplyCode) (message : Str) : Reaction :=
  { session := s, outputs := [.message ⟨code, message⟩] }

def notLoggedIn (s : FtpSession) : Reaction := s.reply .notLoggedIn (str "Not logged in")

/-! ### Helpers -/

def toAbsoluteFtpPath (s : FtpSession) (relOrAbsFtpPath : Str) : Str :=
  if relOrAbsFtpPath.head? = some slash then relOrAbsFtpPath
  else cleanPath (s.ftpWorkingDirectory ++ str "/" ++ relOrAbsFtpPath) slash

/-- `toLocalPath`, when `user` is logged in. -/
def toLocalPath (s : FtpSession) (user : FtpUser) (ftpPath : Str) : Str :=
  cleanPathNative (user.localRootPath ++ str "/" ++ s.toAbsoluteFtpPath ftpPath)

/-- Quotes are doubled. -/
def createQuotedFtpPath (unquotedFtpPath : Str) : Str :=
  str "\"" ++ unquotedFtpPath.flatMap (fun c => if c = byte '"' then [c, c] else [c]) ++ str "\""

/-- `GetKey`; `StripBeginning` throws when the path is too short. -/
def getKey (cfg : Config) (path : Str) : Option Str :=
  if cfg.transferDir.length ≤ path.length then
    let key := path.drop cfg.transferDir.length
    some (if key.head? = some slash then key.tail else key)
  else none

def checkIfPathIsRenamable (host : Host) (s : FtpSession) (ftpPath : Str) : FtpMessage :=
  match s.loggedInUser with
  | none => ⟨.notLoggedIn, str "Not logged in"⟩
  | some user =>
    if ftpPath = [] then ⟨.syntaxErrorParameters, str "Empty path"⟩
    else match host.fileStatus (s.toLocalPath user ftpPath) with
      | none => ⟨.actionNotTaken, str "File does not exist"⟩
      | some status =>
        let required :=
          if status.type = .dir then Permission.dirRename else Permission.fileRename
        if user.permissions &&& required ≠ required then ⟨.actionNotTaken, str "Permission denied"⟩
        else ⟨.commandOk, []⟩

def executeCWD (host : Host) (s : FtpSession) (param : Str) : FtpMessage × FtpSession :=
  match s.loggedInUser with
  | none => (⟨.notLoggedIn, str "Not logged in"⟩, s)
  | some user =>
    if user.lacks Permission.dirList then (⟨.actionNotTaken, str "Permission denied"⟩, s)
    else if param = [] then (⟨.syntaxErrorParameters, str "No path given"⟩, s)
    else
      let absoluteNewWorkingDir :=
        if param.head? = some slash then cleanPath param slash
        else cleanPath (s.ftpWorkingDirectory ++ str "/" ++ param) slash
      match host.fileStatus (s.toLocalPath user absoluteNewWorkingDir) with
      | none => (⟨.actionNotTaken, str
          "Failed ot change directory: The given resource does not exist or permission denied."⟩, s)
      | some status =>
        if status.type ≠ .dir then
          (⟨.actionNotTaken, str
            "Failed ot change directory: The given resource is not a directory."⟩, s)
        else if status.canOpenDir = false then
          (⟨.actionNotTaken, str "Failed ot change directory: Permission denied."⟩, s)
        else
          (⟨.fileActionCompleted, str "Working directory changed to " ++ absoluteNewWorkingDir⟩,
            { s with ftpWorkingDirectory := absoluteNewWorkingDir })

/-- The metadata and the owner of an upload; the user is dereferenced unchecked. -/
def sendCreateObjectRequest (cfg : Config) (host : Host) (s : FtpSession) (user fileName : Str) :
    Reaction :=
  match getKey cfg fileName, s.loggedInUser with
  | none, _ => { session := s, ending := some .exception }
  | some _, none => { session := s, ending := some .undefined }
  | some key, some loggedInUser =>
    { session := s
      outputs := [.putObject {
        region := cfg.region, bucket := cfg.bucket, key := key, owner := user,
        metadata := OrderedMap.ofList [(str "user-agent", cfg.serverName),
          (str "user-agent-id", loggedInUser.username ++ str "@" ++ cfg.serverName)] } fileName]
      ending := if host.s3Returns then none else some .exception }

/-! ### Commands -/

/-- `SendDeleteObjectRequest`. -/
def sendDeleteObjectRequest (cfg : Config) (host : Host) (s : FtpSession) (user fileName : Str)
    (next : Reaction) : Reaction :=
  match getKey cfg fileName with
  | none => { session := s, ending := some .exception }
  | some key =>
    let request := Output.deleteObject user { region := cfg.region, bucket := cfg.bucket, key := key }
    if host.s3Returns then { next with outputs := request :: next.outputs }
    else { session := s, outputs := [request], ending := some .exception }

def handleFtpCommandUSER (s : FtpSession) (param : Str) : Reaction :=
  let s := { s with loggedInUser := none, usernameForLogin := param, ftpWorkingDirectory := str "/" }
  if param = [] then s.reply .syntaxErrorParameters (str "Please provide username")
  else s.reply .userNameOk (str "Please enter password")

def handleFtpCommandPASS (s : FtpSession) (param : Str) : Reaction :=
  if s.lastCommand ≠ str "USER" then s.reply .commandsBadSequence (str "Please specify username first")
  else match s.userDatabase.getUser s.usernameForLogin param with
    | some user =>
      { s with loggedInUser := some user }.reply .userLoggedIn (str "Login successful")
    | none => s.reply .notLoggedIn (str "Failed to log in")

def handleFtpCommandCWD (host : Host) (s : FtpSession) (param : Str) : Reaction :=
  let r := executeCWD host s param
  { session := r.2, outputs := [.message r.1] }

def handleFtpCommandCDUP (host : Host) (s : FtpSession) : Reaction :=
  match s.loggedInUser with
  | none => s.notLoggedIn
  | some user =>
    if user.lacks Permission.dirList then s.reply .actionNotTaken (str "Permission denied")
    else if s.ftpWorkingDirectory ≠ str "/" then
      let r := executeCWD host s (str "..")
      if r.1.code = .fileActionCompleted then r.2.reply .commandOk r.1.message
      else { session := r.2, outputs := [.message r.1] }
    else s.reply .actionNotTaken (str "Already at root directory")

def handleFtpCommandQUIT (s : FtpSession) : Reaction :=
  { s with loggedInUser := none }.reply .serviceClosingControlConnection
    (str "Connection shutting down")

def handleFtpCommandPASV (host : Host) (s : FtpSession) : Reaction :=
  if s.loggedInUser = none then s.notLoggedIn
  else match host.listen with
    | .openFailed => { s with acceptorOpen := false }.reply .serviceNotAvailable
        (str "Failed to enter passive mode.")
    | .listenFailed => { s with acceptorOpen := true }.reply .serviceNotAvailable
        (str "Failed to enter passive mode.")
    | .listening ip port =>
      let numbers := (ip ++ [port / 256 % 256, port % 256]).map fun n : Nat => toStr n
      { s with acceptorOpen := true }.reply .enteringPassiveMode (str "Entering passive mode (" ++
        (str ",").intercalate numbers ++ str ")")

def handleFtpCommandTYPE (s : FtpSession) (param : Str) : Reaction :=
  if s.loggedInUser = none then s.notLoggedIn
  else if param = str "A" then
    { s with dataTypeBinary := false }.reply .commandOk (str "Switching to ASCII mode")
  else if param = str "I" then
    { s with dataTypeBinary := true }.reply .commandOk (str "Switching to binary mode")
  else s.reply .commandNotImplementedForParameter (str "Unknown or unsupported type")

/-- The file is opened under the password. -/
def handleFtpCommandRETR (host : Host) (s : FtpSession) (param : Str) : Reaction :=
  match s.loggedInUser with
  | none => s.notLoggedIn
  | some user =>
    if user.lacks Permission.fileRead then s.reply .actionNotTaken (str "Permission denied")
    else if s.acceptorOpen = false then
      s.reply .errorOpeningDataConnection (str "Error opening data connection")
    else
      let localPath := s.toLocalPath user param
      if host.good localPath { input := true, binary := s.dataTypeBinary } = false then
        s.reply .actionAbortedLocalError (str "Error opening file for transfer")
      else
        { session := s
          outputs := [.message ⟨.fileStatusOkOpeningDataConnection, str "Sending file"⟩,
            .sendFile ⟨localPath, user.password⟩] }

def handleFtpCommandSIZE (host : Host) (s : FtpSession) (param : Str) : Reaction :=
  match s.loggedInUser with
  | none => s.notLoggedIn
  | some user =>
    if user.lacks Permission.fileRead then s.reply .actionNotTaken (str "Permission denied")
    else
      let localPath := s.toLocalPath user param
      if host.good localPath { input := true, atEnd := true, binary := s.dataTypeBinary } = false then
        s.reply .actionAbortedLocalError (str "Error opening file for size retrieval")
      else match host.fileSize localPath with
        | none => s.reply .actionAbortedLocalError (str "Error getting file size")
        | some size => s.reply .fileStatus (toStr size)

/-- The end of `STOR` and `APPE`: the file is opened and a connection awaited. -/
def receiveFile (host : Host) (s : FtpSession) (user : FtpUser) (localPath : Str) (mode : OpenMode) :
    Reaction :=
  if host.good localPath mode = false then
    s.reply .actionAbortedLocalError (str "Error opening file for transfer")
  else
    let transferring : Transferring := { file := ⟨localPath, user.username⟩ }
    { s with transfers := s.transfers ++ [transferring] }.reply
      .fileStatusOkOpeningDataConnection (str "Receiving file")

def handleFtpCommandSTOR (host : Host) (s : FtpSession) (param : Str) : Reaction :=
  match s.loggedInUser with
  | none => s.notLoggedIn
  | some user =>
    if user.lacks Permission.fileWrite then s.reply .actionNotTaken (str "Permission denied")
    else if s.acceptorOpen = false then
      s.reply .errorOpeningDataConnection (str "Error opening data connection")
    else
      let localPath := s.toLocalPath user param
      let type := (host.fileStatus localPath).map FileStatus.type
      if type = some .regularFile ∧ user.lacks Permission.fileDelete then
        s.reply .actionNotTakenFilenameNotAllowed
          (str "File already exists. Permission denied to overwrite file.")
      else if type = some .dir then
        s.reply .actionNotTakenFilenameNotAllowed
          (str "Cannot create file. A directory with that name already exists.")
      else receiveFile host s user localPath { output := true, binary := s.dataTypeBinary }

def handleFtpCommandAPPE (host : Host) (s : FtpSession) (param : Str) : Reaction :=
  match s.loggedInUser with
  | none => s.notLoggedIn
  | some user =>
    if user.lacks Permission.fileAppend then s.reply .actionNotTaken (str "Permission denied")
    else if s.acceptorOpen = false then
      s.reply .errorOpeningDataConnection (str "Error opening data connection")
    else
      let localPath := s.toLocalPath user param
      if (host.fileStatus localPath).map FileStatus.type ≠ some .regularFile then
        s.reply .actionNotTaken (str "File does not exist.")
      else receiveFile host s user localPath
        { output := true, append := true, binary := s.dataTypeBinary }

def handleFtpCommandRNFR (host : Host) (s : FtpSession) (param : Str) : Reaction :=
  let s := { s with renameFromPath := [] }
  let isRenamableError := checkIfPathIsRenamable host s param
  if isRenamableError.code = .commandOk then
    { s with renameFromPath := param }.reply .fileActionNeedsFurtherInfo (str "Enter target name")
  else { session := s, outputs := [.message isRenamableError] }

def handleFtpCommandRNTO (host : Host) (s : FtpSession) (param : Str) : Reaction :=
  match s.loggedInUser with
  | none => s.notLoggedIn
  | some user =>
    if s.lastCommand ≠ str "RNFR" ∨ s.renameFromPath = [] then
      s.reply .commandsBadSequence (str "Please specify target file first")
    else if param = [] then s.reply .syntaxErrorParameters (str "No target name given")
    else
      let isRenamableError := checkIfPathIsRenamable host s s.renameFromPath
      if isRenamableError.code = .commandOk then
        let localFromPath := s.toLocalPath user s.renameFromPath
        let localToPath := s.toLocalPath user param
        if (host.fileStatus localToPath).isSome then
          s.reply .fileActionNotTaken (str "Target path exists already.")
        else if host.rename localFromPath localToPath then s.reply .fileActionCompleted (str "OK")
        else s.reply .fileActionNotTaken (str "Error renaming file")
      else { session := s, outputs := [.message isRenamableError] }

def handleFtpCommandDELE (cfg : Config) (host : Host) (s : FtpSession) (param : Str) : Reaction :=
  match s.loggedInUser with
  | none => s.notLoggedIn
  | some user =>
    let localPath := s.toLocalPath user param
    match host.fileStatus localPath with
    | none => s.reply .actionNotTaken (str "Resource does not exist")
    | some status =>
      if status.type ≠ .regularFile then s.reply .actionNotTaken (str "Resource is not a file")
      else if user.lacks Permission.fileDelete then s.reply .actionNotTaken (str "Permission denied")
      else if host.unlink localPath then
        sendDeleteObjectRequest cfg host s user.username localPath
          (s.reply .fileActionCompleted (str "Successfully deleted file"))
      else s.reply .fileActionNotTaken (str "Unable to delete file")

def handleFtpCommandRMD (host : Host) (s : FtpSession) (param : Str) : Reaction :=
  match s.loggedInUser with
  | none => s.notLoggedIn
  | some user =>
    if user.lacks Permission.dirDelete then s.reply .actionNotTaken (str "Permission denied")
    else if host.rmdir (s.toLocalPath user param) then
      s.reply .fileActionCompleted (str "Successfully removed directory")
    else s.reply .actionNotTaken (str "Unable to remove directory")

def handleFtpCommandMKD (host : Host) (s : FtpSession) (param : Str) : Reaction :=
  match s.loggedInUser with
  | none => s.notLoggedIn
  | some user =>
    if user.lacks Permission.dirCreate then s.reply .actionNotTaken (str "Permission denied")
    else if host.mkdir (s.toLocalPath user param) then
      s.reply .pathnameCreated
        (createQuotedFtpPath (s.toAbsoluteFtpPath param) ++ str " Successfully created")
    else s.reply .actionNotTaken (str "Unable to create directory")

def handleFtpCommandPWD (s : FtpSession) : Reaction :=
  if s.loggedInUser = none then s.reply .actionNotTaken (str "Not logged in")
  else s.reply .pathnameCreated (createQuotedFtpPath s.ftpWorkingDirectory)

/-- The path of `LIST`, without the options some clients send. -/
def listPath (param : Str) : Str :=
  if param = str "-a" ∨ param = str "-l" ∨ param = str "-al" ∨ param = str "-la" then []
  else if (param.take 3 = str "-a " ∨ param.take 3 = str "-l ") ∧ param.length > 3 then param.drop 3
  else if (param.take 4 = str "-al " ∨ param.take 4 = str "-la ") ∧ param.length > 4 then param.drop 4
  else param

/-- The body of `LIST` and `NLST`. -/
def listDirectory (host : Host) (s : FtpSession) (path sending : Str) (send : Str → Output) : Reaction :=
  match s.loggedInUser with
  | none => s.notLoggedIn
  | some user =>
    if user.lacks Permission.dirList then s.reply .fileActionNotTaken (str "Permission denied")
    else
      let localPath := s.toLocalPath user path
      match host.fileStatus localPath with
      | none => s.reply .fileActionNotTaken (str "Path does not exist")
      | some status =>
        if status.type ≠ .dir then s.reply .fileActionNotTaken (str "Path is not a directory")
        else if status.canOpenDir then
          { session := s
            outputs := [.message ⟨.fileStatusOkOpeningDataConnection, sending⟩, send localPath] }
        else s.reply .fileActionNotTaken (str "Permission denied")

def handleFtpCommandLIST (host : Host) (s : FtpSession) (param : Str) : Reaction :=
  listDirectory host s (listPath param) (str "Sending directory listing") .sendDirectoryListing

def handleFtpCommandNLST (host : Host) (s : FtpSession) (param : Str) : Reaction :=
  listDirectory host s param (str "Sending name list") .sendNameList

def handleFtpCommandFEAT (s : FtpSession) : Reaction :=
  { session := s
    outputs := [.raw (str
      "211- Feature List:\r\n UTF8\r\n SIZE\r\n LANG EN\r\n211 END\r\n")] }

/-- `std::toupper` of one character. -/
def toUpperByte (c : UInt8) : UInt8 := if 97 ≤ c ∧ c ≤ 122 then c - 32 else c

def toUpper (s : Str) : Str := s.map toUpperByte

def handleFtpCommandOPTS (s : FtpSession) (param : Str) : Reaction :=
  if toUpper param = str "UTF8 ON" then s.reply .commandOk (str "OK")
  else s.reply .commandNotImplementedForParameter (str "Unrecognized parameter")

/-- The command map. -/
def commandMap (cfg : Config) (host : Host) (s : FtpSession) (param : Str) : List (Str × Reaction) :=
  let unsupported := s.reply .syntaxErrorUnrecognizedCommand (str "Unsupported command")
  let unrecognized := s.reply .syntaxErrorUnrecognizedCommand (str "Command not implemented")
  let notImplemented := s.reply .commandNotImplemented (str "Command not implemented")
  [(str "USER", handleFtpCommandUSER s param),
   (str "PASS", handleFtpCommandPASS s param),
   (str "ACCT", unsupported),
   (str "CWD", handleFtpCommandCWD host s param),
   (str "CDUP", handleFtpCommandCDUP host s),
   (str "REIN", s.reply .commandNotImplemented (str "Unsupported command")),
   (str "QUIT", handleFtpCommandQUIT s),
   (str "PORT", s.reply .syntaxErrorUnrecognizedCommand
     (str "FTP active mode is not supported by this manager")),
   (str "PASV", handleFtpCommandPASV host s),
   (str "TYPE", handleFtpCommandTYPE s param),
   (str "STRU", unsupported),
   (str "MODE", unsupported),
   (str "RETR", handleFtpCommandRETR host s param),
   (str "STOR", handleFtpCommandSTOR host s param),
   (str "STOU", unrecognized),
   (str "APPE", handleFtpCommandAPPE host s param),
   (str "ALLO", unrecognized),
   (str "REST", notImplemented),
   (str "RNFR", handleFtpCommandRNFR host s param),
   (str "RNTO", handleFtpCommandRNTO host s param),
   (str "ABOR", notImplemented),
   (str "DELE", handleFtpCommandDELE cfg host s param),
   (str "RMD", handleFtpCommandRMD host s param),
   (str "MKD", handleFtpCommandMKD host s param),
   (str "PWD", handleFtpCommandPWD s),
   (str "LIST", handleFtpCommandLIST host s param),
   (str "NLST", handleFtpCommandNLST host s param),
   (str "SITE", unrecognized),
   (str "SYST", s.reply .nameSystemType (str "UNIX")),
   (str "STAT", notImplemented),
   (str "HELP", notImplemented),
   (str "NOOP", s.reply .commandOk (str "OK")),
   (str "FEAT", handleFtpCommandFEAT s),
   (str "OPTS", handleFtpCommandOPTS s param),
   (str "SIZE", handleFtpCommandSIZE host s param)]

/-- The command and the parameters of a line. -/
def parseCommand (command : Str) : Str × Str :=
  (toUpper (command.takeWhile (· ≠ byte ' ')), (command.dropWhile (· ≠ byte ' ')).tail)

/-- `handleFtpCommand`: after `QUIT` no command is awaited. -/
def handleFtpCommand (cfg : Config) (host : Host) (s : FtpSession) (command : Str) : Reaction :=
  let (ftpCommand, parameters) := parseCommand command
  match (commandMap cfg host s parameters).find? fun entry => entry.1 = ftpCommand with
  | some (_, r) =>
    if r.ending = none then
      { r with session := { r.session with
          lastCommand := ftpCommand, reading := ftpCommand ≠ str "QUIT" } }
    else r
  | none => { s with reading := s.lastCommand ≠ str "QUIT" }.reply
      .syntaxErrorUnrecognizedCommand (str "Unrecognized command")

end FtpSession

/-! ### Events -/

/-- What happens to a session: a command is read, the control connection is closed, a data connection
    is accepted or not, the data of a file ends. -/
inductive FtpEvent where
  | command (line : Str) (host : Host)
  | disconnected
  | accepted (i : Nat) (error : Bool)
  | ended (i : Nat) (host : Host)

/-- A session, what it sent, and how it ended the process. -/
structure FtpProcess where
  session : FtpSession
  outputs : List Output := []
  ending : Option Ending := none

namespace FtpProcess

/-- Take what a handler did. -/
def take (p : FtpProcess) (r : Reaction) : FtpProcess :=
  { session := r.session, outputs := p.outputs ++ r.outputs, ending := r.ending }

/-- `sendFtpMessage`. -/
def say (p : FtpProcess) (m : FtpMessage) : FtpProcess := { p with outputs := p.outputs ++ [.message m] }

/-- Another stage of one transfer. -/
def setStage (p : FtpProcess) (i : Nat) (stage : Stage) : FtpProcess :=
  { p with session := { p.session with
      transfers := p.session.transfers.modify i fun t => { t with stage := stage } } }

/-- `endDataReceiving`. -/
def endDataReceiving (cfg : Config) (host : Host) (p : FtpProcess) (i : Nat) (file : IoFile) :
    FtpProcess :=
  let p := (p.setStage i .ended).say ⟨.closingDataConnection, str "Done"⟩
  p.take (p.session.sendCreateObjectRequest cfg host file.user file.fileName)

/-- One event; none where it cannot happen. -/
def step (cfg : Config) (e : FtpEvent) (p : FtpProcess) : Option FtpProcess :=
  if p.ending ≠ none then none
  else match e with
    | .command line host =>
      if p.session.reading then some (p.take (p.session.handleFtpCommand cfg host line)) else none
    | .disconnected =>
      if p.session.reading then
        some { p with session := { p.session with reading := false, acceptorOpen := false } }
      else none
    | .accepted i error =>
      match p.session.transfers[i]? with
      | some ⟨_, .accepting⟩ =>
        if error then
          some ((p.setStage i .aborted).say ⟨.transferAborted, str "Data transfer aborted"⟩)
        else some (p.setStage i .receiving)
      | _ => none
    | .ended i host =>
      match p.session.transfers[i]? with
      | some ⟨file, .receiving⟩ => some (p.endDataReceiving cfg host i file)
      | _ => none

end FtpProcess

/-- The greeting of a new session on a server with these users. -/
def startSession (userDatabase : UserDatabase) : FtpProcess :=
  { session := { userDatabase }
    outputs := [.message ⟨.serviceReadyForNewUser, str "Welcome to AWS Transfer FTP Handler"⟩] }

/-! ### A sample -/

/-- A system on which every path is a directory and every operation succeeds. -/
def Host.willing : Host where
  fileStatus _ := some ⟨.dir, true⟩
  good _ _ := true
  fileSize _ := none
  rename _ _ := true
  unlink _ := true
  rmdir _ := true
  mkdir _ := true
  listen := .listening [127, 0, 0, 1] 2048
  s3Returns := true

def Config.sample : Config where
  region := str "eu-central-1"
  bucket := str "transfer-server"
  transferDir := str "/data"
  serverName := str "s-1"

/-- A system without files. -/
def Host.empty : Host := { Host.willing with fileStatus := fun _ => none }

/-- The user of a new server. -/
def anonymous : Transfer.User :=
  { userName := str "anonymous", password := str "123", homeDirectory := str "/u" }

end AwsMock.Ftp
