import AwsMock.Core.AwsUtils
import AwsMock.Transfer.Database

/-!
# The transfer service and the transfer server

`TransferService` and `TransferServer` as programs over the calls. The users' requests, the S3 bucket and
the metrics are left out.
-/

namespace AwsMock.Transfer

open Lib

abbrev TransferProg := Prog TransferCall TransferCall.Reply Error

/-- One call. -/
abbrev call (c : TransferCall) : TransferProg c.Reply := Prog.perform c

/-! ### Requests -/

/-- The account and the port of the configuration. -/
structure TransferConfiguration where
  accountId : Str := str "000000000000"
  ftpPort : Int := 21

structure CreateServerRequest where
  region : Str
  protocols : List Str

/-- The requests that name a server. -/
structure ServerRequest where
  region : Str
  serverId : Str

/-- `Poco::Exception::message`. -/
def message : Error → Str
  | .serviceException text | .pocoException text | .stdException text => text

def createTransferServer (cfg : TransferConfiguration) (request : CreateServerRequest) : TransferProg Str := do
  if ← call (.protocolsExist request.region request.protocols) then
    .throw (.serviceException (str "Transfer manager exists already"))
  else
    let hexString ← call .generateRandomHexString
    let serverId := str "s-" ++ toLower hexString
    let transferArn := createArn (str "transfer") request.region cfg.accountId (str "manager/" ++ serverId)
    let anonymousUser : User :=
      { userName := str "anonymous", password := str "123", homeDirectory := str "/" }
    let _ ← call (.createTransfer {
      region := request.region, serverId := serverId, arn := transferArn, protocols := request.protocols,
      port := cfg.ftpPort, users := [anonymousUser] })
    return serverId

/-- The handler of `catch (Poco::Exception &ex)`: it stores the state of the failure. -/
def failed (server : Transfer) (state : ServerState) (ex : Error) : TransferProg Transfer := do
  match ← call (.updateTransfer { server with state := state }) with
  | .ok _ => .throw (.serviceException (message ex))
  | .error e => .throw e

/-- The body of the three requests that name a server: its record gets the state, and what goes wrong
    is handled with the record read so far. -/
def setServerState (state failure : ServerState) (request : ServerRequest) : TransferProg Transfer := do
  if ← call (.transferExists request.region request.serverId) then
    match ← call (.getTransferByServerId request.serverId) with
    | .error ex => failed {} failure ex
    | .ok server =>
      match ← call (.updateTransfer { server with state := state }) with
      | .error ex => failed { server with state := state } failure ex
      | .ok server => return server
  else
    failed {} failure (.serviceException
      (str "Handler with ID '" ++ request.serverId ++ str "' does not exist"))

def startServer (request : ServerRequest) : TransferProg Transfer :=
  setServerState .online .startFailed request

def stopServer (request : ServerRequest) : TransferProg Transfer :=
  setServerState .offline .stopFailed request

def deleteServer (request : ServerRequest) : TransferProg Unit := do
  let _ ← setServerState .offline .stopFailed request
  call (.deleteTransfer request.serverId)

/-- The requests to the service. -/
inductive Request where
  | createServer (request : CreateServerRequest)
  | startServer (request : ServerRequest)
  | stopServer (request : ServerRequest)
  | deleteServer (request : ServerRequest)

/-- One request; its response or exception goes to the client. -/
def serve (cfg : TransferConfiguration) : Request → TransferProg Unit
  | .createServer request => do let _ ← (createTransferServer cfg request).attempt
  | .startServer request => do let _ ← (Transfer.startServer request).attempt
  | .stopServer request => do let _ ← (Transfer.stopServer request).attempt
  | .deleteServer request => do let _ ← (Transfer.deleteServer request).attempt

/-- Requests one after the other. -/
def serveAll (cfg : TransferConfiguration) (requests : List Request) : TransferProg Unit :=
  Prog.forEach requests (serve cfg)

/-! ### The transfer server -/

/-- The member `_region`, which nothing assigns. -/
def region : Str := []

def startTransferServer (t : Transfer) : TransferProg Unit := call (.startFtpServer t)

def stopTransferServer (t : Transfer) : TransferProg Unit := call (.stopFtpServer t.serverId)

def startTransferServers : TransferProg Unit := do
  let transfers ← call (.listServers region)
  Prog.forEach transfers fun t => Prog.when (t.state = .online) (startTransferServer t)

/-- One server that is stored. -/
def checkTransfer (t : Transfer) : TransferProg Unit := do
  if t.state = .online then
    let it ← call (.hasServer t.serverId)
    Prog.when (it = false) (startTransferServer t)
  else Prog.when (t.state = .offline) do
    let it ← call (.hasServer t.serverId)
    Prog.when (it = true) (stopTransferServer t)

/-- One server that was started. -/
def checkStarted (serverId : Str) : TransferProg Unit := do
  let exist ← call (.serverIdExists serverId)
  Prog.when (exist = false) do
    let found ← call (.getTransferByServerId serverId)
    let server ← Prog.ofExcept found
    stopTransferServer server

def checkTransferServers : TransferProg Unit := do
  let transfers ← call (.listServers region)
  Prog.forEach transfers checkTransfer
  let serverIds ← call .serverIds
  Prog.forEach serverIds checkStarted

/-- The thread of the transfer server, for a number of passes. -/
def serverThread (passes : Nat) : TransferProg Unit := do
  startTransferServers
  Prog.forEach (List.range passes) fun _ => checkTransferServers

end AwsMock.Transfer
