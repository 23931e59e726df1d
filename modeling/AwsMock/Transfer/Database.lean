import AwsMock.Core.StringUtils
import AwsMock.Ftp.UserDatabase
import AwsMock.Lib.Prog
import AwsMock.Transfer.MemoryDb

/-!
# Calls of the transfer module

What the service asks of its store, and what the transfer server asks of the store and of its list of FTP
servers, each one atomic. `Runtime` holds what comes from outside.
-/

namespace AwsMock.Transfer

open Lib

/-- The object id and the hex string drawn by the `n`-th call, the base directory of the users, and
    whether the system lets the process listen on an address and port that it does not hold. -/
structure Runtime where
  uuid : Nat → Str
  hexString : Nat → Str
  baseDir : Str
  free : Str × Int → Bool
  uuid_inj : ∀ {n m}, uuid n = uuid m → n = m
  hexString_inj : ∀ {n m}, toLower (hexString n) = toLower (hexString m) → n = m

/-- An entry of `_transferServerList`. -/
structure FtpServer where
  endpoint : Str × Int
  users : Ftp.UserDatabase
  /-- Its acceptor listens, until it is destroyed. -/
  listening : Bool
  /-- Its threads serve the sessions. -/
  running : Bool

/-- The process: the store, the FTP servers and the number of calls made so far. -/
structure World where
  db : TransferMemoryDb := {}
  servers : OrderedMap Str FtpServer := ∅
  calls : Nat := 0

inductive TransferCall where
  | transferExists (region serverId : Str)
  | serverIdExists (serverId : Str)
  | protocolsExist (region : Str) (protocols : List Str)
  | listServers (region : Str)
  | createTransfer (t : Transfer)
  | updateTransfer (t : Transfer)
  | getTransferByServerId (serverId : Str)
  | deleteTransfer (serverId : Str)
  | generateRandomHexString
  | serverIds
  | hasServer (serverId : Str)
  | startFtpServer (t : Transfer)
  | stopFtpServer (serverId : Str)

namespace TransferCall

/-- What a call returns. -/
abbrev Reply : TransferCall → Type
  | transferExists .. | serverIdExists .. | protocolsExist .. | hasServer .. => Bool
  | listServers .. => List Transfer
  | createTransfer .. | updateTransfer .. | getTransferByServerId .. => Except Error Transfer
  | deleteTransfer .. | startFtpServer .. | stopFtpServer .. => Unit
  | generateRandomHexString => Str
  | serverIds => List Str

end TransferCall

def endpointOf (t : Transfer) : Str × Int := (t.listenAddress, t.port)

/-- `FtpServerImpl::start`: an acceptor of the process that listens there already fails it. -/
def listens (rt : Runtime) (servers : OrderedMap Str FtpServer) (endpoint : Str × Int) : Bool :=
  rt.free endpoint ∧ servers.values.all fun server => ¬ (server.listening ∧ server.endpoint = endpoint)

/-- A new FTP server, with its users; the result of `start` is not looked at. -/
def startedServer (rt : Runtime) (servers : OrderedMap Str FtpServer) (t : Transfer) : FtpServer :=
  { endpoint := endpointOf t, users := Ftp.addUsers rt.baseDir t.users,
    listening := listens rt servers (endpointOf t), running := listens rt servers (endpointOf t) }

/-- The meaning of a call. -/
def apply (rt : Runtime) (w : World) : (c : TransferCall) → Option (c.Reply × World)
  | .transferExists region serverId => some (w.db.transferExists region serverId, w)
  | .serverIdExists serverId => some (w.db.serverIdExists serverId, w)
  | .protocolsExist region protocols => some (w.db.protocolsExist region protocols, w)
  | .listServers region => some (w.db.listServers region, w)
  | .createTransfer t =>
    let r := w.db.createTransfer (rt.uuid w.calls) t
    some (r.1, { w with db := r.2 })
  | .updateTransfer t =>
    let r := w.db.updateTransfer t
    some (r.1, { w with db := r.2 })
  | .getTransferByServerId serverId =>
    let r := w.db.getTransferByServerId serverId
    some (r.1, { w with db := r.2 })
  | .deleteTransfer serverId => some ((), { w with db := w.db.deleteTransfer serverId })
  | .generateRandomHexString => some (rt.hexString w.calls, w)
  | .serverIds => some (w.servers.entries.map Prod.fst, w)
  | .hasServer serverId => some ((w.servers.get? serverId).isSome, w)
  | .startFtpServer t =>
    some ((), { w with servers := w.servers.insert t.serverId (startedServer rt w.servers t) })
  -- the subscript operator makes a null pointer of a missing entry
  | .stopFtpServer serverId => (w.servers.get? serverId).map fun server =>
    ((), { w with servers := w.servers.insert serverId { server with running := false } })

/-- The meaning of a call in the process. -/
def exec (rt : Runtime) : Prog.Exec TransferCall TransferCall.Reply World := fun c w =>
  (apply rt w c).map fun r => (r.1, { r.2 with calls := w.calls + 1 })

end AwsMock.Transfer
