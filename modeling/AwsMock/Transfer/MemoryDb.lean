import AwsMock.Core.Poco
import AwsMock.Lib.OrderedMap
import AwsMock.Transfer.Entity

/-!
# The in-memory transfer store

`TransferMemoryDb`: a map keyed by a random object id, and one function for each method that the service
and the transfer server call.
-/

namespace AwsMock.Transfer

open Lib

structure TransferMemoryDb where
  transfers : OrderedMap Str Transfer := ∅
  deriving DecidableEq

namespace TransferMemoryDb

/-- `TransferExists` by region and server id. -/
def transferExists (db : TransferMemoryDb) (region serverId : Str) : Bool :=
  (db.transfers.findIf fun _ t => t.region = region ∧ t.serverId = serverId).isSome

/-- `TransferExists` by server id. -/
def serverIdExists (db : TransferMemoryDb) (serverId : Str) : Bool :=
  (db.transfers.findIf fun _ t => t.serverId = serverId).isSome

/-- `TransferExists` by region and protocols. -/
def protocolsExist (db : TransferMemoryDb) (region : Str) (protocols : List Str) : Bool :=
  (db.transfers.findIf fun _ t => t.region = region ∧ t.protocols = protocols).isSome

/-- An empty region lists every server. -/
def listServers (db : TransferMemoryDb) (region : Str) : List Transfer :=
  if region = [] then db.transfers.values else db.transfers.values.filter fun t => t.region = region

/-- The common end of the `GetTransferBy…` methods: the record found is given its key as `oid`. -/
def fetchTransfer (db : TransferMemoryDb) (missing : Error) :
    Option (Str × Transfer) → Except Error Transfer × TransferMemoryDb
  | some (oid, t) =>
    (.ok { t with oid := oid }, { db with transfers := db.transfers.insert oid { t with oid := oid } })
  | none => (.error missing, db)

def getTransferById (db : TransferMemoryDb) (oid : Str) : Except Error Transfer × TransferMemoryDb :=
  db.fetchTransfer (.pocoException (str "Get transfer by ID failed, oid: " ++ oid))
    (db.transfers.findIf fun key _ => key = oid)

def getTransferByServerId (db : TransferMemoryDb) (serverId : Str) :
    Except Error Transfer × TransferMemoryDb :=
  db.fetchTransfer (.pocoException (str "Get transfer by serverId failed, serverId: " ++ serverId))
    (db.transfers.findIf fun _ t => t.serverId = serverId)

def createTransfer (db : TransferMemoryDb) (oid : Str) (t : Transfer) :
    Except Error Transfer × TransferMemoryDb :=
  getTransferById { db with transfers := db.transfers.insert oid t } oid

def updateTransfer (db : TransferMemoryDb) (t : Transfer) : Except Error Transfer × TransferMemoryDb :=
  match db.transfers.findIf fun _ u => u.region = t.region ∧ u.serverId = t.serverId with
  | some (key, _) => (.ok t, { db with transfers := db.transfers.insert key t })
  | none => (.error (.pocoException (str "Update transfer failed, serverId: " ++ t.serverId)), db)

def deleteTransfer (db : TransferMemoryDb) (serverId : Str) : TransferMemoryDb :=
  { db with transfers := db.transfers.eraseIf fun _ t => t.serverId = serverId }

end TransferMemoryDb

end AwsMock.Transfer
