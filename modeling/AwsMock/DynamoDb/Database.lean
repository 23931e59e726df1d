import AwsMock.DynamoDb.MemoryDb
import AwsMock.Lib.Prog

/-!
# Calls of the DynamoDB store

`DynamoDbDatabase` on the in-memory store. Every call is atomic.
-/

namespace AwsMock.DynamoDb

open Lib

/-- The object id drawn by the `n`-th call, and the time points read for the item it makes. -/
structure Runtime where
  uuid : Nat → Str
  clock : Nat → Readings
  uuid_inj : ∀ {n m}, uuid n = uuid m → n = m

structure World where
  db : DynamoDbMemoryDb := {}
  calls : Nat := 0

inductive DynamoDbCall where
  | createTable (table : Table)
  | tableExists (region tableName : Str)
  | listTables (region : Str)
  | updateTable (table : Table)
  | deleteTable (region tableName : Str)
  | itemExists (item : Item)
  | listItems (region tableName : Str)
  | createItem (item : Item)
  | updateItem (item : Item)
  | deleteItem (region tableName key : Str)
  | deleteItems (region tableName : Str)

namespace DynamoDbCall

/-- What a call returns; a lookup inside it may throw. -/
abbrev Reply : DynamoDbCall → Type
  | createTable .. | updateTable .. => Except Error Table
  | tableExists .. => Bool
  | listTables .. => List Table
  | itemExists .. => Except Error Bool
  | listItems .. => List Item
  | createItem .. | updateItem .. => Except Error Item
  | deleteTable .. | deleteItem .. | deleteItems .. => Unit

end DynamoDbCall

/-- The meaning of a call on the in-memory store, with the object id it may draw. -/
def memoryCall (oid : Str) (db : DynamoDbMemoryDb) : (c : DynamoDbCall) → Option (c.Reply × DynamoDbMemoryDb)
  | .createTable table => some (db.createTable oid table)
  | .tableExists region tableName => some (db.tableExists region tableName, db)
  | .listTables region => some (db.listTables region, db)
  | .updateTable table => (db.updateTable table).map fun r => (.ok r.1, r.2)
  | .deleteTable _ tableName => some ((), db.deleteTable tableName)
  | .itemExists item => some (db.itemExists item)
  | .listItems region tableName => some (db.listItems region tableName, db)
  | .createItem item => some (db.createItem oid item)
  | .updateItem item => (db.updateItem item).map fun r => (.ok r.1, r.2)
  | .deleteItem region tableName key => some ((), db.deleteItem region tableName key)
  | .deleteItems region tableName => some ((), db.deleteItems region tableName)

/-- The meaning of a call in the process. -/
def exec (rt : Runtime) : Prog.Exec DynamoDbCall DynamoDbCall.Reply World := fun c w =>
  (memoryCall (rt.uuid w.calls) w.db c).map fun r => (r.1, { db := r.2, calls := w.calls + 1 })

end AwsMock.DynamoDb
