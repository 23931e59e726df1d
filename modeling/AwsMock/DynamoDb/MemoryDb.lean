import AwsMock.Core.Poco
import AwsMock.DynamoDb.Entity

/-!
# The in-memory DynamoDB store

`DynamoDbMemoryDb`: tables and items in two maps keyed by random object ids.
-/

namespace AwsMock.DynamoDb

open Lib

/-- The names in order, and nothing else, are compared. -/
def keyCompare {α : Type} (lhs rhs : OrderedMap Str α) : Bool :=
  lhs.size = rhs.size ∧ (lhs.entries.zip rhs.entries).all fun e => e.1.1 = e.2.1

structure DynamoDbMemoryDb where
  tables : OrderedMap Str Table := ∅
  items : OrderedMap Str Item := ∅
  deriving DecidableEq

namespace DynamoDbMemoryDb

variable (db : DynamoDbMemoryDb)

/-! ### Tables -/

/-- The table of a region with a name. -/
def findTable (region name : Str) : Option (Str × Table) :=
  db.tables.findIf fun _ table => table.region = region ∧ table.name = name

def tableExists (region tableName : Str) : Bool :=
  if region ≠ [] then (db.findTable region tableName).isSome
  else (db.tables.findIf fun _ table => table.name = tableName).isSome

def listTables (region : Str) : List Table :=
  if region = [] then db.tables.values else db.tables.values.filter fun table => table.region = region

/-- The common end of the `GetTableBy…` methods: the record found is given its key as `oid`. -/
def fetchTable (missing : Error) : Option (Str × Table) → Except Error Table × DynamoDbMemoryDb
  | some (oid, table) =>
    (.ok { table with oid := oid }, { db with tables := db.tables.insert oid { table with oid := oid } })
  | none => (.error missing, db)

def getTableById (oid : Str) : Except Error Table × DynamoDbMemoryDb :=
  db.fetchTable (.pocoException (str "Get table by ID failed, oid: " ++ oid))
    (db.tables.findIf fun key _ => key = oid)

def getTableByRegionName (region name : Str) : Except Error Table × DynamoDbMemoryDb :=
  db.fetchTable (.pocoException
    (str "Get table by region and name failed, region: " ++ region ++ str " name: " ++ name))
    (db.findTable region name)

def createTable (oid : Str) (table : Table) : Except Error Table × DynamoDbMemoryDb :=
  getTableById { db with tables := db.tables.insert oid table } oid

/-- The iterator is not checked. -/
def updateTable (table : Table) : Option (Table × DynamoDbMemoryDb) :=
  (db.findTable table.region table.name).map fun it =>
    (table, { db with tables := db.tables.insert it.1 table })

def deleteTable (tableName : Str) : DynamoDbMemoryDb :=
  { db with tables := db.tables.eraseIf fun _ table => table.name = tableName }

/-! ### Items -/

/-- The first item of a table. -/
def findItem (region tableName : Str) : Option (Str × Item) :=
  db.items.findIf fun _ item => item.region = region ∧ item.tableName = tableName

/-- The search of `ItemExists`, once the table is read. -/
def matchesItem (item : Item) (table : Table) : Bool :=
  if item.region ≠ [] then
    (db.items.findIf fun _ item1 => item1.region = table.region ∧ item1.tableName = table.name ∧
      keyCompare item.attributes item1.attributes).isSome
  else (db.items.findIf fun _ item1 => item1.tableName = item.tableName).isSome

def itemExists (item : Item) : Except Error Bool × DynamoDbMemoryDb :=
  match db.getTableByRegionName item.region item.tableName with
  | (.error e, db) => (.error e, db)
  | (.ok table, db) => (.ok (db.matchesItem item table), db)

def listItems (region tableName : Str) : List Item :=
  if region = [] ∧ tableName = [] then db.items.values
  else if tableName = [] then db.items.values.filter fun item => item.region = region
  else db.items.values.filter fun item => item.region = region ∧ item.tableName = tableName

def getItemById (oid : Str) : Except Error Item × DynamoDbMemoryDb :=
  match db.items.findIf fun key _ => key = oid with
  | some (_, item) =>
    (.ok { item with oid := oid }, { db with items := db.items.insert oid { item with oid := oid } })
  | none => (.error (.pocoException (str "Get item by ID failed, oid: " ++ oid)), db)

def createItem (oid : Str) (item : Item) : Except Error Item × DynamoDbMemoryDb :=
  getItemById { db with items := db.items.insert oid item } oid

/-- The first item of the table is written; the iterator is not checked. -/
def updateItem (item : Item) : Option (Item × DynamoDbMemoryDb) :=
  (db.findItem item.region item.tableName).map fun it =>
    (item, { db with items := db.items.insert it.1 item })

/-- The key is not looked at. -/
def deleteItem (region tableName _key : Str) : DynamoDbMemoryDb :=
  { db with items := db.items.eraseIf fun _ item => item.region = region ∧ item.tableName = tableName }

def deleteItems (region tableName : Str) : DynamoDbMemoryDb :=
  { db with items := db.items.eraseIf fun _ item => item.region = region ∧ item.tableName = tableName }

end DynamoDbMemoryDb

end AwsMock.DynamoDb
