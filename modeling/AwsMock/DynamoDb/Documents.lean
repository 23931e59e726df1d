import AwsMock.DynamoDb.Database
import AwsMock.Lib.Collection

/-!
# The DynamoDB documents

`ToDocument` and `FromDocument` of tables, items and attribute values, and `DynamoDbDatabase` on the collections
of the document database.
-/

namespace AwsMock.DynamoDb

open Lib Bson

/-! ### Encoders -/

/-- A map that is written when it is not empty. -/
def mapField (name : Str) (m : OrderedMap Str Str) : Option Document :=
  if m.entries = [] then some [] else (ofMap m).map fun elements => [(name, .document elements)]

/-- The elements that every table has. -/
def Table.scalarFields (t : Table) : Document :=
  [(str "region", .string t.region), (str "name", .string t.name), (str "status", .string t.status),
    (str "created", .date (dateOf t.created)), (str "modified", .date (dateOf t.modified))]

def Table.toDocument (t : Table) : Option Document := do
  let tags ← mapField (str "tags") t.tags
  let attributes ← mapField (str "attributes") t.attributes
  let keySchemas ← mapField (str "keySchemas") t.keySchemas
  return t.scalarFields ++ tags ++ attributes ++ keySchemas

/-- A set that is written when it is not empty. -/
def setField (name : Str) (values : List Str) : Document :=
  if values = [] then [] else [(name, .array (values.map .string))]

def AttributeValue.toDocument (a : AttributeValue) : Document :=
  [(str "S", .string a.stringValue), (str "N", .string a.numberValue), (str "BOOL", .bool a.boolValue),
    (str "NULL", .bool a.nullValue), (str "created", .date (dateOf a.created)),
    (str "modified", .date (dateOf a.modified))] ++
      setField (str "SS") a.stringSetValue ++ setField (str "NS") a.numberSetValue

/-- The keys are not written. -/
def Item.toDocument (i : Item) : Option Document :=
  if ∀ e ∈ i.attributes.entries, 0 ∉ e.1 then
    some [(str "region", .string i.region), (str "tableName", .string i.tableName),
      (str "attributes", .document (i.attributes.entries.map fun e => (e.1, .document e.2.toDocument))),
      (str "created", .date (dateOf i.created)), (str "modified", .date (dateOf i.modified))]
  else none

/-! ### Decoders, into new records -/

def Table.fromDocument (doc : Document) : Option Table := do
  let oid ← getOid (element (str "_id") doc)
  let region ← getString (element (str "region") doc)
  let name ← getString (element (str "name") doc)
  let status ← getString (element (str "status") doc)
  let created ← getDate (element (str "created") doc)
  let modified ← getDate (element (str "modified") doc)
  let tags ← readMap (str "tags") doc ∅
  let attributes ← readMap (str "attributes") doc ∅
  let keySchemas ← readMap (str "keySchemas") doc ∅
  return {
    oid := oid, region := region, name := name, status := status, attributes := attributes, tags := tags,
    keySchemas := keySchemas, created := timeOf created, modified := timeOf modified }

/-- The attributes are not read. -/
def Item.fromDocument (doc : Document) : Option Item := do
  let oid ← getOid (element (str "_id") doc)
  let region ← getString (element (str "region") doc)
  let tableName ← getString (element (str "tableName") doc)
  let created ← getDate (element (str "created") doc)
  let modified ← getDate (element (str "modified") doc)
  return {
    oid := oid, region := region, tableName := tableName, created := timeOf created, modified := timeOf modified }

/-! ### Round trips -/

/-- The names of its maps can be written and its times are whole milliseconds. -/
structure Table.Storable (t : Table) : Prop where
  tags : ∀ e ∈ t.tags.entries, 0 ∉ e.1
  attributes : ∀ e ∈ t.attributes.entries, 0 ∉ e.1
  keySchemas : ∀ e ∈ t.keySchemas.entries, 0 ∉ e.1
  created : 1000000 ∣ t.created
  modified : 1000000 ∣ t.modified

theorem mapField_isSome (name : Str) {m : OrderedMap Str Str} (h : ∀ e ∈ m.entries, 0 ∉ e.1) :
    ∃ field, mapField name m = some field := by
  unfold mapField
  split
  · exact ⟨_, rfl⟩
  · obtain ⟨elements, helements⟩ := ofMap_isSome_iff.mpr h
    exact ⟨_, by rw [helements]; rfl⟩

theorem element_append (name : Str) : ∀ (doc rest : Document),
    element name (doc ++ rest) = (element name doc).or (element name rest)
  | [], _ => by rw [List.nil_append, element, Option.none_or]
  | (key, value) :: doc, rest => by
    rw [List.cons_append, element, element]
    split
    · rfl
    · exact element_append name doc rest

/-- The element of a map is the map's, and under other names there is none. -/
theorem element_mapField {name : Str} {m : OrderedMap Str Str} {field : Document} (h : mapField name m = some field) :
    (∀ other, other ≠ name → element other field = none) ∧
      ∀ doc, element name doc = element name field → readMap name doc ∅ = some m := by
  unfold mapField at h
  split at h
  · next hempty =>
    cases h
    refine ⟨fun _ _ => rfl, fun doc hdoc => ?_⟩
    have hm : m = ∅ := OrderedMap.entries_injective hempty
    rw [readMap, hdoc, hm]
    rfl
  · obtain ⟨elements, helements, rfl⟩ := Option.map_eq_some_iff.mp h
    refine ⟨fun other hother => by rw [element, if_neg (Ne.symm hother), element], fun doc hdoc => ?_⟩
    rw [readMap, hdoc, element, if_pos rfl]
    exact intoMap_self helements (.inl rfl)

/-- What is read of a table's document. -/
theorem Table.document_round_trip {t : Table} {fields : Document} (h : t.toDocument = some fields) (oid : Str) :
    Table.fromDocument ((Collection.idName, .oid oid) :: fields) =
      some { t with oid := oid, created := timeOf (dateOf t.created), modified := timeOf (dateOf t.modified) } := by
  obtain ⟨tags, htags, h⟩ := Option.bind_eq_some_iff.mp h
  obtain ⟨attributes, hattributes, h⟩ := Option.bind_eq_some_iff.mp h
  obtain ⟨keySchemas, hkeySchemas, h⟩ := Option.bind_eq_some_iff.mp h
  obtain rfl := Option.some.inj h
  obtain ⟨htagsOther, hreadTags⟩ := element_mapField htags
  obtain ⟨hattributesOther, hreadAttributes⟩ := element_mapField hattributes
  obtain ⟨hkeySchemasOther, hreadKeySchemas⟩ := element_mapField hkeySchemas
  -- a map's element is not among the scalar ones, nor is it one of the other two maps
  have hfind (name : Str) (hscalars : element name ((Collection.idName, .oid oid) :: t.scalarFields) = none) :
      element name ((Collection.idName, .oid oid) :: (t.scalarFields ++ tags ++ attributes ++ keySchemas)) =
        ((element name tags).or (element name attributes)).or (element name keySchemas) := by
    rw [← List.cons_append, ← List.cons_append, ← List.cons_append, element_append, element_append, element_append,
      hscalars, Option.none_or]
  have htagsRead := hreadTags _ (by
    rw [hfind _ rfl, hattributesOther _ (by decide), hkeySchemasOther _ (by decide), Option.or_none, Option.or_none])
  have hattributesRead := hreadAttributes _ (by
    rw [hfind _ rfl, htagsOther _ (by decide), hkeySchemasOther _ (by decide), Option.none_or, Option.or_none])
  have hkeySchemasRead := hreadKeySchemas _ (by
    rw [hfind _ rfl, htagsOther _ (by decide), hattributesOther _ (by decide), Option.none_or, Option.none_or])
  rw [fromDocument, htagsRead, hattributesRead, hkeySchemasRead]
  rfl

/-- What is read of an item's document: neither attributes nor keys. -/
theorem Item.document_read {i : Item} {fields : Document} (h : i.toDocument = some fields) (oid : Str) :
    Item.fromDocument ((Collection.idName, .oid oid) :: fields) = some {
      oid := oid, region := i.region, tableName := i.tableName, created := timeOf (dateOf i.created),
      modified := timeOf (dateOf i.modified) } := by
  obtain ⟨-, hfields⟩ := Option.ite_none_right_eq_some.mp h
  obtain rfl := Option.some.inj hfields
  rfl

/-- The tables that can be written. -/
theorem Table.Storable.toDocument {t : Table} (h : t.Storable) : ∃ fields, t.toDocument = some fields := by
  obtain ⟨tags, htags⟩ := mapField_isSome (str "tags") h.tags
  obtain ⟨attributes, hattributes⟩ := mapField_isSome (str "attributes") h.attributes
  obtain ⟨keySchemas, hkeySchemas⟩ := mapField_isSome (str "keySchemas") h.keySchemas
  exact ⟨t.scalarFields ++ tags ++ attributes ++ keySchemas, by
    rw [Table.toDocument, htags, hattributes, hkeySchemas]
    rfl⟩

/-! ### Calls -/

/-- The collections of tables and of items. -/
structure DynamoDbMongoDb where
  tables : Collection := []
  items : Collection := []

namespace DynamoDbMongoDb

variable (db : DynamoDbMongoDb)

/-- What is read of the document that was looked for; `none` is the driver's exception. -/
def fetch {α : Type} (read : Document → Option α) (missing : Error) : Option Document → Option (Except Error α)
  | some doc => (read doc).map .ok
  | none => some (.error missing)

def getTableById (oid : Str) : Option (Except Error Table) :=
  fetch Table.fromDocument (.pocoException (str "Database exception, Table not found ")) (db.tables.findById oid)

def getTableByRegionName (region name : Str) : Option (Except Error Table) :=
  fetch Table.fromDocument (.pocoException (str "Database exception, Table not found "))
    (db.tables.findOne (Query.equals [(str "region", region), (str "name", name)]))

def createTable (oid : Str) (table : Table) : Option (Except Error Table × DynamoDbMongoDb) := do
  let fields ← table.toDocument
  let db := { db with tables := db.tables.insertOne oid fields }
  let reply ← db.getTableById oid
  return (reply, db)

def tableExists (region tableName : Str) : Bool :=
  if region ≠ [] then db.tables.countDocuments (Query.equals [(str "region", region), (str "name", tableName)]) > 0
  else db.tables.countDocuments (Query.equals [(str "name", tableName)]) > 0

def listTables (region : Str) : Option (List Table) :=
  if region = [] then (db.tables.find []).mapM Table.fromDocument
  else (db.tables.find (Query.equals [(str "region", region)])).mapM Table.fromDocument

def updateTable (table : Table) : Option (Except Error Table × DynamoDbMongoDb) := do
  let fields ← table.toDocument
  let filter := Query.equals [(str "region", table.region), (str "name", table.name)]
  let db := { db with tables := db.tables.replaceOne filter fields }
  let reply ← db.getTableByRegionName table.region table.name
  return (reply, db)

def deleteTable (region tableName : Str) : DynamoDbMongoDb :=
  { db with tables := db.tables.deleteMany (Query.equals [(str "region", region), (str "name", tableName)]) }

/-- The primary keys that the item has: its `NULL` is compared with the boolean value. -/
def keyFilter (table : Table) (item : Item) : Query :=
  table.keySchemas.entries.flatMap fun key =>
    match item.attributes.get? key.1 with
    | some value =>
      let path := str "attributes." ++ key.1
      [(path ++ str ".S", .eq (.string value.stringValue)), (path ++ str ".N", .eq (.string value.numberValue)),
        (path ++ str ".BOOL", .eq (.bool value.boolValue)), (path ++ str ".NULL", .eq (.bool value.boolValue))]
    | none => []

/-- `queryDoc`. -/
def itemFilter (table : Table) (item : Item) : Query :=
  Query.equals [(str "region", item.region), (str "tableName", item.tableName)] ++ keyFilter table item

def itemExists (item : Item) : Option (Except Error Bool) := do
  match ← db.getTableByRegionName item.region item.tableName with
  | .error e => return .error e
  | .ok table => return .ok (db.items.countDocuments (itemFilter table item) > 0)

/-- With a table, items are looked for by a `name`. -/
def listItems (region tableName : Str) : Option (List Item) :=
  if region = [] ∧ tableName = [] then (db.items.find []).mapM Item.fromDocument
  else if tableName = [] then (db.items.find (Query.equals [(str "region", region)])).mapM Item.fromDocument
  else (db.items.find (Query.equals [(str "region", region), (str "name", tableName)])).mapM Item.fromDocument

def getItemById (oid : Str) : Option (Except Error Item) :=
  fetch Item.fromDocument (.pocoException (str "Database exception, item not found ")) (db.items.findById oid)

def createItem (oid : Str) (item : Item) : Option (Except Error Item × DynamoDbMongoDb) := do
  let fields ← item.toDocument
  let db := { db with items := db.items.insertOne oid fields }
  let reply ← db.getItemById oid
  return (reply, db)

/-- The query is extracted from its builder twice, and the builder allows this once. -/
def updateItem (item : Item) : Option (Except Error Item × DynamoDbMongoDb) := do
  match ← db.getTableByRegionName item.region item.tableName with
  | .error e => return (.error e, db)
  | .ok _ => none

/-- By a `name`. -/
def deleteItem (_region tableName _key : Str) : DynamoDbMongoDb :=
  { db with items := db.items.deleteMany (Query.equals [(str "name", tableName)]) }

def deleteItems (_region tableName : Str) : DynamoDbMongoDb :=
  { db with items := db.items.deleteMany (Query.equals [(str "tableName", tableName)]) }

end DynamoDbMongoDb

/-- The meaning of a call on the document database, with the object id it may draw. `none` is an exception of the
    driver that the call does not catch, or a use of the driver that is not allowed. -/
def mongoCall (oid : Str) (db : DynamoDbMongoDb) : (c : DynamoDbCall) → Option (c.Reply × DynamoDbMongoDb)
  | .createTable table => db.createTable oid table
  | .tableExists region tableName => some (db.tableExists region tableName, db)
  | .listTables region => (db.listTables region).map fun tables => (tables, db)
  | .updateTable table => db.updateTable table
  | .deleteTable region tableName => some ((), db.deleteTable region tableName)
  | .itemExists item => (db.itemExists item).map fun reply => (reply, db)
  | .listItems region tableName => (db.listItems region tableName).map fun items => (items, db)
  | .createItem item => db.createItem oid item
  | .updateItem item => db.updateItem item
  | .deleteItem region tableName key => some ((), db.deleteItem region tableName key)
  | .deleteItems region tableName => some ((), db.deleteItems region tableName)

end AwsMock.DynamoDb
