import AwsMock.DynamoDb.Container
import AwsMock.DynamoDb.Documents
import AwsMock.Lib.Machine
import AwsMock.Lib.Mirror

/-!
# The two DynamoDB backends

The same calls on the in-memory store and on the document database. The two give the same results, and end with the
same tables and items, as long as every call `Conforms`: the calls on items look for them in the collection under names
that are not those of the documents, and what is written of a record is not all that is kept of it.
-/

namespace AwsMock.DynamoDb

open Lib Bson

def Table.anonymous (t : Table) : Table := { t with oid := [] }

def Item.anonymous (i : Item) : Item := { i with oid := [] }

/-- Both stores, and the number of calls made so far. -/
structure Backends where
  memory : DynamoDbMemoryDb := {}
  mongo : DynamoDbMongoDb := {}
  calls : Nat := 0

section Runs

variable (ids : ObjectIds)

/-- A call on both backends. -/
def bothCalls (c : DynamoDbCall) (s : Backends) :
    Option ((c.Reply × DynamoDbMemoryDb) × (c.Reply × DynamoDbMongoDb)) := do
  let memory ← memoryCall (ids.map s.calls) s.memory c
  let mongo ← mongoCall (ids.collection s.calls) s.mongo c
  return (memory, mongo)

def nextBackends (c : DynamoDbCall) (s : Backends) : Option Backends :=
  (bothCalls ids c s).map fun r => { memory := r.1.2, mongo := r.2.2, calls := s.calls + 1 }

/-- Both give a record, and it is the same one, or both throw. -/
def SameOutcome {α β : Type} (erase : α → β) : Except Error α → Except Error α → Prop
  | .ok a, .ok b => erase a = erase b
  | .error _, .error _ => True
  | _, _ => False

/-- The same result up to generated ids and to the order. -/
def DynamoDbCall.SameReply : (c : DynamoDbCall) → c.Reply → c.Reply → Prop
  | createTable _ | updateTable _ => SameOutcome Table.anonymous
  | tableExists .. => (· = ·)
  | listTables _ => fun r r' => (r.map Table.anonymous).Perm (r'.map Table.anonymous)
  | itemExists _ => SameOutcome id
  | listItems .. => fun r r' => (r.map Item.anonymous).Perm (r'.map Item.anonymous)
  | createItem _ | updateItem _ => SameOutcome Item.anonymous
  | deleteTable .. | deleteItem .. | deleteItems .. => (· = ·)

/-- The documents of the database are read as the tables and items of the in-memory store. -/
structure StoresAgree (memory : DynamoDbMemoryDb) (mongo : DynamoDbMongoDb) : Prop where
  tables : ∃ tables, mongo.tables.mapM Table.fromDocument = some tables ∧
    (tables.map Table.anonymous).Perm (memory.tables.values.map Table.anonymous)
  items : ∃ items, mongo.items.mapM Item.fromDocument = some items ∧
    (items.map Item.anonymous).Perm (memory.items.values.map Item.anonymous)

/-- Both backends answer the call, with the same result, and hold the same records afterwards. -/
def Agrees (c : DynamoDbCall) (s : Backends) : Prop :=
  ∃ r, bothCalls ids c s = some r ∧ c.SameReply r.1.1 r.2.1 ∧ StoresAgree r.1.2 r.2.2

end Runs

/-! ### Calls that fit -/

/-- Without attributes and keys, and with times in whole milliseconds. -/
structure Item.Storable (i : Item) : Prop where
  attributes : i.attributes = ∅
  keys : i.keys = ∅
  created : 1000000 ∣ i.created
  modified : 1000000 ∣ i.modified

/-- The table that the document database finds first. -/
def DynamoDbMongoDb.firstTable (db : DynamoDbMongoDb) (region name : Str) : Option Table :=
  match db.getTableByRegionName region name with
  | some (.ok table) => some table
  | _ => none

/-- The item has an attribute that is a key of the table. -/
def HasKey (table : Table) (item : Item) : Prop :=
  ∃ key ∈ table.keySchemas.entries, (item.attributes.get? key.1).isSome = true

instance (table : Table) (item : Item) : Decidable (HasKey table item) :=
  inferInstanceAs (Decidable (∃ key ∈ table.keySchemas.entries, (item.attributes.get? key.1).isSome = true))

/-- An item of the table is stored. -/
def DynamoDbMemoryDb.Stores (db : DynamoDbMemoryDb) (region tableName : Str) : Prop :=
  ∃ item ∈ db.items.values, item.region = region ∧ item.tableName = tableName

/-- When the existence of an item is found out alike. -/
def ConformsItem (item : Item) (s : Backends) (table : Table) : Prop :=
  if item.region ≠ [] then
    s.memory.Stores item.region item.tableName → item.attributes = ∅ ∨ HasKey table item
  else ∀ stored ∈ s.memory.items.values, stored.tableName = item.tableName →
    s.memory.Stores item.region item.tableName ∧ ¬ HasKey table item

def Conforms (c : DynamoDbCall) (s : Backends) : Prop :=
  match c with
  | .createTable table => table.Storable
  | .tableExists .. | .listTables _ => True
  | .updateTable table => table.Storable ∧ ∃ found,
      (s.memory.findTable table.region table.name).map (fun it => it.2.anonymous) = some found ∧
      (s.mongo.firstTable table.region table.name).map Table.anonymous = some found
  | .deleteTable region tableName => ∀ table ∈ s.memory.tables.values, table.name = tableName → table.region = region
  | .itemExists item => ∀ table, s.mongo.firstTable item.region item.tableName = some table → ConformsItem item s table
  | .listItems region tableName => tableName = [] ∨ ¬ s.memory.Stores region tableName
  | .createItem item => item.Storable
  | .updateItem _ => False
  | .deleteItem region tableName _ => ¬ s.memory.Stores region tableName
  | .deleteItems region tableName => ∀ item ∈ s.memory.items.values, item.tableName = tableName → item.region = region

/-! ### How records are kept -/

def tableKeeping : Keeping Table where
  keeps t := t.Storable ∧ t.oid = []
  write := Table.toDocument

def itemKeeping : Keeping Item where
  keeps i := i.Storable ∧ i.oid = []
  write := Item.toDocument

theorem reads_tables : tableKeeping.Reads Table.fromDocument Table.anonymous := by
  intro t oid fields hkeeps hwrite
  refine ⟨_, Table.document_round_trip hwrite oid, ?_⟩
  rw [Table.anonymous, (timeOf_dateOf_iff _).mpr hkeeps.1.created, (timeOf_dateOf_iff _).mpr hkeeps.1.modified]
  exact congrArg (fun oid => { t with oid := oid }) hkeeps.2.symm

theorem reads_items : itemKeeping.Reads Item.fromDocument Item.anonymous := by
  intro i oid fields hkeeps hwrite
  refine ⟨_, Item.document_read hwrite oid, ?_⟩
  obtain ⟨⟨hattributes, hkeys, hcreated, hmodified⟩, hoid⟩ := hkeeps
  rw [Item.anonymous, (timeOf_dateOf_iff _).mpr hcreated, (timeOf_dateOf_iff _).mpr hmodified, ← hoid]
  cases i with
  | mk =>
    cases hattributes
    cases hkeys
    rfl

/-! ### What the queries select -/

theorem table_elements {t : Table} {fields : Document} (h : t.toDocument = some fields) (oid : Str) :
    element (str "region") ((Collection.idName, .oid oid) :: fields) = some (.string t.region) ∧
      element (str "name") ((Collection.idName, .oid oid) :: fields) = some (.string t.name) := by
  obtain ⟨tags, -, h⟩ := Option.bind_eq_some_iff.mp h
  obtain ⟨attributes, -, h⟩ := Option.bind_eq_some_iff.mp h
  obtain ⟨keySchemas, -, h⟩ := Option.bind_eq_some_iff.mp h
  obtain rfl := Option.some.inj h
  exact ⟨rfl, rfl⟩

theorem selects_all {α : Type} (K : Keeping α) : K.Selects [] fun _ => true := fun _ _ _ _ _ => rfl

theorem selects_table (region name : Str) :
    tableKeeping.Selects (Query.equals [(str "region", region), (str "name", name)])
      fun t => t.region = region ∧ t.name = name := by
  intro t oid fields _ hwrite
  obtain ⟨hregion, hname⟩ := table_elements hwrite oid
  rw [Query.meets_equals_cons (by decide) hregion, Query.meets_equals_cons (by decide) hname]
  simp [Query.equals]

theorem selects_region (region : Str) :
    tableKeeping.Selects (Query.equals [(str "region", region)]) fun t => t.region = region := by
  intro t oid fields _ hwrite
  rw [Query.meets_equals_cons (by decide) (table_elements hwrite oid).1]
  simp [Query.equals]

theorem selects_name (name : Str) :
    tableKeeping.Selects (Query.equals [(str "name", name)]) fun t => t.name = name := by
  intro t oid fields _ hwrite
  rw [Query.meets_equals_cons (by decide) (table_elements hwrite oid).2]
  simp [Query.equals]

/-- The elements of an item's document, which has no `name`. -/
theorem item_elements {i : Item} {fields : Document} (h : i.toDocument = some fields) (oid : Str) :
    element (str "region") ((Collection.idName, .oid oid) :: fields) = some (.string i.region) ∧
      element (str "tableName") ((Collection.idName, .oid oid) :: fields) = some (.string i.tableName) ∧
      element (str "name") ((Collection.idName, .oid oid) :: fields) = none ∧
      element (str "attributes") ((Collection.idName, .oid oid) :: fields) =
        some (.document (i.attributes.entries.map fun e => (e.1, .document e.2.toDocument))) := by
  obtain ⟨-, hfields⟩ := Option.ite_none_right_eq_some.mp h
  obtain rfl := Option.some.inj hfields
  exact ⟨rfl, rfl, rfl, rfl⟩

theorem selects_items (region : Str) :
    itemKeeping.Selects (Query.equals [(str "region", region)]) fun i => i.region = region := by
  intro i oid fields _ hwrite
  rw [Query.meets_equals_cons (by decide) (item_elements hwrite oid).1]
  simp [Query.equals]

theorem selects_tableName (tableName : Str) :
    itemKeeping.Selects (Query.equals [(str "tableName", tableName)]) fun i => i.tableName = tableName := by
  intro i oid fields _ hwrite
  rw [Query.meets_equals_cons (by decide) (item_elements hwrite oid).2.1]
  simp [Query.equals]

/-- No item has a `name`. -/
theorem selects_none (fields : List (Str × Str)) {name : Str} (hname : (str "name", name) ∈ fields) :
    itemKeeping.Selects (Query.equals fields) fun _ => false := by
  intro i oid doc _ hwrite
  exact Query.meets_equals_none (by decide) hname (item_elements hwrite oid).2.2.1

/-- The query for an item finds those of its table, when no key is asked for. -/
theorem selects_item (table : Table) (item : Item) :
    itemKeeping.Selects (DynamoDbMongoDb.itemFilter table item)
      fun i => (i.region = item.region ∧ i.tableName = item.tableName) ∧ ¬ HasKey table item := by
  intro i oid fields hkeeps hwrite
  obtain ⟨hregion, htableName, -, hattributes⟩ := item_elements hwrite oid
  rw [hkeeps.1.attributes] at hattributes
  have hkeys : (DynamoDbMongoDb.keyFilter table item).meets ((Collection.idName, .oid oid) :: fields) =
      !decide (HasKey table item) := by
    by_cases hkey : HasKey table item
    · rw [decide_eq_true hkey]
      obtain ⟨key, hmem, hsome⟩ := hkey
      obtain ⟨value, hvalue⟩ := Option.isSome_iff_exists.mp hsome
      have hentry : (str "attributes." ++ key.1 ++ str ".S", Test.eq (.string value.stringValue)) ∈
          DynamoDbMongoDb.keyFilter table item := by
        refine List.mem_flatMap.mpr ⟨key, hmem, ?_⟩
        rw [hvalue]
        exact List.mem_cons_self
      exact Query.meets_eq_false_of_mem hentry (reach_below_empty (by decide) hattributes (key.1 ++ str ".S"))
    · rw [decide_eq_false hkey]
      have hnone : DynamoDbMongoDb.keyFilter table item = [] := by
        refine List.flatMap_eq_nil_iff.mpr fun key hmem => ?_
        cases hvalue : item.attributes.get? key.1 with
        | none => rfl
        | some value => exact absurd ⟨key, hmem, by rw [hvalue]; rfl⟩ hkey
      rw [hnone]
      rfl
  rw [DynamoDbMongoDb.itemFilter, Query.meets_append, Query.meets_equals_cons (by decide) hregion,
    Query.meets_equals_cons (by decide) htableName, hkeys, Bool.eq_iff_iff]
  simp [Query.equals, and_assoc]

/-! ### Calls on tables -/

/-- After the calls so far both backends have the same tables and the same items. -/
structure Backends.Sound (ids : ObjectIds) (s : Backends) : Prop where
  tables : Mirrors tableKeeping Table.anonymous ids s.calls s.memory.tables s.mongo.tables
  items : Mirrors itemKeeping Item.anonymous ids s.calls s.memory.items s.mongo.items

/-- What a call has to do: the same in both backends, which stay in step. -/
def Served (ids : ObjectIds) (c : DynamoDbCall) (s : Backends) : Prop :=
  ∃ r, bothCalls ids c s = some r ∧ c.SameReply r.1.1 r.2.1 ∧
    Backends.Sound ids { memory := r.1.2, mongo := r.2.2, calls := s.calls + 1 }

section Calls

variable {ids : ObjectIds} {s : Backends}

/-- A call that both backends answer. -/
theorem served {c : DynamoDbCall} {memory : c.Reply × DynamoDbMemoryDb} {mongo : c.Reply × DynamoDbMongoDb}
    (hmemory : memoryCall (ids.map s.calls) s.memory c = some memory)
    (hmongo : mongoCall (ids.collection s.calls) s.mongo c = some mongo) (hreply : c.SameReply memory.1 mongo.1)
    (htables : Mirrors tableKeeping Table.anonymous ids (s.calls + 1) memory.2.tables mongo.2.tables)
    (hitems : Mirrors itemKeeping Item.anonymous ids (s.calls + 1) memory.2.items mongo.2.items) :
    Served ids c s :=
  ⟨(memory, mongo), by rw [bothCalls, hmemory, hmongo]; rfl, hreply, htables, hitems⟩

theorem Table.Storable.anonymous {t : Table} (h : t.Storable) : tableKeeping.keeps t.anonymous :=
  ⟨⟨h.tags, h.attributes, h.keySchemas, h.created, h.modified⟩, rfl⟩

/-- A table as it is read back. -/
theorem Table.Storable.read {t : Table} {fields : Document} (h : t.Storable) (hfields : t.toDocument = some fields)
    (oid : Str) : Table.fromDocument ((Collection.idName, .oid oid) :: fields) = some { t with oid := oid } := by
  have hread := Table.document_round_trip hfields oid
  rwa [(timeOf_dateOf_iff _).mpr h.created, (timeOf_dateOf_iff _).mpr h.modified] at hread

theorem createTable_served {table : Table} (h : s.Sound ids) (hfit : table.Storable) :
    Served ids (.createTable table) s := by
  obtain ⟨fields, hfields⟩ := hfit.toDocument
  have hfind := h.tables.findById_insertOne fields
  have hmongo : s.mongo.createTable (ids.collection s.calls) table =
      some (.ok { table with oid := ids.collection s.calls },
        { s.mongo with tables := s.mongo.tables.insertOne (ids.collection s.calls) fields }) := by
    simp only [DynamoDbMongoDb.createTable, hfields, Option.bind_eq_bind, Option.bind_some,
      DynamoDbMongoDb.getTableById, hfind, DynamoDbMongoDb.fetch, hfit.read hfields, Option.map_some, Option.pure_def]
  have hwrite : tableKeeping.write (Table.anonymous { table with oid := ids.map s.calls }) = some fields := hfields
  exact served (congrArg some (createTable_eq ..)) hmongo rfl (h.tables.insertOne hfit.anonymous hwrite)
    (h.items.mono (Nat.le_succ _))

theorem tableExists_served (h : s.Sound ids) (region tableName : Str) :
    Served ids (.tableExists region tableName) s := by
  refine served rfl rfl ?_ (h.tables.mono (Nat.le_succ _)) (h.items.mono (Nat.le_succ _))
  change s.memory.tableExists region tableName = s.mongo.tableExists region tableName
  unfold DynamoDbMemoryDb.tableExists DynamoDbMongoDb.tableExists
  split
  · exact h.tables.findIf_isSome (selects_table region tableName) fun _ _ => rfl
  · exact h.tables.findIf_isSome (selects_name tableName) fun _ _ => rfl

theorem listTables_served (h : s.Sound ids) (region : Str) : Served ids (.listTables region) s := by
  have hlist : ∃ tables, s.mongo.listTables region = some tables ∧
      ((s.memory.listTables region).map Table.anonymous).Perm (tables.map Table.anonymous) := by
    unfold DynamoDbMemoryDb.listTables DynamoDbMongoDb.listTables
    split
    · obtain ⟨tables, htables, hperm⟩ :=
        h.tables.find (p := fun _ => true) (selects_all _) (fun _ _ => rfl) reads_tables
      rw [List.filter_true] at hperm
      exact ⟨tables, htables, hperm.symm⟩
    · obtain ⟨tables, htables, hperm⟩ := h.tables.find (selects_region region) (fun _ _ => rfl) reads_tables
      exact ⟨tables, htables, hperm.symm⟩
  obtain ⟨tables, htables, hperm⟩ := hlist
  have hmongo : mongoCall (ids.collection s.calls) s.mongo (.listTables region) = some (tables, s.mongo) := by
    rw [mongoCall, htables]
    rfl
  exact served rfl hmongo hperm (h.tables.mono (Nat.le_succ _)) (h.items.mono (Nat.le_succ _))

/-- What the document database reads for a name. -/
theorem firstTable_eq_some {db : DynamoDbMongoDb} {region name : Str} {table : Table} :
    db.firstTable region name = some table ↔ ∃ doc,
      db.tables.findOne (Query.equals [(str "region", region), (str "name", name)]) = some doc ∧
        Table.fromDocument doc = some table := by
  unfold DynamoDbMongoDb.firstTable DynamoDbMongoDb.getTableByRegionName
  cases hfind : db.tables.findOne (Query.equals [(str "region", region), (str "name", name)]) with
  | none => simp [DynamoDbMongoDb.fetch]
  | some doc => cases hread : Table.fromDocument doc <;> simp [DynamoDbMongoDb.fetch, hread]

/-- A document that is replaced keeps its id and is found again. -/
theorem findOne_replaced (h : s.Sound ids) {table : Table} {doc fields : Document}
    (hdoc : s.mongo.tables.findOne (Query.equals [(str "region", table.region), (str "name", table.name)]) = some doc)
    (hfields : table.toDocument = some fields) :
    ∃ id, (s.mongo.tables.replaceOne (Query.equals [(str "region", table.region), (str "name", table.name)])
        fields).findOne (Query.equals [(str "region", table.region), (str "name", table.name)]) =
          some ((Collection.idName, .oid id) :: fields) := by
  obtain ⟨id, hdocument⟩ : ∃ id, doc.take 1 ++ fields = (Collection.idName, .oid id) :: fields := by
    rcases h.tables.findOne (selects_table table.region table.name) (fun _ _ => rfl) with
      ⟨-, hnone⟩ | ⟨_, _, doc', a, -, hdoc', hkeeps, -⟩
    · rw [hdoc] at hnone
      cases hnone
    · rw [hdoc, Option.some.injEq] at hdoc'
      obtain ⟨-, id, _, -, -, heq⟩ := hkeeps
      exact ⟨id, by rw [hdoc', heq]; rfl⟩
  obtain ⟨hregion, hname⟩ := table_elements hfields id
  have hmeets : (Query.equals [(str "region", table.region), (str "name", table.name)]).meets
      (doc.take 1 ++ fields) = true := by
    rw [hdocument, Query.meets_equals_cons (by decide) hregion, Query.meets_equals_cons (by decide) hname]
    simp [Query.equals]
  exact ⟨id, hdocument ▸ Collection.findOne_replaceOne hmeets hdoc⟩

theorem updateTable_served {table : Table} (h : s.Sound ids) (hfit : Conforms (.updateTable table) s) :
    Served ids (.updateTable table) s := by
  obtain ⟨hstorable, found, hmemory, hmongo⟩ := hfit
  obtain ⟨⟨oid, old⟩, hfind, hold⟩ := Option.map_eq_some_iff.mp hmemory
  obtain ⟨first, hfirst, hfound⟩ := Option.map_eq_some_iff.mp hmongo
  obtain ⟨doc, hdoc, hread⟩ := firstTable_eq_some.mp hfirst
  obtain ⟨fields, hfields⟩ := hstorable.toDocument
  have hupdate : memoryCall (ids.map s.calls) s.memory (.updateTable table) =
      some (.ok table, { s.memory with tables := s.memory.tables.insert oid table }) := by
    rw [memoryCall, DynamoDbMemoryDb.updateTable, hfind]
    rfl
  obtain ⟨id, hagain⟩ := findOne_replaced h hdoc hfields
  have hreplace : s.mongo.updateTable table = some (.ok { table with oid := id }, { s.mongo with
      tables := s.mongo.tables.replaceOne (Query.equals [(str "region", table.region), (str "name", table.name)])
        fields }) := by
    simp only [DynamoDbMongoDb.updateTable, hfields, Option.bind_eq_bind, Option.bind_some,
      DynamoDbMongoDb.getTableByRegionName, hagain, DynamoDbMongoDb.fetch, hstorable.read hfields, Option.map_some,
      Option.pure_def]
  refine served hupdate hreplace rfl ?_ (h.items.mono (Nat.le_succ _))
  exact (h.tables.replaceOne reads_tables (OrderedMap.findIf_some hfind).1 hdoc hread (hfound.trans hold.symm)
    hstorable.anonymous hfields).mono (Nat.le_succ _)

theorem deleteTable_served {region tableName : Str} (h : s.Sound ids)
    (hfit : ∀ table ∈ s.memory.tables.values, table.name = tableName → table.region = region) :
    Served ids (.deleteTable region tableName) s := by
  have hnamed : ∀ table ∈ s.memory.tables.values,
      decide (table.anonymous.region = region ∧ table.anonymous.name = tableName) = decide (table.name = tableName) :=
    fun table hmem => decide_eq_decide.mpr ⟨And.right, fun hname => ⟨hfit table hmem hname, hname⟩⟩
  have hdelete := h.tables.deleteMany (selects_table region tableName) hnamed
  exact served rfl rfl rfl (hdelete.mono (Nat.le_succ _)) (h.items.mono (Nat.le_succ _))

/-! ### Calls on items -/

theorem Item.Storable.anonymous {i : Item} (h : i.Storable) : itemKeeping.keeps i.anonymous :=
  ⟨⟨h.attributes, h.keys, h.created, h.modified⟩, rfl⟩

/-- The items that can be written. -/
theorem Item.Storable.toDocument {i : Item} (h : i.Storable) : ∃ fields, i.toDocument = some fields := by
  unfold Item.toDocument
  rw [h.attributes, if_pos (by intro e he; cases he)]
  exact ⟨_, rfl⟩

theorem createItem_served {item : Item} (h : s.Sound ids) (hfit : item.Storable) :
    Served ids (.createItem item) s := by
  obtain ⟨fields, hfields⟩ := hfit.toDocument
  have hfind := h.items.findById_insertOne fields
  have hwrite : itemKeeping.write (Item.anonymous { item with oid := ids.map s.calls }) = some fields := hfields
  obtain ⟨stored, hread, hstored⟩ := reads_items item.anonymous (ids.collection s.calls) fields hfit.anonymous hfields
  have hmongo : s.mongo.createItem (ids.collection s.calls) item =
      some (.ok stored, { s.mongo with items := s.mongo.items.insertOne (ids.collection s.calls) fields }) := by
    simp only [DynamoDbMongoDb.createItem, hfields, Option.bind_eq_bind, Option.bind_some,
      DynamoDbMongoDb.getItemById, hfind, DynamoDbMongoDb.fetch, hread, Option.map_some, Option.pure_def]
  exact served (congrArg some (createItem_eq ..)) hmongo hstored.symm (h.tables.mono (Nat.le_succ _))
    (h.items.insertOne hfit.anonymous hwrite)

/-- The first table that the in-memory store finds, and the one of the document database, are there together. -/
theorem findTable_firstTable (h : s.Sound ids) (region name : Str) :
    (s.memory.findTable region name = none ∧ s.mongo.getTableByRegionName region name =
        some (.error (.pocoException (str "Database exception, Table not found ")))) ∨
      ∃ oid table table', s.memory.findTable region name = some (oid, table) ∧ table.region = region ∧
        table.name = name ∧ s.mongo.getTableByRegionName region name = some (.ok table') := by
  rcases h.tables.findOne (selects_table region name) (fun _ _ => rfl) with
    ⟨hnone, hdoc⟩ | ⟨oid, table, doc, a, hfind, hdoc, hkeeps, -⟩
  · refine .inl ⟨hnone, ?_⟩
    rw [DynamoDbMongoDb.getTableByRegionName, hdoc]
    rfl
  · obtain ⟨table', hread, -⟩ := reads_tables.keeps hkeeps
    obtain ⟨hregion, hname⟩ := of_decide_eq_true (OrderedMap.findIf_some hfind).2
    refine .inr ⟨oid, table, table', hfind, hregion, hname, ?_⟩
    rw [DynamoDbMongoDb.getTableByRegionName, hdoc, DynamoDbMongoDb.fetch, hread]
    rfl

/-- In step, a stored item has no attributes. -/
theorem Backends.Sound.attributes (h : s.Sound ids) {item : Item} (hmem : item ∈ s.memory.items.values) :
    item.attributes = ∅ :=
  (h.items.holds.keeps_of_mem (List.mem_map_of_mem hmem)).1.attributes

theorem keyCompare_empty {α : Type} (m : OrderedMap Str α) :
    keyCompare m (∅ : OrderedMap Str α) = true ↔ m = ∅ := by
  constructor
  · intro h
    have hsize : m.entries.length = 0 := (of_decide_eq_true h).1
    exact OrderedMap.entries_injective (List.length_eq_zero_iff.mp hsize)
  · rintro rfl
    rfl

/-- What the document database counts. -/
theorem counted_iff (h : s.Sound ids) (item : Item) (table : Table) :
    s.mongo.items.countDocuments (DynamoDbMongoDb.itemFilter table item) > 0 ↔
      s.memory.Stores item.region item.tableName ∧ ¬ HasKey table item := by
  rw [h.items.holds.countDocuments (selects_item table item), gt_iff_lt, List.countP_pos_iff]
  constructor
  · rintro ⟨a, ha, hmatch⟩
    obtain ⟨stored, hmem, rfl⟩ := List.mem_map.mp ha
    exact ⟨⟨stored, hmem, (of_decide_eq_true hmatch).1⟩, (of_decide_eq_true hmatch).2⟩
  · rintro ⟨⟨stored, hmem, hmatch⟩, hkey⟩
    exact ⟨_, List.mem_map_of_mem hmem, decide_eq_true ⟨hmatch, hkey⟩⟩

/-- What the in-memory store compares: in a region, the names of the attributes. -/
theorem matchesItem_region_iff (h : s.Sound ids) {item : Item} {table : Table} (hregion : table.region = item.region)
    (hname : table.name = item.tableName) (hne : item.region ≠ []) :
    s.memory.matchesItem item table = true ↔ s.memory.Stores item.region item.tableName ∧ item.attributes = ∅ := by
  rw [DynamoDbMemoryDb.matchesItem, if_pos hne, OrderedMap.findIf_isSome, hregion, hname]
  constructor
  · rintro ⟨oid, stored, hget, hmatch⟩
    obtain ⟨hsame, htable, hkeys⟩ := of_decide_eq_true hmatch
    have hmem := OrderedMap.mem_values.mpr ⟨oid, hget⟩
    rw [h.attributes hmem, keyCompare_empty] at hkeys
    exact ⟨⟨stored, hmem, hsame, htable⟩, hkeys⟩
  · rintro ⟨⟨stored, hmem, hsame, htable⟩, hempty⟩
    obtain ⟨oid, hget⟩ := OrderedMap.mem_values.mp hmem
    refine ⟨oid, stored, hget, decide_eq_true ⟨hsame, htable, ?_⟩⟩
    rw [h.attributes hmem, keyCompare_empty]
    exact hempty

/-- Without a region, the name of the table. -/
theorem matchesItem_name_iff {item : Item} (table : Table) (hempty : item.region = []) :
    s.memory.matchesItem item table = true ↔ ∃ stored ∈ s.memory.items.values, stored.tableName = item.tableName := by
  rw [DynamoDbMemoryDb.matchesItem, if_neg (not_not.mpr hempty), OrderedMap.findIf_isSome]
  constructor
  · rintro ⟨oid, stored, hget, hmatch⟩
    exact ⟨stored, OrderedMap.mem_values.mpr ⟨oid, hget⟩, of_decide_eq_true hmatch⟩
  · rintro ⟨stored, hmem, htable⟩
    obtain ⟨oid, hget⟩ := OrderedMap.mem_values.mp hmem
    exact ⟨oid, stored, hget, decide_eq_true htable⟩

/-- The two find out the same exactly when the item conforms. -/
theorem conformsItem_iff (h : s.Sound ids) {item : Item} {table table' : Table} (hregion : table.region = item.region)
    (hname : table.name = item.tableName) :
    (s.memory.matchesItem item table = true ↔
      s.mongo.items.countDocuments (DynamoDbMongoDb.itemFilter table' item) > 0) ↔ ConformsItem item s table' := by
  rw [counted_iff h, ConformsItem]
  split
  · next hne =>
    rw [matchesItem_region_iff h hregion hname hne]
    have hkeyless : item.attributes = ∅ → ¬ HasKey table' item := by
      rintro hempty ⟨key, -, hsome⟩
      rw [hempty] at hsome
      cases hsome
    constructor
    · intro hsame hstores
      by_cases hkey : HasKey table' item
      · exact .inr hkey
      · exact .inl (hsame.mpr ⟨hstores, hkey⟩).2
    · intro hfit
      exact and_congr_right fun hstores => ⟨hkeyless, (hfit hstores).resolve_right⟩
  · next hempty =>
    rw [matchesItem_name_iff table (not_not.mp hempty)]
    constructor
    · intro hsame stored hmem htable
      exact hsame.mp ⟨stored, hmem, htable⟩
    · intro hfit
      exact ⟨fun ⟨stored, hmem, htable⟩ => hfit stored hmem htable,
        fun ⟨⟨stored, hmem, _, htable⟩, _⟩ => ⟨stored, hmem, htable⟩⟩

theorem itemExists_served {item : Item} (h : s.Sound ids)
    (hfit : ∀ table, s.mongo.firstTable item.region item.tableName = some table → ConformsItem item s table) :
    Served ids (.itemExists item) s := by
  rcases findTable_firstTable h item.region item.tableName with
    ⟨hnone, hmissing⟩ | ⟨oid, table, table', hfind, hregion, hname, hfound⟩
  · obtain ⟨e, he⟩ := itemExists_missing hnone
    have hmongo : mongoCall (ids.collection s.calls) s.mongo (.itemExists item) =
        some (.error (.pocoException (str "Database exception, Table not found ")), s.mongo) := by
      rw [mongoCall, DynamoDbMongoDb.itemExists, hmissing]
      rfl
    exact served (congrArg some he) hmongo trivial (h.tables.mono (Nat.le_succ _)) (h.items.mono (Nat.le_succ _))
  · have hfirst : s.mongo.firstTable item.region item.tableName = some table' := by
      rw [DynamoDbMongoDb.firstTable, hfound]
    have hmatches := (conformsItem_iff h hregion hname).mpr (hfit table' hfirst)
    have hmongo : mongoCall (ids.collection s.calls) s.mongo (.itemExists item) =
        some (.ok (s.mongo.items.countDocuments (DynamoDbMongoDb.itemFilter table' item) > 0), s.mongo) := by
      rw [mongoCall, DynamoDbMongoDb.itemExists, hfound]
      rfl
    have htouched : Mirrors tableKeeping Table.anonymous ids s.calls
        (s.memory.tables.insert oid { table with oid := oid }) s.mongo.tables :=
      h.tables.touch (OrderedMap.findIf_some hfind).1 rfl
    refine served (congrArg some (itemExists_eq hfind)) hmongo ?_ (htouched.mono (Nat.le_succ _))
      (h.items.mono (Nat.le_succ _))
    exact decide_eq_decide.mpr hmatches

theorem listItems_served {region tableName : Str} (h : s.Sound ids)
    (hfit : tableName = [] ∨ ¬ s.memory.Stores region tableName) : Served ids (.listItems region tableName) s := by
  have hlist : ∃ items, s.mongo.listItems region tableName = some items ∧
      ((s.memory.listItems region tableName).map Item.anonymous).Perm (items.map Item.anonymous) := by
    unfold DynamoDbMemoryDb.listItems DynamoDbMongoDb.listItems
    split
    · obtain ⟨items, hitems, hperm⟩ := h.items.find (p := fun _ => true) (selects_all _) (fun _ _ => rfl) reads_items
      rw [List.filter_true] at hperm
      exact ⟨items, hitems, hperm.symm⟩
    split
    · obtain ⟨items, hitems, hperm⟩ := h.items.find (selects_items region) (fun _ _ => rfl) reads_items
      exact ⟨items, hitems, hperm.symm⟩
    · next hname =>
      have hnone : ∀ item ∈ s.memory.items.values,
          false = decide (item.region = region ∧ item.tableName = tableName) := fun item hmem =>
        (decide_eq_false fun hmatch => (hfit.resolve_left hname) ⟨item, hmem, hmatch⟩).symm
      obtain ⟨items, hitems, hperm⟩ := h.items.find
        (selects_none [(str "region", region), (str "name", tableName)] (List.mem_cons_of_mem _ List.mem_cons_self))
        hnone reads_items
      exact ⟨items, hitems, hperm.symm⟩
  obtain ⟨items, hitems, hperm⟩ := hlist
  have hmongo : mongoCall (ids.collection s.calls) s.mongo (.listItems region tableName) = some (items, s.mongo) := by
    rw [mongoCall, hitems]
    rfl
  exact served rfl hmongo hperm (h.tables.mono (Nat.le_succ _)) (h.items.mono (Nat.le_succ _))

theorem deleteItem_served {region tableName : Str} (h : s.Sound ids) (hfit : ¬ s.memory.Stores region tableName)
    (key : Str) : Served ids (.deleteItem region tableName key) s := by
  have hnone : ∀ item ∈ s.memory.items.values,
      false = decide (item.region = region ∧ item.tableName = tableName) := fun item hmem =>
    (decide_eq_false fun hmatch => hfit ⟨item, hmem, hmatch⟩).symm
  have hdelete := h.items.deleteMany (selects_none [(str "name", tableName)] List.mem_cons_self) hnone
  exact served rfl rfl rfl (h.tables.mono (Nat.le_succ _)) (hdelete.mono (Nat.le_succ _))

theorem deleteItems_served {region tableName : Str} (h : s.Sound ids)
    (hfit : ∀ item ∈ s.memory.items.values, item.tableName = tableName → item.region = region) :
    Served ids (.deleteItems region tableName) s := by
  have hnamed : ∀ item ∈ s.memory.items.values, decide (item.anonymous.tableName = tableName) =
      decide (item.region = region ∧ item.tableName = tableName) := fun item hmem =>
    decide_eq_decide.mpr ⟨fun hname => ⟨hfit item hmem hname, hname⟩, And.right⟩
  have hdelete := h.items.deleteMany (selects_tableName tableName) hnamed
  exact served rfl rfl rfl (h.tables.mono (Nat.le_succ _)) (hdelete.mono (Nat.le_succ _))

/-- A call that conforms does the same in both backends. -/
theorem served_of_conforms {c : DynamoDbCall} (h : s.Sound ids) (hfit : Conforms c s) : Served ids c s := by
  cases c with
  | createTable table => exact createTable_served h hfit
  | tableExists region tableName => exact tableExists_served h region tableName
  | listTables region => exact listTables_served h region
  | updateTable table => exact updateTable_served h hfit
  | deleteTable region tableName => exact deleteTable_served h hfit
  | itemExists item => exact itemExists_served h hfit
  | listItems region tableName => exact listItems_served h hfit
  | createItem item => exact createItem_served h hfit
  | updateItem item => exact hfit.elim
  | deleteItem region tableName key => exact deleteItem_served h hfit key
  | deleteItems region tableName => exact deleteItems_served h hfit

/-! ### Runs -/

theorem Backends.Sound.storesAgree (h : s.Sound ids) : StoresAgree s.memory s.mongo where
  tables := by
    obtain ⟨tables, htables, hperm⟩ :=
      h.tables.find (p := fun _ => true) (selects_all _) (fun _ _ => rfl) reads_tables
    rw [List.filter_true] at hperm
    refine ⟨tables, ?_, hperm⟩
    rwa [Collection.find, show s.mongo.tables.filter (Query.meets []) = s.mongo.tables from List.filter_true _]
      at htables
  items := by
    obtain ⟨items, hitems, hperm⟩ := h.items.find (p := fun _ => true) (selects_all _) (fun _ _ => rfl) reads_items
    rw [List.filter_true] at hperm
    refine ⟨items, ?_, hperm⟩
    rwa [Collection.find, show s.mongo.items.filter (Query.meets []) = s.mongo.items from List.filter_true _] at hitems

end Calls

/-! ### Calls that do not conform -/

section Converse

variable {ids : ObjectIds} {s : Backends}

theorem mapField_names {name : Str} {m : OrderedMap Str Str} {field : Document} (h : mapField name m = some field) :
    ∀ e ∈ m.entries, 0 ∉ e.1 := by
  unfold mapField at h
  split at h
  · next hempty =>
    rw [hempty]
    intro e he
    cases he
  · obtain ⟨elements, helements, -⟩ := Option.map_eq_some_iff.mp h
    exact ofMap_isSome_iff.mp ⟨elements, helements⟩

/-- A table that can be written and is the same when it is read back. -/
theorem Table.storable_of_read {t : Table} {fields : Document} (hfields : t.toDocument = some fields)
    (hcreated : timeOf (dateOf t.created) = t.created) (hmodified : timeOf (dateOf t.modified) = t.modified) :
    t.Storable := by
  obtain ⟨tags, htags, h⟩ := Option.bind_eq_some_iff.mp hfields
  obtain ⟨attributes, hattributes, h⟩ := Option.bind_eq_some_iff.mp h
  obtain ⟨keySchemas, hkeySchemas, -⟩ := Option.bind_eq_some_iff.mp h
  exact ⟨mapField_names htags, mapField_names hattributes, mapField_names hkeySchemas,
    (timeOf_dateOf_iff _).mp hcreated, (timeOf_dateOf_iff _).mp hmodified⟩

theorem bothCalls_eq_some {c : DynamoDbCall} {r : (c.Reply × DynamoDbMemoryDb) × (c.Reply × DynamoDbMongoDb)}
    (h : bothCalls ids c s = some r) :
    memoryCall (ids.map s.calls) s.memory c = some r.1 ∧ mongoCall (ids.collection s.calls) s.mongo c = some r.2 := by
  obtain ⟨memory, hmemory, h⟩ := Option.bind_eq_some_iff.mp h
  obtain ⟨mongo, hmongo, h⟩ := Option.bind_eq_some_iff.mp h
  obtain rfl := Option.some.inj h
  exact ⟨hmemory, hmongo⟩

theorem createTable_conforms {table : Table} (h : s.Sound ids) (hagrees : Agrees ids (.createTable table) s) :
    table.Storable := by
  obtain ⟨⟨memory, mongo⟩, hboth, hreply, -⟩ := hagrees
  obtain ⟨hmemory, hmongo⟩ := bothCalls_eq_some hboth
  obtain ⟨fields, hfields, hmongo⟩ := Option.bind_eq_some_iff.mp hmongo
  obtain ⟨reply, hread, hmongo⟩ := Option.bind_eq_some_iff.mp hmongo
  obtain rfl := Option.some.inj hmongo
  obtain rfl := Option.some.inj ((congrArg some (createTable_eq ..)).symm.trans hmemory)
  rw [DynamoDbMongoDb.getTableById, h.tables.findById_insertOne, DynamoDbMongoDb.fetch,
    Table.document_round_trip hfields, Option.map_some, Option.some.injEq] at hread
  subst hread
  exact Table.storable_of_read hfields (congrArg Table.created hreply).symm (congrArg Table.modified hreply).symm

theorem createItem_conforms {item : Item} (h : s.Sound ids) (hagrees : Agrees ids (.createItem item) s) :
    item.Storable := by
  obtain ⟨⟨memory, mongo⟩, hboth, hreply, -⟩ := hagrees
  obtain ⟨hmemory, hmongo⟩ := bothCalls_eq_some hboth
  obtain ⟨fields, hfields, hmongo⟩ := Option.bind_eq_some_iff.mp hmongo
  obtain ⟨reply, hread, hmongo⟩ := Option.bind_eq_some_iff.mp hmongo
  obtain rfl := Option.some.inj hmongo
  obtain rfl := Option.some.inj ((congrArg some (createItem_eq ..)).symm.trans hmemory)
  rw [DynamoDbMongoDb.getItemById, h.items.findById_insertOne, DynamoDbMongoDb.fetch, Item.document_read hfields,
    Option.map_some, Option.some.injEq] at hread
  subst hread
  exact ⟨congrArg Item.attributes hreply, congrArg Item.keys hreply,
    (timeOf_dateOf_iff _).mp (congrArg Item.created hreply).symm,
    (timeOf_dateOf_iff _).mp (congrArg Item.modified hreply).symm⟩

/-- What the stores have in common after a call, when the document database is in step with some records. -/
theorem StoresAgree.items_perm {memory : DynamoDbMemoryDb} {mongo : DynamoDbMongoDb} {used : Str → Prop}
    {records : List Item} (h : StoresAgree memory mongo) (hholds : itemKeeping.Holds used mongo.items records) :
    records.Perm (memory.items.values.map Item.anonymous) := by
  obtain ⟨items, hitems, hperm⟩ := h.items
  obtain ⟨items', hitems', hperm'⟩ := hholds.find (selects_all _) reads_items
  rw [Collection.find, show mongo.items.filter (Query.meets []) = mongo.items from List.filter_true _, hitems,
    Option.some.injEq] at hitems'
  rw [List.filter_true, ← hitems'] at hperm'
  exact hperm'.symm.trans hperm

theorem StoresAgree.tables_perm {memory : DynamoDbMemoryDb} {mongo : DynamoDbMongoDb} {used : Str → Prop}
    {records : List Table} (h : StoresAgree memory mongo) (hholds : tableKeeping.Holds used mongo.tables records) :
    records.Perm (memory.tables.values.map Table.anonymous) := by
  obtain ⟨tables, htables, hperm⟩ := h.tables
  obtain ⟨tables', htables', hperm'⟩ := hholds.find (selects_all _) reads_tables
  rw [Collection.find, show mongo.tables.filter (Query.meets []) = mongo.tables from List.filter_true _, htables,
    Option.some.injEq] at htables'
  rw [List.filter_true, ← htables'] at hperm'
  exact hperm'.symm.trans hperm

/-- Two deletions that leave the same take away the same. -/
theorem deleted_same {α : Type} {l : List α} {p q : α → Bool}
    (hperm : (l.filter fun a => !q a).Perm (l.filter fun a => !p a)) {a : α} (ha : a ∈ l) : q a = p a := by
  have hiff := hperm.mem_iff (a := a)
  rw [List.mem_filter, List.mem_filter, and_iff_right ha, and_iff_right ha] at hiff
  cases hq : q a <;> cases hp : p a <;> simp [hq, hp] at hiff ⊢

theorem deleteTable_conforms {region tableName : Str} (h : s.Sound ids)
    (hagrees : Agrees ids (.deleteTable region tableName) s) :
    ∀ table ∈ s.memory.tables.values, table.name = tableName → table.region = region := by
  intro table hmem hname
  obtain ⟨⟨memory, mongo⟩, hboth, -, hstores⟩ := hagrees
  obtain ⟨hmemory, hmongo⟩ := bothCalls_eq_some hboth
  obtain rfl := Option.some.inj hmemory
  obtain rfl := Option.some.inj hmongo
  have hperm := hstores.tables_perm (h.tables.holds.deleteMany (selects_table region tableName))
  have herased : ((s.memory.deleteTable tableName).tables.values.map Table.anonymous) =
      (s.memory.tables.values.map Table.anonymous).filter fun table => !decide (table.name = tableName) :=
    OrderedMap.map_values_eraseIf fun _ _ => rfl
  rw [herased] at hperm
  have hsame := deleted_same hperm (List.mem_map_of_mem hmem)
  exact (of_decide_eq_true (hsame.trans (decide_eq_true hname))).1

/-- What is left in memory of the items. -/
theorem map_values_eraseItems (items : OrderedMap Str Item) (region tableName : Str) :
    (items.eraseIf fun _ item => item.region = region ∧ item.tableName = tableName).values.map Item.anonymous =
      (items.values.map Item.anonymous).filter fun item =>
        !decide (item.region = region ∧ item.tableName = tableName) :=
  OrderedMap.map_values_eraseIf fun _ _ => rfl

theorem deleteItems_conforms {region tableName : Str} (h : s.Sound ids)
    (hagrees : Agrees ids (.deleteItems region tableName) s) :
    ∀ item ∈ s.memory.items.values, item.tableName = tableName → item.region = region := by
  intro item hmem hname
  obtain ⟨⟨memory, mongo⟩, hboth, -, hstores⟩ := hagrees
  obtain ⟨hmemory, hmongo⟩ := bothCalls_eq_some hboth
  obtain rfl := Option.some.inj hmemory
  obtain rfl := Option.some.inj hmongo
  have hperm := (hstores.items_perm (h.items.holds.deleteMany (selects_tableName tableName))).trans
    (.of_eq (map_values_eraseItems s.memory.items region tableName))
  have hsame := deleted_same hperm (List.mem_map_of_mem hmem)
  exact (of_decide_eq_true (hsame.symm.trans (decide_eq_true hname))).1

theorem deleteItem_conforms {region tableName key : Str} (h : s.Sound ids)
    (hagrees : Agrees ids (.deleteItem region tableName key) s) : ¬ s.memory.Stores region tableName := by
  rintro ⟨item, hmem, hmatch⟩
  obtain ⟨⟨memory, mongo⟩, hboth, -, hstores⟩ := hagrees
  obtain ⟨hmemory, hmongo⟩ := bothCalls_eq_some hboth
  obtain rfl := Option.some.inj hmemory
  obtain rfl := Option.some.inj hmongo
  have hnone := selects_none [(str "name", tableName)] List.mem_cons_self
  have hperm := (hstores.items_perm (h.items.holds.deleteMany hnone)).trans
    (.of_eq (map_values_eraseItems s.memory.items region tableName))
  have hsame := deleted_same hperm (List.mem_map_of_mem hmem)
  exact Bool.false_ne_true (hsame.trans (decide_eq_true hmatch))

theorem listItems_conforms {region tableName : Str} (h : s.Sound ids)
    (hagrees : Agrees ids (.listItems region tableName) s) : tableName = [] ∨ ¬ s.memory.Stores region tableName := by
  by_cases hname : tableName = []
  · exact .inl hname
  right
  rintro ⟨item, hmem, hmatch⟩
  obtain ⟨⟨memory, mongo⟩, hboth, hreply, -⟩ := hagrees
  obtain ⟨hmemory, hmongo⟩ := bothCalls_eq_some hboth
  obtain rfl := Option.some.inj hmemory
  obtain ⟨items, hitems, rfl⟩ := Option.map_eq_some_iff.mp hmongo
  obtain ⟨items', hitems', hnone⟩ := h.items.holds.find
    (selects_none [(str "region", region), (str "name", tableName)] (List.mem_cons_of_mem _ List.mem_cons_self))
    reads_items
  rw [DynamoDbMongoDb.listItems, if_neg (fun hempty => hname hempty.2), if_neg hname, hitems',
    Option.some.injEq] at hitems
  subst hitems
  have hreply' : ((s.memory.listItems region tableName).map Item.anonymous).Perm (items'.map Item.anonymous) := hreply
  rw [DynamoDbMemoryDb.listItems, if_neg (fun hempty => hname hempty.2), if_neg hname] at hreply'
  have hlisted : item.anonymous ∈ ((s.memory.items.values.filter fun item =>
      item.region = region ∧ item.tableName = tableName).map Item.anonymous) :=
    List.mem_map_of_mem (List.mem_filter.mpr ⟨hmem, decide_eq_true hmatch⟩)
  have hfound := (hreply'.trans hnone).mem_iff.mp hlisted
  exact Bool.false_ne_true (List.mem_filter.mp hfound).2

theorem itemExists_conforms {item : Item} (h : s.Sound ids) (hagrees : Agrees ids (.itemExists item) s) :
    ∀ table, s.mongo.firstTable item.region item.tableName = some table → ConformsItem item s table := by
  intro table' hfirst
  obtain ⟨⟨memory, mongo⟩, hboth, hreply, -⟩ := hagrees
  obtain ⟨hmemory, hmongo⟩ := bothCalls_eq_some hboth
  rcases findTable_firstTable h item.region item.tableName with
    ⟨-, hmissing⟩ | ⟨oid, table, first, hfind, hregion, hname, hfound⟩
  · rw [DynamoDbMongoDb.firstTable, hmissing] at hfirst
    cases hfirst
  · rw [DynamoDbMongoDb.firstTable, hfound] at hfirst
    obtain rfl := Option.some.inj hfirst
    rw [mongoCall, DynamoDbMongoDb.itemExists, hfound] at hmongo
    obtain rfl := Option.some.inj hmongo
    obtain rfl := Option.some.inj ((congrArg some (itemExists_eq hfind)).symm.trans hmemory)
    exact (conformsItem_iff h hregion hname).mp (decide_eq_decide.mp hreply)

theorem updateTable_conforms {table : Table} (h : s.Sound ids) (hagrees : Agrees ids (.updateTable table) s) :
    Conforms (.updateTable table) s := by
  obtain ⟨⟨memory, mongo⟩, hboth, hreply, hstores⟩ := hagrees
  obtain ⟨hmemory, hmongo⟩ := bothCalls_eq_some hboth
  obtain ⟨_, hupdate, rfl⟩ := Option.map_eq_some_iff.mp hmemory
  obtain ⟨⟨oid, old⟩, hfind, rfl⟩ := Option.map_eq_some_iff.mp hupdate
  obtain ⟨fields, hfields, hmongo⟩ := Option.bind_eq_some_iff.mp hmongo
  obtain ⟨reply, hread, hmongo⟩ := Option.bind_eq_some_iff.mp hmongo
  obtain rfl := Option.some.inj hmongo
  rcases h.tables.findOne (selects_table table.region table.name) (fun _ _ => rfl) with
    ⟨hnone, -⟩ | ⟨_, _, doc, a, -, hdoc, hkeeps, -⟩
  · cases hnone.symm.trans hfind
  obtain ⟨id, hagain⟩ := findOne_replaced h hdoc hfields
  have hread' : DynamoDbMongoDb.fetch Table.fromDocument (.pocoException (str "Database exception, Table not found "))
      ((s.mongo.tables.replaceOne (Query.equals [(str "region", table.region), (str "name", table.name)])
        fields).findOne (Query.equals [(str "region", table.region), (str "name", table.name)])) = some reply := hread
  rw [hagain, DynamoDbMongoDb.fetch, Table.document_round_trip hfields, Option.map_some, Option.some.injEq] at hread'
  subst hread'
  have hstorable : table.Storable :=
    Table.storable_of_read hfields (congrArg Table.created hreply).symm (congrArg Table.modified hreply).symm
  obtain ⟨first, hfirst, rfl⟩ := reads_tables.keeps hkeeps
  -- what is left when the tables found are taken away is the same, so these are the same too
  obtain ⟨a', rest, hkeeps', hperm, hholds⟩ := h.tables.holds.replaceOne hdoc hstorable.anonymous hfields
  obtain ⟨first', hfirst', rfl⟩ := reads_tables.keeps hkeeps'
  rw [hfirst, Option.some.injEq] at hfirst'
  subst hfirst'
  obtain ⟨others, hothers, hinsert⟩ := OrderedMap.values_replace_perm (OrderedMap.findIf_some hfind).1
  have hrest : rest.Perm (others.map Table.anonymous) :=
    ((hstores.tables_perm hholds).trans ((hinsert table).map Table.anonymous)).cons_inv
  have hsame : [first.anonymous].Perm [old.anonymous] := by
    refine (List.perm_append_right_iff rest).mp ?_
    exact hperm.symm.trans (((hothers.map Table.anonymous)).trans (hrest.symm.cons old.anonymous))
  refine ⟨hstorable, first.anonymous, ?_, ?_⟩
  · rw [hfind, List.singleton_perm_singleton.mp hsame]
    rfl
  · rw [firstTable_eq_some.mpr ⟨doc, hdoc, hfirst⟩]
    rfl

/-- On both backends no item is updated. -/
theorem not_agrees_updateItem (item : Item) : ¬ Agrees ids (.updateItem item) s := by
  rintro ⟨⟨memory, mongo⟩, hboth, hreply, -⟩
  obtain ⟨hmemory, hmongo⟩ := bothCalls_eq_some hboth
  obtain ⟨_, -, rfl⟩ := Option.map_eq_some_iff.mp hmemory
  obtain ⟨reply, -, hmongo⟩ := Option.bind_eq_some_iff.mp hmongo
  cases reply with
  | ok table => cases hmongo
  | error e =>
    obtain rfl := Option.some.inj hmongo
    exact hreply

theorem conforms_of_agrees {c : DynamoDbCall} (h : s.Sound ids) (hagrees : Agrees ids c s) : Conforms c s := by
  cases c with
  | createTable table => exact createTable_conforms h hagrees
  | tableExists | listTables => trivial
  | updateTable table => exact updateTable_conforms h hagrees
  | deleteTable region tableName => exact deleteTable_conforms h hagrees
  | itemExists item => exact itemExists_conforms h hagrees
  | listItems region tableName => exact listItems_conforms h hagrees
  | createItem item => exact createItem_conforms h hagrees
  | updateItem item => exact not_agrees_updateItem item hagrees
  | deleteItem region tableName key => exact deleteItem_conforms h hagrees
  | deleteItems region tableName => exact deleteItems_conforms h hagrees

end Converse

section

variable (ids : ObjectIds)

/-- A call that conforms keeps the backends in step. -/
theorem Backends.Sound.next {ids : ObjectIds} {c : DynamoDbCall} {s : Backends} (h : s.Sound ids)
    (hfit : Conforms c s) : ∃ s', nextBackends ids c s = some s' ∧ s'.Sound ids := by
  obtain ⟨r, hr, -, hsound⟩ := served_of_conforms h hfit
  exact ⟨_, by rw [nextBackends, hr]; rfl, hsound⟩

theorem Backends.Sound.step {ids : ObjectIds} {c : DynamoDbCall} {s s' : Backends} (h : s.Sound ids)
    (hfit : Conforms c s) (hnext : nextBackends ids c s = some s') : s'.Sound ids := by
  obtain ⟨t, ht, hsound⟩ := h.next hfit
  rw [hnext, Option.some.injEq] at ht
  exact ht ▸ hsound

/-- From an empty store the backends agree along a run of calls exactly when every call conforms, and then the run is
    answered to its end and leaves the same tables and items. -/
theorem backends_agree_iff (calls : List DynamoDbCall) :
    (Along (nextBackends ids) (Agrees ids) calls {} ↔ Along (nextBackends ids) Conforms calls {}) ∧
      (Along (nextBackends ids) Conforms calls {} →
        ∃ s, steps (nextBackends ids) calls {} = some s ∧ StoresAgree s.memory s.mongo) := by
  have hbegin : Backends.Sound ids {} := ⟨.nil, .nil⟩
  refine ⟨⟨fun hagrees => ?_, fun hconforms => ?_⟩, fun hconforms => ?_⟩
  · exact along_of_along (I := Backends.Sound ids)
      (fun hagrees hnext h => h.step (conforms_of_agrees h hagrees) hnext)
      (fun hagrees h => conforms_of_agrees h hagrees) hagrees hbegin
  · refine along_of_along (I := Backends.Sound ids) (fun hfit hnext h => h.step hfit hnext) (fun hfit h => ?_)
      hconforms hbegin
    obtain ⟨r, hr, hreply, hsound⟩ := served_of_conforms h hfit
    exact ⟨r, hr, hreply, hsound.storesAgree⟩
  · obtain ⟨s, hs, hsound⟩ := steps_along_total (fun hfit h => h.next hfit) hconforms hbegin
    exact ⟨s, hs, hsound.storesAgree⟩

end

def ordersTable : Table :=
  { region := str "eu", name := str "orders", keySchemas := OrderedMap.ofList [(str "id", str "HASH")], created := 0,
    modified := 2000000 }

def emptyOrder : Item := { region := str "eu", tableName := str "orders", created := 0, modified := 1000000 }

/-- A table with a key, and an item without attributes. -/
example (ids : ObjectIds) :
    Along (nextBackends ids) Conforms [.createTable ordersTable, .createItem emptyOrder, .listTables (str "eu")] {} :=
  ⟨⟨by decide, by decide, by decide, by decide, by decide⟩,
    fun _ _ => ⟨⟨rfl, rfl, by decide, by decide⟩, fun _ _ => ⟨trivial, fun _ _ => trivial⟩⟩⟩

end AwsMock.DynamoDb
