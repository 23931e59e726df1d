import Mathlib.Tactic.Tauto
import AwsMock.DynamoDb.ItemStore

/-!
# The container and the store

`CreateTable`, `DeleteTable`, `PutItem` and `DeleteItem` write the store and send the request to the DynamoDB
container. The container is a parameter: it answers with a status and a body, or the socket throws. What a request has
to do with the store depends on that answer.
-/

namespace AwsMock.DynamoDb

open Lib

abbrev Headers := OrderedMap Str Str

structure HttpSocketResponse where
  statusCode : Nat
  body : Str

/-- `HttpSocket::SendJson` to the container, and the text of a `beast::http::status`. -/
structure Container where
  sendJson : Str → Headers → Except Error HttpSocketResponse
  statusText : Nat → Str

structure DynamoDbResponse where
  body : Str
  headers : Headers
  status : Nat

/-- The HTTP body and headers of a request, which go to the container as they came. -/
structure HttpMessage where
  body : Str := []
  headers : Headers := ∅

/-- The table class and the throughput are read by the container only. -/
structure CreateTableRequest where
  region : Str
  tableName : Str
  tags : OrderedMap Str Str := ∅
  attributes : OrderedMap Str Str := ∅
  keySchemas : OrderedMap Str Str := ∅

structure DeleteTableRequest where
  region : Str
  tableName : Str

inductive Request where
  | createTable (request : CreateTableRequest)
  | deleteTable (request : DeleteTableRequest)
  | putItem (request : PutItemRequest)
  | deleteItem (request : DeleteItemRequest)

/-! ### Calls -/

inductive ServiceCall where
  | database (c : DynamoDbCall)
  | container (http : HttpMessage)

abbrev ServiceCall.Reply : ServiceCall → Type
  | .database c => c.Reply
  | .container _ => Except Error HttpSocketResponse

/-- The store and the messages sent so far, the last one first. -/
structure ServiceWorld where
  world : World := {}
  sent : List HttpMessage := []

/-- The meaning of a call in the process. -/
def serviceExec (rt : Runtime) (container : Container) : Prog.Exec ServiceCall ServiceCall.Reply ServiceWorld
  | .database c, s => (exec rt c s.world).map fun r => (r.1, { s with world := r.2 })
  | .container http, s => some (container.sendJson http.body http.headers, { s with sent := http :: s.sent })

abbrev ServiceProg := Prog ServiceCall ServiceCall.Reply Error

/-- What `DynamoDbDatabase` does. -/
abbrev database {α : Type} (p : DynamoDbProg α) : ServiceProg α := p.via fun c => Prog.perform (.database c)

/-! ### The service -/

namespace DynamoDbService

/-- Any status but `ok` is thrown. -/
def checkStatus (container : Container) (headers : Headers) (response : HttpSocketResponse) :
    Except Error DynamoDbResponse :=
  if response.statusCode ≠ 200 then
    .error (.serviceException
      (str "HTTP error, status: " ++ container.statusText response.statusCode ++ str " reason: " ++ response.body))
  else .ok ⟨response.body, headers, response.statusCode⟩

def sendDynamoDbRequest (container : Container) (http : HttpMessage) : ServiceProg DynamoDbResponse := do
  let answer ← Prog.perform (.container http)
  let response ← Prog.ofExcept answer
  Prog.ofExcept (checkStatus container http.headers response)

/-- `catch (Poco::Exception &exc)`; other exceptions escape as they are. -/
def caught (text : Str) : Error → Error
  | .stdException what => .stdException what
  | ex => .serviceException (text ++ message ex)

def createTable (container : Container) (readings : Readings) (request : CreateTableRequest) (http : HttpMessage) :
    ServiceProg DynamoDbResponse := do
  if ← database (call (.tableExists request.region request.tableName)) then
    .throw (.serviceException (str "DynamoDb table exists already"))
  else
    Prog.mapThrow (caught (str "DynamoDbd create table failed, error: ")) do
      let response ← sendDynamoDbRequest container http
      let created ← database (call (.createTable
        { region := request.region, name := request.tableName, attributes := request.attributes, tags := request.tags,
          keySchemas := request.keySchemas, created := readings.created, modified := readings.modified }))
      let _ ← Prog.ofExcept created
      pure response

def deleteTable (container : Container) (request : DeleteTableRequest) (http : HttpMessage) :
    ServiceProg DynamoDbResponse := do
  if ← database (call (.tableExists request.region request.tableName)) then
    Prog.mapThrow (caught (str "DynamoDbd delete table failed, error: ")) do
      let response ← sendDynamoDbRequest container http
      database (call (.deleteTable request.region request.tableName))
      pure response
  else
    .throw (.serviceException
      (str "DynamoDb table does not exist, region: " ++ request.region ++ str " name: " ++ request.tableName))

/-- The container is asked first. -/
def putItem (container : Container) (readings : Readings) (request : PutItemRequest) (http : HttpMessage) :
    ServiceProg DynamoDbResponse := do
  if ← database (call (.tableExists request.region request.tableName)) then
    Prog.mapThrow (caught (str "DynamoDb put item failed, error: ")) do
      let response ← sendDynamoDbRequest container http
      let _ ← database (createOrUpdateItem (Mapper.mapPut readings request))
      pure response
  else .throw (tableExistsAlready request.region request.tableName)

/-- The store is written first. -/
def deleteItem (container : Container) (readings : Readings) (request : DeleteItemRequest) (http : HttpMessage) :
    ServiceProg DynamoDbResponse := do
  let found ← database (call (.itemExists (Mapper.mapDelete readings request)))
  if ← Prog.ofExcept found then
    Prog.mapThrow (caught (str "DynamoDbd delete item failed, message: ")) do
      database (call (.deleteItem request.region request.tableName []))
      sendDynamoDbRequest container http
  else .throw (tableExistsAlready request.region request.tableName)

end DynamoDbService

/-- A request as its program, with the time points read for it. -/
def Request.prog (container : Container) (readings : Readings) (http : HttpMessage) :
    Request → ServiceProg DynamoDbResponse
  | .createTable request => DynamoDbService.createTable container readings request http
  | .deleteTable request => DynamoDbService.deleteTable container request http
  | .putItem request => DynamoDbService.putItem container readings request http
  | .deleteItem request => DynamoDbService.deleteItem container readings request http

/-- A request in the process. -/
def serveRequest (rt : Runtime) (container : Container) (http : HttpMessage) (request : Request) (s : ServiceWorld) :
    Option (Except Error DynamoDbResponse × ServiceWorld) :=
  (request.prog container (rt.clock s.world.calls) http).run (serviceExec rt container) s

/-- What sending a message comes to. -/
def Container.answer (container : Container) (http : HttpMessage) : Except Error DynamoDbResponse :=
  (container.sendJson http.body http.headers).bind (DynamoDbService.checkStatus container http.headers)

/-! ### What a request is to do -/

/-- The records of two stores are the same, up to the object ids in them. -/
def SameRecords (db db' : DynamoDbMemoryDb) : Prop :=
  (db'.tables.mapVal fun _ table => { table with oid := [] }) = db.tables.mapVal fun _ table => { table with oid := [] }

/-- A record says what the request says. -/
structure Table.Describes (table : Table) (request : CreateTableRequest) : Prop where
  inRegion : table.region = request.region
  named : table.name = request.tableName
  tagged : table.tags = request.tags
  hasAttributes : table.attributes = request.attributes
  hasKeys : table.keySchemas = request.keySchemas

/-- An item is what a put says. -/
structure Item.Describes (item : Item) (request : PutItemRequest) : Prop where
  inRegion : item.region = request.region
  inTable : item.tableName = request.tableName
  hasValues : valuesOf item.attributes = request.attributes

/-- The operation has been done to its one table, with the items of that, or to its one item, and to nothing else. -/
def Reflects (db db' : DynamoDbMemoryDb) : Request → Prop
  | .createTable request => ∃ oid table, db.tables.get? oid = none ∧ table.Describes request ∧
      db'.tables = db.tables.insert oid table ∧ db'.items = db.items
  | .deleteTable request =>
      db'.tables = (db.tables.eraseIf fun _ table => table.region = request.region ∧ table.name = request.tableName) ∧
      db'.items = db.items.eraseIf fun _ item => item.region = request.region ∧ item.tableName = request.tableName
  | .putItem request => SameRecords db db' ∧ ∃ schema, schemaOf db request.region request.tableName = some schema ∧
      ∃ oid item, db'.items.get? oid = some item ∧ item.Describes request ∧
        (∀ old, db.items.get? oid = some old →
          StoredUnder db request.region request.tableName (primaryKey schema request.attributes) oid old) ∧
        ∀ oid', oid' ≠ oid → ∀ old, db'.items.get? oid' = some old ↔ db.items.get? oid' = some old ∧
          ¬ StoredUnder db request.region request.tableName (primaryKey schema request.attributes) oid' old
  | .deleteItem request => SameRecords db db' ∧ ∀ oid item, db'.items.get? oid = some item ↔
      db.items.get? oid = some item ∧ ¬ StoredUnder db request.region request.tableName request.key oid item

/-- Where the container fails, the request fails and the store is as before. Where it was asked and succeeds, the
    request succeeds and the store reflects the operation. -/
def Atomic (rt : Runtime) (container : Container) (http : HttpMessage) (request : Request) (s : ServiceWorld) : Prop :=
  ∃ x s', serveRequest rt container http request s = some (x, s') ∧
    (∀ e, container.answer http = .error e → (∃ e', x = .error e') ∧ s'.world.db = s.world.db) ∧
    ∀ response, container.answer http = .ok response → s'.sent ≠ s.sent →
      x = .ok response ∧ Reflects s.world.db s'.world.db request

/-! ### The condition -/

/-- A failing container finds the store as it was: only `DeleteItem` writes before it asks, the object id of the table's
    record and the items of the table. -/
def Untouched (db : DynamoDbMemoryDb) : Request → Prop
  | .deleteItem request => ∀ oid table, db.findTable request.region request.tableName = some (oid, table) →
      table.oid = oid ∧ (Matched db request.region request.tableName [] → ∀ oid item, db.items.get? oid = some item →
        ¬ (item.region = request.region ∧ item.tableName = request.tableName))
  | _ => True

/-- What the store writes is what the request names: a table whose name no other region has and that has no items, the
    item of the key, a table all of whose items have the key. -/
def Singled (db : DynamoDbMemoryDb) : Request → Prop
  | .createTable _ => True
  | .deleteTable request => db.tableExists request.region request.tableName = true →
      (∀ oid table, db.tables.get? oid = some table → table.name = request.tableName → table.region = request.region) ∧
      ∀ oid item, db.items.get? oid = some item → ¬ (item.region = request.region ∧ item.tableName = request.tableName)
  | .putItem request => db.tableExists request.region request.tableName = true →
      ∃ schema, schemaOf db request.region request.tableName = some schema ∧
        (Matched db request.region request.tableName (names request.attributes) ∧
          (∃ oid item, db.findItem request.region request.tableName = some (oid, item) ∧
            StoredUnder db request.region request.tableName (primaryKey schema request.attributes) oid item ∧
            ∀ oid' old,
              StoredUnder db request.region request.tableName (primaryKey schema request.attributes) oid' old →
                oid' = oid) ∨
        ¬ Matched db request.region request.tableName (names request.attributes) ∧ ∀ oid item,
          ¬ StoredUnder db request.region request.tableName (primaryKey schema request.attributes) oid item)
  | .deleteItem request => ∀ schema, schemaOf db request.region request.tableName = some schema →
      Matched db request.region request.tableName [] → ∀ oid item, db.items.get? oid = some item →
        item.region = request.region → item.tableName = request.tableName →
          primaryKey schema (valuesOf item.attributes) = request.key

/-- The condition, by what the container answers. -/
def Meets (db : DynamoDbMemoryDb) (answer : Except Error DynamoDbResponse) (request : Request) : Prop :=
  match answer with
  | .error _ => Untouched db request
  | .ok _ => Singled db request

/-! ### Runs -/

variable {rt : Runtime} {container : Container} {http : HttpMessage} {s : ServiceWorld} {db : DynamoDbMemoryDb}
  {w : World}

open DynamoDbService

theorem run_database {α : Type} (p : DynamoDbProg α) (s : ServiceWorld) :
    (database p).run (serviceExec rt container) s =
      (p.run (exec rt) s.world).map fun r => (r.1, { s with world := r.2 }) := by
  refine Prog.run_via ServiceWorld.world (fun s w => { s with world := w }) (fun _ _ => rfl) (fun _ => rfl)
    (fun _ _ _ => rfl) (fun c s => ?_) p s
  simp only [Prog.run_perform, serviceExec, Option.map_map]
  rfl

theorem run_send (s : ServiceWorld) : (sendDynamoDbRequest container http).run (serviceExec rt container) s =
    some (container.answer http, { s with sent := http :: s.sent }) := by
  unfold sendDynamoDbRequest
  rw [Prog.run_perform_bind, serviceExec, Option.bind_some, Prog.run_bind, Prog.run_ofExcept, Container.answer]
  cases container.sendJson http.body http.headers with
  | error e => rfl
  | ok response => exact Prog.run_ofExcept _ _

/-- The table of a create request. -/
def CreateTableRequest.table (request : CreateTableRequest) (readings : Readings) : Table :=
  { region := request.region, name := request.tableName, attributes := request.attributes, tags := request.tags,
    keySchemas := request.keySchemas, created := readings.created, modified := readings.modified }

theorem createTable_eq (db : DynamoDbMemoryDb) (oid : Str) (table : Table) :
    db.createTable oid table =
      (.ok { table with oid := oid }, { db with tables := db.tables.insert oid { table with oid := oid } }) := by
  unfold DynamoDbMemoryDb.createTable DynamoDbMemoryDb.getTableById
  rw [OrderedMap.findIf_key (OrderedMap.get?_insert_self db.tables oid table)]
  simp only [DynamoDbMemoryDb.fetchTable, OrderedMap.insert_insert]

theorem serve_createTable (request : CreateTableRequest) :
    serveRequest rt container http (.createTable request) s =
      if s.world.db.tableExists request.region request.tableName then
        some (.error (.serviceException (str "DynamoDb table exists already")),
          { s with world := ⟨s.world.db, s.world.calls + 1⟩ })
      else match container.answer http with
        | .error e => some (.error (caught (str "DynamoDbd create table failed, error: ") e),
            ⟨⟨s.world.db, s.world.calls + 1⟩, http :: s.sent⟩)
        | .ok response => some (.ok response, ⟨⟨(s.world.db.createTable (rt.uuid (s.world.calls + 1))
            (request.table (rt.clock s.world.calls))).2, s.world.calls + 2⟩, http :: s.sent⟩) := by
  unfold serveRequest Request.prog DynamoDbService.createTable
  rw [Prog.run_bind, run_database]
  simp only [Prog.run_perform, exec, memoryCall, Option.map_some, Option.bind_some]
  cases s.world.db.tableExists request.region request.tableName with
  | true => rfl
  | false =>
    simp only [Bool.false_eq_true, if_false, Prog.run_mapThrow]
    rw [Prog.run_bind, run_send]
    cases container.answer http with
    | error e => rfl
    | ok response =>
      simp only [Option.bind_some]
      rw [Prog.run_bind, run_database]
      simp only [Prog.run_perform, exec, memoryCall, Option.map_some, Option.bind_some, createTable_eq]
      rfl

theorem serve_deleteTable (request : DeleteTableRequest) :
    serveRequest rt container http (.deleteTable request) s =
      if s.world.db.tableExists request.region request.tableName then
        match container.answer http with
        | .error e => some (.error (caught (str "DynamoDbd delete table failed, error: ") e),
            ⟨⟨s.world.db, s.world.calls + 1⟩, http :: s.sent⟩)
        | .ok response => some (.ok response,
            ⟨⟨s.world.db.deleteTable request.tableName, s.world.calls + 2⟩, http :: s.sent⟩)
      else
        some (.error (.serviceException
            (str "DynamoDb table does not exist, region: " ++ request.region ++ str " name: " ++ request.tableName)),
          { s with world := ⟨s.world.db, s.world.calls + 1⟩ }) := by
  unfold serveRequest Request.prog DynamoDbService.deleteTable
  rw [Prog.run_bind, run_database]
  simp only [Prog.run_perform, exec, memoryCall, Option.map_some, Option.bind_some]
  cases s.world.db.tableExists request.region request.tableName with
  | false => rfl
  | true =>
    simp only [if_true, Prog.run_mapThrow]
    rw [Prog.run_bind, run_send]
    cases container.answer http with
    | error e => rfl
    | ok response => rfl

theorem serve_putItem_refused {request : PutItemRequest}
    (h : s.world.db.tableExists request.region request.tableName = false) :
    serveRequest rt container http (.putItem request) s =
      some (.error (tableExistsAlready request.region request.tableName),
        { s with world := ⟨s.world.db, s.world.calls + 1⟩ }) := by
  unfold serveRequest Request.prog DynamoDbService.putItem
  rw [Prog.run_bind, run_database]
  simp only [Prog.run_perform, exec, memoryCall, Option.map_some, Option.bind_some, h]
  rfl

theorem serve_putItem {request : PutItemRequest}
    (h : s.world.db.tableExists request.region request.tableName = true) :
    serveRequest rt container http (.putItem request) s =
      match container.answer http with
      | .error e => some (.error (caught (str "DynamoDb put item failed, error: ") e),
          ⟨⟨s.world.db, s.world.calls + 1⟩, http :: s.sent⟩)
      | .ok response =>
          ((createOrUpdateItem (Mapper.mapPut (rt.clock s.world.calls) request)).run (exec rt)
            ⟨s.world.db, s.world.calls + 1⟩).map fun r =>
              ((r.1.map fun _ => response).mapError (caught (str "DynamoDb put item failed, error: ")),
                ⟨r.2, http :: s.sent⟩) := by
  unfold serveRequest Request.prog DynamoDbService.putItem
  rw [Prog.run_bind, run_database]
  simp only [Prog.run_perform, exec, memoryCall, Option.map_some, Option.bind_some, h, if_true, Prog.run_mapThrow]
  rw [Prog.run_bind, run_send]
  cases container.answer http with
  | error e => rfl
  | ok response =>
    simp only [Option.bind_some]
    rw [Prog.run_bind_pure, run_database, Option.map_map, Option.map_map]
    rfl

/-- The store after a table's record has been given its object id. -/
def touched (db : DynamoDbMemoryDb) (oid : Str) (table : Table) : DynamoDbMemoryDb :=
  { db with tables := db.tables.insert oid { table with oid := oid } }

theorem itemExists_eq {item : Item} {oid : Str} {table : Table}
    (h : db.findTable item.region item.tableName = some (oid, table)) :
    db.itemExists item = (.ok (decide (db.matchesItem item table = true)), touched db oid table) := by
  unfold DynamoDbMemoryDb.itemExists DynamoDbMemoryDb.getTableByRegionName
  rw [h]
  simp [DynamoDbMemoryDb.fetchTable, DynamoDbMemoryDb.matchesItem, touched]

theorem touched_sameRecords {oid : Str} {table : Table} (h : db.tables.get? oid = some table) :
    SameRecords db (touched db oid table) :=
  OrderedMap.mapVal_insert_of_eq h rfl

theorem touched_eq {oid : Str} {table : Table} (h : db.tables.get? oid = some table) :
    touched db oid table = db ↔ table.oid = oid := by
  constructor
  · intro heq
    have hget := congrArg (fun db => db.tables.get? oid) heq
    simp only [touched, OrderedMap.get?_insert_self, h, Option.some.injEq] at hget
    exact (congrArg Table.oid hget).symm
  · rintro rfl
    unfold touched
    rw [OrderedMap.insert_get?_self h]

theorem run_createOrUpdateItem {item : Item} {oid : Str} {table : Table}
    (h : w.db.findTable item.region item.tableName = some (oid, table)) :
    (createOrUpdateItem item).run (exec rt) w =
      if w.db.matchesItem item table then
        ((touched w.db oid table).updateItem item).map fun r => (.ok r.1, ⟨r.2, w.calls + 2⟩)
      else
        some (.ok { item with oid := rt.uuid (w.calls + 1) },
          ⟨((touched w.db oid table).createItem (rt.uuid (w.calls + 1)) item).2, w.calls + 2⟩) := by
  unfold createOrUpdateItem
  rw [Prog.run_perform_bind]
  simp only [exec, memoryCall, itemExists_eq h, Option.map_some, Option.bind_some]
  cases w.db.matchesItem item table with
  | true =>
    simp only [decide_true, if_true, Prog.ofExcept_ok_bind]
    rw [Prog.run_perform_bind]
    simp only [exec, memoryCall]
    cases (touched w.db oid table).updateItem item <;> rfl
  | false =>
    simp only [Bool.false_eq_true, decide_false, if_false, Prog.ofExcept_ok_bind]
    rw [Prog.run_perform_bind]
    simp only [exec, memoryCall, createItem_eq]
    rfl

theorem run_createOrUpdateItem_missing {item : Item} (h : w.db.findTable item.region item.tableName = none) :
    ∃ e, (createOrUpdateItem item).run (exec rt) w = some (.error e, ⟨w.db, w.calls + 1⟩) := by
  obtain ⟨e, he⟩ := itemExists_missing h
  refine ⟨e, ?_⟩
  unfold createOrUpdateItem
  rw [Prog.run_perform_bind]
  simp only [exec, memoryCall, he]
  rfl

theorem serve_deleteItem_missing {request : DeleteItemRequest}
    (h : s.world.db.findTable request.region request.tableName = none) :
    ∃ e, serveRequest rt container http (.deleteItem request) s =
      some (.error e, { s with world := ⟨s.world.db, s.world.calls + 1⟩ }) := by
  obtain ⟨e, he⟩ := @itemExists_missing s.world.db (Mapper.mapDelete (rt.clock s.world.calls) request) h
  refine ⟨e, ?_⟩
  unfold serveRequest Request.prog DynamoDbService.deleteItem
  rw [Prog.run_bind, run_database]
  simp only [Prog.run_perform, exec, memoryCall, he, Option.map_some, Option.bind_some]
  rfl

/-- The deletion in the store comes before the container's answer. -/
theorem serve_deleteItem {request : DeleteItemRequest} {oid : Str} {table : Table}
    (h : s.world.db.findTable request.region request.tableName = some (oid, table)) :
    (Matched s.world.db request.region request.tableName [] →
      serveRequest rt container http (.deleteItem request) s =
        some ((container.answer http).mapError (caught (str "DynamoDbd delete item failed, message: ")),
          ⟨⟨(touched s.world.db oid table).deleteItem request.region request.tableName [], s.world.calls + 2⟩,
            http :: s.sent⟩)) ∧
    (¬ Matched s.world.db request.region request.tableName [] →
      serveRequest rt container http (.deleteItem request) s =
        some (.error (tableExistsAlready request.region request.tableName),
          { s with world := ⟨touched s.world.db oid table, s.world.calls + 1⟩ })) := by
  have hexists := @itemExists_eq s.world.db (Mapper.mapDelete (rt.clock s.world.calls) request) oid table h
  have hmatches : s.world.db.matchesItem (Mapper.mapDelete (rt.clock s.world.calls) request) table = true ↔
      Matched s.world.db request.region request.tableName [] :=
    matchesItem_iff h
  unfold serveRequest Request.prog DynamoDbService.deleteItem
  rw [Prog.run_bind, run_database]
  simp only [Prog.run_perform, exec, memoryCall, hexists, Option.map_some, Option.bind_some]
  refine ⟨fun hmatched => ?_, fun hmatched => ?_⟩
  · rw [← hmatches] at hmatched
    simp only [hmatched, decide_true, if_true, Prog.ofExcept_ok_bind, Prog.run_mapThrow]
    rw [Prog.run_bind, run_database]
    simp only [Prog.run_perform, exec, memoryCall, Option.map_some, Option.bind_some, run_send]
  · rw [← hmatches] at hmatched
    simp only [hmatched, decide_false, Bool.false_eq_true, if_false, Prog.ofExcept_ok_bind]
    rfl

/-! ### Reachable stores -/

/-- The stores that any calls lead to from an empty one. -/
inductive Reachable (rt : Runtime) : World → Prop
  | init (calls : Nat) : Reachable rt ⟨{}, calls⟩
  | call {w : World} {c : DynamoDbCall} {r : c.Reply × World} : Reachable rt w → exec rt c w = some r → Reachable rt r.2

/-- Every object id of a table was drawn by an earlier call. -/
def DrawnTables (rt : Runtime) (w : World) : Prop :=
  ∀ oid table, w.db.tables.get? oid = some table → ∃ n < w.calls, oid = rt.uuid n

/-- A call leaves the tables alone, erases some, or writes a record at a stored object id or at the one it draws. -/
theorem drawnTables_exec : ∀ (call : DynamoDbCall) (w : World) (r : call.Reply × World), DrawnTables rt w →
    exec rt call w = some r → DrawnTables rt r.2 := by
  intro call w r hdrawn hr
  obtain ⟨⟨reply, db⟩, hcall, rfl⟩ := Option.map_eq_some_iff.mp hr
  have hlater : ∀ {oid : Str}, (∃ n < w.calls, oid = rt.uuid n) → ∃ n < w.calls + 1, oid = rt.uuid n :=
    fun ⟨n, hn, hoid⟩ => ⟨n, Nat.lt_succ_of_lt hn, hoid⟩
  have hsame : db.tables = w.db.tables → DrawnTables rt ⟨db, w.calls + 1⟩ := fun htables oid table hget =>
    hlater (hdrawn oid table (by rw [← htables]; exact hget))
  have hinsert : ∀ oid table, db.tables = w.db.tables.insert oid table → (∃ n < w.calls + 1, oid = rt.uuid n) →
      DrawnTables rt ⟨db, w.calls + 1⟩ := fun oid table htables hoid oid' table' hget => by
    simp only [htables, OrderedMap.get?_insert] at hget
    split at hget
    · next heq => rw [heq]; exact hoid
    · exact hlater (hdrawn oid' table' hget)
  cases call with
  | createTable table =>
    have hdb := congrArg (fun r => r.2.tables) (Option.some.inj hcall)
    rw [createTable_eq] at hdb
    exact hinsert _ _ hdb.symm ⟨w.calls, Nat.lt_succ_self _, rfl⟩
  | tableExists | listTables | listItems | deleteItem | deleteItems => cases hcall; exact hsame rfl
  | deleteTable region tableName =>
    cases hcall
    intro oid table hget
    simp only [DynamoDbMemoryDb.deleteTable, OrderedMap.get?_eraseIf, Option.filter_eq_some_iff] at hget
    exact hlater (hdrawn oid table hget.1)
  | itemExists item =>
    have hdb := congrArg (fun r => r.2) (Option.some.inj hcall)
    cases htable : w.db.findTable item.region item.tableName with
    | none =>
      obtain ⟨e, he⟩ := itemExists_missing htable
      rw [he] at hdb
      exact hsame (congrArg DynamoDbMemoryDb.tables hdb.symm)
    | some it =>
      rw [itemExists_eq htable] at hdb
      exact hinsert _ _ (congrArg DynamoDbMemoryDb.tables hdb.symm)
        (hlater (hdrawn _ _ (OrderedMap.findIf_some htable).1))
  | createItem item =>
    have hdb := congrArg (fun r => r.2.tables) (Option.some.inj hcall)
    rw [createItem_eq] at hdb
    exact hsame hdb.symm
  | updateItem item =>
    obtain ⟨r, hr, hdb⟩ := Option.map_eq_some_iff.mp hcall
    obtain ⟨it, -, rfl⟩ := Option.map_eq_some_iff.mp hr
    cases hdb
    exact hsame rfl
  | updateTable table =>
    obtain ⟨r, hr, hdb⟩ := Option.map_eq_some_iff.mp hcall
    obtain ⟨it, hit, rfl⟩ := Option.map_eq_some_iff.mp hr
    cases hdb
    exact hinsert _ _ rfl (hlater (hdrawn _ _ (OrderedMap.findIf_some hit).1))

theorem Reachable.drawn (h : Reachable rt w) : DrawnTables rt w ∧ Drawn rt w := by
  induction h with
  | init calls => exact ⟨nofun, nofun⟩
  | call _ hexec ih => exact ⟨drawnTables_exec _ _ _ ih.1 hexec, drawn_exec _ _ _ ih.2 hexec⟩

/-- A request leads from a reachable store to a reachable one, whatever the container answers. -/
theorem Reachable.serveRequest {x : Except Error DynamoDbResponse} {s' : ServiceWorld} (h : Reachable rt s.world)
    {request : Request} (hserve : serveRequest rt container http request s = some (x, s')) :
    Reachable rt s'.world := by
  refine Prog.run_invariant (I := fun s => Reachable rt s.world) (fun c s r hs hr => ?_) h hserve
  cases c with
  | database c =>
    obtain ⟨r, hexec, rfl⟩ := Option.map_eq_some_iff.mp hr
    exact hs.call hexec
  | container http =>
    cases hr
    exact hs

/-- The next object ids are new. -/
theorem Reachable.fresh (h : Reachable rt w) {n : Nat} (hn : w.calls ≤ n) :
    w.db.tables.get? (rt.uuid n) = none ∧ w.db.items.get? (rt.uuid n) = none := by
  obtain ⟨htables, hitems⟩ := h.drawn
  refine ⟨Option.eq_none_iff_forall_ne_some.mpr fun table hget => ?_,
    Option.eq_none_iff_forall_ne_some.mpr fun item hget => ?_⟩
  · obtain ⟨m, hm, hoid⟩ := htables _ _ hget
    have := rt.uuid_inj hoid
    omega
  · obtain ⟨m, hm, hoid⟩ := hitems _ _ hget
    have := rt.uuid_inj hoid
    omega

/-! ### One request -/

theorem sent_ne (http : HttpMessage) (s : ServiceWorld) : http :: s.sent ≠ s.sent := List.cons_ne_self _ _

theorem atomic_createTable (hreach : Reachable rt s.world) (request : CreateTableRequest) :
    Atomic rt container http (.createTable request) s := by
  have hserve := @serve_createTable rt container http s request
  unfold Atomic
  rw [hserve]
  split
  · exact ⟨_, _, rfl, fun _ _ => ⟨⟨_, rfl⟩, rfl⟩, fun _ _ hsent => absurd rfl hsent⟩
  · cases hanswer : container.answer http with
    | error e => exact ⟨_, _, rfl, fun _ _ => ⟨⟨_, rfl⟩, rfl⟩, nofun⟩
    | ok response =>
      refine ⟨_, _, rfl, nofun, fun _ heq _ => ⟨heq, ?_⟩⟩
      rw [createTable_eq]
      exact ⟨_, _, (hreach.fresh (Nat.le_succ _)).1, ⟨rfl, rfl, rfl, rfl, rfl⟩, rfl, rfl⟩

theorem eraseIf_eq_iff {α : Type} {m : OrderedMap Str α} {p q : Str → α → Bool} :
    m.eraseIf p = m.eraseIf q ↔ ∀ k v, m.get? k = some v → p k v = q k v := by
  constructor
  · intro h k v hget
    have hlookup := congrArg (fun m => m.get? k) h
    simp only [OrderedMap.get?_eraseIf, hget, Option.filter_some] at hlookup
    cases hp : p k v <;> cases hq : q k v <;> simp [hp, hq] at hlookup ⊢
  · intro h
    refine OrderedMap.ext_get? fun k => ?_
    simp only [OrderedMap.get?_eraseIf]
    cases hget : m.get? k with
    | none => rfl
    | some v => simp only [Option.filter_some, h k v hget]

theorem eq_eraseIf_iff {α : Type} {m : OrderedMap Str α} {p : Str → α → Bool} :
    m = m.eraseIf p ↔ ∀ k v, m.get? k = some v → p k v = false := by
  have hnone : m.eraseIf (fun _ _ => false) = m := by
    refine OrderedMap.ext_get? fun k => ?_
    rw [OrderedMap.get?_eraseIf]
    cases m.get? k <;> rfl
  have hiff := @eraseIf_eq_iff α m (fun _ _ => false) p
  rw [hnone] at hiff
  rw [hiff]
  exact forall₃_congr fun _ _ _ => eq_comm

theorem atomic_deleteTable_iff {request : DeleteTableRequest} :
    Atomic rt container http (.deleteTable request) s ↔
      Meets s.world.db (container.answer http) (.deleteTable request) := by
  have hserve := @serve_deleteTable rt container http s request
  unfold Atomic Meets
  rw [hserve]
  cases hexists : s.world.db.tableExists request.region request.tableName with
  | false =>
    refine iff_of_true ⟨_, _, rfl, fun _ _ => ⟨⟨_, rfl⟩, rfl⟩, fun _ _ hsent => absurd rfl hsent⟩ ?_
    split
    · trivial
    · intro h
      rw [hexists] at h
      cases h
  | true =>
    cases hanswer : container.answer http with
    | error e => exact iff_of_true ⟨_, _, rfl, fun _ _ => ⟨⟨_, rfl⟩, rfl⟩, nofun⟩ trivial
    | ok response =>
      simp only [if_true, Option.some.injEq, Prod.mk.injEq, Singled, hexists, forall_const]
      have htables : (s.world.db.deleteTable request.tableName).tables =
          (s.world.db.tables.eraseIf fun _ table => table.region = request.region ∧ table.name = request.tableName) ↔
          ∀ oid table, s.world.db.tables.get? oid = some table → table.name = request.tableName →
            table.region = request.region := by
        rw [DynamoDbMemoryDb.deleteTable, eraseIf_eq_iff]
        refine forall₃_congr fun oid table _ => ?_
        rw [decide_eq_decide]
        tauto
      have hitems : (s.world.db.deleteTable request.tableName).items = (s.world.db.items.eraseIf fun _ item =>
            item.region = request.region ∧ item.tableName = request.tableName) ↔
          ∀ oid item, s.world.db.items.get? oid = some item →
            ¬ (item.region = request.region ∧ item.tableName = request.tableName) := by
        rw [DynamoDbMemoryDb.deleteTable, eq_eraseIf_iff]
        exact forall₃_congr fun oid item _ => decide_eq_false_iff_not
      rw [← htables, ← hitems]
      constructor
      · rintro ⟨_, _, ⟨rfl, rfl⟩, -, h⟩
        exact (h response rfl (sent_ne http s)).2
      · intro h
        exact ⟨_, _, ⟨rfl, rfl⟩, nofun, fun _ heq _ => ⟨heq, h⟩⟩

section

variable {request : PutItemRequest} {schema : OrderedMap Str Str}

/-- An item written at an object id reflects a put when the place is free or holds the item of the key, and no other
    item has it. -/
theorem reflects_put_iff {db' : DynamoDbMemoryDb} {oid : Str} {item : Item} (hrecords : SameRecords db db')
    (hitems : db'.items = db.items.insert oid item) (hdescribes : item.Describes request)
    (hschema : schemaOf db request.region request.tableName = some schema) :
    Reflects db db' (.putItem request) ↔
      (∀ old, db.items.get? oid = some old →
        StoredUnder db request.region request.tableName (primaryKey schema request.attributes) oid old) ∧
      ∀ oid' old, StoredUnder db request.region request.tableName (primaryKey schema request.attributes) oid' old →
        oid' = oid := by
  have hwritten : db'.items.get? oid = some item := by rw [hitems, OrderedMap.get?_insert_self]
  constructor
  · rintro ⟨-, schema', hschema', oid₁, item₁, hget₁, -, hplace, hothers⟩
    obtain rfl := Option.some.inj (hschema.symm.trans hschema')
    have heq : oid = oid₁ := by
      by_contra hne
      -- the item written would be the old one, which has the key
      obtain ⟨hold, hother⟩ := (hothers oid hne item).mp hwritten
      exact hother ((storedUnder_iff hschema).mpr
        ⟨hold, hdescribes.inRegion, hdescribes.inTable, congrArg (primaryKey schema) hdescribes.hasValues⟩)
    subst heq
    refine ⟨hplace, fun oid' old hunder => ?_⟩
    by_contra hne
    refine ((hothers oid' hne old).mp ?_).2 hunder
    rw [hitems, OrderedMap.get?_insert_of_ne _ _ hne, hunder.stored]
  · rintro ⟨hplace, honly⟩
    refine ⟨hrecords, schema, hschema, oid, item, hwritten, hdescribes, hplace, fun oid' hne old => ?_⟩
    rw [hitems, OrderedMap.get?_insert_of_ne _ _ hne]
    exact ⟨fun hget => ⟨hget, fun hunder => hne (honly oid' old hunder)⟩, And.left⟩

theorem mapPut_describes (readings : Readings) (request : PutItemRequest) :
    (Mapper.mapPut readings request).Describes request :=
  ⟨rfl, rfl, valuesOf_stamp readings request.attributes⟩

/-- A put that the container accepted and that has written its item at an object id. -/
theorem atomic_written_iff {db' : DynamoDbMemoryDb} {n : Nat} {oid : Str} {item : Item} {response : DynamoDbResponse}
    (hanswer : container.answer http = .ok response)
    (hserve : serveRequest rt container http (.putItem request) s = some (.ok response, ⟨⟨db', n⟩, http :: s.sent⟩))
    (hrecords : SameRecords s.world.db db') (hitems : db'.items = s.world.db.items.insert oid item)
    (hdescribes : item.Describes request)
    (hschema : schemaOf s.world.db request.region request.tableName = some schema) :
    Atomic rt container http (.putItem request) s ↔
      (∀ old, s.world.db.items.get? oid = some old →
        StoredUnder s.world.db request.region request.tableName (primaryKey schema request.attributes) oid old) ∧
      ∀ oid' old,
        StoredUnder s.world.db request.region request.tableName (primaryKey schema request.attributes) oid' old →
          oid' = oid := by
  rw [← reflects_put_iff hrecords hitems hdescribes hschema]
  constructor
  · rintro ⟨x, s', hserve', -, h⟩
    cases hserve.symm.trans hserve'
    exact (h response hanswer (sent_ne http s)).2
  · intro h
    exact ⟨_, _, hserve, fun e he => (nomatch hanswer.symm.trans he), fun r hr _ => ⟨hanswer.symm.trans hr, h⟩⟩

theorem singled_put_iff (hexists : db.tableExists request.region request.tableName = true)
    (hschema : schemaOf db request.region request.tableName = some schema) :
    Singled db (.putItem request) ↔
      Matched db request.region request.tableName (names request.attributes) ∧
        (∃ oid item, db.findItem request.region request.tableName = some (oid, item) ∧
          StoredUnder db request.region request.tableName (primaryKey schema request.attributes) oid item ∧
          ∀ oid' old, StoredUnder db request.region request.tableName (primaryKey schema request.attributes) oid' old →
            oid' = oid) ∨
      ¬ Matched db request.region request.tableName (names request.attributes) ∧
        ∀ oid item,
          ¬ StoredUnder db request.region request.tableName (primaryKey schema request.attributes) oid item := by
  constructor
  · intro h
    obtain ⟨schema', hschema', h⟩ := h hexists
    obtain rfl := Option.some.inj (hschema.symm.trans hschema')
    exact h
  · exact fun h _ => ⟨schema, hschema, h⟩

/-- A put that the container accepted, to a table of the store. -/
theorem atomic_put_found_iff (hreach : Reachable rt s.world) {response : DynamoDbResponse}
    (hanswer : container.answer http = .ok response) {oid : Str} {table : Table}
    (htable : s.world.db.findTable request.region request.tableName = some (oid, table)) :
    Atomic rt container http (.putItem request) s ↔ Singled s.world.db (.putItem request) := by
  have hexists := tableExists_of_findTable htable
  have hschema : schemaOf s.world.db request.region request.tableName = some table.keySchemas := by
    rw [schemaOf, htable]
    rfl
  have hrecords := touched_sameRecords (OrderedMap.findIf_some htable).1
  have hserve := @serve_putItem rt container http s request hexists
  have hrun := @run_createOrUpdateItem rt ⟨s.world.db, s.world.calls + 1⟩
    (Mapper.mapPut (rt.clock s.world.calls) request) oid table htable
  have hmatches : s.world.db.matchesItem (Mapper.mapPut (rt.clock s.world.calls) request) table = true ↔
      Matched s.world.db request.region request.tableName (names request.attributes) := by
    rw [matchesItem_iff htable, Mapper.mapPut, names_mapVal]
  rw [singled_put_iff hexists hschema]
  rw [hanswer] at hserve
  simp only [hrun] at hserve
  by_cases hmatched : Matched s.world.db request.region request.tableName (names request.attributes)
  · simp only [hmatched, true_and, not_true_eq_false, false_and, or_false]
    rw [if_pos (hmatches.mpr hmatched), DynamoDbMemoryDb.updateItem] at hserve
    have hfind : (touched s.world.db oid table).findItem request.region request.tableName =
        s.world.db.findItem request.region request.tableName := rfl
    rw [show (touched s.world.db oid table).findItem (Mapper.mapPut (rt.clock s.world.calls) request).region
      (Mapper.mapPut (rt.clock s.world.calls) request).tableName = _ from hfind] at hserve
    cases hitem : s.world.db.findItem request.region request.tableName with
    | none =>
      -- the update is undefined
      rw [hitem] at hserve
      refine iff_of_false ?_ ?_
      · rintro ⟨x, s', hserve', -⟩
        cases hserve.symm.trans hserve'
      · rintro ⟨oid', item, heq, -⟩
        cases heq
    | some it =>
      rw [hitem] at hserve
      rw [atomic_written_iff hanswer hserve hrecords rfl (mapPut_describes _ request) hschema]
      constructor
      · rintro ⟨hplace, honly⟩
        exact ⟨it.1, it.2, rfl, hplace it.2 (findItem_some hitem).1, honly⟩
      · rintro ⟨oid', item, heq, hunder, honly⟩
        cases heq
        refine ⟨fun old hold => ?_, honly⟩
        obtain rfl := Option.some.inj (hunder.stored.symm.trans hold)
        exact hunder
  · simp only [hmatched, false_and, not_false_eq_true, true_and, false_or]
    rw [if_neg (mt hmatches.mp hmatched), createItem_eq] at hserve
    have hfresh := (hreach.fresh (Nat.le_add_right s.world.calls 2)).2
    rw [atomic_written_iff hanswer hserve hrecords rfl ?_ hschema]
    · constructor
      · rintro ⟨-, honly⟩ oid' old hunder
        have hget := hunder.stored
        rw [honly oid' old hunder] at hget
        cases hget.symm.trans hfresh
      · intro hnone
        refine ⟨fun old hold => ?_, fun oid' old hunder => absurd hunder (hnone oid' old)⟩
        cases hfresh.symm.trans hold
    · exact ⟨rfl, rfl, valuesOf_stamp _ _⟩

end

theorem atomic_putItem_iff (hreach : Reachable rt s.world) {request : PutItemRequest} :
    Atomic rt container http (.putItem request) s ↔
      Meets s.world.db (container.answer http) (.putItem request) := by
  unfold Meets
  cases hexists : s.world.db.tableExists request.region request.tableName with
  | false =>
    refine iff_of_true ⟨_, _, serve_putItem_refused hexists, fun _ _ => ⟨⟨_, rfl⟩, rfl⟩,
      fun _ _ hsent => absurd rfl hsent⟩ ?_
    split
    · trivial
    · intro h
      rw [hexists] at h
      cases h
  | true =>
    have hserve := @serve_putItem rt container http s request hexists
    cases hanswer : container.answer http with
    | error e =>
      rw [hanswer] at hserve
      exact iff_of_true ⟨_, _, hserve, fun _ _ => ⟨⟨_, rfl⟩, rfl⟩, fun r hr => (nomatch hanswer.symm.trans hr)⟩ trivial
    | ok response =>
      cases htable : s.world.db.findTable request.region request.tableName with
      | some it => exact atomic_put_found_iff hreach hanswer htable
      | none =>
        -- a table of that name is in another region only: the search throws after the container has answered
        refine iff_of_false ?_ fun h => ?_
        · rintro ⟨x, s', hserve', -, h⟩
          obtain ⟨e, he⟩ := @run_createOrUpdateItem_missing rt ⟨s.world.db, s.world.calls + 1⟩
            (Mapper.mapPut (rt.clock s.world.calls) request) htable
          rw [hanswer] at hserve
          simp only [he, Option.map_some] at hserve
          cases hserve.symm.trans hserve'
          cases (h response hanswer (sent_ne http s)).1
        · obtain ⟨schema, hschema, -⟩ := h hexists
          rw [schemaOf, htable] at hschema
          cases hschema

section

variable {request : DeleteItemRequest} {oid : Str} {table : Table}

/-- The state that an accepted or refused deletion leaves is the one before only if the record has its object id and no
    item is erased. -/
theorem deleted_eq_iff (htable : db.tables.get? oid = some table) :
    (touched db oid table).deleteItem request.region request.tableName [] = db ↔
      table.oid = oid ∧ ∀ oid' item, db.items.get? oid' = some item →
        ¬ (item.region = request.region ∧ item.tableName = request.tableName) := by
  rw [← touched_eq htable]
  have hitems : db.items = (db.items.eraseIf fun _ item =>
      item.region = request.region ∧ item.tableName = request.tableName) ↔
      ∀ oid' item, db.items.get? oid' = some item →
        ¬ (item.region = request.region ∧ item.tableName = request.tableName) := by
    rw [eq_eraseIf_iff]
    exact forall₃_congr fun _ _ _ => decide_eq_false_iff_not
  rw [← hitems]
  constructor
  · intro h
    have htables := congrArg DynamoDbMemoryDb.tables h
    refine ⟨?_, (congrArg DynamoDbMemoryDb.items h).symm⟩
    unfold touched
    rw [show db.tables.insert oid { table with oid := oid } = db.tables from htables]
  · rintro ⟨htouched, herased⟩
    rw [htouched, DynamoDbMemoryDb.deleteItem, ← herased]

/-- The table's items are erased: this is the deletion of one item if every item of the table has the key. -/
theorem reflects_delete_iff (htable : db.findTable request.region request.tableName = some (oid, table)) :
    Reflects db ((touched db oid table).deleteItem request.region request.tableName []) (.deleteItem request) ↔
      ∀ oid' item, db.items.get? oid' = some item → item.region = request.region →
        item.tableName = request.tableName → primaryKey table.keySchemas (valuesOf item.attributes) = request.key := by
  have hschema : schemaOf db request.region request.tableName = some table.keySchemas := by
    rw [schemaOf, htable]
    rfl
  have hget : ∀ oid' item,
      ((touched db oid table).deleteItem request.region request.tableName []).items.get? oid' = some item ↔
        db.items.get? oid' = some item ∧ ¬ (item.region = request.region ∧ item.tableName = request.tableName) := by
    intro oid' item
    rw [DynamoDbMemoryDb.deleteItem, OrderedMap.get?_eraseIf, Option.filter_eq_some_iff, Bool.not_eq_true',
      decide_eq_false_iff_not]
    rfl
  constructor
  · rintro ⟨-, h⟩ oid' item hitem hregion hname
    by_contra hne
    have hkept := (h oid' item).mpr ⟨hitem, fun hunder => hne ((storedUnder_iff hschema).mp hunder).2.2.2⟩
    exact ((hget oid' item).mp hkept).2 ⟨hregion, hname⟩
  · intro h
    refine ⟨touched_sameRecords (OrderedMap.findIf_some htable).1, fun oid' item => ?_⟩
    rw [hget]
    refine and_congr_right fun hitem => not_congr ⟨fun hin => ?_, fun hunder => ⟨hunder.inRegion, hunder.inTable⟩⟩
    exact (storedUnder_iff hschema).mpr ⟨hitem, hin.1, hin.2, h oid' item hitem hin.1 hin.2⟩

theorem untouched_delete_iff (htable : db.findTable request.region request.tableName = some (oid, table)) :
    Untouched db (.deleteItem request) ↔
      table.oid = oid ∧ (Matched db request.region request.tableName [] → ∀ oid' item, db.items.get? oid' = some item →
        ¬ (item.region = request.region ∧ item.tableName = request.tableName)) := by
  constructor
  · exact fun h => h oid table htable
  · intro h oid' table' htable'
    cases htable.symm.trans htable'
    exact h

theorem singled_delete_iff (htable : db.findTable request.region request.tableName = some (oid, table)) :
    Singled db (.deleteItem request) ↔
      (Matched db request.region request.tableName [] → ∀ oid' item, db.items.get? oid' = some item →
        item.region = request.region → item.tableName = request.tableName →
          primaryKey table.keySchemas (valuesOf item.attributes) = request.key) := by
  have hschema : schemaOf db request.region request.tableName = some table.keySchemas := by
    rw [schemaOf, htable]
    rfl
  constructor
  · exact fun h => h table.keySchemas hschema
  · intro h schema hschema'
    obtain rfl := Option.some.inj (hschema.symm.trans hschema')
    exact h

theorem atomic_deleteItem_iff : Atomic rt container http (.deleteItem request) s ↔
    Meets s.world.db (container.answer http) (.deleteItem request) := by
  unfold Meets
  cases htable : s.world.db.findTable request.region request.tableName with
  | none =>
    obtain ⟨e, hserve⟩ := @serve_deleteItem_missing rt container http s request htable
    refine iff_of_true ⟨_, _, hserve, fun _ _ => ⟨⟨_, rfl⟩, rfl⟩, fun _ _ hsent => absurd rfl hsent⟩ ?_
    split
    · intro oid table h
      cases htable.symm.trans h
    · intro schema h
      rw [schemaOf, htable] at h
      cases h
  | some it =>
    obtain ⟨oid, table⟩ := it
    obtain ⟨haccepted, hrefused⟩ := @serve_deleteItem rt container http s request oid table htable
    have hstored := (OrderedMap.findIf_some htable).1
    cases hanswer : container.answer http with
    | error e =>
      have hfails : ∀ response, container.answer http ≠ .ok response := by
        intro response h
        cases hanswer.symm.trans h
      rw [untouched_delete_iff htable]
      by_cases hmatched : Matched s.world.db request.region request.tableName []
      · have hserve := haccepted hmatched
        simp only [hmatched, forall_const]
        rw [← deleted_eq_iff hstored]
        rw [hanswer] at hserve
        constructor
        · rintro ⟨x, s', hserve', h, -⟩
          cases hserve.symm.trans hserve'
          exact (h e hanswer).2
        · intro h
          exact ⟨_, _, hserve, fun _ _ => ⟨⟨_, rfl⟩, h⟩, fun r hr => absurd hr (hfails r)⟩
      · have hserve := hrefused hmatched
        simp only [hmatched, false_implies, and_true]
        rw [← touched_eq hstored]
        constructor
        · rintro ⟨x, s', hserve', h, -⟩
          cases hserve.symm.trans hserve'
          exact (h e hanswer).2
        · intro h
          exact ⟨_, _, hserve, fun _ _ => ⟨⟨_, rfl⟩, h⟩, fun r hr => absurd hr (hfails r)⟩
    | ok response =>
      have hanswers : ∀ e, container.answer http ≠ .error e := by
        intro e h
        cases hanswer.symm.trans h
      rw [singled_delete_iff htable]
      by_cases hmatched : Matched s.world.db request.region request.tableName []
      · have hserve := haccepted hmatched
        simp only [hmatched, forall_const]
        rw [← reflects_delete_iff htable]
        rw [hanswer] at hserve
        constructor
        · rintro ⟨x, s', hserve', -, h⟩
          cases hserve.symm.trans hserve'
          exact (h response hanswer (sent_ne http s)).2
        · intro h
          exact ⟨_, _, hserve, fun e he => absurd he (hanswers e),
            fun r hr _ => ⟨hanswer.symm.trans hr, h⟩⟩
      · have hserve := hrefused hmatched
        refine iff_of_true ⟨_, _, hserve, fun e he => absurd he (hanswers e),
          fun _ _ hsent => absurd rfl hsent⟩ fun h => absurd h hmatched

end

theorem atomic_iff (hreach : Reachable rt s.world) (request : Request) :
    Atomic rt container http request s ↔ Meets s.world.db (container.answer http) request := by
  cases request with
  | createTable request =>
    refine iff_of_true (atomic_createTable hreach request) ?_
    unfold Meets
    split <;> trivial
  | deleteTable request => exact atomic_deleteTable_iff
  | putItem request => exact atomic_putItem_iff hreach
  | deleteItem request => exact atomic_deleteItem_iff

/-- From every reachable store, a request is atomic over the container and the store exactly when the store meets the
    condition for the container's answer. -/
theorem container_atomicity (hreach : Reachable rt s.world) (container : Container) (http : HttpMessage)
    (request : Request) :
    Atomic rt container http request s ↔ Meets s.world.db (container.answer http) request :=
  atomic_iff hreach request

/-! ### Stores that differ -/

def Container.accepting : Container := ⟨fun _ _ => .ok ⟨200, []⟩, fun _ => []⟩

def Container.failing : Container := ⟨fun _ _ => .ok ⟨500, []⟩, fun _ => []⟩

theorem container_atomicity_sample : Atomic .counting .accepting {} (.createTable ⟨[101], [116], ∅, ∅, ∅⟩) {} :=
  (container_atomicity (.init 0) .accepting {} _).mpr trivial

theorem Reachable.execAll {cs : List DynamoDbCall} {w' : World} (h : Reachable rt w)
    (hcalls : Prog.execAll (exec rt) cs w = some w') : Reachable rt w' :=
  Prog.execAll_invariant (fun _ _ _ hw hexec => hw.call hexec) h hcalls

theorem of_calls {cs : List DynamoDbCall} {p : World → Bool}
    (h : (Prog.execAll (exec .counting) cs ⟨{}, 0⟩).any p = true) : ∃ w, Reachable .counting w ∧ p w = true := by
  obtain ⟨w, hw, hp⟩ := (Option.any_eq_true _ _).mp h
  exact ⟨w, (Reachable.init 0).execAll hw, hp⟩

/-- The deletion of a table takes that of another region with it, and an item is gone although the container failed. -/
theorem container_differs :
    (∃ s, Reachable .counting s.world ∧ ¬ Atomic .counting .accepting {} (.deleteTable ⟨str "eu", str "t"⟩) s) ∧
      ∃ s, Reachable .counting s.world ∧ ¬ Atomic .counting .failing {} (.deleteItem ⟨[], str "t", ∅⟩) s := by
  constructor
  · obtain ⟨w, hreach, hw⟩ := @of_calls
      [.createTable sampleTable, .createTable { sampleTable with region := str "us" }]
      (fun w => w.db.tableExists (str "eu") (str "t") &&
        (w.db.tables.get? [byte 'u']).any fun table => table.name = str "t" ∧ table.region ≠ str "eu")
      (by decide +kernel)
    rw [Bool.and_eq_true, Option.any_eq_true] at hw
    obtain ⟨hexists, table, htable, hother⟩ := hw
    obtain ⟨hname, hregion⟩ := of_decide_eq_true hother
    refine ⟨⟨w, []⟩, hreach, fun h => ?_⟩
    have hsingled : Singled w.db (.deleteTable ⟨str "eu", str "t"⟩) := (atomic_iff hreach _).mp h
    exact hregion ((hsingled hexists).1 _ table htable hname)
  · obtain ⟨w, hreach, hw⟩ := @of_calls
      [.createTable { sampleTable with region := [] },
        .createItem { region := [], tableName := str "t", created := 0, modified := 0 }]
      (fun w => (w.db.findTable [] (str "t")).isSome &&
        (w.db.items.get? [byte 'u']).any fun item => item.region = [] ∧ item.tableName = str "t")
      (by decide +kernel)
    rw [Bool.and_eq_true, Option.any_eq_true] at hw
    obtain ⟨hfound, item, hitem, hin⟩ := hw
    obtain ⟨hregion, hname⟩ := of_decide_eq_true hin
    obtain ⟨⟨oid, table⟩, htable⟩ := Option.isSome_iff_exists.mp hfound
    refine ⟨⟨w, []⟩, hreach, fun h => ?_⟩
    have huntouched : Untouched w.db (.deleteItem ⟨[], str "t", ∅⟩) := (atomic_iff hreach _).mp h
    have hmatched : Matched w.db [] (str "t") [] := ⟨_, item, hitem, hname, fun hne => absurd rfl hne⟩
    exact (huntouched oid table htable).2 hmatched _ item hitem ⟨hregion, hname⟩

end AwsMock.DynamoDb
