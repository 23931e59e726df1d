import AwsMock.DynamoDb.Database

/-!
# The DynamoDB service

`DynamoDbService::PutItem` and `DeleteItem` as programs over the calls, for a container that answers each
request with success; its answer goes to the client as it is.
-/

namespace AwsMock.DynamoDb

open Lib

abbrev DynamoDbProg := Prog DynamoDbCall DynamoDbCall.Reply Error

/-- One call. -/
abbrev call (c : DynamoDbCall) : DynamoDbProg c.Reply := Prog.perform c

/-- `Poco::Exception::message`. -/
def message : Error → Str
  | .serviceException text | .pocoException text | .stdException text => text

/-- `DynamoDbDatabase::CreateOrUpdateItem`. -/
def createOrUpdateItem (item : Item) : DynamoDbProg Item := do
  let found ← call (.itemExists item)
  if ← Prog.ofExcept found then
    let updated ← call (.updateItem item)
    Prog.ofExcept updated
  else
    let created ← call (.createItem item)
    Prog.ofExcept created

/-- The exception for a missing table or item. -/
def tableExistsAlready (region tableName : Str) : Error :=
  .serviceException (str "DynamoDb table exists already, region: " ++ region ++ str " name: " ++ tableName)

def putItem (readings : Readings) (request : PutItemRequest) : DynamoDbProg Unit := do
  if ← call (.tableExists request.region request.tableName) then
    Prog.mapThrow (fun ex => .serviceException (str "DynamoDb put item failed, error: " ++ message ex)) do
      let _ ← createOrUpdateItem (Mapper.mapPut readings request)
  else .throw (tableExistsAlready request.region request.tableName)

def deleteItem (readings : Readings) (request : DeleteItemRequest) : DynamoDbProg Unit := do
  let found ← call (.itemExists (Mapper.mapDelete readings request))
  if ← Prog.ofExcept found then
    call (.deleteItem request.region request.tableName [])
  else .throw (tableExistsAlready request.region request.tableName)

/-- The requests that write items. -/
inductive ItemRequest where
  | putItem (request : PutItemRequest)
  | deleteItem (request : DeleteItemRequest)

/-- A request as its program, with the time points read for it. -/
def ItemRequest.prog (readings : Readings) : ItemRequest → DynamoDbProg Unit
  | .putItem request => DynamoDb.putItem readings request
  | .deleteItem request => DynamoDb.deleteItem readings request

/-- A request in the process. -/
def serve (rt : Runtime) (request : ItemRequest) (w : World) : Option (Except Error Unit × World) :=
  (request.prog (rt.clock w.calls)).run (exec rt) w

end AwsMock.DynamoDb
