import AwsMock.Lambda.Service

/-!
# Creating and finding functions

The calls of the store that name a function by its region, the requests that use them, and their threads
beside those of the module. `CreateFunction` hands the object id of the record to a creator in a thread of
its own.
-/

namespace AwsMock.Lambda

open Lib

/-! ### The store -/

namespace LambdaMemoryDb

variable (db : LambdaMemoryDb)

def lambdaExistsIn (region function runtime : Str) : Bool :=
  (db.findLambda fun lambda =>
    lambda.region = region ∧ lambda.function = function ∧ lambda.runtime = runtime).isSome

/-- `oid` is the random UUID of the record. -/
def createLambda (oid : Str) (lambda : Lambda) : Except Error Lambda × LambdaMemoryDb :=
  LambdaMemoryDb.getLambdaById { lambdas := db.lambdas.insert oid lambda } oid

def getLambdaByName (region name : Str) : Except Error Lambda × LambdaMemoryDb :=
  match db.findLambda fun lambda => lambda.region = region ∧ lambda.function = name with
  | none => (.error (.pocoException (str "Get lambda by name failed, name: " ++ name)), db)
  | some (key, lambda) => (.ok { lambda with oid := key }, db.withOid key key lambda)

def deleteAllLambdas (_ : LambdaMemoryDb) : LambdaMemoryDb := {}

end LambdaMemoryDb

/-! ### The requests -/

inductive StoreCall where
  | lambda (c : LambdaCall)
  | lambdaExistsIn (region function runtime : Str)
  | createLambda (lambda : Lambda)
  | getLambdaByName (region name : Str)
  | deleteAllLambdas
  /-- A detached thread of the creator. -/
  | startCreator (functionCode functionId instanceId : Str)

abbrev StoreCall.Reply : StoreCall → Type
  | lambda c => c.Reply
  | lambdaExistsIn .. => Bool
  | createLambda .. | getLambdaByName .. => Except Error Lambda
  | deleteAllLambdas | startCreator .. => Unit

abbrev StoreProg := Prog StoreCall StoreCall.Reply Error

abbrev storeCall (c : StoreCall) : StoreProg c.Reply := Prog.perform c

/-- A program of the module in the process with all calls. -/
abbrev lift {α : Type} (p : LambdaProg α) : StoreProg α := p.via fun c => Prog.perform (.lambda c)

structure CreateFunctionRequest where
  region : Str
  user : Str := []
  functionName : Str
  runtime : Str := []
  handler : Str := []
  environment : OrderedMap Str Str := ∅
  code : Code := {}

structure CreateFunctionResponse where
  region : Str
  user : Str
  functionArn : Str
  functionName : Str
  runtime : Str
  handler : Str
  codeSize : Int
  codeSha256 : Str
  environment : OrderedMap Str Str

/-- `Mapper::map` of the request. -/
def CreateFunctionRequest.toLambda (request : CreateFunctionRequest) : Lambda where
  region := request.region
  user := request.user
  function := request.functionName
  handler := request.handler
  environment := request.environment
  runtime := request.runtime
  code := request.code
  arn := []

/-- `Mapper::map` of the request and the record. -/
def CreateFunctionRequest.toResponse (request : CreateFunctionRequest) (lambda : Lambda) : CreateFunctionResponse where
  region := request.region
  user := request.user
  functionArn := lambda.arn
  functionName := lambda.function
  runtime := lambda.runtime
  handler := lambda.handler
  codeSize := lambda.codeSize
  codeSha256 := lambda.codeSha256
  environment := lambda.environment

def createOrUpdateLambda (lambda : Lambda) : StoreProg Lambda := do
  if ← storeCall (.lambdaExistsIn lambda.region lambda.function lambda.runtime) then
    lift (tryCall (call (.updateLambda lambda)))
  else
    let lambda ← storeCall (.createLambda lambda)
    Prog.ofExcept lambda

/-- The entity of the request and its code: the one that exists, or a new one. -/
def functionEntity (request : CreateFunctionRequest) (lambdaArn : Str) : StoreProg (Lambda × Str) := do
  if ← storeCall (.lambdaExistsIn request.region request.functionName request.runtime) then
    let lambda ← lift (tryCall (call (.getLambdaByArn lambdaArn)))
    return (lambda, [])
  else
    let lambda := { request.toLambda with arn := lambdaArn }
    return ({ lambda with code := { lambda.code with zipFile := [] } }, request.code.zipFile)

def createFunction (accountId : Str) (request : CreateFunctionRequest) : StoreProg CreateFunctionResponse := do
  let lambdaArn := createLambdaArn request.region accountId request.functionName
  let entity ← functionEntity request lambdaArn
  let lambda ← createOrUpdateLambda { entity.1 with state := .pending, stateReason := str "Initializing" }
  let instanceId ← storeCall (.lambda .generateRandomHexString)
  storeCall (.startCreator entity.2 lambda.oid instanceId)
  return request.toResponse lambda

def listFunctions (region : Str) : StoreProg (List Lambda) := lift (call (.listLambdas region))

structure GetFunctionResponse where
  region : Str
  functionName : Str

def getFunction (region name : Str) : StoreProg GetFunctionResponse := do
  let lambda ← storeCall (.getLambdaByName region name)
  match lambda with
  | .ok lambda => return { region := lambda.region, functionName := lambda.function }
  | .error e => .throw e.toServiceException

def listTags (arn : Str) : StoreProg (OrderedMap Str Str) := do
  if ← lift (call (.lambdaExistsByArn arn)) then
    let lambda ← lift (tryCall (call (.getLambdaByArn arn)))
    return lambda.tags
  else .throw noFunction

/-! ### Threads -/

/-- What a thread does; a task of the module is done for a request of a region. -/
inductive StoreTask where
  | createFunction (request : CreateFunctionRequest)
  | listFunctions (region : Str)
  | getFunction (region name : Str)
  | listTags (arn : Str)
  | deleteAllLambdas
  | ofRegion (region : Str) (task : Task)

def StoreTask.prog (accountId : Str) : StoreTask → StoreProg Unit
  | createFunction request => do let _ ← Lambda.createFunction accountId request
  | listFunctions region => do let _ ← Lambda.listFunctions region
  | getFunction region name => do let _ ← Lambda.getFunction region name
  | listTags arn => do let _ ← Lambda.listTags arn
  | deleteAllLambdas => storeCall .deleteAllLambdas
  -- what the handler makes of the request is all that the task gets of it
  | ofRegion _ task => lift (task.prog accountId)

abbrev StoreThread := Thread StoreTask StoreCall StoreCall.Reply Error Unit

def StoreTask.thread (accountId : Str) (task : StoreTask) : StoreThread := ⟨task, task.prog accountId⟩

/-- The calls that hand out records. -/
def StoreCall.looksUp : StoreCall → Bool
  | lambda (.listLambdas _) | lambda (.getLambdaById _) | lambda (.getLambdaByArn _) | lambda (.updateLambda _) => true
  | createLambda _ | getLambdaByName .. => true
  | _ => false

/-- The record that a lookup hands out, under its key. -/
def keyed (key : Option Str) (r : Except Error Lambda) : List (Str × Lambda) :=
  match key, r with
  | some key, .ok lambda => [(key, lambda)]
  | _, _ => []

/-- The records that a call hands out, under the keys they are stored by. -/
def handedOut (db : LambdaMemoryDb) (oid : Str) : StoreCall → List (Str × Lambda)
  | .lambda (.listLambdas region) => db.lambdas.entries.filter fun e => region = [] ∨ e.2.region = region
  | .lambda (.getLambdaById id) => keyed (some id) (db.getLambdaById id).1
  | .lambda (.getLambdaByArn arn) =>
    keyed ((db.findLambda fun lambda => lambda.arn = arn).map Prod.fst) (db.getLambdaByArn arn).1
  | .lambda (.updateLambda lambda) => keyed ((db.findUpdated lambda).map Prod.fst) (db.updateLambda lambda).1
  | .createLambda lambda => keyed (some oid) (db.createLambda oid lambda).1
  | .getLambdaByName region name =>
    keyed ((db.findLambda fun lambda => lambda.region = region ∧ lambda.function = name).map Prod.fst)
      (db.getLambdaByName region name).1
  | _ => []

/-- The process; `held` are the records that each thread was handed out last, which no call looks at. -/
structure Store extends World where
  held : Nat → List (Str × Lambda) := fun _ => []

/-- The state after a call of the `i`-th thread that hands out records, or does not. -/
def Store.handing (s : Store) (i : Nat) (c : StoreCall) (oid : Str) (w : World) : Store where
  toWorld := w
  held := if c.looksUp then Function.update s.held i (handedOut s.db oid c) else s.held

def liftThread (t : LambdaThread) : StoreThread := ⟨.ofRegion [] t.label, lift t.prog⟩

/-- The meaning of a call of the `i`-th thread; `uuid` is the random UUID at the `n`-th call. -/
def execStore (rt : Runtime) (uuid : Nat → Str) (accountId : Str) (i : Nat) :
    (c : StoreCall) → Store → Option (Turn c.Reply Store StoreThread)
  | .lambda c, s => (exec rt accountId i c s.toWorld).map fun
    | .waits => .waits
    | .goes r w started => .goes r (s.handing i (.lambda c) [] w) (started.map liftThread)
  | .lambdaExistsIn region function runtime, s =>
    some (.goes (s.db.lambdaExistsIn region function runtime) { s with toWorld := s.tick } [])
  | .createLambda lambda, s =>
    let r := s.db.createLambda (uuid s.calls) lambda
    some (.goes r.1 (s.handing i (.createLambda lambda) (uuid s.calls) { s.tick with db := r.2 }) [])
  | .getLambdaByName region name, s =>
    let r := s.db.getLambdaByName region name
    some (.goes r.1 (s.handing i (.getLambdaByName region name) [] { s.tick with db := r.2 }) [])
  | .deleteAllLambdas, s => some (.goes () { s with toWorld := { s.tick with db := s.db.deleteAllLambdas } } [])
  | .startCreator functionCode functionId instanceId, s =>
    some (.goes () { s with toWorld := s.tick }
      [(StoreTask.ofRegion [] (.creator functionCode functionId instanceId)).thread accountId])

abbrev StorePool := List StoreThread × Store

/-- One turn of a thread. -/
abbrev storeTurn (rt : Runtime) (uuid : Nat → Str) (accountId : Str) : Nat → StorePool → Option StorePool :=
  Thread.turn (execStore rt uuid accountId)

/-- The threads of some tasks before their first calls, and no function. -/
def beginStore (accountId : Str) (tasks : List StoreTask) : StorePool :=
  (tasks.map (StoreTask.thread accountId), { db := {} })

end AwsMock.Lambda
