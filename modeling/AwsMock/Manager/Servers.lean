import AwsMock.Core.Timer
import AwsMock.Lib.Machine
import AwsMock.Manager.ModuleMemoryDb

/-!
# Servers

The servers of the modules with the timers that they own, `Manager::StartModules`, and the requests of the manager
that start and stop modules. Requests are handled by several threads, and the loops of the timers go on by themselves,
so that all their steps may come in any order. No handler catches an exception: it ends the process, as does a null
pointer.
-/

namespace AwsMock.Manager

open Lib

/-- The timers of a server: a server is one itself. -/
inductive Component where
  | server
  | monitoring
  | worker
  deriving DecidableEq

/-- What the methods of a server do to its timers and to the record of its module. -/
inductive ServerCall where
  | start (c : Component)
  | stop (c : Component)
  | setRunning
  | stopHttpServer
  deriving DecidableEq

/-- A server class: the calls of its constructor, the module that its `Initialize` asks for, the calls that follow if
    that module is active, and the calls of `Shutdown`. -/
structure ServerClass where
  name : Str
  constructed : List ServerCall := []
  active : Str
  initialized : List ServerCall := []
  shutdown : List ServerCall := []
  deriving DecidableEq

/-! ### The server classes -/

/-- The constructor of an `S3Monitoring` starts it. -/
def s3Server : ServerClass where
  name := str "s3"
  constructed := [.start .monitoring]
  active := str "s3"
  initialized := [.start .worker, .setRunning]
  shutdown := [.stop .monitoring, .stopHttpServer]

def sqsServer : ServerClass where
  name := str "sqs"
  constructed := [.start .monitoring]
  active := str "sqs"
  initialized := [.start .worker, .setRunning]
  shutdown := [.stop .monitoring, .stop .worker, .stopHttpServer]

def snsServer : ServerClass where
  name := str "sns"
  constructed := [.start .monitoring]
  active := str "sns"
  initialized := [.start .worker, .setRunning]
  shutdown := [.stop .worker, .stop .monitoring, .stopHttpServer]

def lambdaServer : ServerClass where
  name := str "lambda"
  constructed := [.setRunning]
  active := str "lambda"
  initialized := [.start .monitoring, .start .worker]
  shutdown := [.stop .monitoring, .stop .worker]

def transferServer : ServerClass where
  name := str "transfer"
  active := str "transfer"
  initialized := [.start .monitoring, .setRunning]
  shutdown := [.stop .monitoring, .stopHttpServer]

def cognitoServer : ServerClass where
  name := str "cognito"
  active := str "cognito"
  initialized := [.start .monitoring, .setRunning]
  shutdown := [.stop .monitoring, .stopHttpServer]

/-- The constructors of a `DynamoDbMonitoring` and a `DynamoDbWorker` start them. -/
def dynamoDbServer : ServerClass where
  name := str "dynamodb"
  constructed := [.start .monitoring, .start .worker]
  active := str "dynamodb"
  initialized := [.setRunning]
  shutdown := [.stop .monitoring, .stopHttpServer]

/-- `Initialize` asks whether `sns` is active. -/
def kmsServer : ServerClass where
  name := str "kms"
  constructed := [.start .monitoring, .start .worker]
  active := str "sns"
  initialized := [.setRunning]
  shutdown := [.stop .worker, .stop .monitoring, .stopHttpServer]

def secretsManagerServer : ServerClass where
  name := str "secretsmanager"
  active := str "secretsmanager"
  initialized := [.start .monitoring, .setRunning]
  shutdown := [.stopHttpServer, .stop .monitoring]

/-- Its `Run` sets the state. -/
def gatewayServer : ServerClass where
  name := str "gateway"
  active := str "gateway"
  shutdown := [.stopHttpServer]

/-- The classes that `Manager::StartModules` knows, in its order. -/
def serverClasses : List ServerClass :=
  [s3Server, sqsServer, snsServer, lambdaServer, transferServer, cognitoServer, dynamoDbServer, kmsServer,
    secretsManagerServer, gatewayServer]

/-- The chain of comparisons in `Manager::StartModules`. -/
def serverClass (name : Str) : Option ServerClass := serverClasses.find? (·.name = name)

/-- `ModuleDatabase::_existingModules`, in the order of a `std::map`. -/
def existingModules : List Str :=
  [str "cognito", str "dynamodb", str "gateway", str "kms", str "lambda", str "s3", str "secretsmanager", str "sns",
    str "sqs", str "transfer"]

/-- The modules whose servers `ModuleService::StartModules` starts. -/
def startable : List Str :=
  [str "s3", str "sqs", str "sns", str "lambda", str "transfer", str "cognito", str "dynamodb", str "kms",
    str "gateway"]

/-! ### Servers at work -/

structure Server where
  cls : ServerClass
  timers : Component → Timer

/-- A server before the body of its constructor; `timeout` are the periods of the configuration. -/
def ServerClass.server (cls : ServerClass) (timeout : Str → Component → Int) : Server where
  cls := cls
  timers c := { timeout := timeout cls.name c }

def Server.act (server : Server) (c : Component) (a : Timer.Action) : Server :=
  { server with timers := Function.update server.timers c ((server.timers c).act a) }

/-- The module records and `_serverMap`. -/
structure Modules where
  db : ModuleMemoryDb
  serverMap : OrderedMap Str Server := ∅

/-- A step of a thread that has been decided on: a server is constructed and put into the map, `Timer::Start` or
    `Timer::Stop` of a server is called, a timer is changed, or a state is recorded. -/
inductive Op where
  | construct (cls : ServerClass)
  | startServer (name : Str)
  | stopServer (name : Str)
  | timer (name : Str) (c : Component) (a : Timer.Action)
  | setState (name : Str) (state : ModuleState)
  deriving DecidableEq

/-- The start and the stop of a timer of a server are the steps that count; their own `Initialize` and `Shutdown` do
    nothing to timers or records. -/
def ServerCall.op (name : Str) : ServerCall → Op
  | start c => .timer name c .detach
  | stop c => .timer name c .requestStop
  | setRunning => .setState name .running
  | stopHttpServer => .setState name .stopped

namespace Op

/-- Execute a step; the steps that it leads to come next. Without a result the process ends. -/
def exec (timeout : Str → Component → Int) (modules : Modules) : Op → Option (List Op × Modules)
  | construct cls =>
    some (cls.constructed.map (·.op cls.name) ++ [.startServer cls.name],
      { modules with serverMap := modules.serverMap.insert cls.name (cls.server timeout) })
  | startServer name => (modules.serverMap.get? name).map fun server =>
    ((if modules.db.isActive server.cls.active then server.cls.initialized.map (·.op name) else []) ++
      [.timer name .server .detach], modules)
  | stopServer name => (modules.serverMap.get? name).map fun server =>
    (server.cls.shutdown.map (·.op name) ++ [.timer name .server .requestStop], modules)
  | timer name c a => (modules.serverMap.get? name).map fun server =>
    ([], { modules with serverMap := modules.serverMap.insert name (server.act c a) })
  | setState name state =>
    match modules.db.setState name state with
    | (.error _, _) => none
    | (.ok _, db) => some ([], { modules with db := db })

end Op

/-- A module that a thread has still to deal with: one found by `Manager::StartModules`, one in the list of a request
    to start or to stop modules; or all of them, in `Manager::StopModules`. -/
inductive Job where
  | boot (m : Module)
  | startModule (name : Str)
  | stopModule (name : Str)
  | stopModules

namespace Job

/-- What stops a module. -/
def stopOps (modules : Modules) (name : Str) : List Op :=
  .setState name .stopped :: if (modules.serverMap.get? name).isSome then [.stopServer name] else []

/-- Decide what is done for a module. Without a result the process ends. -/
def begin (modules : Modules) : Job → Option (List Op × Modules)
  | boot m => some (if m.status = .active then ((serverClass m.name).map Op.construct).toList else [], modules)
  | startModule name =>
    match modules.db.getModuleByName name with
    | (.error _, _) => none
    | (.ok m, db) => some (if m.state ≠ .running then
        .setState name .running :: if name ∈ startable then [.startServer name] else [] else [],
        { modules with db := db })
  | stopModule name =>
    match modules.db.getModuleByName name with
    | (.error _, _) => none
    | (.ok m, db) => some (if m.state = .running then stopOps modules name else [], { modules with db := db })
  | stopModules =>
    some ((modules.db.listModules.filter (·.state = .running)).flatMap fun m => stopOps modules m.name, modules)

end Job

/-- A thread: the steps that it has decided on, and the modules that it has still to deal with. -/
structure Task where
  ops : List Op := []
  jobs : List Job := []

/-- The manager; the first thread is the one that starts the modules. -/
structure System where
  modules : Modules
  tasks : List Task
  terminated : Bool := false

/-- The requests `start-modules`, `stop-modules` and `restart-modules`, and the end of `Manager::Run`. -/
inductive Request where
  | start (names : List Str)
  | stop (names : List Str)
  | restart (names : List Str)
  | exit

def Request.jobs : Request → List Job
  | start names => names.map .startModule
  | stop names => names.map .stopModule
  | restart names => names.map .stopModule ++ names.map .startModule
  | exit => [.stopModules]

/-- A request arrives, a thread takes a step, or a loop of a timer does. -/
inductive Event where
  | request (r : Request)
  | call (i : Nat)
  | loop (name : Str) (c : Component) (j : Nat)

/-- The next step of a loop is a call of `Run`. -/
def callsRun (t : Timer) (j : Nat) : Bool :=
  (t.loops[j]?).map Loop.runs ≠ ((t.step (.loop j)).loops[j]?).map Loop.runs

namespace System

/-- The body of the first loop of `Manager::StartModules`: `oid` are the UUIDs that are drawn, `active` says which
    modules are active in the configuration. -/
def createModule (oid : Str → Str) (active : Str → Bool) (db : ModuleMemoryDb) (name : Str) : ModuleMemoryDb :=
  let db := if db.moduleExists name then db else
    (db.createModule (oid name) { name := name, state := .stopped, status := .active }).2
  if active name then (db.setStatus name .active).2 else db

/-- The first loop of `Manager::StartModules` over an empty store. -/
def createModules (oid : Str → Str) (active : Str → Bool) : ModuleMemoryDb :=
  existingModules.foldl (createModule oid active) {}

/-- The manager when the modules are about to be started. -/
def boot (oid : Str → Str) (active : Str → Bool) : System where
  modules := { db := createModules oid active }
  tasks := [{ jobs := (createModules oid active).listModules.map .boot }]

/-- A thread goes on with the steps that come next, or the process ends. -/
def goOn (s : System) (i : Nat) (ops : List Op) (jobs : List Job) : Option (List Op × Modules) → System
  | none => { s with terminated := true }
  | some (next, modules) => { s with modules := modules, tasks := s.tasks.set i { ops := next ++ ops, jobs := jobs } }

/-- The next step of a thread. -/
def call (timeout : Str → Component → Int) (s : System) (i : Nat) : Option System :=
  match s.tasks[i]? with
  | some { ops := op :: ops, jobs := jobs } => some (s.goOn i ops jobs (op.exec timeout s.modules))
  | some { ops := [], jobs := job :: jobs } => some (s.goOn i [] jobs (job.begin s.modules))
  | _ => none

/-- The next step of a loop. `GatewayServer::Run` sets the state. -/
def loop (s : System) (name : Str) (c : Component) (j : Nat) : Option System :=
  (s.modules.serverMap.get? name).map fun server =>
    { s with modules := {
        serverMap := s.modules.serverMap.insert name
          { server with timers := Function.update server.timers c ((server.timers c).step (.loop j)) }
        db := if name = gatewayServer.name ∧ c = .server ∧ callsRun (server.timers c) j then
          (s.modules.db.setState name .running).2 else s.modules.db } }

/-- Requests are accepted when the modules have been started. -/
def arrive (s : System) (r : Request) : Option System :=
  match s.tasks with
  | { ops := [], jobs := [] } :: _ => some { s with tasks := s.tasks ++ [{ jobs := r.jobs }] }
  | _ => none

def step (timeout : Str → Component → Int) (e : Event) (s : System) : Option System :=
  if s.terminated then none
  else match e with
    | .request r => s.arrive r
    | .call i => s.call timeout i
    | .loop name c j => s.loop name c j

end System

end AwsMock.Manager
