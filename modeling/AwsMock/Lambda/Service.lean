import AwsMock.Core.AwsUtils
import AwsMock.Lambda.Database
import AwsMock.Lib.Threads

/-!
# The lambda service and its threads

`LambdaService`, `LambdaCreator`, `LambdaExecutor` and `LambdaWorker` as programs over the calls, and the
threads they run in.
-/

namespace AwsMock.Lambda

open Lib

abbrev LambdaProg := Prog LambdaCall LambdaCall.Reply Error

/-- One call. -/
abbrev call (c : LambdaCall) : LambdaProg c.Reply := Prog.perform c

/-- A call that may throw. -/
def tryCall {α : Type} (p : LambdaProg (Except Error α)) : LambdaProg α := p >>= Prog.ofExcept

/-- What runs in a thread of its own: an exception that it does not catch ends the process. -/
def detached (p : LambdaProg Unit) : LambdaProg Unit := do
  match ← p.attempt with
  | .ok () => return ()
  | .error _ => call .terminate

section Only

variable {α : Type} {A : LambdaCall → Prop}

theorem only_tryCall {p : LambdaProg (Except Error α)} (hp : p.Only A) :
    (tryCall p).Only A := Prog.only_bind hp fun _ => Prog.only_ofExcept _

theorem only_detached {p : LambdaProg Unit} (hp : p.Only A) (h : A .terminate) :
    (detached p).Only A := by
  refine Prog.only_bind (Prog.only_attempt hp) fun x => ?_
  cases x with
  | ok u => exact Prog.only_pure _
  | error e => exact Prog.only_perform h

end Only

/-! ### LambdaCreator -/

def getDockerTag (lambda : Lambda) : Str :=
  if lambda.hasTag (str "version") then lambda.getTagValue (str "version")
  else if lambda.hasTag (str "dockerTag") then lambda.getTagValue (str "dockerTag")
  else if lambda.hasTag (str "tag") then lambda.getTagValue (str "tag")
  else str "latest"

def getEnvironment (environment : OrderedMap Str Str) : List Str :=
  environment.entries.map fun entry => entry.1 ++ str "=" ++ entry.2

/-- What `CreateDockerImage` writes to the entity. -/
def withImage (lambda : Lambda) (image : DockerImage) : Lambda :=
  { lambda with
    codeSize := image.codeSize, imageId := image.imageId, codeSha256 := image.codeSha256,
    hostPort := image.hostPort, code := { lambda.code with zipFile := image.zipFile } }

/-- Build the docker image, if it does not exist. -/
def ensureImage (lambda : Lambda) (functionCode dockerTag : Str) : LambdaProg Lambda := do
  if ← call (.imageExists lambda.function dockerTag) then return lambda
  else
    let image ← call (.createDockerImage functionCode lambda dockerTag)
    return withImage lambda image

/-- Create the container, if it does not exist. A failure leaves the container id empty. -/
def ensureContainer (instanceId : Str) (lambda : Lambda) (dockerTag : Str) : LambdaProg Lambda := do
  let containerName := lambda.function ++ str "-" ++ instanceId
  if ← call (.containerExists containerName dockerTag) then return lambda
  else
    let created ← call .now
    let hostPort ← call .getHostPort
    let containerId ← call (.createContainer lambda.function containerName dockerTag
      (getEnvironment lambda.environment) hostPort)
    let inst : Instance :=
      { id := instanceId, containerId := containerId, hostPort := hostPort, created := created }
    return { lambda with instances := lambda.instances ++ [inst] }

/-- Start the container, if it is not running. -/
def ensureRunning (instanceId : Str) (lambda : Lambda) (dockerTag : Str) : LambdaProg Lambda := do
  let container ← call (.getContainerByName (lambda.function ++ str "-" ++ instanceId) dockerTag)
  if container.state ≠ str "running" then
    call (.startDockerContainer container.id)
    return lambda
  else return { lambda with hostPort := container.lambdaPort }

def createInstance (instanceId : Str) (lambda : Lambda) (functionCode : Str) : LambdaProg Lambda := do
  let dockerTag := getDockerTag lambda
  let lambda ← ensureImage lambda functionCode dockerTag
  let lambda ← ensureContainer instanceId lambda dockerTag
  ensureRunning instanceId lambda dockerTag

/-- The calls to the daemon and the clock. -/
def Outside : LambdaCall → Prop
  | .imageExists .. | .createDockerImage .. | .containerExists .. | .getContainerByName .. => True
  | .createContainer .. | .startDockerContainer _ | .now | .getHostPort => True
  | _ => False

theorem only_createInstance (instanceId functionCode : Str) (lambda : Lambda) :
    (createInstance instanceId lambda functionCode).Only Outside := by
  refine Prog.only_bind (Prog.only_bind (Prog.only_perform trivial) fun found => ?_) fun lambda =>
    Prog.only_bind (Prog.only_bind (Prog.only_perform trivial) fun found => ?_) fun lambda =>
      Prog.only_bind (Prog.only_perform trivial) fun container => ?_
  · split
    · exact Prog.only_pure _
    · exact Prog.only_bind (Prog.only_perform trivial) fun image => Prog.only_pure _
  · split
    · exact Prog.only_pure _
    · exact Prog.only_bind (Prog.only_perform trivial) fun created => Prog.only_bind (Prog.only_perform trivial)
        fun port => Prog.only_bind (Prog.only_perform trivial) fun containerId => Prog.only_pure _
  · split
    · exact Prog.only_bind (Prog.only_perform trivial) fun _ => Prog.only_pure _
    · exact Prog.only_pure _

def lambdaCreator (functionCode functionId instanceId : Str) : LambdaProg Unit := do
  let lambda ← tryCall (call (.getLambdaById functionId))
  let lambda ← createInstance instanceId lambda functionCode
  let now ← call .now
  let _ ← tryCall (call (.updateLambda
    { lambda with lastStarted := now, state := .active, stateReason := str "Activated" }))

/-! ### LambdaExecutor -/

def lambdaExecutor (containerId host : Str) (port : Int) (payload : Str) : LambdaProg Unit := do
  call (.setInstanceStatus containerId .instanceRunning)
  call (.send host port payload)
  let response ← tryCall (call .receive)
  Prog.when (¬ response.ok) (call (.setInstanceStatus containerId .instanceFailed))
  call (.setInstanceStatus containerId .instanceIdle)

/-! ### LambdaWorker -/

/-- `LAMBDA_TIMEOUT_MINUTES`. -/
def lambdaTimeoutMinutes : Int := 15

/-- The instances of a function that the worker removes. -/
def expiredInstances (expired : Int) (lambda : Lambda) : List Instance :=
  lambda.instances.filter fun inst => inst.status = .instanceIdle ∧ inst.created < expired

/-- One function of a pass. -/
def removeExpired (expired : Int) (lambda : Lambda) : LambdaProg Unit := do
  let toBeRemoved := expiredInstances expired lambda
  Prog.forEach toBeRemoved fun inst => call (.stopContainer inst.containerId)
  let _ ← tryCall (call (.updateLambda (toBeRemoved.foldl Lambda.removeInstance lambda)))

def removeExpiredLambdas : LambdaProg Unit := do
  let lambdaList ← call (.listLambdas [])
  if lambdaList = [] then return ()
  else
    let now ← call .now
    let expired := now - lambdaTimeoutMinutes * 60 * 1000000000
    Prog.forEach lambdaList fun lambda => Prog.when (lambda.instances ≠ []) (removeExpired expired lambda)
    call .pruneContainers

/-! ### LambdaService -/

/-- `CreateLambdaArn`. -/
def createLambdaArn (region accountId function : Str) : Str :=
  createArn (str "lambda") region accountId (str "function:" ++ function)

/-- `MAX_OUTPUT_LENGTH`. -/
def maxOutputLength : Nat := 4 * 1024

structure InvokeRequest where
  region : Str
  functionName : Str
  payload : Str := []
  logType : Str := []

/-- Whether the request waits for the output. -/
def InvokeRequest.tail (request : InvokeRequest) : Bool :=
  request.logType ≠ [] && equalsIgnoreCase request.logType (str "Tail")

/-- The id of an instance that is idle, or the empty string. -/
def findIdleInstance (lambda : Lambda) : Str :=
  ((lambda.instances.find? (·.status = .instanceIdle)).map Instance.id).getD []

/-- The request goes to the port of the function. -/
def invokeLambdaSynchronously (lambda : Lambda) (payload : Str) : LambdaProg Str := do
  call (.sendSync lambda payload)
  let response ← tryCall (call (.receiveSync lambda))
  return response.body.take maxOutputLength

/-- Send the invocation and store the function. -/
def dispatch (request : InvokeRequest) (lambda : Lambda) (instanceId : Str) : LambdaProg Str := do
  let inst := lambda.getInstance instanceId
  let output ← if request.tail then invokeLambdaSynchronously lambda request.payload
    else do
      call (.start inst.containerId (str "localHost") inst.hostPort request.payload)
      pure []
  let now ← call .now
  let _ ← tryCall (call (.updateLambda { lambda with lastInvocation := now, state := .active }))
  return output

/-- The request under the lock. -/
def invokeLocked (accountId : Str) (request : InvokeRequest) : LambdaProg Str := do
  let lambdaArn := createLambdaArn request.region accountId request.functionName
  let lambda ← tryCall (call (.getLambdaByArn lambdaArn))
  let instanceId := findIdleInstance lambda
  if instanceId = [] then
    let instanceId ← call .generateRandomHexString
    -- the request waits for the thread of the creator
    detached (lambdaCreator lambda.code.zipFile lambda.oid instanceId)
    let lambda ← tryCall (call (.getLambdaByArn lambdaArn))
    dispatch request lambda instanceId
  else dispatch request lambda instanceId

def invokeLambdaFunction (accountId : Str) (request : InvokeRequest) : LambdaProg Str := do
  call .lock
  let output ← (invokeLocked accountId request).attempt
  call .unlock
  Prog.ofExcept output

structure CreateTagRequest where
  arn : Str
  tags : OrderedMap Str Str

structure DeleteTagsRequest where
  arn : Str
  tags : List Str

structure DeleteFunctionRequest where
  functionName : Str

/-- The exception for a function that is missing. -/
def noFunction : Error := .serviceException (str "Lambda function does not exist")

/-- `tags.emplace(key, value)` for every tag of a request: a key that is there keeps its value. -/
def emplaceTags (tags added : OrderedMap Str Str) : OrderedMap Str Str :=
  added.entries.foldl (fun tags tag => if (tags.get? tag.1).isSome then tags else tags.insert tag.1 tag.2) tags

def eraseTags (tags : OrderedMap Str Str) (keys : List Str) : OrderedMap Str Str :=
  keys.foldl (fun tags key => tags.eraseIf fun k _ => k = key) tags

/-- The body of the requests that change the tags. -/
def changeTags (arn : Str) (change : OrderedMap Str Str → OrderedMap Str Str) : LambdaProg Unit := do
  if ← call (.lambdaExistsByArn arn) then
    let lambda ← tryCall (call (.getLambdaByArn arn))
    let _ ← tryCall (call (.updateLambda { lambda with tags := change lambda.tags }))
  else .throw noFunction

def createTag (request : CreateTagRequest) : LambdaProg Unit :=
  changeTags request.arn fun tags => emplaceTags tags request.tags

def deleteTags (request : DeleteTagsRequest) : LambdaProg Unit :=
  changeTags request.arn fun tags => eraseTags tags request.tags

def deleteFunction (request : DeleteFunctionRequest) : LambdaProg Unit := do
  if ← call (.lambdaExists request.functionName) then
    if ← call (.containerExists request.functionName (str "latest")) then
      let container ← call (.getContainerByName request.functionName (str "latest"))
      call (.deleteContainer container.id)
    if ← call (.imageExists request.functionName (str "latest")) then
      let image ← call (.getImageByName request.functionName (str "latest"))
      call (.deleteImage image)
    call (.deleteLambda request.functionName)
  else .throw noFunction

/-! ### Threads -/

/-- What a thread does. -/
inductive Task where
  | invoke (request : InvokeRequest)
  | createTag (request : CreateTagRequest)
  | deleteTags (request : DeleteTagsRequest)
  | deleteFunction (request : DeleteFunctionRequest)
  | creator (functionCode functionId instanceId : Str)
  | worker
  | executor (containerId host : Str) (port : Int) (payload : Str)

def Task.prog (accountId : Str) : Task → LambdaProg Unit
  | invoke request => do let _ ← invokeLambdaFunction accountId request
  | createTag request => Lambda.createTag request
  | deleteTags request => Lambda.deleteTags request
  | deleteFunction request => Lambda.deleteFunction request
  | creator functionCode functionId instanceId => detached (lambdaCreator functionCode functionId instanceId)
  | worker => detached removeExpiredLambdas
  | executor containerId host port payload => detached (lambdaExecutor containerId host port payload)

abbrev LambdaThread := Thread Task LambdaCall LambdaCall.Reply Error Unit

def Task.thread (accountId : Str) (task : Task) : LambdaThread := ⟨task, task.prog accountId⟩

/-- The process. The daemon keeps the containers that it created, each with the name of its image, and those
    it was told to stop; `read` are the records that each thread has read last, which no call looks at. -/
structure World where
  db : LambdaMemoryDb := {}
  mutex : Option Nat := none
  calls : Nat := 0
  created : List (Str × Str) := []
  stopped : List Str := []
  read : Nat → List Lambda := fun _ => []

namespace World

def tick (w : World) : World := { w with calls := w.calls + 1 }

/-- The `i`-th thread has read records. -/
def reads (w : World) (i : Nat) (lambdas : List Lambda) : World :=
  { w with read := Function.update w.read i lambdas }

/-- What a lookup returns. -/
def looksUp (w : World) (i : Nat) (r : Except Error Lambda × LambdaMemoryDb) : World :=
  { w with db := r.2 }.reads i (r.1.toOption.toList)

end World

/-- The meaning of a call of the `i`-th thread. -/
def exec (rt : Runtime) (accountId : Str) (i : Nat) :
    (c : LambdaCall) → World → Option (Turn c.Reply World LambdaThread)
  | .lambdaExists function, w => some (.goes (w.db.lambdaExists function) w.tick [])
  | .lambdaExistsByArn arn, w => some (.goes (w.db.lambdaExistsByArn arn) w.tick [])
  | .listLambdas region, w =>
    some (.goes (w.db.listLambdas region) (w.tick.reads i (w.db.listLambdas region)) [])
  | .getLambdaById oid, w =>
    some (.goes (w.db.getLambdaById oid).1 (w.tick.looksUp i (w.db.getLambdaById oid)) [])
  | .getLambdaByArn arn, w =>
    some (.goes (w.db.getLambdaByArn arn).1 (w.tick.looksUp i (w.db.getLambdaByArn arn)) [])
  | .updateLambda lambda, w =>
    some (.goes (w.db.updateLambda lambda).1 { w.tick with db := (w.db.updateLambda lambda).2 } [])
  | .setInstanceStatus containerId status, w =>
    some (.goes () { w.tick with db := w.db.setInstanceStatus containerId status } [])
  | .deleteLambda functionName, w =>
    some (.goes () { w.tick with db := w.db.deleteLambda functionName } [])
  | .imageExists .., w => some (.goes (rt.imageExists w.calls) w.tick [])
  | .createDockerImage .., w => some (.goes (rt.dockerImage w.calls) w.tick [])
  | .containerExists .., w => some (.goes (rt.containerExists w.calls) w.tick [])
  | .getContainerByName .., w => some (.goes (rt.container w.calls) w.tick [])
  | .createContainer name .., w =>
    some (.goes (rt.containerId w.calls)
      { w.tick with created := w.created ++ [(name, rt.containerId w.calls)] } [])
  | .stopContainer id, w => some (.goes () { w.tick with stopped := w.stopped ++ [id] } [])
  | .startDockerContainer _, w | .pruneContainers, w | .deleteContainer _, w | .deleteImage _, w =>
    some (.goes () w.tick [])
  | .getImageByName .., w => some (.goes (rt.imageId w.calls) w.tick [])
  | .now, w => some (.goes (rt.now w.calls) w.tick [])
  | .generateRandomHexString, w => some (.goes (rt.randomHexString w.calls) w.tick [])
  | .getHostPort, w => some (.goes (rt.hostPort w.calls) w.tick [])
  | .send .., w | .sendSync .., w => some (.goes () w.tick [])
  | .receive, w | .receiveSync _, w => some (.goes (rt.response w.calls) w.tick [])
  | .start containerId host port payload, w =>
    some (.goes () w.tick [(Task.executor containerId host port payload).thread accountId])
  | .lock, w =>
    match w.mutex with
    | none => some (.goes () { w.tick with mutex := some i } [])
    | some _ => some .waits
  | .unlock, w => some (.goes () { w.tick with mutex := none } [])
  | .terminate, _ => none

abbrev LambdaPool := List LambdaThread × World

/-- One turn of a thread. -/
abbrev turn (rt : Runtime) (accountId : Str) : Nat → LambdaPool → Option LambdaPool :=
  Thread.turn (exec rt accountId)

/-- The threads of some tasks before their first calls. -/
def begin (accountId : Str) (tasks : List Task) (db : LambdaMemoryDb) : LambdaPool :=
  (tasks.map (Task.thread accountId), { db := db })

/-- Only `start` starts a thread. -/
theorem exec_started {rt : Runtime} {accountId : Str} {i : Nat} {c : LambdaCall} {r : c.Reply} {w w' : World}
    {started : List LambdaThread} (h : exec rt accountId i c w = some (.goes r w' started)) : started = [] ∨
      ∃ containerId host port payload, c = .start containerId host port payload ∧
        started = [(Task.executor containerId host port payload).thread accountId] := by
  cases c with
  | start containerId host port payload =>
    cases h
    exact .inr ⟨containerId, host, port, payload, rfl, rfl⟩
  | lock =>
    simp only [exec] at h
    split at h <;> cases h
    exact .inl rfl
  | terminate => cases h
  | _ =>
    cases h
    exact .inl rfl

end AwsMock.Lambda
