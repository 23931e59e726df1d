import AwsMock.Core.Poco
import AwsMock.Lib.PropertyFile

/-!
# The configuration

`Configuration` over `Poco::Util::PropertyFileConfiguration`: the properties that are defined from the environment, the
configuration file that is loaded over them, the environment values that are applied again, and the file that is written
back.
-/

namespace AwsMock.Core

open Lib

/-- `CoreException`, an exception of Poco or one of the standard library. -/
inductive Exception where
  | coreException (message : Str)
  | pocoException (message : Str)
  | stdException (what : Str)
  deriving DecidableEq

/-! ### The library -/

/-- `Poco::Util::PropertyFileConfiguration`: `load` replaces the properties by those that the file assigns (`parse`),
    every property on a line of its own and with its escape sequences. The typed getters expand references to other
    properties first. Errors are the texts of the exceptions. -/
structure PropertyFileConfiguration where
  parse : Str → OrderedMap Str Str
  expand : OrderedMap Str Str → Str → Except Str Str
  parseBool : Str → Except Str Bool
  parseInt : Str → Except Str Int
  parse_lines : ∀ content, ((parse content).entries.map PropertyFile.lineWeight).sum ≤ 1 + PropertyFile.lineEnds content
  parse_escapes : ∀ content,
    ((parse content).entries.map PropertyFile.escapeWeight).sum ≤ PropertyFile.backslashes content
  expand_plain : ∀ properties raw, byte '$' ∉ raw → expand properties raw = .ok raw
  parseBool_true : parseBool (str "true") = .ok true
  parseBool_false : parseBool (str "false") = .ok false
  parseInt_toStr : ∀ n, IsInt n → parseInt (toStr n) = .ok n

/-- A library that reads property files, expands nothing and converts what it writes itself. -/
def PropertyFileConfiguration.plain : PropertyFileConfiguration where
  parse := PropertyFile.parse isSpace
  expand _ raw := .ok raw
  parseBool raw := if raw = str "true" then .ok true else if raw = str "false" then .ok false else .error raw
  parseInt raw := (stoi raw).mapError fun _ => raw
  parse_lines := PropertyFile.parse_lines isSpace
  parse_escapes := PropertyFile.parse_escapes isSpace
  expand_plain _ _ _ := rfl
  parseBool_true := rfl
  parseBool_false := rfl
  parseInt_toStr n h := by rw [stoi_toStr h]; rfl

/-! ### Properties -/

/-- A property as one of the three define functions is given it. -/
inductive Default where
  | string (value : Str)
  | bool (value : Bool)
  | int (value : Int32)
  deriving DecidableEq

structure Property where
  key : Str
  envProperty : Str
  defaultValue : Default
  deriving DecidableEq

/-- What a typed getter returns. -/
inductive Value where
  | string (value : Str)
  | bool (value : Bool)
  | int (value : Int)
  deriving DecidableEq

def Default.value : Default → Value
  | .string value => .string value
  | .bool value => .bool value
  | .int value => .int value.toInt

/-- The text that `setBool` stores. -/
def boolText (value : Bool) : Str := if value then str "true" else str "false"

/-! ### The configuration -/

structure Configuration where
  properties : OrderedMap Str Str := ∅
  /-- The environment values, by the keys of their properties. -/
  envList : OrderedMap Str Str := ∅
  filename : Str := []

namespace Configuration

def has (c : Configuration) (key : Str) : Bool := (c.properties.get? key).isSome

def setString (c : Configuration) (key value : Str) : Configuration :=
  { c with properties := c.properties.insert key value }

def addToEnvList (c : Configuration) (key value : Str) : Configuration :=
  { c with envList := c.envList.insert key value }

/-- What the three define functions share: the environment value is converted, stored, and remembered as it is; without
    one the default is stored where the key has no value yet. -/
def defineProperty (env : Str → Option Str) (key envProperty : Str) (convert : Str → Except Exception Str)
    (defaultText : Str) (c : Configuration) : Except Exception Configuration :=
  match env envProperty with
  | some value => (convert value).map fun raw => (c.setString key raw).addToEnvList key value
  | none => .ok (if c.has key then c else c.setString key defaultText)

def defineStringProperty (env : Str → Option Str) (key envProperty defaultValue : Str) :=
  defineProperty env key envProperty .ok defaultValue

/-- `std::string(getenv(…)) == "true"`. -/
def convertBool (value : Str) : Except Exception Str := .ok (boolText (value = str "true"))

def defineBoolProperty (env : Str → Option Str) (key envProperty : Str) (defaultValue : Bool) :=
  defineProperty env key envProperty convertBool (boolText defaultValue)

/-- `std::stoi` throws before anything is stored. -/
def convertInt (value : Str) : Except Exception Str :=
  match stoi value with
  | .ok n => .ok (toStr n)
  | .error _ => .error (.stdException (str "stoi"))

def defineIntProperty (env : Str → Option Str) (key envProperty : Str) (defaultValue : Int32) :=
  defineProperty env key envProperty convertInt (toStr defaultValue.toInt)

/-- The define function of a property. -/
def define (env : Str → Option Str) (p : Property) : Configuration → Except Exception Configuration :=
  match p.defaultValue with
  | .string value => defineStringProperty env p.key p.envProperty value
  | .bool value => defineBoolProperty env p.key p.envProperty value
  | .int value => defineIntProperty env p.key p.envProperty value

def defineAll (env : Str → Option Str) (ps : List Property) (c : Configuration) : Except Exception Configuration :=
  ps.foldlM (fun c p => c.define env p) c

/-- The environment settings are stored as they are. -/
def applyEnvSettings (c : Configuration) : Configuration :=
  c.envList.entries.foldl (fun c e => c.setString e.1 e.2) c

/-- `SetFilename`: a file that does not exist is only warned about, but `load` throws then. -/
def setFilename (lib : PropertyFileConfiguration) (files : Str → Option Str) (filename : Str) (c : Configuration) :
    Except Exception Configuration :=
  if filename = [] then .error (.coreException (str "Empty filename"))
  else match files filename with
    | some content => .ok { c with filename := filename, properties := lib.parse content }.applyEnvSettings
    | none => .error (.pocoException filename)

/-- The content of the file that `WriteFile` writes. -/
def writeFile (c : Configuration) : Str := PropertyFile.unbroken c.properties

/-- `getString`: `NotFoundException` for a key without a value. -/
def getString (lib : PropertyFileConfiguration) (c : Configuration) (key : Str) : Except Str Str :=
  match c.properties.get? key with
  | some raw => lib.expand c.properties raw
  | none => .error key

def getBool (lib : PropertyFileConfiguration) (c : Configuration) (key : Str) : Except Str Bool :=
  (c.getString lib key).bind lib.parseBool

def getInt (lib : PropertyFileConfiguration) (c : Configuration) (key : Str) : Except Str Int :=
  (c.getString lib key).bind lib.parseInt

end Configuration

/-- What the typed getter of a property makes of a text. -/
def Default.convert (lib : PropertyFileConfiguration) : Default → Str → Except Str Value
  | .string _, raw => .ok (.string raw)
  | .bool _, raw => (lib.parseBool raw).map .bool
  | .int _, raw => (lib.parseInt raw).map .int

def Property.valueOf (lib : PropertyFileConfiguration) (p : Property) (properties : OrderedMap Str Str) (raw : Str) :
    Except Str Value :=
  (lib.expand properties raw).bind (p.defaultValue.convert lib)

/-- A property through its typed getter. -/
def Property.read (lib : PropertyFileConfiguration) (p : Property) (c : Configuration) : Except Str Value :=
  match p.defaultValue with
  | .string _ => (c.getString lib p.key).map .string
  | .bool _ => (c.getBool lib p.key).map .bool
  | .int _ => (c.getInt lib p.key).map .int

def stringProperty (key envProperty defaultValue : String) : Property :=
  ⟨str key, str envProperty, .string (str defaultValue)⟩

def boolProperty (key envProperty : String) (defaultValue : Bool) : Property :=
  ⟨str key, str envProperty, .bool defaultValue⟩

def intProperty (key envProperty : String) (defaultValue : Int32) : Property :=
  ⟨str key, str envProperty, .int defaultValue⟩

/-- The properties that every constructor defines, in the order of `Initialize`. -/
def baseProperties : List Property :=
  [
    -- General
    stringProperty "awsmock.region" "AWSMOCK_REGION" "eu-central-1",
    stringProperty "awsmock.account.userPoolId" "AWSMOCK_ACCOUNT_ID" "000000000000",
    stringProperty "awsmock.client.userPoolId" "AWSMOCK_CLIENT_ID" "00000000",
    stringProperty "awsmock.user" "AWSMOCK_USER" "none",
    stringProperty "awsmock.data.dir" "AWSMOCK_DATA_DIR" "/tmp/awsmock/data",
    stringProperty "awsmock.temp.dir" "AWSMOCK_TEMP_DIR" "/tmp/awsmock/tmp",
    boolProperty "awsmock.pretty" "AWSMOCK_PRETTY" false,
    -- Manager
    stringProperty "awsmock.manager.host" "AWSMOCK_MANAGER_HOST" "localhost",
    intProperty "awsmock.manager.port" "AWSMOCK_MANAGER_PORT" 4567,
    intProperty "awsmock.manager.http.max.queue" "AWSMOCK_MANAGER_MAX_QUEUE" 50,
    intProperty "awsmock.manager.http.max.threads" "AWSMOCK_MANAGER_MAX_THREADS" 10,
    -- Gateway
    boolProperty "awsmock.service.gateway.active" "AWSMOCK_SERVICE_GATEWAY_ACTIVE" true,
    stringProperty "awsmock.service.gateway.http.host" "AWSMOCK_SERVICE_GATEWAY_HOST" "localhost",
    intProperty "awsmock.service.gateway.http.port" "AWSMOCK_SERVICE_GATEWAY_PORT" 4566,
    intProperty "awsmock.service.gateway.http.max.queue" "AWSMOCK_SERVICE_GATEWAY_MAX_QUEUE" 250,
    intProperty "awsmock.service.gateway.http.max.threads" "AWSMOCK_SERVICE_GATEWAY_MAX_THREADS" 50,
    intProperty "awsmock.service.gateway.http.timeout" "AWSMOCK_SERVICE_GATEWAY_TIMEOUT" 900,
    -- S3
    boolProperty "awsmock.service.s3.active" "AWSMOCK_SERVICE_S3_ACTIVE" true,
    stringProperty "awsmock.service.s3.http.host" "AWSMOCK_SERVICE_S3_HOST" "localhost",
    intProperty "awsmock.service.s3.http.port" "AWSMOCK_SERVICE_S3_PORT" 9500,
    intProperty "awsmock.service.s3.http.max.queue" "AWSMOCK_SERVICE_S3_MAX_QUEUE" 250,
    intProperty "awsmock.service.s3.http.max.threads" "AWSMOCK_SERVICE_S3_MAX_THREADS" 50,
    intProperty "awsmock.service.s3.http.timeout" "AWSMOCK_SERVICE_S3_TIMEOUT" 900,
    intProperty "awsmock.service.s3.monitoring.period" "AWSMOCK_SERVICE_S3_MONITORING_PERIOD" 900,
    -- SQS
    boolProperty "awsmock.service.sqs.active" "AWSMOCK_SERVICE_SQS_ACTIVE" true,
    stringProperty "awsmock.service.sqs.http.host" "AWSMOCK_SERVICE_SQS_HOST" "localhost",
    intProperty "awsmock.service.sqs.http.port" "AWSMOCK_SERVICE_SQS_PORT" 9501,
    intProperty "awsmock.service.sqs.http.max.queue" "AWSMOCK_SERVICE_SQS_MAX_QUEUE" 250,
    intProperty "awsmock.service.sqs.http.max.threads" "AWSMOCK_SERVICE_SQS_MAX_THREADS" 50,
    intProperty "awsmock.service.sqs.http.timeout" "AWSMOCK_SERVICE_SQS_TIMEOUT" 900,
    stringProperty "awsmock.service.sqs.hostname" "AWSMOCK_SERVICE_SQS_HOSTNAME" "localstack",
    intProperty "awsmock.service.s3.monitoring.period" "AWSMOCK_MONITORING_SQS_PERIOD" 300,
    intProperty "awsmock.service.s3.worker.period" "AWSMOCK_WORKER_SQS_PERIOD" 30,
    -- SNS
    boolProperty "awsmock.service.sns.active" "AWSMOCK_SERVICE_SNS_ACTIVE" true,
    stringProperty "awsmock.service.sns.http.host" "AWSMOCK_SERVICE_SNS_HOST" "localhost",
    intProperty "awsmock.service.sns.http.port" "AWSMOCK_SERVICE_SNS_PORT" 9502,
    intProperty "awsmock.service.sns.http.max.queue" "AWSMOCK_SERVICE_SNS_MAX_QUEUE" 250,
    intProperty "awsmock.service.sns.http.max.threads" "AWSMOCK_SERVICE_SNS_MAX_THREADS" 50,
    intProperty "awsmock.service.sns.http.timeout" "AWSMOCK_SERVICE_SNS_TIMEOUT" 900,
    intProperty "awsmock.service.sns.message.timeout" "AWSMOCK_SERVICE_SNS_MESSAGE_TIMEOUT" 14,
    stringProperty "awsmock.service.sns.hostname" "AWSMOCK_SERVICE_SNS_HOSTNAME" "localhost",
    intProperty "awsmock.monitoring.sns.worker.period" "AWSMOCK_SNS_WORKER_PERIOD" 300,
    intProperty "awsmock.monitoring.sns.monitoring.period" "AWSMOCK_SNS_MONITORING_PERIOD" 300,
    -- Lambda
    boolProperty "awsmock.service.lambda.active" "AWSMOCK_SERVICE_LAMBDA_ACTIVE" true,
    stringProperty "awsmock.service.lambda.http.host" "AWSMOCK_SERVICE_LAMBDA_HOST" "localhost",
    intProperty "awsmock.service.lambda.http.port" "AWSMOCK_SERVICE_LAMBDA_PORT" 9503,
    intProperty "awsmock.service.lambda.http.max.queue" "AWSMOCK_SERVICE_LAMBDA_MAX_QUEUE" 250,
    intProperty "awsmock.service.lambda.http.max.threads" "AWSMOCK_SERVICE_LAMBDA_MAX_THREADS" 50,
    intProperty "awsmock.service.lambda.http.timeout" "AWSMOCK_SERVICE_LAMBDA_TIMEOUT" 900,
    intProperty "awsmock.monitoring.lambda.period" "AWSMOCK_MONITORING_LAMBDA_PERIOD" 300,
    -- Transfer server
    boolProperty "awsmock.service.transfer.active" "AWSMOCK_SERVICE_TRANSFER_ACTIVE" true,
    stringProperty "awsmock.service.transfer.http.host" "AWSMOCK_SERVICE_TRANSFER_HOST" "localhost",
    intProperty "awsmock.service.transfer.http.port" "AWSMOCK_SERVICE_TRANSFER_PORT" 9504,
    intProperty "awsmock.service.transfer.http.max.queue" "AWSMOCK_SERVICE_TRANSFER_MAX_QUEUE" 250,
    intProperty "awsmock.service.transfer.http.max.threads" "AWSMOCK_SERVICE_TRANSFER_MAX_THREADS" 50,
    intProperty "awsmock.service.transfer.http.timeout" "AWSMOCK_SERVICE_TRANSFER_TIMEOUT" 900,
    intProperty "awsmock.service.transfer.ftp.port" "AWSMOCK_SERVICE_TRANSFER_FTP_PORT" 21,
    stringProperty "awsmock.service.transfer.bucket" "AWSMOCK_SERVICE_TRANSFER_BUCKET" "transfer-server",
    stringProperty "awsmock.service.transfer.base.dir" "AWSMOCK_SERVICE_TRANSFER_BASE_DIR" "/tmp/awsmock/data/transfer",
    intProperty "awsmock.service.transfer.monitoring.period" "AWSMOCK_SERVICE_TRANSFER_MONITORING_PERIOD" 300,
    -- Cognito
    boolProperty "awsmock.service.cognito.active" "AWSMOCK_SERVICE_COGNITO_ACTIVE" true,
    stringProperty "awsmock.service.cognito.http.host" "AWSMOCK_SERVICE_COGNITO_HOST" "localhost",
    intProperty "awsmock.service.cognito.http.port" "AWSMOCK_SERVICE_COGNITO_PORT" 9505,
    intProperty "awsmock.service.cognito.http.max.queue" "AWSMOCK_SERVICE_COGNITO_MAX_QUEUE" 250,
    intProperty "awsmock.service.cognito.http.max.threads" "AWSMOCK_SERVICE_COGNITO_MAX_THREADS" 50,
    intProperty "awsmock.service.cognito.http.timeout" "AWSMOCK_SERVICE_COGNITO_TIMEOUT" 120,
    intProperty "awsmock.service.cognito.monitoring.period" "AWSMOCK_SERVICE_COGNITO_MONITORING_PERIOD" 300,
    -- DynamoDB
    boolProperty "awsmock.service.dynamodb.active" "AWSMOCK_SERVICE_DYNAMODB_ACTIVE" true,
    stringProperty "awsmock.service.dynamodb.http.host" "AWSMOCK_SERVICE_DYNAMODB_HOST" "localhost",
    intProperty "awsmock.service.dynamodb.http.port" "AWSMOCK_SERVICE_DYNAMODB_PORT" 9506,
    intProperty "awsmock.service.dynamodb.http.max.queue" "AWSMOCK_SERVICE_DYNAMODB_MAX_QUEUE" 250,
    intProperty "awsmock.service.dynamodb.http.max.threads" "AWSMOCK_SERVICE_DYNAMODB_MAX_THREADS" 50,
    intProperty "awsmock.service.dynamodb.http.timeout" "AWSMOCK_SERVICE_DYNAMODB_TIMEOUT" 120,
    intProperty "awsmock.monitoring.dynamodb.period" "AWSMOCK_MONITORING_DYNAMODB_PERIOD" 300,
    -- SecretsManager
    boolProperty "awsmock.service.secretsmanager.active" "AWSMOCK_SERVICE_SECRETSMANAGER_ACTIVE" true,
    stringProperty "awsmock.service.secretsmanager.http.host" "AWSMOCK_SERVICE_SECRETSMANAGER_HOST" "localhost",
    intProperty "awsmock.service.secretsmanager.http.port" "AWSMOCK_SERVICE_SECRETSMANAGER_PORT" 9507,
    intProperty "awsmock.service.secretsmanager.http.max.queue" "AWSMOCK_SERVICE_SECRETSMANAGER_MAX_QUEUE" 250,
    intProperty "awsmock.service.secretsmanager.http.max.threads" "AWSMOCK_SERVICE_SECRETSMANAGER_MAX_THREADS" 50,
    intProperty "awsmock.service.secretsmanager.http.timeout" "AWSMOCK_SERVICE_SECRETSMANAGER_TIMEOUT" 120,
    intProperty "awsmock.service.secretsmanager.monitoring.period"
      "AWSMOCK_SERVICE_SECRETSMANAGER_MONITORING_PERIOD" 300,
    -- KMS
    boolProperty "awsmock.service.kms.active" "AWSMOCK_SERVICE_KMS_ACTIVE" true,
    stringProperty "awsmock.service.kms.http.host" "AWSMOCK_SERVICE_KMS_HOST" "localhost",
    intProperty "awsmock.service.kms.http.port" "AWSMOCK_SERVICE_KMS_PORT" 9508,
    intProperty "awsmock.service.kms.http.max.queue" "AWSMOCK_SERVICE_KMS_MAX_QUEUE" 250,
    intProperty "awsmock.service.kms.http.max.threads" "AWSMOCK_SERVICE_KMS_MAX_THREADS" 50,
    intProperty "awsmock.service.kms.http.timeout" "AWSMOCK_SERVICE_KMS_TIMEOUT" 900,
    intProperty "awsmock.service.kms.monitoring.period" "AWSMOCK_SERVICEK_KMS_MONITORING_PERIOD" 300,
    intProperty "awsmock.service.kms.worker.period" "AWSMOCK_WORKER_KMS_PERIOD" 300,
    -- Docker
    stringProperty "awsmock.docker.network.mode" "AWSMOCK_DOCKER_NETWORK_MODE" "bridge",
    stringProperty "awsmock.docker.network.name" "AWSMOCK_DOCKER_NETWORK_NAME" ".dockerhost.net",
    intProperty "awsmock.docker.default.memory.size" "AWSMOCK_DOCKER_DEFAULT_MEMORY_SIZE" 512,
    intProperty "awsmock.docker.default.temp.size" "AWSMOCK_DOCKER_DEFAULT_TEMP_SIZE" 10240,
    intProperty "awsmock.docker.container.port" "AWSMOCK_DOCKER_CONTAINER_PORT" 8080,
    stringProperty "awsmock.docker.socket" "AWSMOCK_DOCKER_SOCKET" "/var/run/docker.sock",
    -- Monitoring
    intProperty "awsmock.service.monitoring.port" "AWSMOCK_CORE_METRIC_PORT" 9091,
    intProperty "awsmock.service.monitoring.timeout" "AWSMOCK_CORE_METRIC_TIMEOUT" 60000,
    -- Logging
    stringProperty "awsmock.service.logging.level" "AWSMOCK_LOG_LEVEL" "info",
    stringProperty "awsmock.service.logging.file" "AWSMOCK_LOG_FILE" "/var/run/awsmock.log",
    -- Database
    boolProperty "awsmock.mongodb.active" "AWSMOCK_MONGODB_ACTIVE" true,
    stringProperty "awsmock.mongodb.name" "AWSMOCK_MONGODB_NAME" "awsmock",
    stringProperty "awsmock.mongodb.host" "AWSMOCK_MONGODB_HOST" "localhost",
    intProperty "awsmock.mongodb.port" "AWSMOCK_MONGODB_PORT" 27017,
    stringProperty "awsmock.mongodb.user" "AWSMOCK_MONGODB_USER" "admin",
    stringProperty "awsmock.mongodb.password" "AWSMOCK_MONGODB_PASSWORD" "admin"]

/-! ### What a step does -/

variable {lib : PropertyFileConfiguration} {env : Str → Option Str} {p : Property}

/-- The text that a define function stores for an environment value. -/
def Property.stored (p : Property) (value : Str) : Except Exception Str :=
  match p.defaultValue with
  | .string _ => .ok value
  | .bool _ => Configuration.convertBool value
  | .int _ => Configuration.convertInt value

def Default.text : Default → Str
  | .string value => value
  | .bool value => boolText value
  | .int value => toStr value.toInt

namespace Configuration

variable {c c' before after : Configuration}

theorem define_eq (env : Str → Option Str) (p : Property) :
    define env p = defineProperty env p.key p.envProperty p.stored p.defaultValue.text := by
  obtain ⟨key, envProperty, defaultValue⟩ := p
  cases defaultValue <;> rfl

theorem define_set (h : c.define env p = .ok c') {value : Str} (hv : env p.envProperty = some value) :
    ∃ raw, p.stored value = .ok raw ∧ c' = (c.setString p.key raw).addToEnvList p.key value := by
  rw [define_eq, defineProperty, hv] at h
  cases hraw : p.stored value with
  | error e => simp [hraw, Except.map] at h
  | ok raw =>
    simp only [hraw, Except.map, Except.ok.injEq] at h
    exact ⟨raw, rfl, h.symm⟩

theorem define_unset (h : c.define env p = .ok c') (hv : env p.envProperty = none) :
    c' = if c.has p.key then c else c.setString p.key p.defaultValue.text := by
  rw [define_eq, defineProperty, hv] at h
  exact (Except.ok.inj h).symm

/-- Other keys are left alone. -/
theorem define_other (h : c.define env p = .ok c') {key : Str} (hkey : key ≠ p.key) :
    c'.properties.get? key = c.properties.get? key ∧ c'.envList.get? key = c.envList.get? key := by
  cases hv : env p.envProperty with
  | some value =>
    obtain ⟨raw, -, rfl⟩ := define_set h hv
    exact ⟨OrderedMap.get?_insert_of_ne _ _ hkey, OrderedMap.get?_insert_of_ne _ _ hkey⟩
  | none =>
    rw [define_unset h hv]
    split
    · exact ⟨rfl, rfl⟩
    · exact ⟨OrderedMap.get?_insert_of_ne _ _ hkey, rfl⟩

theorem define_keeps (h : c.define env p = .ok c') {key : Str} (hkey : (c.envList.get? key).isSome) :
    (c'.envList.get? key).isSome := by
  by_cases heq : key = p.key
  · cases hv : env p.envProperty with
    | some value =>
      obtain ⟨raw, -, rfl⟩ := define_set h hv
      subst heq
      simp [addToEnvList]
    | none =>
      rw [define_unset h hv]
      split
      · exact hkey
      · exact hkey
  · rwa [(define_other h heq).2]

/-! ### Runs of definitions -/

theorem defineAll_cons (ps : List Property) :
    defineAll env (p :: ps) c = (c.define env p).bind (defineAll env ps) := by
  rw [defineAll, List.foldlM_cons]
  rfl

theorem defineAll_append {ps qs : List Property} (h : defineAll env (ps ++ qs) c = .ok c') :
    ∃ d, defineAll env ps c = .ok d ∧ defineAll env qs d = .ok c' := by
  induction ps generalizing c with
  | nil => exact ⟨c, rfl, h⟩
  | cons p ps ih =>
    rw [List.cons_append, defineAll_cons] at h
    rw [defineAll_cons]
    cases hp : c.define env p with
    | error e => simp [hp, Except.bind] at h
    | ok d =>
      rw [hp] at h
      exact ih h

theorem defineAll_other {ps : List Property} (h : defineAll env ps c = .ok c') {key : Str}
    (hkey : ∀ q ∈ ps, q.key ≠ key) :
    c'.properties.get? key = c.properties.get? key ∧ c'.envList.get? key = c.envList.get? key := by
  induction ps generalizing c with
  | nil =>
    cases h
    exact ⟨rfl, rfl⟩
  | cons p ps ih =>
    rw [defineAll_cons] at h
    cases hp : c.define env p with
    | error e => simp [hp, Except.bind] at h
    | ok d =>
      rw [hp] at h
      obtain ⟨hproperties, henv⟩ := ih h fun q hq => hkey q (List.mem_cons_of_mem _ hq)
      obtain ⟨hproperties', henv'⟩ := define_other hp (hkey p (List.mem_cons_self ..)).symm
      exact ⟨hproperties.trans hproperties', henv.trans henv'⟩

theorem defineAll_keeps {ps : List Property} (h : defineAll env ps c = .ok c') {key : Str}
    (hkey : (c.envList.get? key).isSome) : (c'.envList.get? key).isSome := by
  induction ps generalizing c with
  | nil =>
    cases h
    exact hkey
  | cons p ps ih =>
    rw [defineAll_cons] at h
    cases hp : c.define env p with
    | error e => simp [hp, Except.bind] at h
    | ok d =>
      rw [hp] at h
      exact ih h (define_keeps hp hkey)

/-- The keys of the variables that are set are remembered. -/
theorem envList_of_defineAll {ps : List Property} (h : defineAll env ps c = .ok c') (hp : p ∈ ps) {value : Str}
    (hv : env p.envProperty = some value) : (c'.envList.get? p.key).isSome := by
  obtain ⟨qs, rs, rfl⟩ := List.append_of_mem hp
  obtain ⟨d, -, hrest⟩ := defineAll_append h
  rw [defineAll_cons] at hrest
  cases hd : d.define env p with
  | error e => simp [hd, Except.bind] at hrest
  | ok d' =>
    rw [hd] at hrest
    obtain ⟨raw, -, rfl⟩ := define_set hd hv
    exact defineAll_keeps hrest (by simp [addToEnvList])

/-! ### Loading -/

theorem applyEnvSettings_eq (c : Configuration) : c.applyEnvSettings =
    { c with properties := c.envList.entries.foldl (fun m e => m.insert e.1 e.2) c.properties } := by
  have hfold : ∀ (es : List (Str × Str)) (c : Configuration), es.foldl (fun c e => c.setString e.1 e.2) c =
      { c with properties := es.foldl (fun m e => m.insert e.1 e.2) c.properties } := by
    intro es
    induction es with
    | nil => intro c; rfl
    | cons e es ih => intro c; exact ih _
  exact hfold c.envList.entries c

theorem applyEnvSettings_get? (c : Configuration) (key : Str) :
    c.applyEnvSettings.properties.get? key = (c.envList.get? key).or (c.properties.get? key) := by
  rw [applyEnvSettings_eq]
  cases hkey : c.envList.get? key with
  | some value =>
    exact OrderedMap.get?_foldl_insert_of_nodup _ c.envList.keys_nodup (OrderedMap.get?_eq_some.mp hkey)
  | none =>
    refine OrderedMap.get?_foldl_insert_of_notMem _ _ fun hmem => ?_
    obtain ⟨⟨k, v⟩, he, rfl⟩ := List.mem_map.mp hmem
    exact OrderedMap.get?_eq_none.mp hkey v he

variable {files : Str → Option Str} {filename content : Str}

theorem setFilename_ok (h : c.setFilename lib files filename = .ok after) : filename ≠ [] ∧
    ∃ content, files filename = some content ∧
      after = { c with filename := filename, properties := lib.parse content }.applyEnvSettings := by
  unfold setFilename at h
  split at h
  · cases h
  · next hne =>
    cases hfile : files filename with
    | none => simp [hfile] at h
    | some content =>
      rw [hfile] at h
      exact ⟨hne, content, rfl, (Except.ok.inj h).symm⟩

/-- After a file is loaded a key has the environment value of the last definition that found one, or what the file
    assigns to it; the defaults are gone. -/
theorem setFilename_get? (h : c.setFilename lib files filename = .ok after) (hfile : files filename = some content)
    (key : Str) : after.properties.get? key = (c.envList.get? key).or ((lib.parse content).get? key) := by
  obtain ⟨-, content', hcontent, rfl⟩ := setFilename_ok h
  cases hfile.symm.trans hcontent
  exact applyEnvSettings_get? _ key

end Configuration

/-! ### Reading -/

open AwsMock.Core.Configuration

variable {c before after : Configuration} {files : Str → Option Str} {filename content : Str}

theorem Property.read_eq (lib : PropertyFileConfiguration) (p : Property) (c : Configuration) : p.read lib c =
    match c.properties.get? p.key with
    | some raw => p.valueOf lib c.properties raw
    | none => .error p.key := by
  obtain ⟨key, envProperty, defaultValue⟩ := p
  cases hget : c.properties.get? key with
  | none => cases defaultValue <;> simp [Property.read, getBool, getInt, getString, hget, Except.bind, Except.map]
  | some raw =>
    cases hraw : lib.expand c.properties raw <;> cases defaultValue <;>
      simp [Property.read, Property.valueOf, getBool, getInt, getString, hget, hraw, Except.bind, Except.map,
        Default.convert]

theorem dollar_notMem_boolText (value : Bool) : byte '$' ∉ boolText value := by
  cases value <;> decide

theorem valueOf_boolText (properties : OrderedMap Str Str) (key envProperty : Str) (default value : Bool) :
    (Property.mk key envProperty (.bool default)).valueOf lib properties (boolText value) = .ok (.bool value) := by
  rw [Property.valueOf, lib.expand_plain _ _ (dollar_notMem_boolText value)]
  cases value
  · simp [Except.bind, Default.convert, boolText, lib.parseBool_false, Except.map]
  · simp [Except.bind, Default.convert, boolText, lib.parseBool_true, Except.map]

theorem dollar_notMem_toStr (n : Int) : byte '$' ∉ toStr n := by
  intro hmem
  rcases n with m | m
  · exact absurd (toStr_digits (n := m) hmem) (by decide)
  · rw [toStr_negSucc] at hmem
    rcases List.mem_cons.mp hmem with heq | hmem
    · exact absurd heq (by decide)
    · exact absurd (toStr_digits hmem) (by decide)

theorem valueOf_toStr (properties : OrderedMap Str Str) (key envProperty : Str) (default : Int32) {n : Int}
    (hn : IsInt n) : (Property.mk key envProperty (.int default)).valueOf lib properties (toStr n) = .ok (.int n) := by
  rw [Property.valueOf, lib.expand_plain _ _ (dollar_notMem_toStr n)]
  simp [Except.bind, Default.convert, lib.parseInt_toStr n hn, Except.map]

/-- The default of a number or of a flag is read back as it is. -/
theorem valueOf_text (properties : OrderedMap Str Str) (p : Property)
    (h : ∀ value, p.defaultValue = .string value → byte '$' ∉ value) :
    p.valueOf lib properties p.defaultValue.text = .ok p.defaultValue.value := by
  obtain ⟨key, envProperty, defaultValue⟩ := p
  cases defaultValue with
  | string value =>
    rw [Property.valueOf, Default.text, lib.expand_plain _ _ (h value rfl)]
    rfl
  | bool value => exact valueOf_boolText properties key envProperty value value
  | int value =>
    have hlow := value.le_toInt
    have hhigh := value.toInt_lt
    exact valueOf_toStr properties key envProperty value ⟨by omega, by omega⟩

/-! ### Precedence -/

/-- The property reads as its environment value, before and after the file is loaded, else as the file has it, else as
    its default. -/
def Prefers (lib : PropertyFileConfiguration) (env : Str → Option Str) (file : OrderedMap Str Str)
    (before after : Configuration) (p : Property) : Prop :=
  match env p.envProperty with
  | some value => p.read lib after = p.valueOf lib after.properties value ∧ p.read lib before = p.read lib after
  | none =>
    match file.get? p.key with
    | some raw => p.read lib after = p.valueOf lib after.properties raw
    | none => p.read lib after = .ok p.defaultValue.value

/-- A property whose key no other definition has: an environment value has to be converted by the define function as by
    the getter, and without one the file has to assign the property. -/
theorem prefers_iff {ps qs : List Property} (hone : ∀ q ∈ ps ++ qs, q.key ≠ p.key)
    (hdefine : defineAll env (ps ++ p :: qs) {} = .ok before)
    (hload : before.setFilename lib files filename = .ok after) (hfile : files filename = some content) :
    Prefers lib env (lib.parse content) before after p ↔
      match env p.envProperty with
      | some value => ∃ raw, p.stored value = .ok raw ∧
          p.valueOf lib before.properties raw = p.valueOf lib after.properties value
      | none => ((lib.parse content).get? p.key).isSome := by
  obtain ⟨c, hps, hrest⟩ := defineAll_append hdefine
  rw [defineAll_cons] at hrest
  cases hp : c.define env p with
  | error e => simp [hp, Except.bind] at hrest
  | ok d =>
    rw [hp] at hrest
    obtain ⟨hproperties, henv⟩ := defineAll_other hrest fun q hq => hone q (List.mem_append_right _ hq)
    obtain ⟨-, hnone⟩ := defineAll_other hps fun q hq => hone q (List.mem_append_left _ hq)
    have hafter := setFilename_get? hload hfile p.key
    unfold Prefers
    cases hv : env p.envProperty with
    | some value =>
      obtain ⟨raw, hraw, rfl⟩ := define_set hp hv
      have hset : after.properties.get? p.key = some value := by
        rw [hafter, henv]
        simp [addToEnvList]
      have hbefore : before.properties.get? p.key = some raw := by
        rw [hproperties]
        simp [addToEnvList, setString]
      simp only [Property.read_eq, hset, hbefore, true_and]
      exact ⟨fun h => ⟨raw, hraw, h⟩, fun ⟨raw', hraw', h⟩ => by cases hraw.symm.trans hraw'; exact h⟩
    | none =>
      have hunset : d.envList = c.envList := by
        rw [define_unset hp hv]
        split <;> rfl
      have hset : after.properties.get? p.key = (lib.parse content).get? p.key := by
        rw [hafter, henv, hunset, hnone]
        rfl
      cases hget : (lib.parse content).get? p.key with
      | some raw => simp [Property.read_eq, hset, hget]
      | none => simp [Property.read_eq, hset, hget]

/-- What reads as it should is there. -/
theorem Prefers.isSome {ps : List Property} (h : Prefers lib env (lib.parse content) before after p) (hp : p ∈ ps)
    (hdefine : defineAll env ps {} = .ok before) (hload : before.setFilename lib files filename = .ok after)
    (hfile : files filename = some content) : (after.properties.get? p.key).isSome := by
  have hafter := setFilename_get? hload hfile p.key
  unfold Prefers at h
  cases hv : env p.envProperty with
  | some value =>
    obtain ⟨raw, hraw⟩ := Option.isSome_iff_exists.mp (envList_of_defineAll hdefine hp hv)
    rw [hafter, hraw]
    rfl
  | none =>
    cases hget : (lib.parse content).get? p.key with
    | some raw =>
      rw [hafter, hget]
      cases before.envList.get? p.key <;> rfl
    | none =>
      simp only [hv, hget, Property.read_eq] at h
      cases hset : after.properties.get? p.key with
      | some raw => rfl
      | none => simp [hset] at h

/-! ### Persistence -/

/-- A process without the variables that is given the written file has every key and value. -/
def Reproduced (lib : PropertyFileConfiguration) (ps : List Property) (files : Str → Option Str) (target : Str)
    (c : Configuration) : Prop :=
  ∃ fresh reloaded, defineAll (fun _ => none) ps {} = .ok fresh ∧
    fresh.setFilename lib (Function.update files target (some c.writeFile)) target = .ok reloaded ∧
    reloaded.properties = c.properties

theorem defineAll_envList_empty {ps : List Property} (h : defineAll (fun _ => none) ps c = .ok after) :
    after.envList = c.envList := by
  induction ps generalizing c with
  | nil => cases h; rfl
  | cons p ps ih =>
    rw [defineAll_cons] at h
    cases hp : c.define (fun _ => none) p with
    | error e => simp [hp, Except.bind] at h
    | ok d =>
      rw [hp] at h
      rw [ih h, define_unset hp rfl]
      split <;> rfl

/-- The written file has no line ends between its properties. -/
theorem Reproduced.length_le_one {ps : List Property} {target : Str} (h : Reproduced lib ps files target c) :
    c.properties.entries.length ≤ 1 := by
  obtain ⟨fresh, reloaded, hfresh, hload, heq⟩ := h
  have hparse : lib.parse c.writeFile = c.properties := by
    rw [← heq]
    refine (OrderedMap.ext_get? fun key => ?_).symm
    rw [setFilename_get? hload (Function.update_self ..) key, defineAll_envList_empty hfresh]
    rfl
  exact PropertyFile.size_le_one_of_read_unbroken lib.parse_lines lib.parse_escapes hparse

theorem eq_of_length_le_one {m : OrderedMap Str Str} (h : m.entries.length ≤ 1) {k k' : Str}
    (hk : (m.get? k).isSome) (hk' : (m.get? k').isSome) : k = k' := by
  obtain ⟨v, hv⟩ := Option.isSome_iff_exists.mp hk
  obtain ⟨v', hv'⟩ := Option.isSome_iff_exists.mp hk'
  have hmem := OrderedMap.get?_eq_some.mp hv
  have hmem' := OrderedMap.get?_eq_some.mp hv'
  obtain ⟨i, hi, hget⟩ := List.getElem_of_mem hmem
  obtain ⟨j, hj, hget'⟩ := List.getElem_of_mem hmem'
  obtain rfl : i = j := by omega
  exact congrArg Prod.fst (hget.symm.trans hget')

/-- Every property has the precedence of its sources, and a file that is written reproduces the configuration. -/
def PrecedesAndPersists (lib : PropertyFileConfiguration) (env : Str → Option Str) (ps : List Property)
    (files : Str → Option Str) (filename target : Str) : Prop :=
  ∃ before after content, defineAll env ps {} = .ok before ∧ before.setFilename lib files filename = .ok after ∧
    files filename = some content ∧ (∀ p ∈ ps, Prefers lib env (lib.parse content) before after p) ∧
    Reproduced lib ps files target after

/-- With two keys defined, either a default is lost or the written file is read back as one property. -/
theorem not_precedesAndPersists {ps : List Property} {p q : Property} (hp : p ∈ ps) (hq : q ∈ ps)
    (hne : p.key ≠ q.key) (target : Str) : ¬ PrecedesAndPersists lib env ps files filename target := by
  rintro ⟨before, after, content, hdefine, hload, hfile, hprefers, hreproduced⟩
  exact hne (eq_of_length_le_one hreproduced.length_le_one
    ((hprefers p hp).isSome hp hdefine hload hfile) ((hprefers q hq).isSome hq hdefine hload hfile))

theorem base_keys_ne : (stringProperty "awsmock.region" "AWSMOCK_REGION" "eu-central-1").key ≠
    (stringProperty "awsmock.user" "AWSMOCK_USER" "none").key := by
  decide

/-- Every configuration defines the base properties, so none meets both. -/
theorem configuration_precedence_fails (lib : PropertyFileConfiguration) (env : Str → Option Str)
    (more : List Property) (files : Str → Option Str) (filename target : Str) :
    ¬ PrecedesAndPersists lib env (baseProperties ++ more) files filename target :=
  not_precedesAndPersists (p := stringProperty "awsmock.region" "AWSMOCK_REGION" "eu-central-1")
    (q := stringProperty "awsmock.user" "AWSMOCK_USER" "none") (by simp [baseProperties]) (by simp [baseProperties])
    base_keys_ne target

/-- Without environment variables and with an empty file, no property has a value left. -/
theorem region_lost :
    ¬ PrecedesAndPersists .plain (fun _ => none) baseProperties (fun _ => some []) [102] [103] := by
  rintro ⟨before, after, content, hdefine, hload, hfile, hprefers, -⟩
  cases hfile
  have hdefault : (stringProperty "awsmock.region" "AWSMOCK_REGION" "eu-central-1").read .plain after = .ok _ :=
    hprefers _ (by simp [baseProperties])
  have hget := setFilename_get? hload rfl (stringProperty "awsmock.region" "AWSMOCK_REGION" "eu-central-1").key
  rw [defineAll_envList_empty hdefine] at hget
  rw [Property.read_eq, show after.properties.get? _ = none from hget] at hdefault
  cases hdefault

end AwsMock.Core
