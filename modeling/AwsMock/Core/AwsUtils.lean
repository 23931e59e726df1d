import AwsMock.Core.StringUtils

/-!
# Queue URLs and ARNs

`AwsUtils` as far as the SQS code uses it. `Configuration::Initialize` defines every property that
is read here, so the defaults passed to `getString` are never used; the host name of the machine
is `SystemUtils::GetHostName()`.
-/

namespace AwsMock

open Lib

/-- The configuration properties the queue names are built from, with the defaults of
    `Configuration::Initialize`, and the machine's host name. -/
structure Configuration where
  region : Str := str "eu-central-1"
  accountId : Str := str "000000000000"
  gatewayPort : Str := str "4566"
  sqsHostname : Str := str "localstack"
  hostName : Str

/-- `CreateArn`. -/
def createArn (service region accountId resourceId : Str) : Str :=
  str "arn:aws:" ++ service ++ str ":" ++ region ++ str ":" ++ accountId ++ str ":" ++ resourceId

/-- `CreateSQSQueueUrl`: the host is the machine's host name. -/
def createSQSQueueUrl (cfg : Configuration) (queueName : Str) : Str :=
  str "http://sqs." ++ cfg.region ++ str "." ++ cfg.hostName ++ str ":" ++ cfg.gatewayPort ++
    str "/" ++ cfg.accountId ++ str "/" ++ queueName

/-- `CreateSQSQueueArn`. -/
def createSQSQueueArn (cfg : Configuration) (queueName : Str) : Str :=
  createArn (str "sqs") cfg.region cfg.accountId queueName

/-- `AwsUtils::ConvertSQSQueueArnToUrl`: the host is the property `awsmock.service.sqs.hostname`,
    not the machine's host name; an ARN of fewer than six parts gives the empty URL. -/
def convertSQSQueueArnToUrl (cfg : Configuration) (queueArn : Str) : Str :=
  match split (byte ':') queueArn with
  | _ :: _ :: _ :: _ :: accountId :: queueName :: _ =>
    str "http://sqs." ++ cfg.region ++ str "." ++ cfg.sqsHostname ++ str ":" ++ cfg.gatewayPort ++
      str "/" ++ accountId ++ str "/" ++ queueName
  | _ => []

def isSQSUrl (queue : Str) : Bool := startsWith queue (str "http")

def isSQSArn (queue : Str) : Bool := containsIgnoreCase queue (str "arn")

/-- `SanitizeSQSUrl`: a queue is named by its URL, its ARN or its name. -/
def sanitizeSQSUrl (cfg : Configuration) (queue : Str) : Str :=
  if isSQSUrl queue then queue
  else if isSQSArn queue then convertSQSQueueArnToUrl cfg queue
  else createSQSQueueUrl cfg queue

/-- The parts of the ARN of a created queue, where none has a colon. -/
theorem split_createSQSQueueArn (cfg : Configuration) {queueName : Str} (hregion : byte ':' ∉ cfg.region)
    (haccount : byte ':' ∉ cfg.accountId) (hname : byte ':' ∉ queueName) (hne : queueName ≠ []) :
    split (byte ':') (createSQSQueueArn cfg queueName) =
      [str "arn", str "aws", str "sqs", cfg.region, cfg.accountId, queueName] := by
  have harn : createSQSQueueArn cfg queueName = str "arn" ++ byte ':' :: (str "aws" ++
      byte ':' :: (str "sqs" ++ byte ':' :: (cfg.region ++ byte ':' :: (cfg.accountId ++
      byte ':' :: queueName)))) := by
    simp [createSQSQueueArn, createArn, str, byte]
  rw [harn, split_append (by decide), split_append (by decide), split_append (by decide),
    split_append hregion, split_append haccount, split_last hname hne]

/-- The ARN of a created queue converts to its URL when both host names agree and no part has a
    colon. -/
theorem convertSQSQueueArnToUrl_create (cfg : Configuration) {queueName : Str}
    (hhost : cfg.sqsHostname = cfg.hostName) (hregion : byte ':' ∉ cfg.region)
    (haccount : byte ':' ∉ cfg.accountId) (hname : byte ':' ∉ queueName) (hne : queueName ≠ []) :
    convertSQSQueueArnToUrl cfg (createSQSQueueArn cfg queueName) =
      createSQSQueueUrl cfg queueName := by
  rw [convertSQSQueueArnToUrl, split_createSQSQueueArn cfg hregion haccount hname hne]
  simp only [hhost, createSQSQueueUrl]

end AwsMock
