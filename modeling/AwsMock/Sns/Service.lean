import AwsMock.Sns.Database

/-!
# The SNS service

`SNSService` as programs over the store calls. Logging and the metrics timers are left out.
-/

namespace AwsMock.Sns

open Lib

/-- A program over both stores. -/
abbrev SnsProg := Prog SnsCall SnsCall.Reply Error

/-- One store call. -/
abbrev call (c : SnsCall) : SnsProg c.Reply := Prog.perform c

/-- A program of the SQS service. -/
def sqsService {α : Type} (p : Sqs.SqsProg α) : SnsProg α := p.via fun c => call (.sqs c)

/-- A random UUID. -/
def createRandom : SnsProg Str := call (.sqs .createMessageId)

/-- A block guarded by `catch (Poco::Exception &ex) { throw ServiceException(ex.message()); }`. -/
def guarded {α : Type} (p : SnsProg α) : SnsProg α := p.mapThrow Error.toServiceException

/-! ### Requests and responses -/

structure CreateTopicRequest where
  region : Str
  topicName : Str
  owner : Str := []

structure CreateTopicResponse where
  region : Str
  name : Str
  owner : Str
  topicArn : Str
  deriving DecidableEq

structure PublishRequest where
  region : Str
  topicArn : Str
  targetArn : Str := []
  message : Str

structure SubscribeRequest where
  region : Str
  topicArn : Str
  protocol : Str
  endpoint : Str

structure TagResourceRequest where
  region : Str
  resourceArn : Str
  tags : OrderedMap Str Str

/-- `SqsNotificationRequest`. -/
structure SqsNotificationRequest where
  type : Str := str "Notification"
  messageId : Str
  topicArn : Str
  message : Str
  timestamp : Int
  signature : Str := []
  signatureVersion : Str := str "1"
  signingCertURL : Str := []
  unsubscribeURL : Str := []
  deriving DecidableEq

/-- `SqsNotificationRequest::ToJson`. -/
def SqsNotificationRequest.toJson (poco : Poco) (r : SqsNotificationRequest) : Str :=
  poco.stringify (.obj [(str "Message", .str r.message), (str "MessageId", .str r.messageId),
    (str "Signature", .str r.signature), (str "SignatureCertURL", .str r.signingCertURL),
    (str "SignatureVersion", .str r.signatureVersion), (str "Timestamp", .int r.timestamp),
    (str "TopicArn", .str r.topicArn), (str "Type", .str r.type),
    (str "UnsubscribeURL", .str r.unsubscribeURL)])

def topicDoesNotExist : Error := .serviceException (str "SNS topic does not exists")

/-! ### Topics -/

/-- A topic that exists is looked up by its name, taken for an ARN. -/
def createTopic (cfg : Configuration) (request : CreateTopicRequest) : SnsProg CreateTopicResponse := do
  if ← call (.topicNameExists request.region request.topicName) then
    let topic ← call (.getTopicByName request.region request.topicName)
    return { region := topic.region, name := topic.topicName, owner := topic.owner,
             topicArn := topic.topicArn }
  else
    let topicArn := createArn (str "sns") request.region cfg.accountId request.topicName
    let now ← call (.sqs .clockNow)
    let topic ← call (.createTopic {
      region := request.region, topicName := request.topicName, owner := request.owner,
      topicArn := topicArn, created := now, modified := now })
    return { region := topic.region, name := topic.topicName, owner := topic.owner,
             topicArn := topic.topicArn }

/-- The `NotFoundException` is caught in the function. -/
def deleteTopic (region topicArn : Str) : SnsProg Unit := guarded do
  if ← call (.topicExists topicArn) then
    call (.deleteTopic region topicArn)
  else
    .throw (.pocoException (str "Topic does not exist"))

/-- `CreateSNSSubscriptionArn`. -/
def createSNSSubscriptionArn (cfg : Configuration) (region topicName random : Str) : Str :=
  createArn (str "sns") region cfg.accountId (topicName ++ str ":" ++ random)

/-- `Subscribe`, with the subscription ARN of the response. -/
def subscribe (cfg : Configuration) (request : SubscribeRequest) : SnsProg Str := guarded do
  if request.topicArn = [] then
    .throw (.serviceException (str "Topic ARN missing"))
  else if ← call (.topicExists request.topicArn) then
    let topic ← call (.getTopicByArn request.topicArn)
    let random ← createRandom
    let subscriptionArn := createSNSSubscriptionArn cfg request.region topic.topicName random
    let subscription : Subscription := { protocol := request.protocol, endpoint := request.endpoint }
    Prog.when (topic.hasSubscription subscription = false) do
      let _ ← call (.updateTopic { topic with subscriptions :=
        topic.subscriptions ++ [{ subscription with subscriptionArn := subscriptionArn }] })
    return subscriptionArn
  else
    .throw topicDoesNotExist

/-- `std::erase_if` of a subscription. -/
def Topic.without (topic : Topic) (subscriptionArn : Str) : Topic :=
  { topic with subscriptions :=
      topic.subscriptions.filter fun s => s.subscriptionArn ≠ subscriptionArn }

def unsubscribe (subscriptionArn : Str) : SnsProg Str := guarded do
  if subscriptionArn = [] then
    .throw (.serviceException (str "Subscription ARN missing"))
  else
    let topics ← call (.getTopicsBySubscriptionArn subscriptionArn)
    Prog.forEach topics fun topic => do
      let _ ← call (.updateTopic (topic.without subscriptionArn))
    return subscriptionArn

/-- The tags are replaced as a whole. -/
def tagResource (request : TagResourceRequest) : SnsProg Unit := guarded do
  if ← call (.topicExists request.resourceArn) then
    let topic ← call (.getTopicByArn request.resourceArn)
    let _ ← call (.updateTopic { topic with tags := request.tags })
  else
    .throw topicDoesNotExist

/-! ### Publishing -/

/-- `Poco::Timestamp().epochMicroseconds() / 1000`. -/
def epochMilliseconds (t : TimePoint) : Int := t / 1000000

/-- `SendSQSMessage`. -/
def sendSQSMessage (env : Sqs.Env) (subscription : Subscription) (request : PublishRequest) :
    SnsProg Unit := do
  let sqsQueue ← call (.sqs (.getQueueByArn subscription.endpoint))
  let messageId ← createRandom
  let now ← call (.sqs .clockNow)
  let sqsNotificationRequest : SqsNotificationRequest := {
    messageId := messageId, topicArn := request.topicArn, message := request.message,
    timestamp := epochMilliseconds now }
  let messageId ← createRandom
  let requestId ← createRandom
  let _ ← sqsService (Sqs.sendMessage env {
    region := request.region, queueUrl := sqsQueue.queueUrl,
    body := sqsNotificationRequest.toJson env.poco, messageId := messageId,
    requestId := requestId })

/-- The subscriptions of the protocol `sqs`. -/
def Subscription.isSqs (subscription : Subscription) : Bool :=
  toLower subscription.protocol = str "sqs"

def checkSubscriptions (env : Sqs.Env) (request : PublishRequest) : SnsProg Unit := do
  let topic ← call (.getTopicByArn request.topicArn)
  Prog.forEach topic.subscriptions fun it =>
    Prog.when (it.isSqs = true) (sendSQSMessage env it request)

/-- `Publish`, with the message id of the response. -/
def publish (env : Sqs.Env) (request : PublishRequest) : SnsProg Str :=
  if request.topicArn = [] then
    .throw (.serviceException (str "Either topicARN or targetArn must exist"))
  else do
    if ← call (.topicExists request.topicArn) then guarded do
      let messageId ← createRandom
      let now ← call (.sqs .clockNow)
      let message ← call (.createMessage {
        region := request.region, topicArn := request.topicArn, targetArn := request.targetArn,
        message := request.message, messageId := messageId, created := now, modified := now })
      checkSubscriptions env request
      return message.messageId
    else
      .throw topicDoesNotExist

end AwsMock.Sns
