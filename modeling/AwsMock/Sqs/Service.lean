import AwsMock.Sqs.Database
import AwsMock.Sqs.Dto

/-!
# The SQS service

`SQSService` and `SQSWorker` as programs over the store calls. Logging and the metrics timers are
left out.
-/

namespace AwsMock.Sqs

open Lib

/-- A program over the store. -/
abbrev SqsProg := Prog SqsCall SqsCall.Reply Error

/-- What the service uses from outside the repository, and the value an uninitialised data type
    happens to have. -/
structure Env where
  cfg : Configuration
  poco : Poco
  md5 : Str → Str
  uninitializedType : MessageAttributeDataType

/-- A default installation. -/
def Env.sample : Env where
  cfg := { hostName := str "localhost" }
  poco := .minimal
  md5 := id
  uninitializedType := .string

/-- One store call. -/
abbrev call (c : SqsCall) : SqsProg c.Reply := Prog.perform c

/-- A block guarded by `catch (Poco::Exception &ex) { throw ServiceException(ex.message()); }`. -/
def guarded {α : Type} (p : SqsProg α) : SqsProg α := p.mapThrow Error.toServiceException

/-- The text of the exception for a missing queue. -/
def queueDoesNotExist (region queueUrl : Str) : Error :=
  .serviceException (str "Queue does not exist, region: " ++ region ++ str " queueUrl: " ++ queueUrl)

/-- `SQSDatabase::ReceiveMessages` on the in-memory store: two critical sections. -/
def databaseReceiveMessages (region queueUrl : Str) (visibility maxMessages : Int) :
    SqsProg (List Message) := do
  call (.resetMessages queueUrl visibility)
  call (.receiveMessages region queueUrl visibility maxMessages)

/-! ### Redrive policies -/

/-- `RedrivePolicy::FromJson`: a policy without a target ARN leaves the record as it is. -/
def redrivePolicyFromJson (poco : Poco) (body : Str) (policy : RedrivePolicy) :
    Except Error RedrivePolicy :=
  if body = [] then .ok policy
  else do
    match ← pocoTry (poco.parse body) with
    | .obj members =>
      match Json.member (str "deadLetterTargetArn") members with
      | some (.str arn) =>
        let count ← pocoTry (poco.convertInt
          ((Json.member (str "maxReceiveCount") members).getD .null))
        return { deadLetterTargetArn := arn, maxReceiveCount := count }
      | _ => return policy
    | _ => .error (.pocoException (str "Can not convert"))

/-- `RedrivePolicy::ToJson`. -/
def redrivePolicyToJson (poco : Poco) (policy : RedrivePolicy) : Str :=
  if policy.deadLetterTargetArn = [] then []
  else poco.stringify (.obj [(str "deadLetterTargetArn", .str policy.deadLetterTargetArn),
    (str "maxReceiveCount", .int policy.maxReceiveCount)])

/-! ### Queues -/

/-- One attribute of a `CreateQueue` request. -/
def createQueueAttribute (poco : Poco) (attributes : QueueAttribute) (a : DtoQueueAttribute) :
    Except Error QueueAttribute :=
  if a.attributeName = str "DelaySeconds" then
    (stoi a.attributeValue).map fun n => { attributes with delaySeconds := n }
  else if a.attributeName = str "MaxMessageSize" then
    (stoi a.attributeValue).map fun n => { attributes with maxMessageSize := n }
  else if a.attributeName = str "MessageRetentionPeriod" then
    (stoi a.attributeValue).map fun n => { attributes with messageRetentionPeriod := n }
  else if a.attributeName = str "VisibilityTimeout" then
    (stoi a.attributeValue).map fun n => { attributes with visibilityTimeout := n }
  else if a.attributeName = str "Policy" then
    .ok { attributes with policy := a.attributeValue }
  else if a.attributeName = str "RedrivePolicy" then
    (redrivePolicyFromJson poco a.attributeValue attributes.redrivePolicy).map fun p =>
      { attributes with redrivePolicy := p }
  else if a.attributeName = str "RedriveAllowPolicy" then
    .ok { attributes with redriveAllowPolicy := a.attributeValue }
  else if a.attributeName = str "ReceiveMessageWaitTime" then
    (stoi a.attributeValue).map fun n => { attributes with receiveMessageWaitTime := n }
  else if a.attributeName = str "QueueArn" then
    .ok { attributes with queueArn := a.attributeValue }
  else .ok attributes

/-- The handler around the body catches `DatabaseException` only, which no in-memory call throws. -/
def createQueue (env : Env) (request : CreateQueueRequest) : SqsProg CreateQueueResponse := do
  if ← call (.queueExists request.region request.queueName) then
    .throw (.serviceException (str "Queue exists already, region: " ++ request.region ++
      str " queueUrl: " ++ request.queueUrl))
  else
    let queueArn := createSQSQueueArn env.cfg request.queueName
    let queueUrl := createSQSQueueUrl env.cfg request.queueName
    let attributes ← .ofExcept (request.attributes.foldlM (createQueueAttribute env.poco) {})
    let now ← call .clockNow
    let queue ← call (.createQueue {
      region := request.region, name := request.queueName, owner := request.owner,
      queueUrl := queueUrl, queueArn := queueArn,
      attributes := { attributes with queueArn := queueArn }, tags := request.tags,
      created := now, modified := now })
    return { region := queue.region, name := queue.name, owner := queue.owner,
             queueUrl := queue.queueUrl, queueArn := queue.queueArn }

/-- `SQSService::ListQueues`, up to the layout of the response. -/
def listQueues (region : Str) : SqsProg (List Queue) := call (.listQueues region)

def purgeQueue (request : PurgeQueueRequest) : SqsProg Unit := do
  if ← call (.queueUrlExists request.region request.queueUrl) then
    call (.purgeQueue request.region request.queueUrl)
  else
    .throw (queueDoesNotExist request.region request.queueUrl)

/-- `CheckAttribute`. -/
def checkAttribute (attributes : List Str) (value : Str) : Bool :=
  attributes.any fun a => equalsIgnoreCase a value

/-- `timestamp().epochTime()`. -/
def epochTime (t : TimePoint) : Int := t / 1000000000

/-- The attributes of the answer to a request for `all`. -/
def allQueueAttributes (queue : Queue) : List (Str × Str) :=
  let a := queue.attributes
  [(str "ApproximateNumberOfMessages", toStr a.approximateNumberOfMessages),
    (str "ApproximateNumberOfMessagesDelayed", toStr a.approximateNumberOfMessagesDelayed),
    (str "ApproximateNumberOfMessagesNotVisible", toStr a.approximateNumberOfMessagesNotVisible),
    (str "CreatedTimestamp", toStr (epochTime queue.created)),
    (str "DelaySeconds", toStr a.delaySeconds),
    (str "LastModifiedTimestamp", toStr (epochTime queue.modified)),
    (str "MaximumMessageSize", toStr a.maxMessageSize),
    (str "MessageRetentionPeriod", toStr a.messageRetentionPeriod),
    (str "Policy", a.policy),
    (str "QueueArn", queue.queueArn),
    (str "ReceiveMessageWaitTimeSeconds", toStr a.receiveMessageWaitTime),
    (str "VisibilityTimeout", toStr a.visibilityTimeout)]

/-- The attributes that can be asked for one by one, in the order of the answer: a name tested, the
    name reported and the value. The delayed count is reported under the name of the invisible
    one. -/
def namedQueueAttributes (poco : Poco) (queue : Queue) : List (Str × Str) :=
  let a := queue.attributes
  [(str "Policy", a.policy),
    (str "VisibilityTimeout", toStr a.visibilityTimeout),
    (str "MaximumMessageSize", toStr a.maxMessageSize),
    (str "MessageRetentionPeriod", toStr a.messageRetentionPeriod),
    (str "ApproximateNumberOfMessages", toStr a.approximateNumberOfMessages),
    (str "ApproximateNumberOfMessagesNotVisible", toStr a.approximateNumberOfMessagesNotVisible),
    (str "CreatedTimestamp", poco.httpFormat queue.created),
    (str "LastModifiedTimestamp", poco.httpFormat queue.modified),
    (str "ApproximateNumberOfMessagesNotVisible", toStr a.approximateNumberOfMessagesDelayed),
    (str "DelaySeconds", toStr a.delaySeconds),
    (str "ReceiveMessageWaitTimeSeconds", toStr a.receiveMessageWaitTime),
    (str "RedrivePolicy", redrivePolicyToJson poco a.redrivePolicy)]

def getQueueAttributes (env : Env) (request : GetQueueAttributesRequest) :
    SqsProg GetQueueAttributesResponse := do
  if ← call (.queueUrlExists request.region request.queueUrl) then
    let queue ← call (.getQueueByUrl request.region request.queueUrl)
    if checkAttribute request.attributeNames (str "all") then
      return { attributes := allQueueAttributes queue }
    else
      return { attributes := (namedQueueAttributes env.poco queue).filter fun a =>
        checkAttribute request.attributeNames a.1 }
  else
    .throw (queueDoesNotExist request.region request.queueUrl)

/-- `request.attributes[name]`. -/
def attributeOf (request : SetQueueAttributesRequest) (name : String) : Str :=
  (request.attributes.get? (str name)).getD []

/-- `if (!value.empty()) { field = read(value); }`. -/
def ifGiven {α : Type} (value : Str) (read : Str → Except Error α) (field : α) : Except Error α :=
  if value ≠ [] then read value else .ok field

/-- The record a `SetQueueAttributes` request makes of a queue. -/
def withAttributes (poco : Poco) (request : SetQueueAttributesRequest) (queue : Queue) :
    Except Error Queue := do
  let given := attributeOf request
  let a := queue.attributes
  let policy ← ifGiven (given "Policy") .ok a.policy
  let redrivePolicy ← ifGiven (given "RedrivePolicy")
    (fun body => redrivePolicyFromJson poco body a.redrivePolicy) a.redrivePolicy
  let redriveAllowPolicy ← ifGiven (given "RedriveAllowPolicy") .ok a.redriveAllowPolicy
  let messageRetentionPeriod ← ifGiven (given "MessageRetentionPeriod") stoi
    a.messageRetentionPeriod
  let visibilityTimeout ← ifGiven (given "VisibilityTimeout") stoi a.visibilityTimeout
  let queueArn ← ifGiven (given "QueueArn") .ok queue.queueArn
  return { queue with attributes := { a with
    policy := policy, redrivePolicy := redrivePolicy, redriveAllowPolicy := redriveAllowPolicy,
    messageRetentionPeriod := messageRetentionPeriod, visibilityTimeout := visibilityTimeout,
    queueArn := queueArn } }

def setQueueAttributes (env : Env) (request : SetQueueAttributesRequest) :
    SqsProg SetQueueAttributesResponse := do
  if ← call (.queueUrlExists request.region request.queueUrl) then
    guarded do
      let queue ← call (.getQueueByUrl request.region request.queueUrl)
      let queue ← .ofExcept (withAttributes env.poco request queue)
      let _ ← call (.updateQueue queue)
      return { resource := str "sqs", requestId := request.requestId }
  else
    .throw (queueDoesNotExist request.region request.queueUrl)

/-- The existence test is inside the guarded block. -/
def tagQueue (request : TagQueueRequest) : SqsProg Unit := guarded do
  if ← call (.queueUrlExists request.region request.queueUrl) then
    let queue ← call (.getQueueByUrl request.region request.queueUrl)
    let tags := request.tags.entries.foldl (fun tags tag => tags.insert tag.1 tag.2) queue.tags
    let _ ← call (.updateQueue { queue with tags := tags })
  else
    .throw (.serviceException (str "SQS queue topic does not exists"))

def deleteQueue (request : DeleteQueueRequest) : SqsProg DeleteQueueResponse := do
  if ← call (.queueUrlExists request.region request.queueUrl) then
    call (.deleteMessages request.queueUrl)
    call (.deleteQueue request.region request.queueUrl)
    return { region := request.region, queueUrl := request.queueUrl,
             requestId := request.requestId }
  else
    .throw (queueDoesNotExist request.region request.queueUrl)

/-! ### Messages -/

/-- The attribute list stored with a message. -/
def storedAttributes (attributes : OrderedMap Str DtoMessageAttribute) : List MessageAttribute :=
  attributes.entries.map fun a =>
    { attributeName := a.1, attributeValue := a.2.stringValue,
      attributeType := messageAttributeTypeFromString (messageAttributeDataTypeToString a.2.type) }

/-- `std::to_string(static_cast<long>(std::chrono::seconds(std::time(NULL)).count()))`. -/
def timestampOf (now : TimePoint) : Str := toStr (epochTime now)

/-- The system attributes stored with a message. -/
def systemAttributes (request : SendMessageRequest) (queue : Queue) (sent first : TimePoint) :
    OrderedMap Str Str :=
  ((((request.attributes.insert (str "SentTimestamp") (timestampOf sent)).insert
    (str "ApproximateFirstReceivedTimestamp") (timestampOf first)).insert
    (str "ApproximateReceivedCount") (toStr 0)).insert
    (str "VisibilityTimeout") (toStr queue.attributes.visibilityTimeout)).insert
    (str "SenderId") request.senderId

/-- The body of `SendMessage` after the existence test. -/
def sendToQueue (env : Env) (request : SendMessageRequest) : SqsProg SendMessageResponse :=
  guarded do
    let queue ← call (.getQueueByUrl request.region request.queueUrl)
    let sent ← call .clockNow
    let first ← call .clockNow
    let now ← call .clockNow
    let reset :=
      if queue.attributes.delaySeconds > 0 then now + seconds queue.attributes.delaySeconds
      else now + seconds queue.attributes.visibilityTimeout
    let messageId ← call .createMessageId
    let receiptHandle ← call .createSqsReceiptHandler
    let md5Body := env.md5 request.body
    let md5UserAttr := getMd5MessageAttributes env.md5 request.messageAttributes
    let md5SystemAttr := getMd5Attributes env.md5 request.attributes
    let created ← call .clockNow
    let message ← call (.createMessage {
      region := request.region, queueUrl := queue.queueUrl, queueName := queue.name,
      body := request.body, status := .initial, reset := reset, messageId := messageId,
      receiptHandle := receiptHandle, md5Body := md5Body, md5UserAttr := md5UserAttr,
      md5SystemAttr := md5SystemAttr, attributes := systemAttributes request queue sent first,
      messageAttributes := storedAttributes request.messageAttributes,
      created := created, modified := created })
    return { queueUrl := message.queueUrl, messageId := message.messageId,
             receiptHandle := message.receiptHandle, md5Body := md5Body,
             md5UserAttr := md5UserAttr, md5SystemAttr := md5SystemAttr,
             requestId := request.requestId }

/-- A request without a queue URL skips the existence test. -/
def sendMessage (env : Env) (request : SendMessageRequest) : SqsProg SendMessageResponse := do
  if request.queueUrl = [] then
    sendToQueue env request
  else if ← call (.queueUrlExists request.region request.queueUrl) then
    sendToQueue env request
  else
    .throw (queueDoesNotExist request.region request.queueUrl)

/-- The polling loop. A round without messages reads the clock and then sleeps 500 ms, so the elapsed time
    reaches `waitTimeSeconds` after at most `2 * waitTimeSeconds + 1` rounds. -/
def pollMessages (queue : Queue) (request : ReceiveMessageRequest) (start : TimePoint) :
    Nat → Int → SqsProg (List Message)
  | 0, _ => return []
  | rounds + 1, elapsed => do
    if elapsed < request.waitTimeSeconds then
      let messageList ← databaseReceiveMessages queue.region queue.queueUrl
        queue.attributes.visibilityTimeout request.maxMessages
      if messageList ≠ [] then
        return messageList
      else
        let now ← call .clockNow
        pollMessages queue request start rounds ((now - start) / 1000000000)
    else
      return []

/-- The body of `ReceiveMessages` after the existence test. -/
def receiveFromQueue (request : ReceiveMessageRequest) : SqsProg ReceiveMessageResponse :=
  guarded do
    let queue ← call (.getQueueByUrl request.region request.queueUrl)
    let start ← call .clockNow
    let messageList ← pollMessages queue request start ((2 * request.waitTimeSeconds).toNat + 1) 0
    if messageList ≠ [] then
      return { messageList := messageList, requestId := request.requestId }
    else
      return {}

def receiveMessages (request : ReceiveMessageRequest) : SqsProg ReceiveMessageResponse := do
  if request.queueUrl = [] then
    receiveFromQueue request
  else if ← call (.queueUrlExists request.region request.queueUrl) then
    receiveFromQueue request
  else
    .throw (queueDoesNotExist request.region request.queueUrl)

/-- The exception for a receipt handle that no message has. -/
def messageDoesNotExist (receiptHandle : Str) : Error :=
  .serviceException (str "Message does not exist, receiptHandle: " ++ receiptHandle)

/-- The record `SetVisibilityTimeout` writes back. -/
def withVisibility (visibilityTimeout : Int) (now : TimePoint) (message : Message) : Message :=
  let messageAttribute : MessageAttribute :=
    { attributeName := str "VisibilityTimeout", attributeValue := toStr visibilityTimeout,
      attributeType := .number }
  { message with
    messageAttributes := message.messageAttributes ++ [messageAttribute]
    reset := now + seconds visibilityTimeout }

def setVisibilityTimeout (request : ChangeMessageVisibilityRequest) : SqsProg Unit := do
  if ← call (.messageExists request.receiptHandle) then
    guarded do
      let message ← call (.getMessageByReceiptHandle request.receiptHandle)
      let now ← call .clockNow
      let _ ← call (.updateMessage (withVisibility request.visibilityTimeout now message))
  else
    .throw (messageDoesNotExist request.receiptHandle)

def deleteMessage (request : DeleteMessageRequest) : SqsProg Unit := guarded do
  if ← call (.messageExists request.receiptHandle) then
    call (.deleteMessage request.receiptHandle)
  else
    .throw (messageDoesNotExist request.receiptHandle)

/-- The batch ends at the first entry whose message does not exist. -/
def deleteMessageEntries : List DeleteMessageBatchEntry → SqsProg Unit
  | [] => return ()
  | entry :: entries => do
    if ← call (.messageExists entry.receiptHandle) then
      call (.deleteMessage entry.receiptHandle)
      deleteMessageEntries entries
    else
      return ()

def deleteMessageBatch (request : DeleteMessageBatchRequest) : SqsProg Unit :=
  guarded (deleteMessageEntries request.deleteMessageBatchEntries)

/-! ### The worker -/

/-- A queue record with its counters set. -/
def withCounters (queue : Queue) (messages delayed notVisible : Nat) : Queue :=
  { queue with attributes := { queue.attributes with
    approximateNumberOfMessages := messages
    approximateNumberOfMessagesDelayed := delayed
    approximateNumberOfMessagesNotVisible := notVisible } }

/-- The work on one queue of the snapshot. -/
def maintainQueue (queue : Queue) : SqsProg Unit := do
  Prog.when (queue.attributes.messageRetentionPeriod > 0)
    (call (.messageRetention queue.queueUrl queue.attributes.messageRetentionPeriod))
  call (.resetMessages queue.queueUrl queue.attributes.visibilityTimeout)
  let messages ← call (.countMessages queue.region queue.queueUrl)
  let delayed ← call (.countMessagesByStatus queue.region queue.queueUrl .delayed)
  let notVisible ← call (.countMessagesByStatus queue.region queue.queueUrl .invisible)
  Prog.when (queue.attributes.redrivePolicy.deadLetterTargetArn ≠ [])
    (call (.redriveMessages queue.queueUrl queue.attributes.redrivePolicy))
  Prog.when (queue.attributes.delaySeconds > 0)
    (call (.resetDelayedMessages queue.queueUrl queue.attributes.delaySeconds))
  let _ ← call (.updateQueue (withCounters queue messages delayed notVisible))

/-- `SQSWorker::ResetMessages`: one pass over a snapshot of all queues. -/
def workerPass : SqsProg Unit := do
  let queueList ← call (.listQueues [])
  Prog.forEach queueList maintainQueue

end AwsMock.Sqs
