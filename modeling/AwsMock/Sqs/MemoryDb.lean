import AwsMock.Core.AwsUtils
import AwsMock.Sqs.Entity

/-!
# The in-memory SQS store

`SQSMemoryDb`: two maps keyed by a random object id, and one function for each method. What a
method draws from outside (a fresh id, the clock, a receipt handle for a visited message) is an
argument. A method of the source that dereferences the end iterator, or erases the entry its
range-`for` stands on, has no defined result: `none`.
-/

namespace AwsMock.Sqs

open Lib

structure SqsMemoryDb where
  queues : OrderedMap Str Queue := ∅
  messages : OrderedMap Str Message := ∅
  deriving DecidableEq

namespace SqsMemoryDb

/-! ### Queues -/

def queueExists (db : SqsMemoryDb) (region name : Str) : Bool :=
  (db.queues.findIf fun _ queue => queue.region = region ∧ queue.name = name).isSome

def queueUrlExists (db : SqsMemoryDb) (region queueUrl : Str) : Bool :=
  (db.queues.findIf fun _ queue => queue.region = region ∧ queue.queueUrl = queueUrl).isSome

def queueArnExists (db : SqsMemoryDb) (queueArn : Str) : Bool :=
  (db.queues.findIf fun _ queue => queue.queueArn = queueArn).isSome

/-- `return {}`: `created` and `modified` are read from the clock. -/
def noQueue (now : TimePoint) : Queue := { created := now, modified := now }

/-- The common end of the `GetQueueBy…` methods: the record found is given its key as `oid`, in the
    store as well, and returned. -/
def fetchQueue (db : SqsMemoryDb) (now : TimePoint) : Option (Str × Queue) → Queue × SqsMemoryDb
  | some (oid, queue) =>
    ({ queue with oid := oid }, { db with queues := db.queues.insert oid { queue with oid := oid } })
  | none => (noQueue now, db)

def getQueueById (db : SqsMemoryDb) (oid : Str) (now : TimePoint) : Queue × SqsMemoryDb :=
  db.fetchQueue now (db.queues.findIf fun key _ => key = oid)

def getQueueByArn (db : SqsMemoryDb) (queueArn : Str) (now : TimePoint) : Queue × SqsMemoryDb :=
  db.fetchQueue now (db.queues.findIf fun _ queue => queue.queueArn = queueArn)

/-- The region is no parameter here: `SQSDatabase::GetQueueByUrl` drops it. -/
def getQueueByUrl (db : SqsMemoryDb) (queueUrl : Str) (now : TimePoint) : Queue × SqsMemoryDb :=
  db.fetchQueue now (db.queues.findIf fun _ queue => queue.queueUrl = queueUrl)

def getQueueByName (db : SqsMemoryDb) (region name : Str) (now : TimePoint) :
    Queue × SqsMemoryDb :=
  db.fetchQueue now (db.queues.findIf fun _ queue => queue.region = region ∧ queue.name = name)

def createQueue (db : SqsMemoryDb) (oid : Str) (queue : Queue) (now : TimePoint) :
    Queue × SqsMemoryDb :=
  getQueueById { db with queues := db.queues.insert oid queue } oid now

/-- All queues: the region argument is not read. -/
def listQueues (db : SqsMemoryDb) (_region : Str) : List Queue := db.queues.values

def purgeQueue (db : SqsMemoryDb) (region queueUrl : Str) : SqsMemoryDb :=
  { db with messages := db.messages.eraseIf fun _ message =>
      message.region = region ∧ message.queueUrl = queueUrl }

/-- The result of the lookup is dereferenced unchecked. -/
def updateQueue (db : SqsMemoryDb) (queue : Queue) : Option (Queue × SqsMemoryDb) :=
  (db.queues.findIf fun _ q => q.region = queue.region ∧ q.name = queue.name).map fun it =>
    (queue, { db with queues := db.queues.insert it.1 queue })

def countQueues (db : SqsMemoryDb) (region : Str) : Nat :=
  if region = [] then db.queues.size
  else (db.queues.values.filter fun queue => queue.region = region).length

def deleteQueue (db : SqsMemoryDb) (region queueUrl : Str) : SqsMemoryDb :=
  { db with queues := db.queues.eraseIf fun _ queue =>
      queue.region = region ∧ queue.queueUrl = queueUrl }

def deleteAllQueues (db : SqsMemoryDb) : SqsMemoryDb := { db with queues := ∅ }

/-! ### Messages -/

def noMessage (now : TimePoint) : Message := { created := now, modified := now }

def fetchMessage (db : SqsMemoryDb) (now : TimePoint) :
    Option (Str × Message) → Message × SqsMemoryDb
  | some (oid, message) =>
    ({ message with oid := oid },
      { db with messages := db.messages.insert oid { message with oid := oid } })
  | none => (noMessage now, db)

def getMessageById (db : SqsMemoryDb) (oid : Str) (now : TimePoint) : Message × SqsMemoryDb :=
  db.fetchMessage now (db.messages.findIf fun key _ => key = oid)

def messageExists (db : SqsMemoryDb) (receiptHandle : Str) : Bool :=
  (db.messages.findIf fun _ message => message.receiptHandle = receiptHandle).isSome

def getMessageByReceiptHandle (db : SqsMemoryDb) (receiptHandle : Str) (now : TimePoint) :
    Message × SqsMemoryDb :=
  db.fetchMessage now (db.messages.findIf fun _ message => message.receiptHandle = receiptHandle)

def createMessage (db : SqsMemoryDb) (oid : Str) (message : Message) (now : TimePoint) :
    Message × SqsMemoryDb :=
  getMessageById { db with messages := db.messages.insert oid message } oid now

/-- The record is looked up by its `oid` field and written under the key found, unchecked. -/
def updateMessage (db : SqsMemoryDb) (message : Message) : Option (Message × SqsMemoryDb) :=
  (db.messages.findIf fun _ m => m.oid = message.oid).map fun it =>
    (message, { db with messages := db.messages.insert it.1 message })

def listMessages (db : SqsMemoryDb) (region : Str) : List Message :=
  if region = [] then db.messages.values
  else db.messages.values.filter fun message => message.region = region

/-- `messageList.size() >= maxMessages`: the `int` is converted to `size_t`, so a negative limit is
    never reached. -/
def limitReached (size : Nat) (maxMessages : Int) : Bool :=
  maxMessages % 18446744073709551616 ≤ size

/-- The loop of `ReceiveMessages` over the entries not yet visited. The record is handed out with
    its new receive count and handle, but with the status and deadline it had before. -/
def receiveLoop (region queueUrl : Str) (reset : TimePoint) (maxMessages : Int)
    (receiptHandle : Str → Str) : List (Str × Message) → OrderedMap Str Message → List Message →
    List Message × OrderedMap Str Message
  | [], messages, messageList => (messageList, messages)
  | (oid, message) :: rest, messages, messageList =>
    if message.region = region ∧ message.queueUrl = queueUrl ∧ message.status = .initial then
      let message := { message with
        retries := message.retries + 1, receiptHandle := receiptHandle oid }
      let messageList := messageList ++ [message]
      let messages := messages.insert oid { message with status := .invisible, reset := reset }
      if limitReached messageList.length maxMessages then (messageList, messages)
      else receiveLoop region queueUrl reset maxMessages receiptHandle rest messages messageList
    else receiveLoop region queueUrl reset maxMessages receiptHandle rest messages messageList

/-- Every caller of the service passes an empty `messageList`. -/
def receiveMessages (db : SqsMemoryDb) (region queueUrl : Str) (visibility maxMessages : Int)
    (now : TimePoint) (receiptHandle : Str → Str) : List Message × SqsMemoryDb :=
  let (messageList, messages) := receiveLoop region queueUrl (now + seconds visibility) maxMessages
    receiptHandle db.messages.entries db.messages []
  (messageList, { db with messages := messages })

/-- The clock is read again for every visited message. -/
def resetMessages (db : SqsMemoryDb) (queueUrl : Str) (clock : Str → TimePoint) : SqsMemoryDb :=
  let messages := db.messages.assignEach
    (fun oid message => message.queueUrl = queueUrl ∧ message.status = .invisible ∧
      message.reset < clock oid)
    fun _ message => { message with status := .initial, receiptHandle := [] }
  { db with messages := messages }

def redriveMessages (cfg : Configuration) (db : SqsMemoryDb) (queueUrl : Str)
    (redrivePolicy : RedrivePolicy) : SqsMemoryDb :=
  let dlqQueueUrl := convertSQSQueueArnToUrl cfg redrivePolicy.deadLetterTargetArn
  let messages := db.messages.assignEach
    (fun _ message => message.queueUrl = queueUrl ∧ message.status = .initial ∧
      message.retries > redrivePolicy.maxReceiveCount)
    fun _ message => { message with retries := 0, queueUrl := dlqQueueUrl }
  { db with messages := messages }

def resetDelayedMessages (db : SqsMemoryDb) (queueUrl : Str) (clock : Str → TimePoint) :
    SqsMemoryDb :=
  let messages := db.messages.assignEach
    (fun oid message => message.queueUrl = queueUrl ∧ message.status = .delayed ∧
      message.reset < clock oid)
    fun _ message => { message with status := .initial }
  { db with messages := messages }

/-- `DeleteMessage` erases the entry the range-`for` stands on, so a run that finds a message to
    delete has no defined result; the computed `reset` bound is not used. -/
def messageRetention (db : SqsMemoryDb) (queueUrl : Str) (clock : Str → TimePoint) :
    Option SqsMemoryDb :=
  match db.messages.findIf fun oid message => message.queueUrl = queueUrl ∧
      message.status = .delayed ∧ message.reset < clock oid with
  | some _ => none
  | none => some db

def countMessages (db : SqsMemoryDb) (region queueUrl : Str) : Nat :=
  if region = [] ∧ queueUrl = [] then db.messages.size
  else if region ≠ [] ∧ queueUrl ≠ [] then
    (db.messages.values.filter fun m => m.region = region ∧ m.queueUrl = queueUrl).length
  else if region = [] ∧ queueUrl ≠ [] then
    (db.messages.values.filter fun m => m.queueUrl = queueUrl).length
  else (db.messages.values.filter fun m => m.region = region).length

def countMessagesByStatus (db : SqsMemoryDb) (region queueUrl : Str) (status : MessageStatus) :
    Nat :=
  (db.messages.values.filter fun m =>
    m.region = region ∧ m.queueUrl = queueUrl ∧ m.status = status).length

def deleteMessages (db : SqsMemoryDb) (queueUrl : Str) : SqsMemoryDb :=
  { db with messages := db.messages.eraseIf fun _ message => message.queueUrl = queueUrl }

/-- Both overloads of `DeleteMessage` erase by the receipt handle alone. -/
def deleteMessage (db : SqsMemoryDb) (receiptHandle : Str) : SqsMemoryDb :=
  { db with messages := db.messages.eraseIf fun _ message =>
      message.receiptHandle = receiptHandle }

def deleteAllMessages (db : SqsMemoryDb) : SqsMemoryDb := { db with messages := ∅ }

end SqsMemoryDb

end AwsMock.Sqs
