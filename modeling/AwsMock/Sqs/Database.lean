import Mathlib.Algebra.Order.Ring.Int
import AwsMock.Lib.Prog
import AwsMock.Sqs.MemoryDb

/-!
# Calls to the SQS store

`SqsCall` lists what a client of `SQSDatabase` can ask of the process it runs in: the methods of the
in-memory store, each one atomic, and the clock and random generators. `Runtime` holds what the
`n`-th call of a run draws from outside, with what is assumed of it: random ids and receipt
handles never repeat and are not empty, and time does not go backwards.
-/

namespace AwsMock.Sqs

open Lib

/-- The draws of the `n`-th call: a fresh id, a fresh receipt handle for the message under a key,
    the clock when the call starts and when its loop visits a key. -/
structure Runtime where
  uuid : Nat → Str
  receiptHandle : Nat → Str → Str
  now : Nat → TimePoint
  clock : Nat → Str → TimePoint
  uuid_ne : ∀ n, uuid n ≠ []
  uuid_inj : ∀ {n m}, uuid n = uuid m → n = m
  receiptHandle_inj : ∀ {n m k l}, receiptHandle n k = receiptHandle m l → n = m ∧ k = l
  receiptHandle_ne : ∀ n k, receiptHandle n k ≠ []
  now_mono : ∀ {n m}, n ≤ m → now n ≤ now m
  now_le_clock : ∀ {n m} k, n ≤ m → now n ≤ clock m k
  clock_le_now : ∀ {n m} k, n < m → clock n k ≤ now m

/-- Strings of one repeated byte, ended by another, are told apart by their length and rest. -/
theorem replicate_append_inj {a b : UInt8} (hab : a ≠ b) : ∀ {n m : Nat} {k l : Str},
    List.replicate n a ++ b :: k = List.replicate m a ++ b :: l → n = m ∧ k = l
  | 0, 0, k, l, h => by simpa using h
  | 0, m + 1, k, l, h => by simp [List.replicate_succ, hab.symm] at h
  | n + 1, 0, k, l, h => by simp [List.replicate_succ, hab] at h
  | n + 1, m + 1, k, l, h => by
    simp only [List.replicate_succ, List.cons_append, List.cons.injEq, true_and] at h
    obtain ⟨rfl, rfl⟩ := replicate_append_inj hab h
    exact ⟨rfl, rfl⟩

theorem seconds_mul_mono (tick : Nat) {n m : Nat} (h : n ≤ m) :
    seconds (n * tick) ≤ seconds (m * tick) := by
  have : (n : Int) * tick ≤ m * tick := by exact_mod_cast Nat.mul_le_mul_right tick h
  exact Int.mul_le_mul_of_nonneg_right this (by decide)

/-- A runtime that counts: `tick` seconds pass from call to call. -/
def Runtime.counting (tick : Nat) : Runtime where
  uuid n := List.replicate (n + 1) (byte 'u')
  receiptHandle n k := List.replicate n (byte 'r') ++ byte '/' :: k
  now n := seconds (n * tick)
  clock n _ := seconds (n * tick)
  uuid_ne := replicate_u_ne
  uuid_inj := replicate_succ_u_inj
  receiptHandle_inj := replicate_append_inj (by decide)
  receiptHandle_ne n k := by simp
  now_mono := seconds_mul_mono tick
  now_le_clock _ := seconds_mul_mono tick
  clock_le_now _ h := seconds_mul_mono tick h.le

inductive SqsCall where
  | clockNow
  | createMessageId
  | createSqsReceiptHandler
  | queueExists (region name : Str)
  | queueUrlExists (region queueUrl : Str)
  | queueArnExists (queueArn : Str)
  | createQueue (queue : Queue)
  | getQueueById (oid : Str)
  | getQueueByArn (queueArn : Str)
  | getQueueByUrl (region queueUrl : Str)
  | getQueueByName (region name : Str)
  | listQueues (region : Str)
  | purgeQueue (region queueUrl : Str)
  | updateQueue (queue : Queue)
  | countQueues (region : Str)
  | deleteQueue (region queueUrl : Str)
  | deleteAllQueues
  | createMessage (message : Message)
  | messageExists (receiptHandle : Str)
  | getMessageById (oid : Str)
  | getMessageByReceiptHandle (receiptHandle : Str)
  | updateMessage (message : Message)
  | listMessages (region : Str)
  | receiveMessages (region queueUrl : Str) (visibility maxMessages : Int)
  | resetMessages (queueUrl : Str) (visibility : Int)
  | redriveMessages (queueUrl : Str) (redrivePolicy : RedrivePolicy)
  | resetDelayedMessages (queueUrl : Str) (delay : Int)
  | messageRetention (queueUrl : Str) (retentionPeriod : Int)
  | countMessages (region queueUrl : Str)
  | countMessagesByStatus (region queueUrl : Str) (status : MessageStatus)
  | deleteMessages (queueUrl : Str)
  | deleteMessage (receiptHandle : Str)
  | deleteAllMessages
  deriving DecidableEq

namespace SqsCall

/-- What a call returns. -/
abbrev Reply : SqsCall → Type
  | clockNow => TimePoint
  | createMessageId | createSqsReceiptHandler => Str
  | queueExists .. | queueUrlExists .. | queueArnExists .. | messageExists .. => Bool
  | createQueue .. | getQueueById .. | getQueueByArn .. | getQueueByUrl .. | getQueueByName ..
  | updateQueue .. => Queue
  | listQueues .. => List Queue
  | countQueues .. | countMessages .. | countMessagesByStatus .. => Nat
  | createMessage .. | getMessageById .. | getMessageByReceiptHandle .. | updateMessage .. =>
    Message
  | listMessages .. | receiveMessages .. => List Message
  | purgeQueue .. | deleteQueue .. | deleteAllQueues | resetMessages .. | redriveMessages ..
  | resetDelayedMessages .. | messageRetention .. | deleteMessages .. | deleteMessage ..
  | deleteAllMessages => Unit

/-- The `n`-th call of a run on the in-memory store. -/
def apply (cfg : Configuration) (rt : Runtime) (n : Nat) (db : SqsMemoryDb) :
    (c : SqsCall) → Option (c.Reply × SqsMemoryDb)
  | clockNow => some (rt.now n, db)
  | createMessageId => some (rt.uuid n, db)
  | createSqsReceiptHandler => some (rt.receiptHandle n [], db)
  | queueExists region name => some (db.queueExists region name, db)
  | queueUrlExists region queueUrl => some (db.queueUrlExists region queueUrl, db)
  | queueArnExists queueArn => some (db.queueArnExists queueArn, db)
  | createQueue queue => some (db.createQueue (rt.uuid n) queue (rt.now n))
  | getQueueById oid => some (db.getQueueById oid (rt.now n))
  | getQueueByArn queueArn => some (db.getQueueByArn queueArn (rt.now n))
  | getQueueByUrl _ queueUrl => some (db.getQueueByUrl queueUrl (rt.now n))
  | getQueueByName region name => some (db.getQueueByName region name (rt.now n))
  | listQueues region => some (db.listQueues region, db)
  | purgeQueue region queueUrl => some ((), db.purgeQueue region queueUrl)
  | updateQueue queue => db.updateQueue queue
  | countQueues region => some (db.countQueues region, db)
  | deleteQueue region queueUrl => some ((), db.deleteQueue region queueUrl)
  | deleteAllQueues => some ((), db.deleteAllQueues)
  | createMessage message => some (db.createMessage (rt.uuid n) message (rt.now n))
  | messageExists receiptHandle => some (db.messageExists receiptHandle, db)
  | getMessageById oid => some (db.getMessageById oid (rt.now n))
  | getMessageByReceiptHandle receiptHandle =>
    some (db.getMessageByReceiptHandle receiptHandle (rt.now n))
  | updateMessage message => db.updateMessage message
  | listMessages region => some (db.listMessages region, db)
  | receiveMessages region queueUrl visibility maxMessages =>
    some (db.receiveMessages region queueUrl visibility maxMessages (rt.now n)
      (rt.receiptHandle n))
  | resetMessages queueUrl _ => some ((), db.resetMessages queueUrl (rt.clock n))
  | redriveMessages queueUrl redrivePolicy =>
    some ((), db.redriveMessages cfg queueUrl redrivePolicy)
  | resetDelayedMessages queueUrl _ => some ((), db.resetDelayedMessages queueUrl (rt.clock n))
  | messageRetention queueUrl _ =>
    (db.messageRetention queueUrl (rt.clock n)).map fun db' => ((), db')
  | countMessages region queueUrl => some (db.countMessages region queueUrl, db)
  | countMessagesByStatus region queueUrl status =>
    some (db.countMessagesByStatus region queueUrl status, db)
  | deleteMessages queueUrl => some ((), db.deleteMessages queueUrl)
  | deleteMessage receiptHandle => some ((), db.deleteMessage receiptHandle)
  | deleteAllMessages => some ((), db.deleteAllMessages)

end SqsCall

/-- The process: its store and the number of calls made so far. -/
structure World where
  db : SqsMemoryDb := {}
  calls : Nat := 0
  deriving DecidableEq

/-- The meaning of a call in the process. -/
def exec (cfg : Configuration) (rt : Runtime) : Prog.Exec SqsCall SqsCall.Reply World :=
  fun c w => (c.apply cfg rt w.calls w.db).map fun r => (r.1, ⟨r.2, w.calls + 1⟩)

end AwsMock.Sqs
