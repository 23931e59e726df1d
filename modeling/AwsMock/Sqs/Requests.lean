import AwsMock.Lib.Triple
import AwsMock.Sqs.Service
import AwsMock.Sqs.Steps

/-!
# Requests, alone in the process

The result of a whole request when no other call falls between its store calls.
-/

namespace AwsMock.Sqs

open Lib

variable {cfg : Configuration} {rt : Runtime}

/-- A receipt handle exists when some stored message has it. -/
theorem messageExists_iff {db : SqsMemoryDb} {receiptHandle : Str} :
    db.messageExists receiptHandle = true ↔
      ∃ k m, db.messages.get? k = some m ∧ m.receiptHandle = receiptHandle := by
  unfold SqsMemoryDb.messageExists
  constructor
  · intro h
    obtain ⟨e, he⟩ := Option.isSome_iff_exists.mp h
    obtain ⟨hget, hp⟩ := OrderedMap.findIf_some he
    exact ⟨e.1, e.2, hget, by simpa using hp⟩
  · rintro ⟨k, m, hm, hh⟩
    by_contra hnone
    rw [Option.not_isSome_iff_eq_none, OrderedMap.findIf_none] at hnone
    simpa [hh] using hnone k m hm

/-- What `DeleteMessage` does, alone in the process. -/
theorem deleteMessage_run (request : DeleteMessageRequest) (w : World) :
    (deleteMessage request).run (exec cfg rt) w =
      if w.db.messageExists request.receiptHandle then
        some (.ok (), ⟨w.db.deleteMessage request.receiptHandle, w.calls + 2⟩)
      else some (.error (messageDoesNotExist request.receiptHandle), ⟨w.db, w.calls + 1⟩) := by
  rw [deleteMessage, guarded, Prog.run_mapThrow, Prog.run_perform_bind]
  simp only [exec, SqsCall.apply, Option.map_some, Option.bind_some]
  split
  · rfl
  · rfl

/-- Where records carry their keys, a lookup by receipt handle reads the record that has it. -/
theorem getMessageByReceiptHandle_eq {db : SqsMemoryDb} (h : db.KeyedMessages)
    {receiptHandle : Str} {e : Str × Message}
    (he : db.messages.findIf (fun _ m => m.receiptHandle = receiptHandle) = some e)
    (now : TimePoint) : db.getMessageByReceiptHandle receiptHandle now = (e.2, db) := by
  have hget := (OrderedMap.findIf_some he).1
  refine Prod.ext ?_ (SqsMemoryDb.fetchMessage_snd h _ _)
  rw [SqsMemoryDb.getMessageByReceiptHandle, he, SqsMemoryDb.fetchMessage_fst h hget]

/-- `SetVisibilityTimeout` rewrites the record with the handle, or fails. -/
theorem setVisibilityTimeout_run (request : ChangeMessageVisibilityRequest) {w : World}
    (h : w.db.KeyedMessages) : (setVisibilityTimeout request).run (exec cfg rt) w =
      match w.db.messages.findIf fun _ m => m.receiptHandle = request.receiptHandle with
      | none => some (.error (messageDoesNotExist request.receiptHandle), ⟨w.db, w.calls + 1⟩)
      | some e =>
        let message := withVisibility request.visibilityTimeout (rt.now (w.calls + 2)) e.2
        some (.ok (), ⟨{ w.db with messages := w.db.messages.insert e.1 message },
          w.calls + 4⟩) := by
  rw [setVisibilityTimeout, Prog.run_perform_bind]
  simp only [exec, SqsCall.apply, SqsMemoryDb.messageExists, Option.map_some, Option.bind_some]
  cases he : w.db.messages.findIf fun _ m => m.receiptHandle = request.receiptHandle with
  | none => rfl
  | some e =>
    have hget := (OrderedMap.findIf_some he).1
    have hkey : (withVisibility request.visibilityTimeout (rt.now (w.calls + 2)) e.2).oid = e.1 := by
      have := h _ _ hget
      exact this
    have hupdate : w.db.updateMessage (withVisibility request.visibilityTimeout
        (rt.now (w.calls + 2)) e.2) = some (_, _) :=
      (SqsMemoryDb.updateMessage_eq_some h).mpr ⟨⟨e.2, hkey ▸ hget⟩, rfl⟩
    simp only [Option.isSome_some, if_true, guarded, Prog.run_mapThrow, Prog.run_perform_bind,
      exec, SqsCall.apply, Option.map_some, Option.bind_some,
      getMessageByReceiptHandle_eq h he, hupdate, hkey]
    rfl

/-- Every record a `SetVisibilityTimeout` leaves is an old one, up to the change. -/
theorem setVisibilityTimeout_keeps {request : ChangeMessageVisibilityRequest} {w : World}
    (h : w.db.KeyedMessages) {r} (hr : (setVisibilityTimeout request).run (exec cfg rt) w = some r)
    {k : Str} {m' : Message} (hm' : r.2.db.messages.get? k = some m') :
    ∃ m, w.db.messages.get? k = some m ∧
      (m' = m ∨ ∃ now, m' = withVisibility request.visibilityTimeout now m) := by
  rw [setVisibilityTimeout_run request h] at hr
  cases he : w.db.messages.findIf fun _ m => m.receiptHandle = request.receiptHandle with
  | none =>
    rw [he] at hr
    cases hr
    exact ⟨m', hm', .inl rfl⟩
  | some e =>
    rw [he] at hr
    cases hr
    simp only [OrderedMap.get?_insert] at hm'
    split at hm'
    · next hk =>
      cases hm'
      exact ⟨e.2, hk ▸ (OrderedMap.findIf_some he).1, .inr ⟨_, rfl⟩⟩
    · exact ⟨m', hm', .inl rfl⟩

/-- The record a send stores when its first call is the `n`-th. -/
def sentMessage (env : Env) (rt : Runtime) (request : SendMessageRequest) (queue : Queue)
    (n : Nat) : Message where
  region := request.region
  queueUrl := queue.queueUrl
  queueName := queue.name
  body := request.body
  status := .initial
  reset :=
    if queue.attributes.delaySeconds > 0 then
      rt.now (n + 3) + seconds queue.attributes.delaySeconds
    else rt.now (n + 3) + seconds queue.attributes.visibilityTimeout
  messageId := rt.uuid (n + 4)
  receiptHandle := rt.receiptHandle (n + 5) []
  md5Body := env.md5 request.body
  md5UserAttr := getMd5MessageAttributes env.md5 request.messageAttributes
  md5SystemAttr := getMd5Attributes env.md5 request.attributes
  attributes := systemAttributes request queue (rt.now (n + 1)) (rt.now (n + 2))
  messageAttributes := storedAttributes request.messageAttributes
  created := rt.now (n + 6)
  modified := rt.now (n + 6)

/-- The answer to a send that stored `message`. -/
def sendResponse (request : SendMessageRequest) (message : Message) : SendMessageResponse where
  queueUrl := message.queueUrl
  messageId := message.messageId
  receiptHandle := message.receiptHandle
  md5Body := message.md5Body
  md5UserAttr := message.md5UserAttr
  md5SystemAttr := message.md5SystemAttr
  requestId := request.requestId

/-- The record and the store a send leaves when its first call is the next one. -/
theorem sendToQueue_run (env : Env) (request : SendMessageRequest) (w : World) :
    (sendToQueue env request).run (exec cfg rt) w =
      let found := w.db.getQueueByUrl request.queueUrl (rt.now w.calls)
      let message := sentMessage env rt request found.1 w.calls
      let oid := rt.uuid (w.calls + 7)
      let messages := found.2.messages.insert oid { message with oid := oid }
      some (.ok (sendResponse request message), ⟨{ found.2 with messages := messages },
        w.calls + 8⟩) := by
  simp only [sendToQueue, guarded, Prog.run_mapThrow, Prog.run_perform_bind, exec, SqsCall.apply,
    Option.map_some, Option.bind_some, SqsMemoryDb.createMessage_eq]
  rfl

/-- The calls of a send: it stores a visible message that was not received. -/
def SqsCall.Sends : SqsCall → Prop
  | .queueUrlExists .. | .getQueueByUrl .. | .clockNow | .createMessageId
  | .createSqsReceiptHandler => True
  | .createMessage message => message.status = .initial ∧ message.retries = 0
  | _ => False

theorem sendMessage_only (env : Env) (request : SendMessageRequest) :
    (sendMessage env request).Only SqsCall.Sends := by
  have hsend : (sendToQueue env request).Only SqsCall.Sends :=
    Prog.only_mapThrow ⟨trivial, fun _ => ⟨trivial, fun _ => ⟨trivial, fun _ => ⟨trivial, fun _ =>
      ⟨trivial, fun _ => ⟨trivial, fun _ => ⟨trivial, fun _ => ⟨⟨rfl, rfl⟩, fun _ => trivial⟩⟩⟩⟩⟩⟩⟩⟩
  unfold sendMessage
  split
  · exact hsend
  · refine Prog.only_bind (Prog.only_perform trivial) fun found => ?_
    split
    · exact hsend
    · exact Prog.only_throw _

/-- So no send stores a delayed message. -/
theorem sendMessage_undelaying (env : Env) (request : SendMessageRequest) :
    (sendMessage env request).Only SqsCall.Undelaying := by
  refine (sendMessage_only env request).mono fun c hc => ?_
  cases c with
  | createMessage message =>
    obtain ⟨hs, -⟩ := hc
    simp [SqsCall.Undelaying, hs]
  | updateMessage => exact hc.elim
  | _ => trivial

/-! ### Receiving -/

/-- The calls of a receive. -/
def SqsCall.Receives : SqsCall → Prop
  | .clockNow | .queueUrlExists .. | .getQueueByUrl .. | .resetMessages .. | .receiveMessages .. => True
  | _ => False

theorem pollMessages_only (queue : Queue) (request : ReceiveMessageRequest) (start : TimePoint) :
    ∀ (rounds : Nat) (elapsed : Int),
      (pollMessages queue request start rounds elapsed).Only SqsCall.Receives
  | 0, _ => trivial
  | rounds + 1, elapsed => by
    unfold pollMessages
    split
    · refine Prog.only_bind ⟨trivial, fun _ => ⟨trivial, fun _ => trivial⟩⟩ fun messageList => ?_
      split
      · exact Prog.only_pure _
      · exact ⟨trivial, fun now => pollMessages_only queue request start rounds _⟩
    · exact Prog.only_pure _

theorem receiveFromQueue_only (request : ReceiveMessageRequest) :
    (receiveFromQueue request).Only SqsCall.Receives := by
  refine Prog.only_mapThrow (Prog.only_bind ⟨trivial, fun _ => trivial⟩ fun queue => ?_)
  refine Prog.only_bind ⟨trivial, fun _ => trivial⟩ fun start => ?_
  refine Prog.only_bind (pollMessages_only queue request start _ _) fun messageList => ?_
  split
  · exact Prog.only_pure _
  · exact Prog.only_pure _

theorem receiveMessages_only (request : ReceiveMessageRequest) :
    (receiveMessages request).Only SqsCall.Receives := by
  unfold receiveMessages
  split
  · exact receiveFromQueue_only request
  · refine Prog.only_bind ⟨trivial, fun _ => trivial⟩ fun found => ?_
    split
    · exact receiveFromQueue_only request
    · exact Prog.only_throw _

/-- A first round of polling that finds a message ends the polling. -/
theorem pollMessages_first {queue : Queue} {request : ReceiveMessageRequest} {start : TimePoint}
    (rounds : Nat) (w : World) (hwait : 0 < request.waitTimeSeconds) {r : List Message × SqsMemoryDb}
    (hr : (w.db.resetMessages queue.queueUrl (rt.clock w.calls)).receiveMessages queue.region
      queue.queueUrl queue.attributes.visibilityTimeout request.maxMessages
      (rt.now (w.calls + 1)) (rt.receiptHandle (w.calls + 1)) = r) (hne : r.1 ≠ []) :
    (pollMessages queue request start (rounds + 1) 0).run (exec cfg rt) w =
      some (.ok r.1, ⟨r.2, w.calls + 2⟩) := by
  rw [pollMessages, if_pos hwait, Prog.run_bind]
  simp only [databaseReceiveMessages, Prog.run_perform_bind, Prog.run_perform, exec,
    SqsCall.apply, Option.map_some, Option.bind_some, hr]
  rw [if_pos hne]
  rfl

/-! ### The worker -/

/-- The calls the worker makes for a queue of its snapshot. -/
def SqsCall.Maintains (queue : Queue) : SqsCall → Prop
  | .messageRetention queueUrl _ | .resetMessages queueUrl _ | .resetDelayedMessages queueUrl _ =>
    queueUrl = queue.queueUrl
  | .countMessages .. | .countMessagesByStatus .. => True
  | .redriveMessages queueUrl redrivePolicy => queueUrl = queue.queueUrl ∧
      redrivePolicy = queue.attributes.redrivePolicy ∧ redrivePolicy.deadLetterTargetArn ≠ []
  | .updateQueue q => ∃ messages delayed notVisible,
      q = withCounters queue messages delayed notVisible
  | _ => False

theorem maintainQueue_only (queue : Queue) :
    (maintainQueue queue).Only (SqsCall.Maintains queue) := by
  unfold maintainQueue
  refine Prog.only_bind (Prog.only_when fun _ => Prog.only_perform rfl) fun _ => ?_
  refine Prog.only_bind (Prog.only_perform rfl) fun _ => ?_
  refine Prog.only_bind (Prog.only_perform trivial) fun messages => ?_
  refine Prog.only_bind (Prog.only_perform trivial) fun delayed => ?_
  refine Prog.only_bind (Prog.only_perform trivial) fun notVisible => ?_
  refine Prog.only_bind (Prog.only_when fun harn => Prog.only_perform ⟨rfl, rfl, harn⟩) fun _ => ?_
  refine Prog.only_bind (Prog.only_when fun _ => Prog.only_perform rfl) fun _ => ?_
  exact Prog.only_bind (Prog.only_perform ⟨_, _, _, rfl⟩) fun _ => Prog.only_pure _

/-- The work on a queue keeps what each of its calls keeps. -/
theorem maintainQueue_total {σ : Type} {exec : Prog.Exec SqsCall SqsCall.Reply σ} {I : σ → Prop}
    {queue : Queue} (h : ∀ c s, c.Maintains queue → I s → ∃ r, exec c s = some r ∧ I r.2) :
    (maintainQueue queue).Total exec I fun _ => I := by
  have hcall : ∀ c : SqsCall, c.Maintains queue → (call c).Total exec I fun _ => I :=
    fun c hc => Prog.total_perform fun s hs => h c s hc hs
  unfold maintainQueue
  refine Prog.total_bind (Prog.total_when (fun _ => hcall _ rfl) fun _ _ hs => hs) fun _ => ?_
  refine Prog.total_bind (hcall _ rfl) fun _ => ?_
  refine Prog.total_bind (hcall _ trivial) fun messages => ?_
  refine Prog.total_bind (hcall _ trivial) fun delayed => ?_
  refine Prog.total_bind (hcall _ trivial) fun notVisible => ?_
  refine Prog.total_bind (Prog.total_when (fun harn => hcall _ ⟨rfl, rfl, harn⟩) fun _ _ hs => hs)
    fun _ => ?_
  refine Prog.total_bind (Prog.total_when (fun _ => hcall _ rfl) fun _ _ hs => hs) fun _ => ?_
  exact Prog.total_bind (hcall _ ⟨_, _, _, rfl⟩) fun _ => Prog.total_pure () fun _ hs => hs

end AwsMock.Sqs
