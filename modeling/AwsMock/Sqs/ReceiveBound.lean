import AwsMock.Core.HttpUtils
import AwsMock.Dto.ClientCommand
import AwsMock.Sqs.Requests

/-!
# How many messages a receive returns

`RECEIVE_MESSAGE` from the request that carries the limit to the messages that are returned. The limit is
compared after a message is added, as an unsigned number, and the parser of the forms does not let its
bounds through.
-/

namespace AwsMock.Sqs

open Lib

/-! ### The request -/

/-- The strings of an array that are appended to a list, if there is one. `getArray` returns a null pointer for
    another value, whose access throws. -/
def appendStrings (poco : Poco) (name : Str) (members : List (Str × Json)) (names : List Str) :
    Except Error (List Str) :=
  match Json.member name members with
  | some (.arr items) => (items.mapM fun item => pocoTry (poco.convertString item)).map fun added => names ++ added
  | some _ => .error (.pocoException [])
  | none => .ok names

/-- The guarded block of `ReceiveMessageRequest::FromJson`: both lists are appended to the message attribute
    names. -/
def ReceiveMessageRequest.ofMembers (env : Env) (members : List (Str × Json)) (request : ReceiveMessageRequest) :
    Except Error ReceiveMessageRequest := do
  let queueUrl ← getJsonValue env.poco.convertString (str "QueueUrl") members request.queueUrl
  let maxMessages ← getJsonValue env.poco.convertInt (str "MaxNumberOfMessages") members request.maxMessages
  let waitTimeSeconds ← getJsonValue env.poco.convertInt (str "WaitTimeSeconds") members request.waitTimeSeconds
  let visibilityTimeout ←
    getJsonValue env.poco.convertInt (str "VisibilityTimeout") members request.visibilityTimeout
  let names ← appendStrings env.poco (str "AttributeNames") members request.messageAttributeNames
  let names ← appendStrings env.poco (str "MessageAttributeNames") members names
  return { request with
    queueUrl := sanitizeSQSUrl env.cfg queueUrl, maxMessages := maxMessages, waitTimeSeconds := waitTimeSeconds,
    visibilityTimeout := visibilityTimeout, messageAttributeNames := names }

/-- `ReceiveMessageRequest::FromJson`. -/
def ReceiveMessageRequest.fromJson (env : Env) (jsonString : Str) (request : ReceiveMessageRequest) :
    Except Error ReceiveMessageRequest := do
  match ← pocoTry (env.poco.parse jsonString) with
  | .obj members => (request.ofMembers env members).mapError Error.toServiceException
  | _ => .error (.pocoException (str "Can not convert"))

/-- The request that the handler makes of a `RECEIVE_MESSAGE` command; `requestId` is random. -/
def receiveMessageRequest (env : Env) (lib : PocoUri) (requestId : Str) (clientCommand : SQSClientCommand) :
    Outcome Error ReceiveMessageRequest :=
  if clientCommand.contentType = str "json" then do
    let sqsRequest ← .ofExcept (ReceiveMessageRequest.fromJson env clientCommand.payload {})
    return { sqsRequest with region := clientCommand.region }
  else do
    let queueUrl ← getQueryParameterValueByName lib clientCommand.payload (str "QueueUrl")
    let maxMessages ← getIntParameter lib clientCommand.payload (str "MaxNumberOfMessages") 1 10 3
    let waitTimeSeconds ← getIntParameter lib clientCommand.payload (str "WaitTimeSeconds") 1 900 5
    let visibility ← getIntParameter lib clientCommand.payload (str "VisibilityTimeout") 1 900 30
    return { region := clientCommand.region, queueUrl := queueUrl, maxMessages := maxMessages,
             visibilityTimeout := visibility, waitTimeSeconds := waitTimeSeconds, requestId := requestId }

/-- The limit that the command carries, as a member of the JSON object or as a parameter of the form. -/
def Carries (env : Env) (lib : PocoUri) (clientCommand : SQSClientCommand) (n : Int) : Prop :=
  IsInt n ∧ if clientCommand.contentType = str "json" then ∃ members,
      env.poco.parse clientCommand.payload = .ok (.obj members) ∧
        Json.member (str "MaxNumberOfMessages") members = some (.int n)
    else getQueryParameterValueByName lib clientCommand.payload (str "MaxNumberOfMessages") = .returns (toStr n)

/-! ### What is returned -/

/-- The queue that a URL names. -/
def SqsMemoryDb.queueAt (db : SqsMemoryDb) (queueUrl : Str) : Queue := (db.getQueueByUrl queueUrl 0).1

/-- The message is one of the queue. -/
def Message.isIn (queue : Queue) (message : Message) : Prop :=
  message.region = queue.region ∧ message.queueUrl = queue.queueUrl

/-- Different messages of the queue are returned, at most `n` of them, and one if there is one to return. -/
def ReceivesUpTo (env : Env) (rt : Runtime) (n : Int) (request : ReceiveMessageRequest) (w : World) : Prop :=
  ∃ response w', (receiveMessages request).run (exec env.cfg rt) w = some (.ok response, w') ∧
    (response.messageList.map Message.oid).Nodup ∧
    (∀ m ∈ response.messageList, ∃ stored, w.db.messages.get? m.oid = some stored ∧
      stored.isIn (w.db.queueAt request.queueUrl)) ∧
    response.messageList.length ≤ max n 0 ∧
    (1 ≤ n → (∃ k m, w.db.messages.get? k = some m ∧ m.isIn (w.db.queueAt request.queueUrl) ∧ m.status = .initial) →
      response.messageList ≠ [])

/-- The state of a process in which the queue exists. -/
def Serves (env : Env) (rt : Runtime) (request : ReceiveMessageRequest) (w : World) : Prop :=
  (∃ before, Prog.execAll (exec env.cfg rt) before {} = some w) ∧
    (request.queueUrl = [] ∨ w.db.queueUrlExists request.region request.queueUrl = true)

/-- The limits that are kept: a positive limit of a JSON request that waits, or none of one that does not, and
    a limit from two on of a form. -/
def LimitKept (clientCommand : SQSClientCommand) (n waitTimeSeconds : Int) : Prop :=
  if clientCommand.contentType = str "json" then 1 ≤ n ↔ 1 ≤ waitTimeSeconds else 2 ≤ n

variable {env : Env} {lib : PocoUri} {rt : Runtime} {clientCommand : SQSClientCommand} {n : Int}
  {request : ReceiveMessageRequest} {w : World}

/-! ### The limit of the request -/

theorem getIntParameter_of_carried {body name : Str} {low high default : Int} (hn : IsInt n)
    (h : getQueryParameterValueByName lib body name = .returns (toStr n)) :
    getIntParameter lib body name low high default =
      .returns (if low < n ∧ n < high then n else default) := by
  have hne : toStr n ≠ [] := by
    intro hnil
    have hstoi := stoi_toStr hn
    rw [hnil] at hstoi
    cases hstoi
  rw [getIntParameter, h, Outcome.returns_bind, if_neg hne, stoi_toStr hn]
  rfl

theorem maxMessages_json (hjson : clientCommand.contentType = str "json") {requestId : Str}
    (hrequest : receiveMessageRequest env lib requestId clientCommand = .returns request)
    (hn : Carries env lib clientCommand n) : request.maxMessages = n := by
  obtain ⟨hint, hcarries⟩ := hn
  rw [if_pos hjson] at hcarries
  obtain ⟨members, hparse, hmember⟩ := hcarries
  rw [receiveMessageRequest, if_pos hjson] at hrequest
  obtain ⟨sqsRequest, hfrom, hrequest⟩ := Outcome.bind_eq_returns.mp hrequest
  cases hrequest
  change sqsRequest.maxMessages = n
  rw [ReceiveMessageRequest.fromJson, hparse] at hfrom
  change Outcome.ofExcept ((ReceiveMessageRequest.ofMembers env members {}).mapError _) = _ at hfrom
  rcases hmembers : ReceiveMessageRequest.ofMembers env members {} with e | read
  · rw [hmembers] at hfrom
    cases hfrom
  · rw [hmembers] at hfrom
    cases hfrom
    obtain ⟨url, -, hmembers⟩ := except_bind_eq_ok.mp hmembers
    obtain ⟨limit, hlimit, hmembers⟩ := except_bind_eq_ok.mp hmembers
    obtain ⟨wait, -, hmembers⟩ := except_bind_eq_ok.mp hmembers
    obtain ⟨visibility, -, hmembers⟩ := except_bind_eq_ok.mp hmembers
    obtain ⟨names, -, hmembers⟩ := except_bind_eq_ok.mp hmembers
    obtain ⟨names', -, hmembers⟩ := except_bind_eq_ok.mp hmembers
    cases hmembers
    have hconvert := env.poco.convertInt_int n hint
    simp only [getJsonValue, hmember, hconvert, pocoTry] at hlimit
    exact (Except.ok.inj hlimit).symm

theorem getIntParameter_range {body name : Str} {low high default value : Int} (hdefault : low < default)
    (h : getIntParameter lib body name low high default = .returns value) : low < value := by
  obtain ⟨text, -, h⟩ := Outcome.bind_eq_returns.mp h
  split at h
  · cases h
    exact hdefault
  · obtain ⟨number, -, h⟩ := Outcome.bind_eq_returns.mp h
    cases h
    split
    · next hrange => exact hrange.1
    · exact hdefault

theorem request_form (hform : clientCommand.contentType ≠ str "json") {requestId : Str}
    (hrequest : receiveMessageRequest env lib requestId clientCommand = .returns request)
    (hn : Carries env lib clientCommand n) :
    request.maxMessages = (if 1 < n ∧ n < 10 then n else 3) ∧ 1 < request.waitTimeSeconds := by
  obtain ⟨hint, hcarries⟩ := hn
  rw [if_neg hform] at hcarries
  rw [receiveMessageRequest, if_neg hform, getIntParameter_of_carried hint hcarries] at hrequest
  obtain ⟨url, -, hrequest⟩ := Outcome.bind_eq_returns.mp hrequest
  rw [Outcome.returns_bind] at hrequest
  obtain ⟨wait, hwait, hrequest⟩ := Outcome.bind_eq_returns.mp hrequest
  obtain ⟨visibility, -, hrequest⟩ := Outcome.bind_eq_returns.mp hrequest
  cases hrequest
  exact ⟨rfl, getIntParameter_range (by decide) hwait⟩

/-! ### The polling -/

/-- What a receive may return. -/
structure Returnable (db : SqsMemoryDb) (queue : Queue) (maxMessages : Int) (messageList : List Message) : Prop where
  distinct : (messageList.map Message.oid).Nodup
  stored : ∀ m ∈ messageList, ∃ stored, db.messages.get? m.oid = some stored ∧ stored.isIn queue
  length : messageList.length ≤ max 1 (maxMessages % 18446744073709551616).toNat

/-- The messages of a store are those of another one, up to their status. -/
def MessagesFrom (db db' : SqsMemoryDb) : Prop := db'.KeyedMessages ∧ ∀ k m, db'.messages.get? k = some m →
  ∃ stored, db.messages.get? k = some stored ∧ stored.region = m.region ∧ stored.queueUrl = m.queueUrl

theorem MessagesFrom.returnable {db db' : SqsMemoryDb} (h : MessagesFrom db db') (queue : Queue) (maxMessages : Int)
    (receiptHandle : Str → Str) : Returnable db queue maxMessages
      ((db'.received queue.region queue.queueUrl maxMessages).map (SqsMemoryDb.handOut receiptHandle)) := by
  have hoid : ∀ e ∈ db'.received queue.region queue.queueUrl maxMessages, e.2.oid = e.1 :=
    fun e he => h.1 _ _ (SqsMemoryDb.mem_received he).1
  refine ⟨?_, fun m hm => ?_, ?_⟩
  · have hkeys : (db'.received queue.region queue.queueUrl maxMessages).map
        (Message.oid ∘ SqsMemoryDb.handOut receiptHandle) = _ := List.map_congr_left hoid
    rw [List.map_map, hkeys]
    exact SqsMemoryDb.received_keys_nodup
  · obtain ⟨e, he, rfl⟩ := List.mem_map.mp hm
    obtain ⟨hget, hregion, hurl, -⟩ := SqsMemoryDb.mem_received he
    obtain ⟨stored, hstored, hr, hu⟩ := h.2 _ _ hget
    exact ⟨stored, (congrArg db.messages.get? (hoid e he)).trans hstored, hr.trans hregion, hu.trans hurl⟩
  · rw [List.length_map]
    exact (List.length_take_le _ _).trans (by simp)

theorem MessagesFrom.refl {db : SqsMemoryDb} (h : db.KeyedMessages) : MessagesFrom db db :=
  ⟨h, fun _ m hm => ⟨m, hm, rfl, rfl⟩⟩

/-- A reset at the start of a round. -/
theorem MessagesFrom.reset {db db' : SqsMemoryDb} (h : MessagesFrom db db') (queueUrl : Str) (clock : Str → TimePoint) :
    MessagesFrom db (db'.resetMessages queueUrl clock) := by
  have hget : ∀ k m, (db'.resetMessages queueUrl clock).messages.get? k = some m →
      ∃ m', db'.messages.get? k = some m' ∧ m.oid = m'.oid ∧ m.region = m'.region ∧ m.queueUrl = m'.queueUrl := by
    intro k m hm
    simp only [SqsMemoryDb.resetMessages, OrderedMap.get?_assignEach, Option.map_eq_some_iff] at hm
    obtain ⟨m', hm', rfl⟩ := hm
    refine ⟨m', hm', ?_⟩
    split <;> exact ⟨rfl, rfl, rfl⟩
  refine ⟨fun k m hm => ?_, fun k m hm => ?_⟩
  · obtain ⟨m', hm', hoid, -⟩ := hget k m hm
    exact hoid.trans (h.1 k m' hm')
  · obtain ⟨m', hm', -, hregion, hurl⟩ := hget k m hm
    obtain ⟨stored, hstored, hr, hu⟩ := h.2 k m' hm'
    exact ⟨stored, hstored, hr.trans hregion.symm, hu.trans hurl.symm⟩

/-- A round that finds nothing changes nothing. -/
theorem receiveMessages_nothing {db : SqsMemoryDb} {region queueUrl : Str} {visibility maxMessages : Int}
    {now : TimePoint} {receiptHandle : Str → Str}
    (h : (db.receiveMessages region queueUrl visibility maxMessages now receiptHandle).1 = []) :
    (db.receiveMessages region queueUrl visibility maxMessages now receiptHandle).2 = db := by
  rw [SqsMemoryDb.receiveMessages_eq] at h ⊢
  have hnil := List.map_eq_nil_iff.mp h
  refine congrArg (SqsMemoryDb.mk db.queues) (OrderedMap.ext_get? fun k => ?_)
  rw [OrderedMap.get?_mapVal, hnil]
  cases db.messages.get? k <;> simp

variable {queue : Queue} {start : TimePoint}

/-- Whatever the number of rounds is, the polling returns what may be returned. -/
theorem pollMessages_run {db : SqsMemoryDb} : ∀ (rounds : Nat) (elapsed : Int) {w : World}, MessagesFrom db w.db →
    ∃ messageList w', (pollMessages queue request start rounds elapsed).run (exec env.cfg rt) w =
      some (.ok messageList, w') ∧ Returnable db queue request.maxMessages messageList ∧
        (request.waitTimeSeconds ≤ elapsed → messageList = [])
  | 0, elapsed, w, _ => ⟨[], w, rfl, ⟨List.nodup_nil, nofun, Nat.zero_le _⟩, fun _ => rfl⟩
  | rounds + 1, elapsed, w, h => by
    unfold pollMessages
    split
    · next hwait =>
      have hround := h.reset queue.queueUrl (rt.clock w.calls)
      simp only [databaseReceiveMessages, Prog.run_bind, Prog.run_perform, exec, SqsCall.apply, Option.map_some,
        Option.bind_some]
      split
      · refine ⟨_, _, rfl, ?_, fun hle => absurd hwait (Int.not_lt.mpr hle)⟩
        rw [SqsMemoryDb.receiveMessages_eq]
        exact hround.returnable ..
      · next hnone =>
        have hsame := receiveMessages_nothing (not_not.mp hnone)
        rw [hsame]
        obtain ⟨messageList, w', hrun, hreturnable, -⟩ := @pollMessages_run db rounds
          ((rt.now (w.calls + 2) - start) / 1000000000)
          ⟨w.db.resetMessages queue.queueUrl (rt.clock w.calls), w.calls + 3⟩ hround
        exact ⟨messageList, w', hrun, hreturnable, fun hle => absurd hwait (Int.not_lt.mpr hle)⟩
    · exact ⟨[], w, rfl, ⟨List.nodup_nil, nofun, Nat.zero_le _⟩, fun _ => rfl⟩

/-- The clock is no matter to the queue that is found. -/
theorem getQueueByUrl_queueAt (db : SqsMemoryDb) (queueUrl : Str) (now : TimePoint) (m : Message) :
    m.isIn (db.getQueueByUrl queueUrl now).1 ↔ m.isIn (db.queueAt queueUrl) := by
  unfold SqsMemoryDb.queueAt SqsMemoryDb.getQueueByUrl SqsMemoryDb.fetchQueue
  split <;> rfl

/-- A receive is a polling of the queue that is found. -/
theorem receiveFromQueue_run {w : World} : ∃ queue start world, world.db.messages = w.db.messages ∧
    (∀ m : Message, m.isIn queue ↔ m.isIn (w.db.queueAt request.queueUrl)) ∧ ∀ messageList w',
      (pollMessages queue request start ((2 * request.waitTimeSeconds).toNat + 1) 0).run (exec env.cfg rt) world =
        some (.ok messageList, w') → ∃ response,
          (receiveFromQueue request).run (exec env.cfg rt) w = some (.ok response, w') ∧
            response.messageList = messageList := by
  refine ⟨(w.db.getQueueByUrl request.queueUrl (rt.now w.calls)).1, rt.now (w.calls + 1),
    ⟨(w.db.getQueueByUrl request.queueUrl (rt.now w.calls)).2, w.calls + 2⟩, SqsMemoryDb.fetchQueue_messages ..,
    getQueueByUrl_queueAt _ _ _, fun messageList w' hpoll => ?_⟩
  rw [receiveFromQueue, guarded, Prog.run_mapThrow, Prog.run_perform_bind]
  simp only [exec, SqsCall.apply, Option.map_some, Option.bind_some]
  rw [Prog.run_perform_bind]
  simp only [exec, SqsCall.apply, Option.map_some, Option.bind_some]
  rw [Prog.run_bind]
  erw [hpoll]
  by_cases hne : messageList = []
  · exact ⟨{}, by simp only [Option.bind_some, hne, ne_eq, not_true_eq_false, if_false]; rfl, hne.symm⟩
  · exact ⟨{ messageList := messageList, requestId := request.requestId },
      by simp only [Option.bind_some, hne, ne_eq, not_false_eq_true, if_true]; rfl, rfl⟩

theorem receiveMessages_run {w : World}
    (hserves : request.queueUrl = [] ∨ w.db.queueUrlExists request.region request.queueUrl = true) :
    ∃ queue start world, world.db.messages = w.db.messages ∧
    (∀ m : Message, m.isIn queue ↔ m.isIn (w.db.queueAt request.queueUrl)) ∧ ∀ messageList w',
      (pollMessages queue request start ((2 * request.waitTimeSeconds).toNat + 1) 0).run (exec env.cfg rt) world =
        some (.ok messageList, w') → ∃ response,
          (receiveMessages request).run (exec env.cfg rt) w = some (.ok response, w') ∧
            response.messageList = messageList := by
  unfold receiveMessages
  split
  · exact receiveFromQueue_run
  · next hne =>
    have hexists := hserves.resolve_left hne
    rw [Prog.run_perform_bind]
    simp only [exec, SqsCall.apply, Option.map_some, Option.bind_some, hexists, if_true]
    exact @receiveFromQueue_run env rt request ⟨w.db, w.calls + 1⟩

/-- A first round that has something to return. -/
theorem received_nonempty {db : SqsMemoryDb} {k : Str} {m : Message} {maxMessages : Int} {queue : Queue}
    (hm : db.messages.get? k = some m) (hin : m.isIn queue) (hs : m.status = .initial) :
    db.received queue.region queue.queueUrl maxMessages ≠ [] := by
  have hmem : (k, m) ∈ db.messages.entries.filter (SqsMemoryDb.deliverable queue.region queue.queueUrl) :=
    List.mem_filter.mpr ⟨OrderedMap.get?_eq_some.mp hm, decide_eq_true ⟨hin.1, hin.2, hs⟩⟩
  rw [SqsMemoryDb.received, SqsMemoryDb.picked, Ne, List.take_eq_nil_iff, not_or]
  exact ⟨by omega, List.ne_nil_of_mem hmem⟩

/-- A visible message stays as it is. -/
theorem resetMessages_initial {db : SqsMemoryDb} {k : Str} {m : Message} {queueUrl : Str} {clock : Str → TimePoint}
    (hm : db.messages.get? k = some m) (hs : m.status = .initial) :
    (db.resetMessages queueUrl clock).messages.get? k = some m := by
  simp [SqsMemoryDb.resetMessages, hm, hs]

/-- What the first round returns. -/
theorem pollMessages_first_list {w : World} (rounds : Nat) (hwait : 0 < request.waitTimeSeconds) {k : Str} {m : Message}
    (hm : w.db.messages.get? k = some m) (hin : m.isIn queue) (hs : m.status = .initial) :
    ∃ w', (pollMessages queue request start (rounds + 1) 0).run (exec env.cfg rt) w =
      some (.ok (((w.db.resetMessages queue.queueUrl (rt.clock w.calls)).received queue.region queue.queueUrl
        request.maxMessages).map (SqsMemoryDb.handOut (rt.receiptHandle (w.calls + 1)))), w') := by
  have hround := @pollMessages_first env.cfg rt queue request start rounds w hwait _ rfl
    (by rw [SqsMemoryDb.receiveMessages_eq]; simpa using received_nonempty (resetMessages_initial hm hs) hin hs)
  rw [SqsMemoryDb.receiveMessages_eq] at hround
  exact ⟨_, hround⟩

/-! ### The limits that are kept -/

theorem keyed_of_execAll {cfg : Configuration} {before : List SqsCall} {w : World}
    (h : Prog.execAll (exec cfg rt) before {} = some w) : w.db.KeyedMessages :=
  (Prog.execAll_invariant (I := MessagesOk rt) (fun c w r hw hr => @MessagesOk.step cfg rt w r.2 c r.1 hw hr)
    .initial h).keyed

/-- A receive whose effective limit is within `n`, or that does not poll. -/
theorem receivesUpTo_of_limit (hserves : Serves env rt request w)
    (hbound : 1 ≤ request.waitTimeSeconds → (max 1 (request.maxMessages % 18446744073709551616).toNat : Int) ≤ max n 0)
    (hwait : 1 ≤ n → 1 ≤ request.waitTimeSeconds) : ReceivesUpTo env rt n request w := by
  obtain ⟨⟨before, hbefore⟩, hexists⟩ := hserves
  have hkeyed := keyed_of_execAll hbefore
  obtain ⟨queue, start, world, hmessages, hqueue, hpolls⟩ := @receiveMessages_run env rt request w hexists
  have hfrom : MessagesFrom w.db world.db := by
    unfold MessagesFrom SqsMemoryDb.KeyedMessages
    rw [hmessages]
    exact MessagesFrom.refl hkeyed
  obtain ⟨messageList, w', hrun, hreturnable, hnone⟩ := @pollMessages_run env rt request queue start w.db
    ((2 * request.waitTimeSeconds).toNat + 1) 0 world hfrom
  obtain ⟨response, hresponse, heq⟩ := hpolls messageList w' hrun
  rw [← heq] at hreturnable hnone
  refine ⟨response, w', hresponse, hreturnable.distinct, fun m hm => ?_, ?_, fun hn ⟨k, m, hm, hin, hs⟩ => ?_⟩
  · obtain ⟨stored, hstored, hin⟩ := hreturnable.stored m hm
    exact ⟨stored, hstored, (hqueue stored).mp hin⟩
  · rcases lt_or_ge 0 request.waitTimeSeconds with hlt | hle
    · have hlength := hreturnable.length
      have hlimit := hbound hlt
      omega
    · rw [hnone hle]
      exact le_max_right _ _
  · rw [← hmessages] at hm
    obtain ⟨w'', hfirst⟩ := @pollMessages_first_list env rt request queue start world
      (2 * request.waitTimeSeconds).toNat (hwait hn) k m hm ((hqueue m).mpr hin) hs
    rw [hrun] at hfirst
    rw [heq, Except.ok.inj (Prod.mk.inj (Option.some.inj hfirst)).1, Ne, List.map_eq_nil_iff]
    exact received_nonempty (resetMessages_initial hm hs) ((hqueue m).mpr hin) hs

theorem LimitKept.receivesUpTo {requestId : Str}
    (hrequest : receiveMessageRequest env lib requestId clientCommand = .returns request)
    (hn : Carries env lib clientCommand n) (hkept : LimitKept clientCommand n request.waitTimeSeconds)
    (hserves : Serves env rt request w) : ReceivesUpTo env rt n request w := by
  have hint := hn.1
  unfold LimitKept at hkept
  split at hkept
  · next hjson =>
    have hlimit := maxMessages_json hjson hrequest hn
    refine receivesUpTo_of_limit hserves (fun hwait => ?_) hkept.mp
    have hpositive := hkept.mpr hwait
    unfold IsInt at hint
    rw [hlimit]
    omega
  · next hform =>
    obtain ⟨hlimit, hwait⟩ := request_form hform hrequest hn
    refine receivesUpTo_of_limit hserves (fun _ => ?_) fun _ => hwait.le
    rw [hlimit]
    split <;> omega

/-! ### The limits that are not -/

/-- A message of the queue of a request. -/
def crowdedMessage (request : ReceiveMessageRequest) (oid : Str) : Message :=
  { oid := oid, region := request.region, queueUrl := request.queueUrl, created := 0, modified := 0 }

def crowdedQueue (request : ReceiveMessageRequest) (oid : Str) : Queue :=
  { oid := oid, region := request.region, queueUrl := request.queueUrl, created := 0, modified := 0 }

/-- The queue of a request with two messages. -/
def crowded (rt : Runtime) (request : ReceiveMessageRequest) : World where
  db :=
    { queues := (∅ : OrderedMap Str Queue).insert (rt.uuid 0) (crowdedQueue request (rt.uuid 0))
      messages := ((∅ : OrderedMap Str Message).insert (rt.uuid 1) (crowdedMessage request (rt.uuid 1))).insert (rt.uuid 2)
        (crowdedMessage request (rt.uuid 2)) }
  calls := 3

theorem crowded_serves (env : Env) (rt : Runtime) (request : ReceiveMessageRequest) :
    Serves env rt request (crowded rt request) := by
  refine ⟨⟨[.createQueue (crowdedQueue request []), .createMessage (crowdedMessage request []),
    .createMessage (crowdedMessage request [])], ?_⟩, .inr ?_⟩
  · simp only [Prog.execAll, exec, SqsCall.apply, SqsMemoryDb.createQueue_eq, SqsMemoryDb.createMessage_eq,
      Option.map_some, Option.bind_some]
    rfl
  · refine OrderedMap.findIf_isSome.mpr ⟨_, _, OrderedMap.get?_insert_self .., ?_⟩
    simp [crowdedQueue]

theorem crowded_message (rt : Runtime) (request : ReceiveMessageRequest) {i : Nat} (hi : i = 1 ∨ i = 2) :
    (crowded rt request).db.messages.get? (rt.uuid i) = some (crowdedMessage request (rt.uuid i)) ∧
      (crowdedMessage request (rt.uuid i)).isIn ((crowded rt request).db.queueAt request.queueUrl) := by
  have hne : rt.uuid 1 ≠ rt.uuid 2 := fun h => absurd (rt.uuid_inj h) (by decide)
  constructor
  · rcases hi with rfl | rfl
    · simp [crowded, OrderedMap.get?_insert, hne]
    · simp [crowded]
  · have hfound : (crowded rt request).db.queues.findIf (fun _ queue => queue.queueUrl = request.queueUrl) =
        some (rt.uuid 0, crowdedQueue request (rt.uuid 0)) := by
      refine OrderedMap.findIf_unique (OrderedMap.get?_insert_self ..) (by simp [crowdedQueue]) fun k v hv _ => ?_
      simp only [crowded, OrderedMap.get?_insert, OrderedMap.get?_empty] at hv
      split at hv
      · next hk => exact hk
      · cases hv
    rw [SqsMemoryDb.queueAt, SqsMemoryDb.getQueueByUrl, hfound]
    exact ⟨rfl, rfl⟩

theorem two_le_length {α : Type} {a b : α} : ∀ {l : List α}, a ∈ l → b ∈ l → a ≠ b → 2 ≤ l.length
  | [c], ha, hb, hne => absurd ((List.mem_singleton.mp ha).trans (List.mem_singleton.mp hb).symm) hne
  | _ :: _ :: _, _, _, _ => by simp

/-- The first round on that queue returns both messages, if the limit lets it. -/
theorem crowded_receives (env : Env) (rt : Runtime) (request : ReceiveMessageRequest) :
    ∃ response w', (receiveMessages request).run (exec env.cfg rt) (crowded rt request) = some (.ok response, w') ∧
      (request.waitTimeSeconds ≤ 0 → response.messageList = []) ∧
      (1 ≤ request.waitTimeSeconds → min 2 (max 1 (request.maxMessages % 18446744073709551616).toNat) ≤
        response.messageList.length) := by
  obtain ⟨⟨before, hbefore⟩, hexists⟩ := crowded_serves env rt request
  obtain ⟨queue, start, world, hmessages, hqueue, hpolls⟩ := @receiveMessages_run env rt request _ hexists
  rcases lt_or_ge 0 request.waitTimeSeconds with hwait | hwait
  · have hmem : ∀ i : Nat, i = 1 ∨ i = 2 → (rt.uuid i, crowdedMessage request (rt.uuid i)) ∈
        (world.db.resetMessages queue.queueUrl (rt.clock world.calls)).messages.entries.filter
          (SqsMemoryDb.deliverable queue.region queue.queueUrl) := by
      intro i hi
      obtain ⟨hget, hin⟩ := crowded_message rt request hi
      rw [← hmessages] at hget
      obtain ⟨hregion, hurl⟩ := (hqueue _).mpr hin
      exact List.mem_filter.mpr ⟨OrderedMap.get?_eq_some.mp (resetMessages_initial hget rfl),
        decide_eq_true ⟨hregion, hurl, rfl⟩⟩
    have hne : rt.uuid 1 ≠ rt.uuid 2 := fun h => absurd (rt.uuid_inj h) (by decide)
    have htwo := two_le_length (hmem 1 (.inl rfl)) (hmem 2 (.inr rfl)) fun h => hne (congrArg Prod.fst h)
    obtain ⟨hget, hin⟩ := crowded_message rt request (.inl rfl)
    rw [← hmessages] at hget
    obtain ⟨w', hrun⟩ := @pollMessages_first_list env rt request queue start world
      (2 * request.waitTimeSeconds).toNat hwait _ _ hget ((hqueue _).mpr hin) rfl
    obtain ⟨response, hresponse, heq⟩ := hpolls _ w' hrun
    refine ⟨response, w', hresponse, fun hle => absurd hwait (Int.not_lt.mpr hle), fun _ => ?_⟩
    rw [heq, List.length_map, SqsMemoryDb.received, SqsMemoryDb.picked, List.length_take, Nat.sub_zero]
    omega
  · have hfrom : MessagesFrom world.db world.db := by
      refine MessagesFrom.refl ?_
      unfold SqsMemoryDb.KeyedMessages
      rw [hmessages]
      exact keyed_of_execAll hbefore
    obtain ⟨messageList, w', hrun, -, hnone⟩ := @pollMessages_run env rt request queue start world.db
      ((2 * request.waitTimeSeconds).toNat + 1) 0 world hfrom
    obtain ⟨response, hresponse, heq⟩ := hpolls _ w' hrun
    exact ⟨response, w', hresponse, fun _ => heq.trans (hnone hwait), fun hle => absurd hwait (Int.not_le.mpr hle)⟩

theorem ReceivesUpTo.limitKept {requestId : Str}
    (hrequest : receiveMessageRequest env lib requestId clientCommand = .returns request)
    (hn : Carries env lib clientCommand n) (hwait : 0 ≤ request.waitTimeSeconds)
    (h : ReceivesUpTo env rt n request (crowded rt request)) : LimitKept clientCommand n request.waitTimeSeconds := by
  obtain ⟨response, w', hrun, -, -, hlength, hprogress⟩ := h
  obtain ⟨response', w'', hrun', hnone, hsome⟩ := crowded_receives env rt request
  obtain ⟨rfl, rfl⟩ : response = response' ∧ w' = w'' := by
    rw [hrun] at hrun'
    cases hrun'
    exact ⟨rfl, rfl⟩
  obtain ⟨hget, hin⟩ := crowded_message rt request (.inl rfl)
  have hprogress : 1 ≤ n → response.messageList ≠ [] := fun hle => hprogress hle ⟨_, _, hget, hin, rfl⟩
  unfold LimitKept
  split
  · constructor
    · intro hle
      by_contra hnot
      exact hprogress hle (hnone (by omega))
    · intro hle
      have htwo := hsome hle
      omega
  · next hform =>
    obtain ⟨hlimit, hlong⟩ := request_form hform hrequest hn
    have htwo := hsome hlong.le
    rw [hlimit] at htwo
    split at htwo <;> omega

/-- On every state of its queue a request that carries the limit `n` is answered with at most `n` different messages
    of the queue, and with one if there is one, exactly for the limits that are kept. -/
theorem receiveMessages_bound_iff (env : Env) (lib : PocoUri) (rt : Runtime) (requestId : Str)
    (clientCommand : SQSClientCommand) (n : Int) (request : ReceiveMessageRequest)
    (hrequest : receiveMessageRequest env lib requestId clientCommand = .returns request)
    (hn : Carries env lib clientCommand n) (hwait : 0 ≤ request.waitTimeSeconds) :
    (∀ w, Serves env rt request w → ReceivesUpTo env rt n request w) ↔
      LimitKept clientCommand n request.waitTimeSeconds :=
  ⟨fun h => (h _ (crowded_serves env rt request)).limitKept hrequest hn hwait,
    fun h _ hserves => h.receivesUpTo hrequest hn hserves⟩

/-- A form that asks for `n` messages of the queue `q`. -/
def sampleCommand (n : String) : SQSClientCommand where
  url := str "/"
  method := .post
  headers := ∅
  payload := str "Action=ReceiveMessage&QueueUrl=q&MaxNumberOfMessages=" ++ str n
  contentType := str "xml"
  contentLength := 0
  region := str "eu"
  user := []
  requestId := []
  command := .receiveMessage

def sampleReceive (maxMessages : Int) : ReceiveMessageRequest :=
  { region := str "eu", queueUrl := str "q", maxMessages := maxMessages, visibilityTimeout := 30, waitTimeSeconds := 5 }

theorem sampleCommand_carries : Carries .sample .standard (sampleCommand "2") 2 := by
  refine ⟨by decide, ?_⟩
  rw [if_neg (by decide)]
  decide +kernel

/-- A form that asks for two messages. -/
theorem receiveMessages_bound_two :
    (∀ w, Serves .sample (.counting 20) (sampleReceive 2) w → ReceivesUpTo .sample (.counting 20) 2 (sampleReceive 2) w) ↔
      LimitKept (sampleCommand "2") 2 5 :=
  receiveMessages_bound_iff .sample .standard (.counting 20) [] (sampleCommand "2") 2 (sampleReceive 2)
    (by decide +kernel) sampleCommand_carries (by decide)

/-- A request that does not wait for its one message. -/
def hastyReceive : ReceiveMessageRequest := { sampleReceive 1 with waitTimeSeconds := 0 }

/-- A form that asks for one message is given two, and a request that does not wait is given none. -/
theorem receiveMessages_bound_one :
    receiveMessageRequest .sample .standard [] (sampleCommand "1") = .returns (sampleReceive 3) ∧
    ¬ ReceivesUpTo .sample (.counting 20) 1 (sampleReceive 3) (crowded (.counting 20) (sampleReceive 3)) ∧
    ¬ ReceivesUpTo .sample (.counting 20) 1 hastyReceive (crowded (.counting 20) hastyReceive) := by
  refine ⟨by decide +kernel, ?_, ?_⟩
  · rintro ⟨response, w', hrun, -, -, hlength, -⟩
    obtain ⟨response', w'', hrun', -, hsome⟩ := crowded_receives .sample (.counting 20) (sampleReceive 3)
    cases hrun.symm.trans hrun'
    have htwo := hsome (by decide)
    have hlimit : min 2 (max 1 ((sampleReceive 3).maxMessages % 18446744073709551616).toNat) = 2 := by decide
    omega
  · rintro ⟨response, w', hrun, -, -, -, hprogress⟩
    obtain ⟨response', w'', hrun', hnone, -⟩ := crowded_receives .sample (.counting 20) hastyReceive
    cases hrun.symm.trans hrun'
    obtain ⟨hget, hin⟩ := crowded_message (.counting 20) hastyReceive (.inl rfl)
    exact hprogress (by decide) ⟨_, _, hget, hin, rfl⟩ (hnone (by decide))

end AwsMock.Sqs
