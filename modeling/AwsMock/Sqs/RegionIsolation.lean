import AwsMock.Lib.View
import AwsMock.Sqs.QueueUpdateRace

/-!
# Isolation of the regions

Requests of several regions, with any other store calls between them. Queue URLs carry the configured
region, so equally named queues of two regions have one URL, and some store methods look up by the
URL alone. A request whose lookups, resets and deletions by URL hit only records of its own region
does on the whole store what it does on the records of that region, and leaves all others alone.
-/

namespace AwsMock.Sqs

open Lib

/-- The records of a region. -/
def SqsMemoryDb.ofRegion (db : SqsMemoryDb) (region : Str) : SqsMemoryDb where
  queues := db.queues.eraseIf fun _ queue => queue.region ≠ region
  messages := db.messages.eraseIf fun _ message => message.region ≠ region

/-- The records of all other regions. -/
def SqsMemoryDb.others (db : SqsMemoryDb) (region : Str) : SqsMemoryDb where
  queues := db.queues.eraseIf fun _ queue => queue.region = region
  messages := db.messages.eraseIf fun _ message => message.region = region

/-- The process with the records of a region only. -/
def World.ofRegion (w : World) (region : Str) : World := ⟨w.db.ofRegion region, w.calls⟩

/-- The requests a region can be sent. -/
inductive RegionRequest where
  | sendMessage (request : SendMessageRequest)
  | receiveMessages (request : ReceiveMessageRequest)
  | getQueueAttributes (request : GetQueueAttributesRequest)
  | setQueueAttributes (request : SetQueueAttributesRequest)
  | tagQueue (request : TagQueueRequest)
  | purgeQueue (request : PurgeQueueRequest)
  | deleteQueue (request : DeleteQueueRequest)

namespace RegionRequest

def region : RegionRequest → Str
  | sendMessage request => request.region
  | receiveMessages request => request.region
  | getQueueAttributes request => request.region
  | setQueueAttributes request => request.region
  | tagQueue request => request.region
  | purgeQueue request => request.region
  | deleteQueue request => request.region

abbrev Response : RegionRequest → Type
  | sendMessage _ => SendMessageResponse
  | receiveMessages _ => ReceiveMessageResponse
  | getQueueAttributes _ => GetQueueAttributesResponse
  | setQueueAttributes _ => SetQueueAttributesResponse
  | tagQueue _ | purgeQueue _ => Unit
  | deleteQueue _ => DeleteQueueResponse

def program (env : Env) : (request : RegionRequest) → SqsProg request.Response
  | sendMessage request => Sqs.sendMessage env request
  | receiveMessages request => Sqs.receiveMessages request
  | getQueueAttributes request => Sqs.getQueueAttributes env request
  | setQueueAttributes request => Sqs.setQueueAttributes env request
  | tagQueue request => Sqs.tagQueue request
  | purgeQueue request => Sqs.purgeQueue request
  | deleteQueue request => Sqs.deleteQueue request

/-- On the records of its region alone the request has the same outcome and leaves the same records,
    and it changes no record of another region. -/
def Isolated (env : Env) (rt : Runtime) (request : RegionRequest) (w : World) : Prop :=
  (request.program env).Isolated (exec env.cfg rt) (World.ofRegion · request.region)
    (fun w => w.db.others request.region) w

end RegionRequest

/-- What a call for a region needs of the store: the first queue with the URL belongs to the region,
    and so does every message with it that is to be deleted, has expired in flight, or is handed
    out. -/
def SqsCall.Separated (rt : Runtime) (region : Str) : SqsCall → World → Prop
  | .getQueueByUrl _ queueUrl, w => ∀ e,
      w.db.queues.findIf (fun _ queue => queue.queueUrl = queueUrl) = some e → e.2.region = region
  | .deleteMessages queueUrl, w => ∀ k m, w.db.messages.get? k = some m → m.queueUrl = queueUrl →
      m.region = region
  | .resetMessages queueUrl _, w => ∀ k m, w.db.messages.get? k = some m → m.queueUrl = queueUrl →
      m.status = .invisible → m.reset < rt.clock w.calls k → m.region = region
  | .receiveMessages queueRegion queueUrl _ _, w => ∀ k m, w.db.messages.get? k = some m →
      m.region = queueRegion → m.queueUrl = queueUrl → m.status = .initial → m.region = region
  | _, _ => True

/-- Every call of the request meets the condition in the store it is made on. -/
def RegionRequest.Separated (env : Env) (rt : Runtime) (request : RegionRequest) (w : World) : Prop :=
  (request.program env).Along (exec env.cfg rt) (SqsCall.Separated rt request.region) w

/-- A step of a run: a call of anyone else, or a request. -/
inductive RegionEvent where
  | call (c : SqsCall)
  | request (request : RegionRequest)

/-- `P` holds of every request of the run in the store it starts on. -/
def Throughout (env : Env) (rt : Runtime) (P : RegionRequest → World → Prop) :
    List RegionEvent → World → Prop
  | [], _ => True
  | .call c :: events, w => ∀ r, exec env.cfg rt c w = some r → Throughout env rt P events r.2
  | .request request :: events, w => P request w ∧
      ∀ r, (request.program env).run (exec env.cfg rt) w = some r →
        Throughout env rt P events r.2

/-! ### The store methods on the records of a region -/

namespace SqsMemoryDb

variable {db : SqsMemoryDb} {region : Str}

/-- A lookup by the region finds the same queue. -/
theorem findIf_ofRegion {p : Str → Queue → Bool} (h : ∀ k q, p k q = true → q.region = region) :
    (db.ofRegion region).queues.findIf p = db.queues.findIf p := by
  unfold ofRegion
  exact OrderedMap.findIf_eraseIf_of_disjoint fun k q hq => by simp [h k q hq]

/-- A lookup whose first match belongs to the region. -/
theorem fetchQueue_ofRegion {p : Str → Queue → Bool} (now : TimePoint)
    (h : ∀ e, db.queues.findIf p = some e → e.2.region = region) :
    (db.ofRegion region).fetchQueue now ((db.ofRegion region).queues.findIf p) =
      ((db.fetchQueue now (db.queues.findIf p)).1,
        (db.fetchQueue now (db.queues.findIf p)).2.ofRegion region) ∧
    (db.fetchQueue now (db.queues.findIf p)).2.others region = db.others region := by
  have hfind : (db.ofRegion region).queues.findIf p = db.queues.findIf p :=
    OrderedMap.findIf_eraseIf fun e he => by simp [h e he]
  rw [hfind]
  cases he : db.queues.findIf p with
  | none => exact ⟨rfl, rfl⟩
  | some e =>
    have hregion := h e he
    have hget := (OrderedMap.findIf_some he).1
    constructor
    · simp only [fetchQueue, ofRegion]
      rw [OrderedMap.eraseIf_insert_of_neg _ (by simp [hregion])]
    · simp only [fetchQueue, others]
      rw [OrderedMap.eraseIf_insert_of_pos (by simp [hregion]) fun v hv => ?_]
      rw [hget] at hv
      simp [← Option.some.inj hv, hregion]

/-- A queue record of the region replaces one of the region. -/
theorem updateQueue_ofRegion {queue : Queue} {r : Queue × SqsMemoryDb} (hq : queue.region = region)
    (h : db.updateQueue queue = some r) :
    (db.ofRegion region).updateQueue queue = some (r.1, r.2.ofRegion region) ∧
      r.2.others region = db.others region := by
  obtain ⟨e, he, rfl⟩ := Option.map_eq_some_iff.mp h
  obtain ⟨hget, hp⟩ := OrderedMap.findIf_some he
  have hregion : e.2.region = region := (of_decide_eq_true hp).1.trans hq
  have hfind : (db.ofRegion region).queues.findIf
      (fun _ q => q.region = queue.region ∧ q.name = queue.name) = some e :=
    (findIf_ofRegion fun k q h => (of_decide_eq_true h).1.trans hq).trans he
  constructor
  · rw [updateQueue, hfind]
    simp only [Option.map_some, ofRegion]
    rw [OrderedMap.eraseIf_insert_of_neg _ (by simp [hq])]
  · simp only [others]
    rw [OrderedMap.eraseIf_insert_of_pos (by simp [hq]) fun v hv => ?_]
    rw [hget] at hv
    simp [← Option.some.inj hv, hregion]

theorem queueUrlExists_ofRegion (queueUrl : Str) :
    (db.ofRegion region).queueUrlExists region queueUrl = db.queueUrlExists region queueUrl :=
  congrArg Option.isSome (findIf_ofRegion fun _ _ h => (of_decide_eq_true h).1)

theorem deleteQueue_ofRegion (queueUrl : Str) :
    (db.ofRegion region).deleteQueue region queueUrl =
        (db.deleteQueue region queueUrl).ofRegion region ∧
      (db.deleteQueue region queueUrl).others region = db.others region := by
  constructor
  · simp only [deleteQueue, ofRegion, OrderedMap.eraseIf_comm db.queues]
  · simp only [deleteQueue, others]
    rw [OrderedMap.eraseIf_eraseIf_of_imp _ fun k v _ hv => ?_]
    simp [(of_decide_eq_true hv).1]

/-- Deleting messages of the region. -/
theorem eraseMessages_ofRegion {p : Str → Message → Bool}
    (h : ∀ k m, db.messages.get? k = some m → p k m = true → m.region = region) :
    { db.ofRegion region with messages := (db.ofRegion region).messages.eraseIf p } =
        ({ db with messages := db.messages.eraseIf p } : SqsMemoryDb).ofRegion region ∧
      ({ db with messages := db.messages.eraseIf p } : SqsMemoryDb).others region =
        db.others region := by
  constructor
  · simp only [ofRegion, OrderedMap.eraseIf_comm db.messages]
  · simp only [others]
    rw [OrderedMap.eraseIf_eraseIf_of_imp _ fun k v hv hp => by simp [h k v hv hp]]

theorem purgeQueue_ofRegion (queueUrl : Str) :
    (db.ofRegion region).purgeQueue region queueUrl =
        (db.purgeQueue region queueUrl).ofRegion region ∧
      (db.purgeQueue region queueUrl).others region = db.others region :=
  eraseMessages_ofRegion fun _ _ _ hm => (show _ ∧ _ from of_decide_eq_true hm).1

theorem deleteMessages_ofRegion {queueUrl : Str}
    (h : ∀ k m, db.messages.get? k = some m → m.queueUrl = queueUrl → m.region = region) :
    (db.ofRegion region).deleteMessages queueUrl =
        (db.deleteMessages queueUrl).ofRegion region ∧
      (db.deleteMessages queueUrl).others region = db.others region :=
  eraseMessages_ofRegion fun k m hm hu => h k m hm (of_decide_eq_true hu)

/-- Rewriting messages of the region. -/
theorem mapMessages_ofRegion {f : Str → Message → Message}
    (hf : ∀ k m, (f k m).region = m.region)
    (h : ∀ k m, db.messages.get? k = some m → f k m = m ∨ m.region = region) :
    { db.ofRegion region with messages := (db.ofRegion region).messages.mapVal f } =
        ({ db with messages := db.messages.mapVal f } : SqsMemoryDb).ofRegion region ∧
      ({ db with messages := db.messages.mapVal f } : SqsMemoryDb).others region =
        db.others region := by
  constructor
  · simp only [ofRegion]
    rw [OrderedMap.eraseIf_mapVal _ fun k m => by simp [hf]]
  · simp only [others]
    rw [OrderedMap.eraseIf_mapVal_of_erased _ fun k m hm => ?_]
    exact (h k m hm).imp_right fun hr => by simp [hf, hr]

theorem resetMessages_ofRegion {queueUrl : Str} {clock : Str → TimePoint}
    (h : ∀ k m, db.messages.get? k = some m → m.queueUrl = queueUrl → m.status = .invisible →
      m.reset < clock k → m.region = region) :
    (db.ofRegion region).resetMessages queueUrl clock =
        (db.resetMessages queueUrl clock).ofRegion region ∧
      (db.resetMessages queueUrl clock).others region = db.others region := by
  simp only [resetMessages, OrderedMap.assignEach_eq_mapVal]
  refine mapMessages_ofRegion (fun k m => ?_) fun k m hm => ?_
  · split <;> rfl
  · split
    · next hc =>
      obtain ⟨hu, hs, ht⟩ := of_decide_eq_true hc
      exact .inr (h k m hm hu hs ht)
    · exact .inl rfl

/-- The messages handed out are the same where they all belong to the region. -/
theorem received_ofRegion {queueRegion queueUrl : Str} {maxMessages : Int}
    (h : ∀ k m, db.messages.get? k = some m → m.region = queueRegion → m.queueUrl = queueUrl →
      m.status = .initial → m.region = region) :
    (db.ofRegion region).received queueRegion queueUrl maxMessages =
      db.received queueRegion queueUrl maxMessages := by
  unfold received picked
  simp only [ofRegion, OrderedMap.entries_eraseIf, List.filter_filter]
  congr 1
  refine List.filter_congr fun e he => ?_
  cases hd : deliverable queueRegion queueUrl e with
  | false => rfl
  | true =>
    obtain ⟨hr, hu, hs⟩ := of_decide_eq_true hd
    simp [h _ _ (OrderedMap.get?_eq_some.mpr he) hr hu hs]

theorem receiveMessages_ofRegion {queueRegion queueUrl : Str} {visibility maxMessages : Int}
    {now : TimePoint} {receiptHandle : Str → Str}
    (h : ∀ k m, db.messages.get? k = some m → m.region = queueRegion → m.queueUrl = queueUrl →
      m.status = .initial → m.region = region) :
    (db.ofRegion region).receiveMessages queueRegion queueUrl visibility maxMessages now
        receiptHandle =
      ((db.receiveMessages queueRegion queueUrl visibility maxMessages now receiptHandle).1,
        (db.receiveMessages queueRegion queueUrl visibility maxMessages now
          receiptHandle).2.ofRegion region) ∧
    (db.receiveMessages queueRegion queueUrl visibility maxMessages now
      receiptHandle).2.others region = db.others region := by
  simp only [receiveMessages_eq, received_ofRegion h, Prod.mk.injEq, true_and]
  refine mapMessages_ofRegion (fun k m => ?_) fun k m hm => ?_
  · split <;> rfl
  · split
    · next hk =>
      obtain ⟨-, hr, hu, hs⟩ := mem_received (mem_received_of_key hm hk)
      exact .inr (h k m hm hr hu hs)
    · exact .inl rfl

/-- A message stored under a fresh key. -/
theorem createMessage_ofRegion {oid : Str} {message : Message} (now : TimePoint)
    (hregion : message.region = region) (hfresh : db.messages.get? oid = none) :
    (db.ofRegion region).createMessage oid message now =
        ((db.createMessage oid message now).1,
          (db.createMessage oid message now).2.ofRegion region) ∧
      (db.createMessage oid message now).2.others region = db.others region := by
  simp only [createMessage_eq, Prod.mk.injEq, true_and]
  constructor
  · simp only [ofRegion]
    rw [OrderedMap.eraseIf_insert_of_neg _ (by simp [hregion])]
  · simp only [others]
    rw [OrderedMap.eraseIf_insert_of_pos (by simp [hregion]) fun v hv => by simp [hfresh] at hv]

end SqsMemoryDb

/-! ### The calls of a request -/

variable {env : Env} {rt : Runtime} {region : Str}

/-- An isolated call of a request for the region. -/
abbrev CallIsolated (env : Env) (rt : Runtime) (region : Str) : SqsCall → World → Prop :=
  Prog.IsolatedCall (exec env.cfg rt) (World.ofRegion · region) fun w => w.db.others region

/-- The calls a request for a region makes, but the queue write-back. -/
def SqsCall.InRegion (region : Str) : SqsCall → Prop
  | .clockNow | .createMessageId | .createSqsReceiptHandler | .getQueueByUrl ..
  | .deleteMessages _ | .resetMessages .. | .receiveMessages .. => True
  | .queueUrlExists r _ | .purgeQueue r _ | .deleteQueue r _ => r = region
  | .createMessage message => message.region = region
  | _ => False

theorem callIsolated {c : SqsCall} {w : World} (hc : c.InRegion region)
    (hs : c.Separated rt region w) (hw : MessagesOk rt w) : CallIsolated env rt region c w := by
  cases c with
  | clockNow | createMessageId | createSqsReceiptHandler => exact ⟨_, rfl, rfl, rfl⟩
  | queueUrlExists r queueUrl =>
    obtain rfl : r = region := hc
    refine ⟨_, rfl, ?_, rfl⟩
    simp only [exec, SqsCall.apply, World.ofRegion, SqsMemoryDb.queueUrlExists_ofRegion]
    rfl
  | getQueueByUrl r queueUrl =>
    obtain ⟨hview, hrest⟩ := SqsMemoryDb.fetchQueue_ofRegion (rt.now w.calls) hs
    refine ⟨_, rfl, ?_, hrest⟩
    simp only [exec, SqsCall.apply, World.ofRegion, SqsMemoryDb.getQueueByUrl, hview]
    rfl
  | purgeQueue r queueUrl =>
    obtain rfl : r = region := hc
    obtain ⟨hview, hrest⟩ := @SqsMemoryDb.purgeQueue_ofRegion w.db r queueUrl
    refine ⟨_, rfl, ?_, hrest⟩
    simp only [exec, SqsCall.apply, World.ofRegion, hview]
    rfl
  | deleteQueue r queueUrl =>
    obtain rfl : r = region := hc
    obtain ⟨hview, hrest⟩ := @SqsMemoryDb.deleteQueue_ofRegion w.db r queueUrl
    refine ⟨_, rfl, ?_, hrest⟩
    simp only [exec, SqsCall.apply, World.ofRegion, hview]
    rfl
  | deleteMessages queueUrl =>
    obtain ⟨hview, hrest⟩ := SqsMemoryDb.deleteMessages_ofRegion hs
    refine ⟨_, rfl, ?_, hrest⟩
    simp only [exec, SqsCall.apply, World.ofRegion, hview]
    rfl
  | resetMessages queueUrl visibility =>
    obtain ⟨hview, hrest⟩ := SqsMemoryDb.resetMessages_ofRegion hs
    refine ⟨_, rfl, ?_, hrest⟩
    simp only [exec, SqsCall.apply, World.ofRegion, hview]
    rfl
  | receiveMessages queueRegion queueUrl visibility maxMessages =>
    obtain ⟨hview, hrest⟩ := SqsMemoryDb.receiveMessages_ofRegion hs
    refine ⟨_, rfl, ?_, hrest⟩
    simp only [exec, SqsCall.apply, World.ofRegion, hview]
    rfl
  | createMessage message =>
    obtain ⟨hview, hrest⟩ := SqsMemoryDb.createMessage_ofRegion (rt.now w.calls) hc
      (hw.fresh le_rfl)
    refine ⟨_, rfl, ?_, hrest⟩
    simp only [exec, SqsCall.apply, World.ofRegion, hview]
    rfl
  | _ => exact hc.elim

/-- Writing back a queue of the region. -/
theorem callIsolated_updateQueue {queue : Queue} {w : World} (hq : queue.region = region)
    (hw : Replaces w.db queue) : CallIsolated env rt region (.updateQueue queue) w := by
  obtain ⟨e, he⟩ := Option.isSome_iff_exists.mp hw
  have hupdate : w.db.updateQueue queue = some (queue, _) := Option.map_eq_some_iff.mpr ⟨e, he, rfl⟩
  obtain ⟨hview, hrest⟩ := SqsMemoryDb.updateQueue_ofRegion hq hupdate
  refine ⟨(queue, ⟨_, w.calls + 1⟩), ?_, ?_, hrest⟩
  · simp only [exec, SqsCall.apply, hupdate, Option.map_some]
  · simp only [exec, SqsCall.apply, World.ofRegion, hview, Option.map_some]

/-- A request whose calls stay in the region is isolated where its lookups and resets do. -/
theorem isolated_of_only {α : Type} {p : SqsProg α} {w : World}
    (hp : p.Only (SqsCall.InRegion region)) (hw : MessagesOk rt w)
    (hs : p.Along (exec env.cfg rt) (SqsCall.Separated rt region) w) :
    p.Isolated (exec env.cfg rt) (World.ofRegion · region) (fun w => w.db.others region) w :=
  hp.isolated (fun _ _ hc hs hw => callIsolated hc hs hw) (fun _ _ _ hw h => hw.step h) hw hs

/-! ### The requests -/

theorem sendMessage_inRegion (env : Env) (request : SendMessageRequest) :
    (sendMessage env request).Only (SqsCall.InRegion request.region) := by
  have hsend : (sendToQueue env request).Only (SqsCall.InRegion request.region) :=
    Prog.only_mapThrow ⟨trivial, fun _ => ⟨trivial, fun _ => ⟨trivial, fun _ => ⟨trivial, fun _ =>
      ⟨trivial, fun _ => ⟨trivial, fun _ => ⟨trivial, fun _ => ⟨rfl, fun _ => trivial⟩⟩⟩⟩⟩⟩⟩⟩
  unfold sendMessage
  split
  · exact hsend
  · refine Prog.only_bind (Prog.only_perform rfl) fun found => ?_
    split
    · exact hsend
    · exact Prog.only_throw _

theorem pollMessages_inRegion (queue : Queue) (request : ReceiveMessageRequest)
    (start : TimePoint) : ∀ (rounds : Nat) (elapsed : Int),
    (pollMessages queue request start rounds elapsed).Only (SqsCall.InRegion region)
  | 0, _ => Prog.only_pure _
  | rounds + 1, elapsed => by
    unfold pollMessages
    split
    · refine Prog.only_bind ?_ fun messageList => ?_
      · exact Prog.only_bind (Prog.only_perform trivial) fun _ => Prog.only_perform trivial
      · split
        · exact Prog.only_pure _
        · refine Prog.only_bind (Prog.only_perform trivial) fun now => ?_
          exact pollMessages_inRegion queue request start rounds _
    · exact Prog.only_pure _

theorem receiveMessages_inRegion (request : ReceiveMessageRequest) :
    (receiveMessages request).Only (SqsCall.InRegion request.region) := by
  have hreceive : (receiveFromQueue request).Only (SqsCall.InRegion request.region) := by
    refine Prog.only_mapThrow ?_
    refine Prog.only_bind (Prog.only_perform trivial) fun queue => ?_
    refine Prog.only_bind (Prog.only_perform trivial) fun start => ?_
    refine Prog.only_bind (pollMessages_inRegion ..) fun messageList => ?_
    split <;> exact Prog.only_pure _
  unfold receiveMessages
  split
  · exact hreceive
  · refine Prog.only_bind (Prog.only_perform rfl) fun found => ?_
    split
    · exact hreceive
    · exact Prog.only_throw _

theorem getQueueAttributes_inRegion (env : Env) (request : GetQueueAttributesRequest) :
    (getQueueAttributes env request).Only (SqsCall.InRegion request.region) := by
  refine Prog.only_bind (Prog.only_perform rfl) fun found => ?_
  split
  · refine Prog.only_bind (Prog.only_perform trivial) fun queue => ?_
    split <;> exact Prog.only_pure _
  · exact Prog.only_throw _

theorem purgeQueue_inRegion (request : PurgeQueueRequest) :
    (purgeQueue request).Only (SqsCall.InRegion request.region) := by
  refine Prog.only_bind (Prog.only_perform rfl) fun found => ?_
  split
  · exact Prog.only_perform rfl
  · exact Prog.only_throw _

theorem deleteQueue_inRegion (request : DeleteQueueRequest) :
    (deleteQueue request).Only (SqsCall.InRegion request.region) := by
  refine Prog.only_bind (Prog.only_perform rfl) fun found => ?_
  split
  · refine Prog.only_bind (Prog.only_perform trivial) fun _ => ?_
    exact Prog.only_bind (Prog.only_perform rfl) fun _ => Prog.only_pure _
  · exact Prog.only_throw _

/-- A queue that exists is read by its URL, changed and written back. -/
theorem rewriteQueue_isolated {α : Type} {queueUrl : Str} {response : α} {w : World}
    (hw : MessagesOk rt w) (change : Queue → Except Error Queue)
    (hchange : ∀ queue queue', change queue = .ok queue' →
      queue'.region = queue.region ∧ queue'.name = queue.name)
    (hexists : w.db.queueUrlExists region queueUrl = true)
    (hs : (SqsCall.getQueueByUrl region queueUrl).Separated rt region w) :
    (do
      let queue ← call (.getQueueByUrl region queueUrl)
      let queue ← .ofExcept (change queue)
      let _ ← call (.updateQueue queue)
      return response : SqsProg α).Isolated (exec env.cfg rt) (World.ofRegion · region)
        (fun w => w.db.others region) w := by
  refine Prog.isolated_perform_bind (callIsolated trivial hs hw) fun r hr => ?_
  obtain ⟨e, he⟩ := findIf_of_queueUrlExists hexists
  have hreplaces := replaces_getQueueByUrl (rt.now w.calls) hexists
  have hregion : (w.db.getQueueByUrl queueUrl (rt.now w.calls)).1.region = region := by
    rw [SqsMemoryDb.getQueueByUrl, he]
    exact hs e he
  cases hr
  dsimp only
  cases hq : change (w.db.getQueueByUrl queueUrl (rt.now w.calls)).1 with
  | error e => exact Prog.isolated_throw e _
  | ok queue' =>
    obtain ⟨hr', hn'⟩ := hchange _ _ hq
    have hreplaces' : Replaces (w.db.getQueueByUrl queueUrl (rt.now w.calls)).2 queue' := by
      rw [Replaces, hr', hn']
      exact hreplaces
    exact Prog.isolated_perform_bind (callIsolated_updateQueue (hr'.trans hregion) hreplaces')
      fun _ _ => Prog.isolated_ret _ _

theorem setQueueAttributes_isolated (env : Env) {request : SetQueueAttributesRequest} {w : World}
    (hw : MessagesOk rt w) (hs : (setQueueAttributes env request).Along (exec env.cfg rt)
      (SqsCall.Separated rt request.region) w) :
    (setQueueAttributes env request).Isolated (exec env.cfg rt) (World.ofRegion · request.region)
      (fun w => w.db.others request.region) w := by
  obtain ⟨hexists, hrest⟩ := Prog.Along.of_perform_bind hs
  refine Prog.isolated_perform_bind (callIsolated rfl hexists hw) fun r hr => ?_
  have hrest := hrest r hr
  have hw := hw.step hr
  cases hr
  dsimp only at hrest ⊢
  split at hrest
  · next hfound =>
    rw [if_pos hfound]
    have hlookup := (Prog.Along.of_perform_bind (Prog.Along.of_mapThrow hrest)).1
    exact Prog.isolated_mapThrow (rewriteQueue_isolated hw _
      (fun _ _ h => withAttributes_ok h) hfound hlookup)
  · next hfound =>
    rw [if_neg hfound]
    exact Prog.isolated_throw _ _

theorem tagQueue_isolated (env : Env) {request : TagQueueRequest} {w : World}
    (hw : MessagesOk rt w) (hs : (tagQueue request).Along (exec env.cfg rt)
      (SqsCall.Separated rt request.region) w) :
    (tagQueue request).Isolated (exec env.cfg rt) (World.ofRegion · request.region)
      (fun w => w.db.others request.region) w := by
  obtain ⟨hexists, hrest⟩ := Prog.Along.of_perform_bind (Prog.Along.of_mapThrow hs)
  refine Prog.isolated_mapThrow ?_
  refine Prog.isolated_perform_bind (callIsolated rfl hexists hw) fun r hr => ?_
  have hrest := hrest r hr
  have hw := hw.step hr
  cases hr
  dsimp only at hrest ⊢
  split at hrest
  · next hfound =>
    rw [if_pos hfound]
    -- adding the tags never fails
    exact rewriteQueue_isolated hw (fun queue => .ok { queue with
        tags := request.tags.entries.foldl (fun tags tag => tags.insert tag.1 tag.2) queue.tags })
      (fun _ _ h => by cases h; exact ⟨rfl, rfl⟩) hfound (Prog.Along.of_perform_bind hrest).1
  · next hfound =>
    rw [if_neg hfound]
    exact Prog.isolated_throw _ _

/-- A request that meets the condition on a reachable store is isolated. -/
theorem RegionRequest.isolated_of_separated {request : RegionRequest} {w : World}
    (hw : MessagesOk rt w) (hs : request.Separated env rt w) : request.Isolated env rt w := by
  cases request with
  | sendMessage request => exact isolated_of_only (sendMessage_inRegion env request) hw hs
  | receiveMessages request => exact isolated_of_only (receiveMessages_inRegion request) hw hs
  | getQueueAttributes request =>
    exact isolated_of_only (getQueueAttributes_inRegion env request) hw hs
  | setQueueAttributes request => exact setQueueAttributes_isolated env hw hs
  | tagQueue request => exact tagQueue_isolated env hw hs
  | purgeQueue request => exact isolated_of_only (purgeQueue_inRegion request) hw hs
  | deleteQueue request => exact isolated_of_only (deleteQueue_inRegion request) hw hs

/-- Two stores that agree on the records of the region give a request the same outcome. -/
theorem RegionRequest.Isolated.same_outcome {request : RegionRequest} {w v : World}
    (hw : request.Isolated env rt w) (hv : request.Isolated env rt v)
    (h : w.ofRegion request.region = v.ofRegion request.region) :
    ∃ outcome w' v', (request.program env).run (exec env.cfg rt) w = some (outcome, w') ∧
      (request.program env).run (exec env.cfg rt) v = some (outcome, v') ∧
      w'.ofRegion request.region = v'.ofRegion request.region :=
  Prog.Isolated.same hw hv h

/-! ### Runs -/

theorem throughout_isolated : ∀ {events : List RegionEvent} {w : World}, MessagesOk rt w →
    Throughout env rt (RegionRequest.Separated env rt) events w →
    Throughout env rt (RegionRequest.Isolated env rt) events w
  | [], _, _, _ => trivial
  | .call _ :: _, _, hw, h => fun r hr => throughout_isolated (hw.step hr) (h r hr)
  | .request _ :: _, _, hw, h => ⟨RegionRequest.isolated_of_separated hw h.1, fun r hr =>
      throughout_isolated (Prog.run_invariant (fun _ _ _ hw h => hw.step h) hw hr) (h.2 r hr)⟩

/-- In every run whose requests all meet the condition, no request sees or changes a record of
    another region. -/
theorem region_isolation (env : Env) (rt : Runtime) (events : List RegionEvent)
    (h : Throughout env rt (RegionRequest.Separated env rt) events {}) :
    Throughout env rt (RegionRequest.Isolated env rt) events {} :=
  throughout_isolated .initial h

/-- A queue `q` of a region, as `CreateQueue` stores it. -/
def queueOf (region : Str) (delaySeconds : Int) : SqsCall :=
  .createQueue {
    region := region, name := str "q", queueUrl := createSQSQueueUrl Env.sample.cfg (str "q")
    attributes := { delaySeconds := delaySeconds }, created := 0, modified := 0 }

/-- Both regions have a queue `q`, and a message is sent to the one created first. -/
def twoRegions : List RegionEvent :=
  [.call (queueOf (str "b") 5), .call (queueOf (str "a") 0),
    .request (.sendMessage { region := str "b", queueUrl := createSQSQueueUrl Env.sample.cfg (str "q") })]

/-- The first region reads its attributes, and the second purges its own queue. -/
theorem region_isolation_purge : Throughout Env.sample (.counting 20)
    (RegionRequest.Isolated Env.sample (.counting 20))
    (twoRegions ++ [.request (.getQueueAttributes
        { region := str "b", queueUrl := createSQSQueueUrl Env.sample.cfg (str "q") }),
      .request (.purgeQueue
        { region := str "a", queueUrl := createSQSQueueUrl Env.sample.cfg (str "q") })]) {} := by
  refine region_isolation _ _ _ ?_
  rintro r hr
  cases hr
  rintro r hr
  cases hr
  refine ⟨⟨trivial, ?_⟩, ?_⟩
  -- the send finds the queue of its region
  · rintro r hr
    cases hr
    refine ⟨fun e he => ?_, fun r hr => ?_⟩
    · cases he
      rfl
    · cases hr
      exact ⟨trivial, fun r hr => ⟨trivial, fun r hr => ⟨trivial, fun r hr => ⟨trivial, fun r hr =>
        ⟨trivial, fun r hr => ⟨trivial, fun r hr => ⟨trivial, fun r hr => trivial⟩⟩⟩⟩⟩⟩⟩
  · rintro r hr
    cases hr
    refine ⟨⟨trivial, ?_⟩, ?_⟩
    · rintro r hr
      cases hr
      refine ⟨fun e he => ?_, fun r hr => ?_⟩
      · cases he
        rfl
      · cases hr
        trivial
    · rintro r hr
      cases hr
      refine ⟨⟨trivial, ?_⟩, fun r hr => trivial⟩
      rintro r hr
      cases hr
      exact ⟨trivial, fun r hr => trivial⟩

/-- Deleting the queue of the second region deletes the message of the first, and its attributes are
    answered with those of the first. -/
theorem region_isolation_sharedUrl :
    ¬ Throughout Env.sample (.counting 20) (RegionRequest.Isolated Env.sample (.counting 20))
      (twoRegions ++ [.request (.deleteQueue
        { region := str "a", queueUrl := createSQSQueueUrl Env.sample.cfg (str "q") })]) {} ∧
    ¬ Throughout Env.sample (.counting 20) (RegionRequest.Isolated Env.sample (.counting 20))
      (twoRegions ++ [.request (.getQueueAttributes
        { region := str "a", queueUrl := createSQSQueueUrl Env.sample.cfg (str "q"),
          attributeNames := [str "DelaySeconds"] })]) {} := by
  constructor
  · intro h
    obtain ⟨-, h⟩ := h _ rfl _ rfl
    obtain ⟨⟨outcome, w', hrun, -, hrest⟩, -⟩ := h _ rfl
    cases hrun
    exact absurd hrest (by decide)
  · intro h
    obtain ⟨-, h⟩ := h _ rfl _ rfl
    obtain ⟨⟨outcome, w', hrun, hview, -⟩, -⟩ := h _ rfl
    cases hrun
    cases hview

end AwsMock.Sqs
