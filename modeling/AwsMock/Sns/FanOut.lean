import AwsMock.Lib.Related
import AwsMock.Sns.Service
import AwsMock.Sqs.Conservation

/-!
# Fan-out of a publish

`Publish` sends the message to the queue of every subscription with the protocol `sqs`, one after
another. A subscription whose endpoint is no queue is sent to the queue with the empty URL, for which
no existence test is made; one whose queue is not in the region of the request ends the loop.
-/

namespace AwsMock.Sns

open Lib

variable {env : Sqs.Env} {cfg : Configuration} {rt : Sqs.Runtime} {request : PublishRequest} {w w' : World}

/-! ### Reachable stores -/

/-- The process is in this state after some list of calls. -/
def Reachable (cfg : Configuration) (rt : Sqs.Runtime) (w : World) : Prop :=
  ∃ calls, Prog.execAll (exec cfg rt) calls {} = some w

/-- A later count of calls. -/
theorem messagesOk_later {w : Sqs.World} (hw : Sqs.MessagesOk rt w) {n : Nat} (hn : w.calls ≤ n) :
    Sqs.MessagesOk rt { w with calls := n } where
  keyed := hw.keyed
  drawn k m hm := by
    obtain ⟨i, hi, he⟩ := hw.drawn k m hm
    exact ⟨i, Nat.lt_of_lt_of_le hi hn, he⟩

/-- A call of the SNS store counts as one of the process. -/
theorem exec_own {c : SnsCall} (hc : ∀ d, c ≠ .sqs d) : exec cfg rt c w =
    (c.apply rt w.sqs.calls w.db).map fun r =>
      (r.1, { db := r.2, sqs := { w.sqs with calls := w.sqs.calls + 1 } }) := by
  cases c with
  | sqs d => exact absurd rfl (hc d)
  | _ => rfl

theorem messagesOk_of_call {c : SnsCall} {r : c.Reply × World} (hw : Sqs.MessagesOk rt w.sqs)
    (h : exec cfg rt c w = some r) : Sqs.MessagesOk rt r.2.sqs := by
  cases c with
  | sqs c =>
    obtain ⟨⟨reply, v⟩, hv, rfl⟩ := Option.map_eq_some_iff.mp h
    exact hw.step hv
  | _ =>
    rw [exec_own (fun _ he => by cases he)] at h
    obtain ⟨x, -, rfl⟩ := Option.map_eq_some_iff.mp h
    exact messagesOk_later hw (Nat.le_succ _)

theorem Reachable.messagesOk (h : Reachable cfg rt w) : Sqs.MessagesOk rt w.sqs := by
  obtain ⟨calls, hcalls⟩ := h
  have hstep : ∀ (c : SnsCall) (w : World) (r : c.Reply × World), Sqs.MessagesOk rt w.sqs →
      exec cfg rt c w = some r → Sqs.MessagesOk rt r.2.sqs := fun _ _ _ hs hr => messagesOk_of_call hs hr
  exact Prog.execAll_invariant hstep Sqs.MessagesOk.initial hcalls

/-! ### What a publish owes -/

/-- The subscriptions of the topic that the request names, of the protocol `sqs`. -/
def World.sqsSubscriptions (w : World) (request : PublishRequest) : List Subscription :=
  if request.topicArn = [] then []
  else ((w.db.topics.findIf fun _ topic => topic.topicArn = request.topicArn).elim []
    fun it => it.2.subscriptions).filter Subscription.isSqs

/-- The queue an endpoint names. -/
def queueOf (db : Sqs.SqsMemoryDb) (endpoint : Str) : Option Sqs.Queue :=
  (db.queues.findIf fun _ queue => queue.queueArn = endpoint).map Prod.snd

/-- The URL that `GetQueueByArn` returns, empty for a missing queue. -/
def urlOf (db : Sqs.SqsMemoryDb) (endpoint : Str) : Str :=
  (queueOf db endpoint).elim [] fun queue => queue.queueUrl

/-- The message carries what was published, and the topic. -/
def Carries (env : Sqs.Env) (request : PublishRequest) (m : Sqs.Message) : Prop :=
  ∃ messageId timestamp, m.body = ({
    messageId := messageId, topicArn := request.topicArn, message := request.message,
    timestamp := timestamp } : SqsNotificationRequest).toJson env.poco

/-- A visible message of the subscription's queue, which can be received in its region. -/
structure Delivered (env : Sqs.Env) (request : PublishRequest) (db : Sqs.SqsMemoryDb)
    (subscription : Subscription) (m : Sqs.Message) : Prop where
  queueUrl : ∃ queue, queueOf db subscription.endpoint = some queue ∧ m.queueUrl = queue.queueUrl
  received : db.queueUrlExists m.region m.queueUrl = true
  visible : m.status = .initial
  carries : Carries env request m

/-- Two stores have the same queues, up to the ids written into the records. -/
def SameQueues (db db' : Sqs.SqsMemoryDb) : Prop :=
  (db.queues.mapVal fun _ q => { q with oid := [] }) = db'.queues.mapVal fun _ q => { q with oid := [] }

/-- Every subscription whose queue exists has one new message, and nothing else is stored. -/
def FansOut (env : Sqs.Env) (request : PublishRequest) (w w' : World) : Prop :=
  SameQueues w.sqs.db w'.sqs.db ∧ ∃ added : List (Str × Sqs.Message),
    w'.sqs.db.messages.entries.Perm (w.sqs.db.messages.entries ++ added) ∧
    List.Forall₂ (fun subscription e => Delivered env request w.sqs.db subscription e.2)
      ((w.sqsSubscriptions request).filter fun s => (queueOf w.sqs.db s.endpoint).isSome) added

/-- As many records are added as messages are owed. -/
theorem FansOut.size (h : FansOut env request w w') : w'.sqs.db.messages.size =
    w.sqs.db.messages.size + ((w.sqsSubscriptions request).filter fun s =>
      (queueOf w.sqs.db s.endpoint).isSome).length := by
  obtain ⟨-, added, hperm, hadded⟩ := h
  rw [hadded.length_eq]
  exact hperm.length_eq.trans List.length_append

/-! ### Queues up to their ids -/

namespace SameQueues

variable {db db' db'' : Sqs.SqsMemoryDb}

theorem refl (db : Sqs.SqsMemoryDb) : SameQueues db db := rfl

theorem trans (h : SameQueues db db') (h' : SameQueues db' db'') : SameQueues db db'' := Eq.trans h h'

/-- Lookups that do not read the id find the same record. -/
theorem findIf (h : SameQueues db db') {p : Sqs.Queue → Bool}
    (hp : ∀ q, p { q with oid := [] } = p q) :
    (db.queues.findIf fun _ q => p q).map (fun it => { it.2 with oid := [] }) =
      (db'.queues.findIf fun _ q => p q).map fun it => { it.2 with oid := [] } := by
  have hfind : ∀ db : Sqs.SqsMemoryDb,
      (db.queues.findIf fun _ q => p q).map (fun it => { it.2 with oid := [] }) =
        ((db.queues.mapVal fun _ q => { q with oid := [] }).findIf fun _ q => p q).map Prod.snd := by
    intro db
    rw [OrderedMap.findIf_mapVal _ fun _ => hp, Option.map_map]
    rfl
  rw [hfind, hfind, show db.queues.mapVal _ = _ from h]

theorem urlOf_eq (h : SameQueues db db') (endpoint : Str) : urlOf db endpoint = urlOf db' endpoint := by
  have hurl : ∀ db : Sqs.SqsMemoryDb, urlOf db endpoint =
      ((db.queues.findIf fun _ q => q.queueArn = endpoint).map
        fun it => { it.2 with oid := [] }).elim [] fun q => q.queueUrl := by
    intro db
    unfold urlOf queueOf
    rcases db.queues.findIf _ with _ | it <;> rfl
  rw [hurl, hurl, h.findIf fun _ => rfl]

theorem queueUrlExists_eq (h : SameQueues db db') (region queueUrl : Str) :
    db.queueUrlExists region queueUrl = db'.queueUrlExists region queueUrl := by
  have hfind := congrArg Option.isSome
    (h.findIf (p := fun q => q.region = region ∧ q.queueUrl = queueUrl) fun _ => rfl)
  rwa [Option.isSome_map, Option.isSome_map] at hfind

/-- A lookup writes an id. -/
theorem fetchQueue (db : Sqs.SqsMemoryDb) (now : Sqs.TimePoint) (p : Sqs.Queue → Bool) :
    SameQueues db (db.fetchQueue now (db.queues.findIf fun _ q => p q)).2 := by
  rcases hit : db.queues.findIf fun _ q => p q with _ | ⟨k, queue⟩
  · rfl
  · have hget := (OrderedMap.findIf_some hit).1
    unfold SameQueues
    rw [Sqs.SqsMemoryDb.fetchQueue, OrderedMap.mapVal_insert, OrderedMap.insert_get?_self]
    rw [OrderedMap.get?_mapVal, hget]
    rfl

end SameQueues

/-! ### One send -/

/-- The send is made: its queue is in the region of the request, or no test is made. -/
def Sendable (request : PublishRequest) (db : Sqs.SqsMemoryDb) (subscription : Subscription) : Prop :=
  urlOf db subscription.endpoint = [] ∨
    db.queueUrlExists request.region (urlOf db subscription.endpoint) = true

/-- The message a send stores. -/
structure Sent (env : Sqs.Env) (request : PublishRequest) (db : Sqs.SqsMemoryDb)
    (subscription : Subscription) (m : Sqs.Message) : Prop where
  sendable : Sendable request db subscription
  queueUrl : m.queueUrl = urlOf db subscription.endpoint
  region : m.region = request.region
  visible : m.status = .initial
  carries : Carries env request m

/-- A send adds its message under a new id. -/
structure Adds (rt : Sqs.Runtime) (w w' : Sqs.World) (added : List (Str × Sqs.Message)) : Prop where
  messagesOk : Sqs.MessagesOk rt w'
  queues : SameQueues w.db w'.db
  messages : w'.db.messages.entries.Perm (w.db.messages.entries ++ added)

theorem Adds.trans {w₁ w₂ w₃ : Sqs.World} {added added' : List (Str × Sqs.Message)}
    (h : Adds rt w₁ w₂ added) (h' : Adds rt w₂ w₃ added') : Adds rt w₁ w₃ (added ++ added') where
  messagesOk := h'.messagesOk
  queues := h.queues.trans h'.queues
  messages := by
    rw [← List.append_assoc]
    exact h'.messages.trans (h.messages.append_right _)

/-- A part of the SQS service runs in its store. -/
theorem run_sqsService {α : Type} (p : Sqs.SqsProg α) (w : World) :
    (sqsService p).run (exec cfg rt) w =
      (p.run (Sqs.exec cfg rt) w.sqs).map fun r => (r.1, { w with sqs := r.2 }) := by
  refine Prog.run_via World.sqs (fun w s => { w with sqs := s }) (fun _ _ => rfl)
    (fun _ => rfl) (fun _ _ _ => rfl) (fun c t => ?_) p w
  rw [Prog.run_perform]
  change ((Sqs.exec cfg rt c t.sqs).map _).map _ = _
  rcases Sqs.exec cfg rt c t.sqs with _ | r <;> rfl

/-- The body of the notification. -/
def notificationBody (env : Sqs.Env) (rt : Sqs.Runtime) (request : PublishRequest) (n : Nat) : Str :=
  ({ messageId := rt.uuid (n + 1), topicArn := request.topicArn, message := request.message,
     timestamp := epochMilliseconds (rt.now (n + 2)) } : SqsNotificationRequest).toJson env.poco

/-- The request to the SQS service when the first call is the `n`-th. -/
def notificationRequest (env : Sqs.Env) (rt : Sqs.Runtime) (request : PublishRequest) (queueUrl : Str)
    (n : Nat) : Sqs.SendMessageRequest :=
  { region := request.region, queueUrl := queueUrl, body := notificationBody env rt request n,
    messageId := rt.uuid (n + 3), requestId := rt.uuid (n + 4) }

theorem sendSQSMessage_run (subscription : Subscription) (w : World) :
    (sendSQSMessage env subscription request).run (exec env.cfg rt) w =
      let found := w.sqs.db.getQueueByArn subscription.endpoint (rt.now w.sqs.calls)
      ((Sqs.sendMessage env (notificationRequest env rt request found.1.queueUrl w.sqs.calls)).run
        (Sqs.exec env.cfg rt) ⟨found.2, w.sqs.calls + 5⟩).map fun r =>
          (r.1.map fun _ => (), { w with sqs := r.2 }) := by
  simp only [sendSQSMessage, createRandom, Prog.run_perform_bind, exec, Sqs.exec, Sqs.SqsCall.apply,
    Option.map_some, Option.bind_some]
  rw [Prog.run_bind, run_sqsService]
  dsimp only [notificationRequest, notificationBody]
  rcases Prog.run _ _ _ with _ | ⟨_ | _, _⟩ <;> rfl

theorem Adds.lookup {s : Sqs.World} (hs : Sqs.MessagesOk rt s) {db : Sqs.SqsMemoryDb}
    (hqueues : SameQueues s.db db) (hmessages : db.messages = s.db.messages) {n : Nat} (hn : s.calls ≤ n) :
    Adds rt s ⟨db, n⟩ [] where
  messagesOk :=
    { keyed := fun k m hm => hs.keyed k m (hmessages ▸ hm)
      drawn := fun k m hm => by
        obtain ⟨i, hi, he⟩ := hs.drawn k m (hmessages ▸ hm)
        exact ⟨i, Nat.lt_of_lt_of_le hi hn, he⟩ }
  queues := hqueues
  messages := by rw [List.append_nil, hmessages]

/-- A send to a queue that is found, or to none. -/
theorem sendToQueue_adds (env : Sqs.Env) (cfg : Configuration) {request : Sqs.SendMessageRequest}
    {s : Sqs.World} (hs : Sqs.MessagesOk rt s)
    (hurl : request.queueUrl = [] ∨ s.db.queueUrlExists request.region request.queueUrl = true) :
    ∃ response s' k m, (Sqs.sendToQueue env request).run (Sqs.exec cfg rt) s = some (.ok response, s') ∧
      Adds rt s s' [(k, m)] ∧ m.queueUrl = request.queueUrl ∧ m.region = request.region ∧
      m.body = request.body ∧ m.status = .initial := by
  have hfetch := SameQueues.fetchQueue s.db (rt.now s.calls) fun q => q.queueUrl = request.queueUrl
  have hqueue : (s.db.getQueueByUrl request.queueUrl (rt.now s.calls)).1.queueUrl = request.queueUrl :=
    Sqs.getQueueByUrl_queueUrl request.region hurl
  have hlook : Adds rt s ⟨(s.db.getQueueByUrl request.queueUrl (rt.now s.calls)).2, s.calls + 7⟩ [] :=
    Adds.lookup hs hfetch (Sqs.SqsMemoryDb.fetchQueue_messages _ _) (Nat.le_add_right _ 7)
  have hrun := @Sqs.sendToQueue_run cfg rt env request s
  have hfresh := hlook.messagesOk.fresh (Nat.le_refl (s.calls + 7))
  refine ⟨_, _, rt.uuid (s.calls + 7), { Sqs.sentMessage env rt request
    (s.db.getQueueByUrl request.queueUrl (rt.now s.calls)).1 s.calls with oid := rt.uuid (s.calls + 7) },
    hrun, hlook.trans ?_, hqueue, rfl, rfl, rfl⟩
  refine ⟨⟨fun k m hm => ?_, fun k m hm => ?_⟩, .refl _, ?_⟩
  · simp only [OrderedMap.get?_insert] at hm
    split at hm
    · next hk => cases hm; exact hk.symm
    · exact hlook.messagesOk.keyed k m hm
  · simp only [OrderedMap.get?_insert] at hm
    split at hm
    · next hk => exact ⟨s.calls + 7, Nat.lt_succ_self _, hk⟩
    · obtain ⟨i, hi, he⟩ := hlook.messagesOk.drawn k m hm
      exact ⟨i, Nat.lt_succ_of_lt hi, he⟩
  · exact (OrderedMap.entries_insert_perm hfresh).trans (List.perm_append_singleton _ _).symm

theorem getQueueByArn_url (db : Sqs.SqsMemoryDb) (endpoint : Str) (now : Sqs.TimePoint) :
    (db.getQueueByArn endpoint now).1.queueUrl = urlOf db endpoint := by
  unfold Sqs.SqsMemoryDb.getQueueByArn urlOf queueOf
  rcases db.queues.findIf _ with _ | it <;> rfl

/-- The service sends when the queue is in the region, and throws otherwise. -/
theorem sendMessage_adds (env : Sqs.Env) (cfg : Configuration) {request : Sqs.SendMessageRequest}
    {s : Sqs.World} (hs : Sqs.MessagesOk rt s)
    (hurl : request.queueUrl = [] ∨ s.db.queueUrlExists request.region request.queueUrl = true) :
    ∃ response s' k m, (Sqs.sendMessage env request).run (Sqs.exec cfg rt) s = some (.ok response, s') ∧
      Adds rt s s' [(k, m)] ∧ m.queueUrl = request.queueUrl ∧ m.region = request.region ∧
      m.body = request.body ∧ m.status = .initial := by
  unfold Sqs.sendMessage
  by_cases hempty : request.queueUrl = []
  · rw [if_pos hempty]
    exact sendToQueue_adds env cfg hs hurl
  · rw [if_neg hempty, Prog.run_perform_bind]
    have hexists : s.db.queueUrlExists request.region request.queueUrl = true := hurl.resolve_left hempty
    simp only [Sqs.exec, Sqs.SqsCall.apply, Option.map_some, Option.bind_some, hexists, if_true]
    obtain ⟨response, s', k, m, hrun, hadds, hm⟩ := sendToQueue_adds env cfg
      (s := ⟨s.db, s.calls + 1⟩) (messagesOk_later hs (Nat.le_succ _)) hurl
    exact ⟨response, s', k, m, hrun, ⟨hadds.messagesOk, hadds.queues, hadds.messages⟩, hm⟩

/-- A subscription that can be sent to gets its message. -/
theorem sendSQSMessage_adds {subscription : Subscription} (hw : Sqs.MessagesOk rt w.sqs)
    (h : Sendable request w.sqs.db subscription) :
    ∃ s' e, (sendSQSMessage env subscription request).run (exec env.cfg rt) w =
        some (.ok (), { w with sqs := s' }) ∧ Adds rt w.sqs s' [e] ∧
      Sent env request w.sqs.db subscription e.2 := by
  have hrun := @sendSQSMessage_run env rt request subscription w
  have hlook : Adds rt w.sqs ⟨(w.sqs.db.getQueueByArn subscription.endpoint (rt.now w.sqs.calls)).2,
      w.sqs.calls + 5⟩ [] :=
    Adds.lookup hw (SameQueues.fetchQueue _ _ fun q => q.queueArn = subscription.endpoint)
      (Sqs.SqsMemoryDb.fetchQueue_messages _ _) (Nat.le_add_right _ 5)
  dsimp only at hrun
  rw [getQueueByArn_url] at hrun
  have hurl : urlOf w.sqs.db subscription.endpoint = [] ∨
      (w.sqs.db.getQueueByArn subscription.endpoint (rt.now w.sqs.calls)).2.queueUrlExists
        request.region (urlOf w.sqs.db subscription.endpoint) = true := by
    rwa [← hlook.queues.queueUrlExists_eq]
  obtain ⟨response, s', k, m, hsend, hadds, hqueue, hregion, hbody, hstatus⟩ :=
    @sendMessage_adds rt env env.cfg (notificationRequest env rt request
      (urlOf w.sqs.db subscription.endpoint) w.sqs.calls) _ hlook.messagesOk hurl
  rw [hsend] at hrun
  exact ⟨s', (k, m), hrun, hlook.trans hadds, h, hqueue, hregion, hstatus, ⟨_, _, hbody⟩⟩

/-- Another one makes the request fail. -/
theorem sendSQSMessage_throws {subscription : Subscription} (hw : Sqs.MessagesOk rt w.sqs)
    (h : ¬ Sendable request w.sqs.db subscription) :
    ∃ s' x, (sendSQSMessage env subscription request).run (exec env.cfg rt) w =
        some (.error x, { w with sqs := s' }) ∧ Adds rt w.sqs s' [] := by
  have hrun := @sendSQSMessage_run env rt request subscription w
  have hlook : Adds rt w.sqs ⟨(w.sqs.db.getQueueByArn subscription.endpoint (rt.now w.sqs.calls)).2,
      w.sqs.calls + 6⟩ [] :=
    Adds.lookup hw (SameQueues.fetchQueue _ _ fun q => q.queueArn = subscription.endpoint)
      (Sqs.SqsMemoryDb.fetchQueue_messages _ _) (Nat.le_add_right _ 6)
  dsimp only at hrun
  rw [getQueueByArn_url] at hrun
  obtain ⟨hne, hmissing⟩ := not_or.mp h
  rw [hlook.queues.queueUrlExists_eq, Bool.not_eq_true] at hmissing
  have hurl : (notificationRequest env rt request (urlOf w.sqs.db subscription.endpoint)
      w.sqs.calls).queueUrl ≠ [] := hne
  rw [Sqs.sendMessage, if_neg hurl, Prog.run_perform_bind] at hrun
  simp only [Sqs.exec, Sqs.SqsCall.apply, Option.map_some, Option.bind_some, notificationRequest,
    hmissing, Bool.false_eq_true, if_false] at hrun
  exact ⟨_, _, hrun, hlook⟩

theorem Sendable.congr {db db' : Sqs.SqsMemoryDb} (h : SameQueues db db') {subscription : Subscription} :
    Sendable request db subscription ↔ Sendable request db' subscription := by
  rw [Sendable, Sendable, h.urlOf_eq, h.queueUrlExists_eq]

theorem Sent.congr {db db' : Sqs.SqsMemoryDb} (h : SameQueues db db') {subscription : Subscription}
    {m : Sqs.Message} (hm : Sent env request db' subscription m) : Sent env request db subscription m where
  sendable := (Sendable.congr h).mpr hm.sendable
  queueUrl := by rw [hm.queueUrl, h.urlOf_eq]
  region := hm.region
  visible := hm.visible
  carries := hm.carries

/-! ### The loop -/

/-- The loop sends to the subscriptions of the protocol up to the first that cannot be sent to. -/
theorem forEach_adds (env : Sqs.Env) (request : PublishRequest) : ∀ (subscriptions : List Subscription)
    (w : World), Sqs.MessagesOk rt w.sqs →
    ∃ s' added x, (Prog.forEach subscriptions fun it =>
        Prog.when (it.isSqs = true) (sendSQSMessage env it request)).run (exec env.cfg rt) w =
          some (x, { w with sqs := s' }) ∧ Adds rt w.sqs s' added ∧
      (∀ e ∈ added, ∃ subscription, Sent env request w.sqs.db subscription e.2) ∧
      ((∀ it ∈ subscriptions.filter Subscription.isSqs, Sendable request w.sqs.db it) →
        List.Forall₂ (fun it e => Sent env request w.sqs.db it e.2)
          (subscriptions.filter Subscription.isSqs) added)
  | [], w, hw => ⟨w.sqs, [], .ok (), rfl, ⟨hw, .refl _, by simp⟩, by simp, fun _ => .nil⟩
  | it :: subscriptions, w, hw => by
    rcases hsqs : it.isSqs with _ | _
    · obtain ⟨s', added, x, hrun, hrest⟩ := forEach_adds env request subscriptions w hw
      refine ⟨s', added, x, ?_, ?_⟩
      · rw [Prog.forEach, Prog.when, hsqs, if_neg (by simp)]
        exact hrun
      · simpa only [List.filter_cons, hsqs, Bool.false_eq_true, if_false] using hrest
    · by_cases hsend : Sendable request w.sqs.db it
      · obtain ⟨s₁, e, hfirst, hadds, hsent⟩ := @sendSQSMessage_adds env rt request w it hw hsend
        obtain ⟨s', added, x, hrun, hadds', hall, hforall⟩ :=
          forEach_adds env request subscriptions { w with sqs := s₁ } hadds.messagesOk
        refine ⟨s', e :: added, x, ?_, hadds.trans hadds', ?_, ?_⟩
        · rw [Prog.forEach, Prog.when, hsqs, if_pos rfl, Prog.run_bind, hfirst]
          exact hrun
        · intro e' he'
          rcases List.mem_cons.mp he' with rfl | he'
          · exact ⟨it, hsent⟩
          · obtain ⟨subscription, hsubscription⟩ := hall e' he'
            exact ⟨subscription, hsubscription.congr hadds.queues⟩
        · intro hsendable
          simp only [List.filter_cons, hsqs, if_true, List.mem_cons, forall_eq_or_imp] at hsendable ⊢
          have hrest := hforall fun it hit => (Sendable.congr hadds.queues).mp (hsendable.2 it hit)
          exact .cons hsent (hrest.imp fun _ _ h => h.congr hadds.queues)
      · obtain ⟨s', x, hfirst, hadds⟩ := @sendSQSMessage_throws env rt request w it hw hsend
        refine ⟨s', [], .error x, ?_, hadds, by simp, fun h => absurd (h it ?_) hsend⟩
        · rw [Prog.forEach, Prog.when, hsqs, if_pos rfl, Prog.run_bind, hfirst]
          rfl
        · simp [hsqs]

/-! ### The publish -/

theorem createMessage_topics (db : SnsMemoryDb) (oid : Str) (message : Message) (now : TimePoint) :
    (db.createMessage oid message now).2.topics = db.topics := by
  unfold SnsMemoryDb.createMessage SnsMemoryDb.getMessageById
  rcases OrderedMap.findIf _ _ with _ | _ <;> rfl

/-- The subscriptions of the record with an ARN. -/
def subscriptionsOf (db : SnsMemoryDb) (topicArn : Str) : List Subscription :=
  (db.topics.findIf fun _ topic => topic.topicArn = topicArn).elim [] fun it => it.2.subscriptions

theorem getTopicByArn_subscriptions (db : SnsMemoryDb) (topicArn : Str) (now : TimePoint) :
    (db.getTopicByArn topicArn now).1.subscriptions = subscriptionsOf db topicArn := by
  unfold SnsMemoryDb.getTopicByArn subscriptionsOf
  rcases db.topics.findIf _ with _ | it <;> rfl

theorem checkSubscriptions_adds (env : Sqs.Env) (request : PublishRequest) (w : World)
    (hw : Sqs.MessagesOk rt w.sqs) :
    ∃ x w' added, (checkSubscriptions env request).run (exec env.cfg rt) w = some (x, w') ∧
      Adds rt w.sqs w'.sqs added ∧
      (∀ e ∈ added, ∃ subscription, Sent env request w.sqs.db subscription e.2) ∧
      ((∀ it ∈ (subscriptionsOf w.db request.topicArn).filter Subscription.isSqs,
          Sendable request w.sqs.db it) →
        List.Forall₂ (fun it e => Sent env request w.sqs.db it e.2)
          ((subscriptionsOf w.db request.topicArn).filter Subscription.isSqs) added) := by
  have hlater : Adds rt w.sqs { w.sqs with calls := w.sqs.calls + 1 } [] :=
    Adds.lookup hw (.refl _) rfl (Nat.le_succ _)
  obtain ⟨s', added, x, hrun, hadds, hrest⟩ := forEach_adds env request
    (subscriptionsOf w.db request.topicArn)
    ⟨(w.db.getTopicByArn request.topicArn (rt.now w.sqs.calls)).2, { w.sqs with calls := w.sqs.calls + 1 }⟩
    hlater.messagesOk
  refine ⟨x, ⟨(w.db.getTopicByArn request.topicArn (rt.now w.sqs.calls)).2, s'⟩, added, ?_,
    hlater.trans hadds, hrest⟩
  rw [checkSubscriptions, Prog.run_perform_bind]
  simp only [exec, SnsCall.apply, Option.map_some, Option.bind_some, getTopicByArn_subscriptions]
  exact hrun

/-- A publish stores its message and runs the loop over the subscriptions of its topic. -/
theorem publish_adds (env : Sqs.Env) (request : PublishRequest) (hw : Sqs.MessagesOk rt w.sqs) :
    ∃ x w' added, (publish env request).run (exec env.cfg rt) w = some (x, w') ∧
      Adds rt w.sqs w'.sqs added ∧
      (∀ e ∈ added, ∃ subscription, Sent env request w.sqs.db subscription e.2) ∧
      ((∀ it ∈ w.sqsSubscriptions request, Sendable request w.sqs.db it) →
        List.Forall₂ (fun it e => Sent env request w.sqs.db it e.2) (w.sqsSubscriptions request) added) := by
  have hlater : ∀ n, Adds rt w.sqs { w.sqs with calls := w.sqs.calls + n } [] := fun n =>
    Adds.lookup hw (.refl _) rfl (Nat.le_add_right _ n)
  unfold publish World.sqsSubscriptions
  split
  · exact ⟨_, _, [], rfl, hlater 0, by simp, fun _ => .nil⟩
  rcases htopic : w.db.topicExists request.topicArn with _ | _
  · have hnone : (w.db.topics.findIf fun _ topic => topic.topicArn = request.topicArn) = none :=
      Option.not_isSome_iff_eq_none.mp (by rw [← SnsMemoryDb.topicExists, htopic]; simp)
    refine ⟨.error topicDoesNotExist, { w with sqs := { w.sqs with calls := w.sqs.calls + 1 } }, [], ?_,
      hlater 1, by simp, fun _ => by rw [hnone]; exact .nil⟩
    simp only [Prog.run_perform_bind, exec, SnsCall.apply, htopic, Option.map_some, Option.bind_some]
    rfl
  · have hfirst : ∀ message, subscriptionsOf (w.db.createMessage (rt.uuid (w.sqs.calls + 3)) message
        (rt.now (w.sqs.calls + 3))).2 request.topicArn = subscriptionsOf w.db request.topicArn := by
      intro message
      unfold subscriptionsOf
      rw [createMessage_topics]
    obtain ⟨x, w', added, hrun, hadds, hrest⟩ := checkSubscriptions_adds env request
      ⟨(w.db.createMessage (rt.uuid (w.sqs.calls + 3)) {
        region := request.region, topicArn := request.topicArn, targetArn := request.targetArn,
        message := request.message, messageId := rt.uuid (w.sqs.calls + 1),
        created := rt.now (w.sqs.calls + 2), modified := rt.now (w.sqs.calls + 2) }
        (rt.now (w.sqs.calls + 3))).2, { w.sqs with calls := w.sqs.calls + 4 }⟩ (hlater 4).messagesOk
    rw [hfirst] at hrest
    simp only [guarded, createRandom, Prog.run_perform_bind, Prog.run_mapThrow, exec, Sqs.exec,
      Sqs.SqsCall.apply, SnsCall.apply, htopic, Option.map_some, Option.bind_some, if_true]
    rw [Prog.run_bind, hrun]
    rcases x with _ | _
    · exact ⟨_, w', added, rfl, (hlater 4).trans hadds, hrest⟩
    · exact ⟨_, w', added, rfl, (hlater 4).trans hadds, hrest⟩

/-! ### The condition -/

/-- The endpoint is a queue, which is found in the region of the request. -/
def Subscribed (request : PublishRequest) (db : Sqs.SqsMemoryDb) (subscription : Subscription) : Prop :=
  ∃ queue, queueOf db subscription.endpoint = some queue ∧
    db.queueUrlExists request.region queue.queueUrl = true

theorem Subscribed.sendable {db : Sqs.SqsMemoryDb} {subscription : Subscription}
    (h : Subscribed request db subscription) : Sendable request db subscription := by
  obtain ⟨queue, hqueue, hexists⟩ := h
  exact Or.inr (by rwa [urlOf, hqueue])

/-- The message sent to a subscription whose queue is found is its delivery. -/
theorem Sent.delivered {db : Sqs.SqsMemoryDb} {subscription : Subscription} {m : Sqs.Message}
    (hm : Sent env request db subscription m) (h : Subscribed request db subscription) :
    Delivered env request db subscription m := by
  obtain ⟨queue, hqueue, hexists⟩ := h
  have hurl : m.queueUrl = queue.queueUrl := by rw [hm.queueUrl, urlOf, hqueue]; rfl
  exact ⟨⟨queue, hqueue, hurl⟩, by rwa [hm.region, hurl], hm.visible, hm.carries⟩

/-- A publish fans out exactly when the endpoint of every subscription is a queue that the region of the
    request has. -/
theorem publish_fans_out (env : Sqs.Env) (rt : Sqs.Runtime) (request : PublishRequest) (w : World)
    (hw : Reachable env.cfg rt w) :
    ∃ x w', (publish env request).run (exec env.cfg rt) w = some (x, w') ∧
      (FansOut env request w w' ↔
        ∀ subscription ∈ w.sqsSubscriptions request, Subscribed request w.sqs.db subscription) := by
  obtain ⟨x, w', added, hrun, hadds, hsent, hforall⟩ := publish_adds env request hw.messagesOk
  refine ⟨x, w', hrun, ?_, fun h => ?_⟩
  · rintro ⟨-, added', hperm, hdelivered⟩
    have hadded : added.Perm added' :=
      (List.perm_append_left_iff _).mp (hadds.messages.symm.trans hperm)
    -- A queue that exists has a message of the request's region.
    have hfound : ∀ it ∈ w.sqsSubscriptions request, (queueOf w.sqs.db it.endpoint).isSome = true →
        Subscribed request w.sqs.db it := by
      intro it hit hsome
      obtain ⟨e, he, hd⟩ := forall₂_partner hdelivered (List.mem_filter.mpr ⟨hit, hsome⟩)
      obtain ⟨subscription, hs⟩ := hsent e (hadded.mem_iff.mpr he)
      obtain ⟨queue, hqueue, hurl⟩ := hd.queueUrl
      exact ⟨queue, hqueue, by rw [← hurl, ← hs.region]; exact hd.received⟩
    have hsendable : ∀ it ∈ w.sqsSubscriptions request, Sendable request w.sqs.db it := by
      intro it hit
      rcases hqueue : queueOf w.sqs.db it.endpoint with _ | queue
      · exact Or.inl (by rw [urlOf, hqueue]; rfl)
      · exact (hfound it hit (by rw [hqueue]; rfl)).sendable
    -- So every subscription has been sent to, and as many messages are owed.
    have hlength : ((w.sqsSubscriptions request).filter fun s =>
        (queueOf w.sqs.db s.endpoint).isSome).length = (w.sqsSubscriptions request).length := by
      rw [hdelivered.length_eq, ← hadded.length_eq, (hforall hsendable).length_eq]
    intro it hit
    exact hfound it hit (List.length_filter_eq_length_iff.mp hlength it hit)
  · have hall := hforall fun it hit => (h it hit).sendable
    refine ⟨hadds.queues, added, hadds.messages, ?_⟩
    have hfilter : (w.sqsSubscriptions request).filter
        (fun s => (queueOf w.sqs.db s.endpoint).isSome) = w.sqsSubscriptions request := by
      refine List.filter_eq_self.mpr fun it hit => ?_
      obtain ⟨queue, hqueue, -⟩ := h it hit
      rw [hqueue]
      rfl
    rw [hfilter]
    exact forall₂_mem_imp hall fun it _ hit hs => hs.delivered (h it hit)

/-! ### Two queues and a missing one -/

/-- The request of the runs below. -/
def hello : PublishRequest := { region := str "eu", topicArn := str "arn:t", message := str "hello" }

/-- A store with a queue of each of two regions and a topic with these `sqs` subscriptions. -/
def subscribed (endpoints : List Str) : List SnsCall :=
  [.sqs (.createQueue {
      region := str "eu", name := str "q", queueUrl := str "url:q", queueArn := str "arn:q",
      created := 0, modified := 0 }),
   .sqs (.createQueue {
      region := str "us", name := str "far", queueUrl := str "url:far", queueArn := str "arn:far",
      created := 0, modified := 0 }),
   .createTopic {
      region := str "eu", topicName := str "t", topicArn := str "arn:t", created := 0, modified := 0 },
   .updateTopic {
      region := str "eu", topicName := str "t", topicArn := str "arn:t", created := 0, modified := 0,
      subscriptions := endpoints.map fun endpoint =>
        { protocol := str "sqs", endpoint := endpoint } }]

/-- The store with these subscriptions, and the one after the request. -/
def published (endpoints : List Str) : Option (World × World) :=
  (Prog.execAll (exec Sqs.Env.sample.cfg (.counting 20)) (subscribed endpoints) {}).bind fun w =>
    ((publish .sample hello).run (exec Sqs.Env.sample.cfg (.counting 20)) w).map fun r => (w, r.2)

/-- What holds after the request, by evaluation. -/
theorem exists_of_published {endpoints : List Str} {p : World → World → Bool}
    (h : (published endpoints).any (fun r => p r.1 r.2) = true) :
    ∃ w x w', Reachable Sqs.Env.sample.cfg (.counting 20) w ∧
      (publish .sample hello).run (exec Sqs.Env.sample.cfg (.counting 20)) w = some (x, w') ∧
      p w w' = true := by
  obtain ⟨r, hr, hp⟩ := (Option.any_eq_true _ _).mp h
  obtain ⟨w, hw, hrun⟩ := Option.bind_eq_some_iff.mp hr
  obtain ⟨⟨x, w'⟩, hrun, hfst⟩ := Option.map_eq_some_iff.mp hrun
  rw [← hfst] at hp
  exact ⟨w, x, w', ⟨_, hw⟩, hrun, hp⟩

/-- A topic with one subscription, whose queue is in the region. -/
theorem publish_fans_out_one : ∃ w x w', Reachable Sqs.Env.sample.cfg (.counting 20) w ∧
    (publish .sample hello).run (exec Sqs.Env.sample.cfg (.counting 20)) w = some (x, w') ∧
    w.sqsSubscriptions hello ≠ [] ∧ FansOut .sample hello w w' := by
  obtain ⟨w, x₀, w₀, hw, -, hsub⟩ := @exists_of_published [str "arn:q"]
    (fun w _ => decide (w.sqsSubscriptions hello ≠ []) &&
      (w.sqsSubscriptions hello).all fun s => (queueOf w.sqs.db s.endpoint).any fun queue =>
        w.sqs.db.queueUrlExists hello.region queue.queueUrl) (by decide +kernel)
  simp only [Bool.and_eq_true, decide_eq_true_eq, List.all_eq_true, Option.any_eq_true] at hsub
  obtain ⟨x, w', hrun, hiff⟩ := publish_fans_out .sample (.counting 20) hello w hw
  exact ⟨w, x, w', hw, hrun, hsub.1, hiff.mpr hsub.2⟩

/-- A subscription to a missing queue adds a record to the SQS store, and one to a queue of another
    region keeps the message from the queue after it. -/
theorem publish_fans_out_misses :
    (∃ w x w', Reachable Sqs.Env.sample.cfg (.counting 20) w ∧
      (publish .sample hello).run (exec Sqs.Env.sample.cfg (.counting 20)) w = some (x, w') ∧
      (w.sqsSubscriptions hello).map (fun s => queueOf w.sqs.db s.endpoint) = [none] ∧
      ¬ FansOut .sample hello w w') ∧
    ∃ w x w', Reachable Sqs.Env.sample.cfg (.counting 20) w ∧
      (publish .sample hello).run (exec Sqs.Env.sample.cfg (.counting 20)) w = some (x, w') ∧
      w'.sqs.db.messages.size = 0 ∧ ¬ FansOut .sample hello w w' := by
  constructor
  · obtain ⟨w, x, w', hw, hrun, hp⟩ := @exists_of_published [str "arn:none"]
      (fun w w' => decide ((w.sqsSubscriptions hello).map (fun s => queueOf w.sqs.db s.endpoint) = [none]) &&
        decide (w'.sqs.db.messages.size = w.sqs.db.messages.size + 1)) (by decide +kernel)
    simp only [Bool.and_eq_true, decide_eq_true_eq] at hp
    refine ⟨w, x, w', hw, hrun, hp.1, fun h => ?_⟩
    have hsize := h.size
    obtain ⟨s, hs, hnone⟩ := List.map_eq_singleton_iff.mp hp.1
    rw [hs, List.filter_cons_of_neg (by simp [hnone]), hp.2] at hsize
    simp at hsize
  · obtain ⟨w, x, w', hw, hrun, hp⟩ := @exists_of_published [str "arn:far", str "arn:q"]
      (fun w w' => decide (w'.sqs.db.messages.size = 0) && decide (((w.sqsSubscriptions hello).filter
        fun s => (queueOf w.sqs.db s.endpoint).isSome).length = 2)) (by decide +kernel)
    simp only [Bool.and_eq_true, decide_eq_true_eq] at hp
    refine ⟨w, x, w', hw, hrun, hp.1, fun h => ?_⟩
    have hsize := h.size
    omega

end AwsMock.Sns
