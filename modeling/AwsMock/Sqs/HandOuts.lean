import AwsMock.Sqs.Conservation

/-!
# Hand-outs and moves

A log beside the store notes which messages were handed out and which records a redrive changed. In
the runs of `Operation`, the receive count stored with a message is the number of times it was handed
out since it came into its queue.
-/

namespace AwsMock.Sqs

open Lib

inductive Event where
  | handedOut (oid queueUrl : Str)
  | moved (oid source target : Str)
  deriving DecidableEq

def Event.oid : Event → Str
  | handedOut oid _ | moved oid _ _ => oid

def Event.isMove : Event → Bool
  | handedOut .. => false
  | moved .. => true

/-- What is noted of the record `e` when a redrive has left `m` under its key. -/
def redriveEvent (e : Str × Message) (m : Option Message) : Option Event :=
  m.bind fun m => if m = e.2 then none else some (.moved e.1 e.2.queueUrl m.queueUrl)

/-- The events of a call. -/
def SqsCall.events : (c : SqsCall) → World → c.Reply → World → List Event
  | .receiveMessages .., _, messageList, _ =>
    messageList.map fun message => .handedOut message.oid message.queueUrl
  | .redriveMessages .., w, _, w' => w.db.messages.entries.filterMap fun e =>
      redriveEvent e (w'.db.messages.get? e.1)
  | _, _, _, _ => []

/-- The process and its log, the latest event first. -/
abbrev Logged := World × List Event

/-- The meaning of a call, with its events noted. -/
abbrev execLogged (cfg : Configuration) (rt : Runtime) : Prog.Exec SqsCall SqsCall.Reply Logged :=
  Prog.noting (exec cfg rt) fun c w reply w' log => c.events w reply w' ++ log

/-- The events of one message. -/
def history (k : Str) (log : List Event) : List Event := log.filter fun e => e.oid = k

/-- How often a message was handed out from the queue `u` since it was last moved. -/
def handOuts (k u : Str) (log : List Event) : Nat :=
  ((history k log).takeWhile fun e => !e.isMove).count (.handedOut k u)

/-- An operation as a program; a failed request is an answer as well. -/
def Operation.program (env : Env) : Operation → SqsProg Unit
  | sendMessage request => do let _ ← (Sqs.sendMessage env request).attempt
  | receiveMessages request => do let _ ← (Sqs.receiveMessages request).attempt
  | setVisibilityTimeout request => do let _ ← (Sqs.setVisibilityTimeout request).attempt
  | workerPass => Sqs.workerPass

/-- The operations of a run, one after the other. -/
def runLogged (env : Env) (rt : Runtime) (ops : List Operation) (l : Logged) : Option Logged :=
  ((Prog.forEach ops fun op => op.program env).run (execLogged env.cfg rt) l).map Prod.snd

/-- `d` is the dead letter queue of `q`. -/
structure IsDeadLetterQueue (cfg : Configuration) (q d : Queue) : Prop where
  region : d.region = q.region
  arn : d.queueArn = q.attributes.redrivePolicy.deadLetterTargetArn
  url : convertSQSQueueArnToUrl cfg q.attributes.redrivePolicy.deadLetterTargetArn = d.queueUrl

/-- Queues with distinct names and URLs, in which every redrive policy has an existing dead letter
    queue and a positive receive count. -/
structure DeadLetterQueues (cfg : Configuration) (queues : OrderedMap Str Queue) : Prop where
  names : ∀ {k k' q q'}, queues.get? k = some q → queues.get? k' = some q' →
    q.region = q'.region → q.name = q'.name → k = k'
  urls : ∀ {k k' q q'}, queues.get? k = some q → queues.get? k' = some q' →
    q.queueUrl = q'.queueUrl → k = k'
  named : ∀ {k q}, queues.get? k = some q → q.queueUrl ≠ []
  policy : ∀ {k q}, queues.get? k = some q →
    q.attributes.redrivePolicy.deadLetterTargetArn ≠ [] →
    1 ≤ q.attributes.redrivePolicy.maxReceiveCount ∧
      ∃ k' d, queues.get? k' = some d ∧ IsDeadLetterQueue cfg q d

variable {k u : Str} {log log' es : List Event}

theorem history_append : history k (es ++ log) = history k es ++ history k log :=
  List.filter_append ..

theorem handOuts_congr (h : history k log' = history k log) : handOuts k u log' = handOuts k u log := by
  rw [handOuts, h, handOuts]

theorem handOuts_handedOut (h : history k log' = .handedOut k u :: history k log) :
    handOuts k u log' = handOuts k u log + 1 := by
  rw [handOuts, h, List.takeWhile_cons_of_pos rfl, List.count_cons_self, handOuts]

theorem handOuts_moved {u₁ u₂ : Str} (h : history k log' = .moved k u₁ u₂ :: history k log) :
    handOuts k u log' = 0 := by
  rw [handOuts, h, List.takeWhile_cons_of_neg (by simp [Event.isMove])]
  rfl

/-- The entry of a key in a list of entries with distinct keys. -/
theorem filter_key {α : Type} : ∀ {es : List (Str × α)}, (es.map Prod.fst).Nodup →
    ∀ {e : Str × α}, e ∈ es → es.filter (fun x => x.1 = e.1) = [e]
  | x :: es, hnodup, e, he => by
    obtain ⟨hx, hes⟩ := List.nodup_cons.mp hnodup
    rcases List.mem_cons.mp he with rfl | he
    · rw [List.filter_cons_of_pos (by simp), List.filter_eq_nil_iff.mpr]
      intro y hy hk
      exact hx (List.mem_map.mpr ⟨y, hy, by simpa using hk⟩)
    · have hne : x.1 ≠ e.1 := fun h => hx (List.mem_map.mpr ⟨e, he, h.symm⟩)
      rw [List.filter_cons_of_neg (by simpa using hne)]
      exact filter_key hes he

/-! ### One call -/

/-- What a receive, a worker pass or a visibility change can do to a stored message, and what is
    noted of it. -/
inductive LoggedStep (cfg : Configuration) (rt : Runtime) (n : Nat) (k : Str) :
    SqsCall → Message → Message → List Event → Prop
  | same {c m} : LoggedStep cfg rt n k c m m []
  | handedOut {m region queueUrl visibility maxMessages} (hr : m.region = region)
    (hu : m.queueUrl = queueUrl) (hs : m.status = .initial) :
    LoggedStep cfg rt n k (.receiveMessages region queueUrl visibility maxMessages) m
      (SqsMemoryDb.held (rt.receiptHandle n) (rt.now n + seconds visibility) k m)
      [.handedOut k m.queueUrl]
  | reset {m queueUrl visibility} (hu : m.queueUrl = queueUrl) (hs : m.status = .invisible)
    (ht : m.reset < rt.clock n k) :
    LoggedStep cfg rt n k (.resetMessages queueUrl visibility) m
      { m with status := .initial, receiptHandle := [] } []
  | moved {m queueUrl policy} (hu : m.queueUrl = queueUrl) (hs : m.status = .initial)
    (hc : m.retries > policy.maxReceiveCount) :
    LoggedStep cfg rt n k (.redriveMessages queueUrl policy) m
      { m with retries := 0
               queueUrl := convertSQSQueueArnToUrl cfg policy.deadLetterTargetArn }
      [.moved k m.queueUrl (convertSQSQueueArnToUrl cfg policy.deadLetterTargetArn)]

variable {cfg : Configuration} {rt : Runtime} {queues : OrderedMap Str Queue}

/-- What is noted of one message of a delivery. -/
theorem history_receive {db : SqsMemoryDb} (h : db.KeyedMessages) {m : Message}
    (hm : db.messages.get? k = some m) (region queueUrl : Str) (maxMessages : Int)
    (receiptHandle : Str → Str) :
    history k (((db.received region queueUrl maxMessages).map
        (SqsMemoryDb.handOut receiptHandle)).map fun m => .handedOut m.oid m.queueUrl) =
      if k ∈ (db.received region queueUrl maxMessages).map Prod.fst then
        [.handedOut k m.queueUrl] else [] := by
  have hfilter : ∀ es : List (Str × Message), (∀ e ∈ es, db.messages.get? e.1 = some e.2) →
      history k ((es.map (SqsMemoryDb.handOut receiptHandle)).map
        fun m => .handedOut m.oid m.queueUrl) =
      (es.filter fun e => e.1 = k).map fun e => .handedOut e.2.oid e.2.queueUrl := by
    intro es hes
    rw [history, List.map_map, List.filter_map]
    refine congrArg (List.map _) (List.filter_congr fun e he => ?_)
    have hoid := h _ _ (hes e he)
    simp [Event.oid, SqsMemoryDb.handOut, hoid]
  rw [hfilter _ fun e he => (SqsMemoryDb.mem_received he).1]
  split
  · next hk =>
    have he := SqsMemoryDb.mem_received_of_key hm hk
    rw [filter_key SqsMemoryDb.received_keys_nodup he]
    simp [h _ _ hm]
  · next hk =>
    rw [List.filter_eq_nil_iff.mpr, List.map_nil]
    intro e he hek
    exact hk (List.mem_map.mpr ⟨e, he, by simpa using hek⟩)

/-- What is noted of one message by a redrive. -/
theorem history_redrive {db : SqsMemoryDb} {m : Message} (hm : db.messages.get? k = some m)
    (messages : OrderedMap Str Message) :
    history k (db.messages.entries.filterMap fun e => redriveEvent e (messages.get? e.1)) =
      (redriveEvent (k, m) (messages.get? k)).toList := by
  have hoid : ∀ e x, redriveEvent e (messages.get? e.1) = some x → x.oid = e.1 := by
    intro e x hx
    obtain ⟨m', -, hx⟩ := Option.bind_eq_some_iff.mp hx
    split at hx
    · cases hx
    · cases hx; rfl
  have hfilter : ∀ es : List (Str × Message),
      history k (es.filterMap fun e => redriveEvent e (messages.get? e.1)) =
        (es.filter fun e => e.1 = k).filterMap fun e => redriveEvent e (messages.get? e.1) := by
    intro es
    induction es with
    | nil => rfl
    | cons e es ih =>
      rw [history] at ih ⊢
      cases hx : redriveEvent e (messages.get? e.1) with
      | none =>
        by_cases hk : e.1 = k
        · subst hk; simp [hx, ih]
        · simp [hx, hk, ih]
      | some x =>
        by_cases hk : e.1 = k
        · subst hk; simp [hx, ih, hoid e x hx]
        · simp [hx, hk, ih, hoid e x hx]
  rw [hfilter, filter_key db.messages.keys_nodup (OrderedMap.get?_eq_some.mp hm)]
  simp only [List.filterMap_cons, List.filterMap_nil]
  cases redriveEvent (k, m) (messages.get? k) <;> rfl

/-- `ResetMessages` makes the expired messages of the queue visible, and no others. -/
theorem resetMessages_get? {w : World} {queueUrl : Str} {visibility : Int} {r}
    (hr : exec cfg rt (.resetMessages queueUrl visibility) w = some r) {m : Message}
    (hm : w.db.messages.get? k = some m) : r.2.db.messages.get? k = some
      (if m.queueUrl = queueUrl ∧ m.status = .invisible ∧ m.reset < rt.clock w.calls k then
        { m with status := .initial, receiptHandle := [] } else m) := by
  have hdb : r.2.db = w.db.resetMessages queueUrl (rt.clock w.calls) :=
    (congrArg Prod.snd (Option.some.inj (exec_eq_some.mp hr).1)).symm
  simp [hdb, SqsMemoryDb.resetMessages, hm]

/-- `RedriveMessages` moves the visible messages that were received too often, and no others. -/
theorem redriveMessages_get? {w : World} {queueUrl : Str} {policy : RedrivePolicy} {r}
    (hr : exec cfg rt (.redriveMessages queueUrl policy) w = some r) {m : Message}
    (hm : w.db.messages.get? k = some m) : r.2.db.messages.get? k = some
      (if m.queueUrl = queueUrl ∧ m.status = .initial ∧ m.retries > policy.maxReceiveCount then
        { m with retries := 0
                 queueUrl := convertSQSQueueArnToUrl cfg policy.deadLetterTargetArn } else m) := by
  have hdb : r.2.db = w.db.redriveMessages cfg queueUrl policy :=
    (congrArg Prod.snd (Option.some.inj (exec_eq_some.mp hr).1)).symm
  simp [hdb, SqsMemoryDb.redriveMessages, hm]

/-- Every call of a receive or of a worker pass takes every message a `LoggedStep` further. -/
theorem loggedStep {w₀ : World} {l : Logged} (hl : StoreOk cfg rt queues w₀ l.1) {c : SqsCall}
    (hc : Harmless queues c) (hdlq : DeadLetterQueues cfg queues) {r : c.Reply × Logged}
    (hr : execLogged cfg rt c l = some r) {m : Message}
    (hm : l.1.db.messages.get? k = some m) :
    ∃ m' es, r.2.1.db.messages.get? k = some m' ∧ history k r.2.2 = es ++ history k l.2 ∧
      LoggedStep cfg rt l.1.calls k c m m' es := by
  obtain ⟨hexec, hlog⟩ := Prog.noting_eq_some.mp hr
  obtain ⟨reply, w', log⟩ := r
  dsimp only at hexec hlog ⊢
  subst hlog
  have happly := (exec_eq_some.mp hexec).1
  rw [history_append]
  have hstep := messageStep hl.messages.keyed happly k
  rw [hm] at hstep
  cases c with
  | receiveMessages region queueUrl visibility maxMessages =>
    simp only [SqsCall.apply, SqsMemoryDb.receiveMessages_eq, Option.some.injEq,
      Prod.mk.injEq] at happly
    obtain ⟨rfl, hdb⟩ := happly
    have hget := congrArg (fun db => db.messages.get? k) hdb
    simp only [OrderedMap.get?_mapVal, hm, Option.map_some] at hget
    have hnoted := history_receive hl.messages.keyed hm region queueUrl maxMessages
      (rt.receiptHandle l.1.calls)
    split at hget
    · next hk =>
      rw [if_pos hk] at hnoted
      obtain ⟨-, hregion, hurl, hstatus⟩ :=
        SqsMemoryDb.mem_received (SqsMemoryDb.mem_received_of_key hm hk)
      exact ⟨_, _, hget.symm, congrArg (· ++ _) hnoted, .handedOut hregion hurl hstatus⟩
    · next hk =>
      rw [if_neg hk] at hnoted
      exact ⟨m, [], hget.symm, congrArg (· ++ _) hnoted, .same⟩
  | redriveMessages queueUrl policy =>
    obtain ⟨harn, k₀, q, hq, -, rfl⟩ := hc
    have hcount := (hdlq.policy hq harn).1
    have hget := redriveMessages_get? hexec hm
    have hnoted := history_redrive hm w'.db.messages
    rw [hget, redriveEvent, Option.bind_some] at hnoted
    split at hget
    · next hcond =>
      have hne : ∀ u : Str, { m with retries := 0, queueUrl := u } ≠ m := by
        intro u h
        have := congrArg Message.retries h
        dsimp only at this
        omega
      rw [if_pos hcond, if_neg (hne _)] at hnoted
      exact ⟨_, _, hget, congrArg (· ++ _) hnoted, .moved hcond.1 hcond.2.1 hcond.2.2⟩
    · next hcond =>
      rw [if_neg hcond, if_pos rfl] at hnoted
      exact ⟨m, [], hget, congrArg (· ++ _) hnoted, .same⟩
  | resetMessages queueUrl visibility =>
    generalize w'.db.messages.get? k = x at hstep
    cases hstep with
    | same => exact ⟨m, [], rfl, rfl, .same⟩
    | reset hu hs ht => exact ⟨_, [], rfl, rfl, .reset hu hs ht⟩
    | deleted hd => exact hd.elim
  | _ =>
    generalize w'.db.messages.get? k = x at hstep
    first
    | exact hc.elim
    | cases hstep with
      | same => exact ⟨m, [], rfl, rfl, .same⟩
      | deleted hd => exact hd.elim
    | cases hstep with
      | same => exact ⟨m, [], rfl, rfl, .same⟩
      | undelayed _ hs => exact absurd hs (hl.undelayed k m hm)
      | deleted hd => exact hd.elim

/-! ### Runs -/

/-- What holds of the process and its log between calls, seen from the process `w₀`. -/
structure LogOk (cfg : Configuration) (rt : Runtime) (queues : OrderedMap Str Queue) (w₀ : World)
    (l : Logged) : Prop where
  store : StoreOk cfg rt queues w₀ l.1
  counted : ∀ k m, l.1.db.messages.get? k = some m → m.retries = handOuts k m.queueUrl l.2
  known : ∀ e ∈ l.2, ∃ i < l.1.calls, e.oid = rt.uuid i
  regions : ∀ k m kq q, l.1.db.messages.get? k = some m → queues.get? kq = some q →
    q.queueUrl = m.queueUrl → m.region = q.region

theorem LogOk.restart {w₀ : World} {l : Logged} (hl : LogOk cfg rt queues w₀ l) :
    LogOk cfg rt queues l.1 l :=
  { hl with store := { hl.store with kept := .refl _, calls := le_rfl } }

/-- A call notes events of stored messages. -/
theorem events_stored {w : World} {c : SqsCall} {r : c.Reply × World} (hw : w.db.KeyedMessages)
    (hr : exec cfg rt c w = some r) : ∀ e ∈ c.events w r.1 r.2,
      ∃ m, w.db.messages.get? e.oid = some m := by
  intro e he
  have happly := (exec_eq_some.mp hr).1
  cases c with
  | receiveMessages region queueUrl visibility maxMessages =>
    simp only [SqsCall.apply, SqsMemoryDb.receiveMessages_eq, Option.some.injEq,
      Prod.mk.injEq] at happly
    rw [SqsCall.events, ← happly.1] at he
    obtain ⟨m, hm, rfl⟩ := List.mem_map.mp he
    obtain ⟨x, hx, rfl⟩ := List.mem_map.mp hm
    have hget := (SqsMemoryDb.mem_received hx).1
    exact ⟨x.2, by rw [← hw _ _ hget] at hget; exact hget⟩
  | redriveMessages queueUrl policy =>
    obtain ⟨x, hx, hnote⟩ := List.mem_filterMap.mp he
    obtain ⟨m', -, hnote⟩ := Option.bind_eq_some_iff.mp hnote
    split at hnote
    · cases hnote
    · cases hnote
      exact ⟨x.2, OrderedMap.get?_eq_some.mpr hx⟩
  | _ => cases he

theorem LogOk.step {w₀ : World} {l : Logged} (hdlq : DeadLetterQueues cfg queues)
    (hl : LogOk cfg rt queues w₀ l) {c : SqsCall} (hc : Harmless queues c) :
    ∃ r, execLogged cfg rt c l = some r ∧ LogOk cfg rt queues w₀ r.2 := by
  obtain ⟨⟨reply, w'⟩, hexec, hstore⟩ := hl.store.step hc
  have hr : execLogged cfg rt c l = some (reply, w', c.events l.1 reply w' ++ l.2) :=
    Prog.noting_eq_some.mpr ⟨hexec, rfl⟩
  have hkept := kept_of_step hl.store.messages hc hexec
  have hcalls := (exec_eq_some.mp hexec).2
  refine ⟨_, hr, hstore, fun k m' hm' => ?_, fun e he => ?_, fun k m' kq q hm' hq hu => ?_⟩
  · obtain ⟨m, hm⟩ := hkept.backward k m' hm'
    obtain ⟨m'', es, hm'', hhist, hstep⟩ := loggedStep hl.store hc hdlq hr hm
    obtain rfl : m' = m'' := Option.some.inj (hm'.symm.trans hm'')
    have hcount := hl.counted k m hm
    cases hstep with
    | same | reset => rw [handOuts_congr hhist]; exact hcount
    | handedOut =>
      rw [SqsMemoryDb.held, SqsMemoryDb.handOut, handOuts_handedOut hhist, hcount]
      exact (Nat.cast_succ _).symm
    | moved => rw [handOuts_moved hhist]; rfl
  · rcases List.mem_append.mp he with he | he
    · obtain ⟨m, hm⟩ := events_stored hl.store.messages.keyed hexec e he
      obtain ⟨i, hi, heq⟩ := hl.store.messages.drawn _ m hm
      exact ⟨i, by dsimp only; omega, heq⟩
    · obtain ⟨i, hi, heq⟩ := hl.known e he
      exact ⟨i, by dsimp only; omega, heq⟩
  · obtain ⟨m, hm⟩ := hkept.backward k m' hm'
    obtain ⟨m'', es, hm'', hhist, hstep⟩ := loggedStep hl.store hc hdlq hr hm
    obtain rfl : m' = m'' := Option.some.inj (hm'.symm.trans hm'')
    have hregion := hl.regions k m kq q hm hq
    cases hstep with
    | same | reset | handedOut => exact hregion hu
    | moved hu₀ =>
      obtain ⟨harn, k₀, q₀, hq₀, hu₁, rfl⟩ := hc
      obtain ⟨-, kd, d, hd, hdead⟩ := hdlq.policy hq₀ harn
      have hkey : kq = kd := hdlq.urls hq hd (hu.trans hdead.url)
      subst hkey
      obtain rfl : q = d := Option.some.inj (hq.symm.trans hd)
      exact (hl.regions k m k₀ q₀ hm hq₀ (hu₁.trans hu₀.symm)).trans hdead.region.symm

/-! ### Operations -/

/-- Most calls are not noted. -/
def SqsCall.Silent : SqsCall → Prop
  | .receiveMessages .. | .redriveMessages .. => False
  | _ => True

theorem SqsCall.Sends.silent {c : SqsCall} (hc : c.Sends) : c.Silent := by
  cases c with
  | receiveMessages | redriveMessages => exact hc
  | _ => trivial

/-- A program of such calls keeps the log. -/
theorem run_silent {α : Type} {p : SqsProg α} (hp : p.Only SqsCall.Silent) (w : World)
    (log : List Event) : p.run (execLogged cfg rt) (w, log) =
      (p.run (exec cfg rt) w).map fun r => (r.1, (r.2, log)) := by
  refine Prog.run_noting_silent (fun c w r w' log hc => ?_) hp w log
  cases c with
  | receiveMessages | redriveMessages => exact hc.elim
  | _ => rfl

theorem setVisibilityTimeout_silent (request : ChangeMessageVisibilityRequest) :
    (setVisibilityTimeout request).Only SqsCall.Silent := by
  refine Prog.only_bind (Prog.only_perform trivial) fun found => ?_
  split
  · exact Prog.only_mapThrow ⟨trivial, fun _ => ⟨trivial, fun _ => ⟨trivial, fun _ => trivial⟩⟩⟩
  · exact Prog.only_throw _

/-- The log knows nothing of ids that are still to be drawn. -/
theorem LogOk.history_fresh {w₀ : World} {l : Logged} (hl : LogOk cfg rt queues w₀ l) {i : Nat}
    (hi : l.1.calls ≤ i) : history (rt.uuid i) l.2 = [] := by
  refine List.filter_eq_nil_iff.mpr fun e he hk => ?_
  obtain ⟨j, hj, heq⟩ := hl.known e he
  have := rt.uuid_inj (heq.symm.trans (by simpa using hk))
  omega

/-- The only queue with the URL of a found queue is in the same region. -/
theorem region_of_exists {db : SqsMemoryDb} (hdlq : DeadLetterQueues cfg queues)
    (hq : QueuesOk queues db.queues) {region queueUrl kq : Str} {q : Queue}
    (hfound : db.queueUrlExists region queueUrl = true) (hget : queues.get? kq = some q)
    (hu : q.queueUrl = queueUrl) : region = q.region := by
  obtain ⟨e, he⟩ := Option.isSome_iff_exists.mp hfound
  obtain ⟨hcurrent, hp⟩ := OrderedMap.findIf_some he
  have hp := of_decide_eq_true hp
  obtain ⟨k₀, q₀, hq₀, hs⟩ := hq.old _ _ hcurrent
  have hkey := hdlq.urls hget hq₀ (hu.trans (hp.2.symm.trans hs.queueUrl))
  subst hkey
  obtain rfl : q = q₀ := Option.some.inj (hget.symm.trans hq₀)
  exact hp.1.symm.trans hs.region

/-- A send stores one message, which has not been handed out. -/
theorem LogOk.send {env : Env} {w₀ : World} {l : Logged} (hdlq : DeadLetterQueues env.cfg queues)
    (hl : LogOk env.cfg rt queues w₀ l) {request : SendMessageRequest}
    (hfound : request.queueUrl = [] ∨
      l.1.db.queueUrlExists request.region request.queueUrl = true) :
    ∃ r, (sendToQueue env request).run (exec env.cfg rt) l.1 = some r ∧
      LogOk env.cfg rt queues r.2 (r.2, l.2) := by
  have hrun := @sendToQueue_run env.cfg rt env request l.1
  have hurl : (l.1.db.getQueueByUrl request.queueUrl (rt.now l.1.calls)).1.queueUrl =
      request.queueUrl := getQueueByUrl_queueUrl request.region hfound
  generalize hf : l.1.db.getQueueByUrl request.queueUrl (rt.now l.1.calls) = found at hurl hrun
  have hmessages : found.2.messages = l.1.db.messages :=
    hf ▸ SqsMemoryDb.fetchQueue_messages ..
  have hqueues : QueuesOk queues found.2.queues := hf ▸ hl.store.queuesOk.fetchQueue _ _
  obtain ⟨queue, ⟨current, messages⟩⟩ := found
  dsimp only at hurl hmessages hqueues hrun
  subst hmessages
  refine ⟨_, hrun, hl.restart.store.add hqueues (Nat.le_add_right _ 7) (Nat.lt_succ_self _) rfl nofun,
    fun k m hm => ?_, fun e he => ?_, fun k m kq q hm hq hu => ?_⟩
  · simp only [OrderedMap.get?_insert] at hm
    split at hm
    · next hk =>
      subst hk
      cases hm
      rw [handOuts, hl.history_fresh (Nat.le_add_right _ 7)]
      rfl
    · exact hl.counted k m hm
  · obtain ⟨i, hi, heq⟩ := hl.known e he
    exact ⟨i, by dsimp only; omega, heq⟩
  · simp only [OrderedMap.get?_insert] at hm
    split at hm
    · cases hm
      have hu : q.queueUrl = request.queueUrl := hu.trans hurl
      rcases hfound with hempty | hfound
      · exact absurd (hu.trans hempty) (hdlq.named hq)
      · exact region_of_exists hdlq hl.store.queuesOk hfound hq hu
    · exact hl.regions k m kq q hm hq hu

theorem LogOk.sendMessage {env : Env} {w₀ : World} {l : Logged}
    (hdlq : DeadLetterQueues env.cfg queues) (hl : LogOk env.cfg rt queues w₀ l)
    (request : SendMessageRequest) :
    ∃ r, (Sqs.sendMessage env request).run (exec env.cfg rt) l.1 = some r ∧
      LogOk env.cfg rt queues r.2 (r.2, l.2) := by
  unfold Sqs.sendMessage
  split
  · next hempty => exact hl.send hdlq (.inl hempty)
  · have hlater : LogOk env.cfg rt queues w₀ (⟨l.1.db, l.1.calls + 1⟩, l.2) :=
      { hl with
        store := hl.store.later (Nat.le_add_right _ 1)
        known := fun e he => (hl.known e he).imp fun i hi => ⟨Nat.lt_succ_of_lt hi.1, hi.2⟩ }
    rw [Prog.run_perform_bind]
    simp only [exec, SqsCall.apply, Option.map_some, Option.bind_some]
    split
    · next hfound => exact hlater.send hdlq (.inr hfound)
    · exact ⟨_, rfl, hlater.restart⟩

theorem LogOk.setVisibilityTimeout {w₀ : World} {l : Logged} (hl : LogOk cfg rt queues w₀ l)
    (request : ChangeMessageVisibilityRequest) :
    ∃ r, (Sqs.setVisibilityTimeout request).run (exec cfg rt) l.1 = some r ∧
      LogOk cfg rt queues r.2 (r.2, l.2) := by
  obtain ⟨r, hr, hstore⟩ := hl.restart.store.setVisibilityTimeout request
  refine ⟨r, hr, ?_⟩
  -- every record keeps what the log speaks of
  have hsame : l.1.calls ≤ r.2.calls ∧ ∀ k m', r.2.db.messages.get? k = some m' →
      ∃ m, l.1.db.messages.get? k = some m ∧
        m'.retries = m.retries ∧ m'.queueUrl = m.queueUrl ∧ m'.region = m.region := by
    refine ⟨hstore.calls, fun k m' hm' => ?_⟩
    obtain ⟨m, hm, rfl | ⟨now, rfl⟩⟩ := setVisibilityTimeout_keeps hl.store.messages.keyed hr hm'
    · exact ⟨m', hm, rfl, rfl, rfl⟩
    · exact ⟨m, hm, rfl, rfl, rfl⟩
  refine ⟨{ hstore with kept := .refl _, calls := le_rfl }, fun k m' hm' => ?_, fun e he => ?_,
    fun k m' kq q hm' hq hu => ?_⟩
  · obtain ⟨m, hm, hretries, hurl, -⟩ := hsame.2 k m' hm'
    rw [hretries, hurl]
    exact hl.counted k m hm
  · obtain ⟨i, hi, heq⟩ := hl.known e he
    exact ⟨i, hi.trans_le hsame.1, heq⟩
  · obtain ⟨m, hm, -, hurl, hregion⟩ := hsame.2 k m' hm'
    rw [hregion]
    exact hl.regions k m kq q hm hq (hu.trans hurl)

/-- The work of the worker on a queue of the run's start. -/
theorem LogOk.maintainQueue {w₀ : World} (hdlq : DeadLetterQueues cfg queues) {queue : Queue}
    (hq : ∃ k q, queues.get? k = some q ∧ SameQueue q queue) :
    (Sqs.maintainQueue queue).Total (execLogged cfg rt) (LogOk cfg rt queues w₀)
      fun _ => LogOk cfg rt queues w₀ :=
  maintainQueue_total fun _ _ hc hl => hl.step hdlq (harmless_of_maintains hq hc)

/-- The records of the worker's snapshot are those of the run's start. -/
theorem LogOk.snapshot {w₀ : World} {l : Logged} (hl : LogOk cfg rt queues w₀ l) :
    ∀ queue ∈ l.1.db.queues.values, ∃ k q, queues.get? k = some q ∧ SameQueue q queue := by
  intro queue hmem
  obtain ⟨e, he, rfl⟩ := List.mem_map.mp hmem
  exact hl.store.queuesOk.old e.1 e.2 (OrderedMap.get?_eq_some.mpr he)

/-- A worker pass is a loop over the queues stored when it starts. -/
theorem workerPass_run {l : Logged} {P Q : Logged → Prop}
    (h : (Prog.forEach l.1.db.queues.values Sqs.maintainQueue).Total (execLogged cfg rt) P
      fun _ => Q) (hp : P (⟨l.1.db, l.1.calls + 1⟩, l.2)) :
    ∃ l', Sqs.workerPass.run (execLogged cfg rt) l = some (.ok (), l') ∧ Q l' := by
  obtain ⟨_, l', hrun, hq⟩ := h _ hp
  exact ⟨l', hrun, hq⟩

/-- The pass has begun. -/
theorem LogOk.listQueues {w₀ : World} {l : Logged} (hdlq : DeadLetterQueues cfg queues)
    (hl : LogOk cfg rt queues w₀ l) : LogOk cfg rt queues w₀ (⟨l.1.db, l.1.calls + 1⟩, l.2) := by
  have hlist : Harmless queues (.listQueues []) := trivial
  obtain ⟨r, hr, hok⟩ := hl.step hdlq hlist
  cases hr
  exact hok

/-- One operation of a run. -/
theorem operation_total {env : Env} (hdlq : DeadLetterQueues env.cfg queues) (op : Operation) :
    (op.program env).Total (execLogged env.cfg rt) (fun l => LogOk env.cfg rt queues l.1 l)
      fun _ l => LogOk env.cfg rt queues l.1 l := by
  cases op with
  | sendMessage request =>
    refine Prog.total_bind (Prog.total_attempt fun l hl => ?_) fun _ => Prog.total_pure () fun _ h => h
    obtain ⟨r, hr, hok⟩ := hl.sendMessage hdlq request
    have hsilent := (sendMessage_only env request).mono fun _ hc => SqsCall.Sends.silent hc
    exact ⟨_, by rw [run_silent hsilent l.1 l.2, hr]; rfl, hok⟩
  | receiveMessages request =>
    refine Prog.total_bind (Prog.total_attempt fun l hl => ?_) fun _ => Prog.total_pure () fun _ h => h
    obtain ⟨r, hr, hok⟩ := (receiveMessages_harmless request).run
      (fun c s hc hs => hs.step hdlq hc) hl
    exact ⟨r, hr, hok.restart⟩
  | setVisibilityTimeout request =>
    refine Prog.total_bind (Prog.total_attempt fun l hl => ?_) fun _ => Prog.total_pure () fun _ h => h
    obtain ⟨r, hr, hok⟩ := hl.setVisibilityTimeout request
    exact ⟨_, by rw [run_silent (setVisibilityTimeout_silent request) l.1 l.2, hr]; rfl, hok⟩
  | workerPass =>
    intro l hl
    obtain ⟨l', hrun, hok⟩ := workerPass_run
      (Prog.total_forEach fun queue hmem => LogOk.maintainQueue hdlq (hl.snapshot queue hmem))
      (hl.listQueues hdlq)
    exact ⟨(), l', hrun, hok.restart⟩

end AwsMock.Sqs
