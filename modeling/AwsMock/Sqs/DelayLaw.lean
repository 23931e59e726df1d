import AwsMock.Lib.Machine
import AwsMock.Sqs.Requests

/-!
# The delay of a queue

A send notes the delay of its queue in the deadline of the message, but stores the message as visible. So
only the order of the store and the limits of the receives can keep a message back.
-/

namespace AwsMock.Sqs

open Lib

/-- The calls of receives and worker passes. -/
def SqsCall.Routine : SqsCall → Prop
  | .clockNow | .queueUrlExists .. | .getQueueByUrl .. | .listQueues .. | .updateQueue .. | .receiveMessages ..
  | .resetMessages .. | .redriveMessages .. | .resetDelayedMessages .. | .messageRetention .. | .countMessages ..
  | .countMessagesByStatus .. => True
  | _ => False

/-- A successful send to a queue with a delay, and the message `m` that it stored under `oid`. -/
structure SentDelayed (env : Env) (rt : Runtime) (w : World) (request : SendMessageRequest) (queue : Queue)
    (w' : World) (oid : Str) (m : Message) : Prop where
  sent : ∃ response, (sendMessage env request).run (exec env.cfg rt) w = some (.ok response, w')
  existing : ∃ k, w.db.queues.get? k = some queue
  delayed : 0 < queue.attributes.delaySeconds
  unstored : w.db.messages.get? oid = none
  stored : w'.db.messages.get? oid = some m
  addressed : m.region = queue.region ∧ m.queueUrl = queue.queueUrl

/-- A process, and the times at which the message under `oid` was handed out. -/
abbrev Watched := World × List TimePoint

/-- What is noted of a call. -/
def handOutTimes (rt : Runtime) (oid : Str) : (c : SqsCall) → World → c.Reply → World → List TimePoint → List TimePoint
  | .receiveMessages .., w, messageList, _, times =>
    if oid ∈ messageList.map Message.oid then rt.now w.calls :: times else times
  | _, _, _, _, times => times

/-- One call of a run. -/
def watchStep (cfg : Configuration) (rt : Runtime) (oid : Str) (c : SqsCall) (x : Watched) : Option Watched :=
  (Prog.noting (exec cfg rt) (handOutTimes rt oid) c x).map Prod.snd

/-- A receive from this queue with this limit gets as far as `oid`: the visible messages before it do not use up
    the limit. -/
def SqsMemoryDb.Room (db : SqsMemoryDb) (oid region queueUrl : Str) (maxMessages : Int) : Prop :=
  (db.messages.entries.filter fun e => e.1 < oid ∧ SqsMemoryDb.deliverable region queueUrl e = true).length <
    max 1 (maxMessages % 18446744073709551616).toNat

/-- The call is a receive that gets to the message. -/
def SqsCall.Reaches (oid : Str) : SqsCall → SqsMemoryDb → Prop
  | .receiveMessages region queueUrl _ maxMessages, db =>
    (∃ m, db.messages.get? oid = some m ∧ SqsMemoryDb.deliverable region queueUrl (oid, m) = true) ∧
      db.Room oid region queueUrl maxMessages
  | _, _ => False

/-- Before `due` no receive gets to the message. -/
def OnlyAfter (rt : Runtime) (oid : Str) (due : TimePoint) (c : SqsCall) (x : Watched) : Prop :=
  c.Reaches oid x.1.db → due ≤ rt.now x.1.calls

/-- The message was handed out after its delay only; and one that was not handed out is in its queue, unless the
    run redrives with a negative receive count, and the next receive with room for it returns it. -/
structure DelayKept (cfg : Configuration) (rt : Runtime) (oid : Str) (m : Message) (delaySeconds : Int)
    (cs : List SqsCall) (x : Watched) : Prop where
  notBefore : ∀ t ∈ x.2, m.created + seconds delaySeconds ≤ t
  available : x.2 = [] → ∃ m', x.1.db.messages.get? oid = some m' ∧ m'.region = m.region ∧
    (m'.queueUrl = m.queueUrl ∨ ∃ policy, .redriveMessages m.queueUrl policy ∈ cs ∧ policy.maxReceiveCount < 0) ∧
    ∀ visibility maxMessages, x.1.db.Room oid m'.region m'.queueUrl maxMessages → ∃ messageList w',
      exec cfg rt (.receiveMessages m'.region m'.queueUrl visibility maxMessages) x.1 = some (messageList, w') ∧
        oid ∈ messageList.map Message.oid

variable {cfg : Configuration} {rt : Runtime} {db : SqsMemoryDb} {oid region queueUrl : Str} {maxMessages : Int}

/-! ### One receive -/

/-- In a list that is sorted by the keys an entry is among the first ones if few stand before it. -/
theorem mem_take_of_sorted {α : Type} : ∀ {es : List (Str × α)} {n : Nat} {e : Str × α},
    es.Pairwise (fun a b => a.1 < b.1) → e ∈ es → (e ∈ es.take n ↔ (es.filter fun a => a.1 < e.1).length < n)
  | x :: es, 0, e, _, _ => by simp
  | x :: es, n + 1, e, hsorted, he => by
    obtain ⟨hx, hes⟩ := List.pairwise_cons.mp hsorted
    rcases List.mem_cons.mp he with rfl | he
    · have hnone : (e :: es).filter (fun a => a.1 < e.1) = [] := by
        refine List.filter_eq_nil_iff.mpr fun a ha => ?_
        rcases List.mem_cons.mp ha with rfl | ha
        · simp
        · simpa using (hx a ha).le
      simp [hnone]
    · have hlt := hx e he
      have hne : e ≠ x := fun h => absurd (h ▸ hlt) (lt_irrefl _)
      rw [List.take_succ_cons, List.mem_cons, or_iff_right hne, mem_take_of_sorted hes he,
        List.filter_cons_of_pos (by simpa using hlt), List.length_cons]
      omega

/-- A receive hands out a message exactly when it gets to it. -/
theorem mem_received_iff_reaches (visibility : Int) : oid ∈ (db.received region queueUrl maxMessages).map Prod.fst ↔
    (SqsCall.receiveMessages region queueUrl visibility maxMessages).Reaches oid db := by
  have hsorted : (db.messages.entries.filter (SqsMemoryDb.deliverable region queueUrl)).Pairwise
      fun a b => a.1 < b.1 := db.messages.sorted.sublist List.filter_sublist
  have hroom : ∀ m : Message, ((db.messages.entries.filter (SqsMemoryDb.deliverable region queueUrl)).filter
      fun a => a.1 < ((oid, m) : Str × Message).1) = db.messages.entries.filter fun e =>
        e.1 < oid ∧ SqsMemoryDb.deliverable region queueUrl e = true := by
    intro m
    rw [List.filter_filter]
    exact List.filter_congr fun e _ => by simp
  constructor
  · intro hk
    obtain ⟨⟨k, m⟩, he, rfl⟩ := List.mem_map.mp hk
    have hmem := List.mem_of_mem_take he
    have htake := (mem_take_of_sorted hsorted hmem).mp he
    rw [hroom m, Nat.sub_zero] at htake
    obtain ⟨hentry, hd⟩ := List.mem_filter.mp hmem
    exact ⟨⟨m, OrderedMap.get?_eq_some.mpr hentry, hd⟩, htake⟩
  · rintro ⟨⟨m, hget, hd⟩, hlt⟩
    refine List.mem_map.mpr ⟨(oid, m), ?_, rfl⟩
    have hmem := List.mem_filter.mpr ⟨OrderedMap.get?_eq_some.mp hget, hd⟩
    refine (mem_take_of_sorted hsorted hmem).mpr ?_
    rw [hroom m, Nat.sub_zero]
    exact hlt

/-- The ids of the messages that a receive returns. -/
theorem receiveMessages_oids (h : db.KeyedMessages) {visibility : Int} {now : TimePoint} {receiptHandle : Str → Str} :
    (db.receiveMessages region queueUrl visibility maxMessages now receiptHandle).1.map Message.oid =
      (db.received region queueUrl maxMessages).map Prod.fst := by
  rw [SqsMemoryDb.receiveMessages_eq, List.map_map]
  refine List.map_congr_left fun e he => ?_
  have hoid := h _ _ (SqsMemoryDb.mem_received he).1
  exact hoid

theorem exec_receiveMessages {visibility : Int} {w w' : World} {messageList : List Message} (h : w.db.KeyedMessages)
    (hexec : exec cfg rt (.receiveMessages region queueUrl visibility maxMessages) w = some (messageList, w')) :
    (oid ∈ messageList.map Message.oid ↔
      (SqsCall.receiveMessages region queueUrl visibility maxMessages).Reaches oid w.db) ∧
    (oid ∉ messageList.map Message.oid → w'.db.messages.get? oid = w.db.messages.get? oid) := by
  have happly := (exec_eq_some.mp hexec).1
  simp only [SqsCall.apply, Option.some.injEq] at happly
  have hoids : (w.db.receiveMessages region queueUrl visibility maxMessages (rt.now w.calls)
      (rt.receiptHandle w.calls)).1.map Message.oid = _ := receiveMessages_oids h
  rw [happly] at hoids
  rw [hoids]
  refine ⟨mem_received_iff_reaches visibility, fun hout => ?_⟩
  rw [SqsMemoryDb.receiveMessages_eq, Prod.mk.injEq] at happly
  rw [← happly.2, OrderedMap.get?_mapVal]
  simp only [if_neg hout]
  cases w.db.messages.get? oid <;> rfl

/-! ### Runs -/

theorem receiveMessages_routine (request : ReceiveMessageRequest) : (receiveMessages request).Only SqsCall.Routine := by
  refine (receiveMessages_only request).mono fun c hc => ?_
  cases c with
  | clockNow | queueUrlExists | getQueueByUrl | resetMessages | receiveMessages => trivial
  | _ => exact hc.elim

theorem workerPass_routine : workerPass.Only SqsCall.Routine := by
  refine Prog.only_bind (Prog.only_perform trivial) fun queueList => ?_
  refine Prog.only_forEach fun queue _ => (maintainQueue_only queue).mono fun c hc => ?_
  cases c with
  | messageRetention | resetMessages | resetDelayedMessages | countMessages | countMessagesByStatus
  | redriveMessages | updateQueue => trivial
  | _ => exact hc.elim

/-- What holds of the message in a run of the calls `cs`: while it was not handed out, it is visible. -/
structure Waiting (rt : Runtime) (oid : Str) (m : Message) (cs : List SqsCall) (x : Watched) : Prop where
  messages : MessagesOk rt x.1
  visible : x.2 = [] → ∃ m', x.1.db.messages.get? oid = some m' ∧ m'.status = .initial ∧ m'.retries = 0 ∧
    m'.region = m.region ∧
    (m'.queueUrl = m.queueUrl ∨ ∃ policy, .redriveMessages m.queueUrl policy ∈ cs ∧ policy.maxReceiveCount < 0)

variable {m : Message} {cs : List SqsCall} {c : SqsCall} {x y : Watched}

theorem watchStep_eq_some : watchStep cfg rt oid c x = some y ↔
    ∃ reply, exec cfg rt c x.1 = some (reply, y.1) ∧ y.2 = handOutTimes rt oid c x.1 reply y.1 x.2 := by
  unfold watchStep
  constructor
  · intro h
    obtain ⟨⟨reply, y'⟩, hr, rfl⟩ := Option.map_eq_some_iff.mp h
    exact ⟨reply, Prog.noting_eq_some.mp hr⟩
  · rintro ⟨reply, hexec, hnote⟩
    exact Option.map_eq_some_iff.mpr ⟨(reply, y), Prog.noting_eq_some.mpr ⟨hexec, hnote⟩, rfl⟩

/-- Only a receive is noted. -/
theorem handOutTimes_other {w w' : World} {reply : c.Reply} {times : List TimePoint}
    (hc : ∀ region queueUrl visibility maxMessages, c ≠ .receiveMessages region queueUrl visibility maxMessages) :
    handOutTimes rt oid c w reply w' times = times := by
  cases c with
  | receiveMessages region queueUrl visibility maxMessages => exact absurd rfl (hc _ _ _ _)
  | _ => rfl

theorem SqsCall.Routine.not_deletes (hc : c.Routine) : ¬ c.deletes m := by
  cases c with
  | purgeQueue | deleteMessages | deleteMessage | deleteAllMessages => exact hc.elim
  | _ => exact id

theorem Waiting.step (hx : Waiting rt oid m cs x) (hc : c.Routine) (hmem : c ∈ cs)
    (h : watchStep cfg rt oid c x = some y) : Waiting rt oid m cs y := by
  obtain ⟨reply, hexec, hnote⟩ := watchStep_eq_some.mp h
  refine ⟨hx.messages.step hexec, fun hy => ?_⟩
  by_cases hreceive : ∃ region queueUrl visibility maxMessages, c = .receiveMessages region queueUrl visibility maxMessages
  · obtain ⟨region, queueUrl, visibility, maxMessages, rfl⟩ := hreceive
    have hnot : oid ∉ reply.map Message.oid := by
      intro hin
      rw [hnote, handOutTimes, if_pos hin] at hy
      cases hy
    rw [handOutTimes, if_neg hnot] at hnote
    rw [(exec_receiveMessages hx.messages.keyed hexec).2 hnot]
    exact hx.visible (hnote ▸ hy)
  · rw [handOutTimes_other fun _ _ _ _ heq => hreceive ⟨_, _, _, _, heq⟩] at hnote
    obtain ⟨m', hm', hs, hretries, hregion, hurl⟩ := hx.visible (hnote ▸ hy)
    have hstep := messageStep hx.messages.keyed (exec_eq_some.mp hexec).1 oid
    rw [hm'] at hstep
    generalize y.1.db.messages.get? oid = after at hstep ⊢
    cases hstep with
    | same => exact ⟨m', rfl, hs, hretries, hregion, hurl⟩
    | created | updated => exact hc.elim
    | received => exact absurd ⟨_, _, _, _, rfl⟩ hreceive
    | reset _ hs' => rw [hs] at hs'; cases hs'
    | undelayed _ hs' => rw [hs] at hs'; cases hs'
    | redriven hu _ hcount =>
      refine ⟨_, rfl, hs, rfl, hregion, .inr ?_⟩
      rcases hurl with hurl | hearlier
      · exact ⟨_, by rw [← hurl, hu]; exact hmem, by omega⟩
      · exact hearlier
    | deleted hd => exact absurd hd hc.not_deletes

/-- A call keeps the delay exactly when it is not a receive that gets to the message too early. -/
theorem notBefore_step {due : TimePoint} (hx : Waiting rt oid m cs x) (h : watchStep cfg rt oid c x = some y) :
    (∀ t ∈ y.2, due ≤ t) ↔ (∀ t ∈ x.2, due ≤ t) ∧ OnlyAfter rt oid due c x := by
  obtain ⟨reply, hexec, hnote⟩ := watchStep_eq_some.mp h
  cases c with
  | receiveMessages region queueUrl visibility maxMessages =>
    have hreaches : oid ∈ reply.map Message.oid ↔ _ := (exec_receiveMessages hx.messages.keyed hexec).1
    rw [hnote, handOutTimes, OnlyAfter, ← hreaches]
    split
    · next hin => simp [hin, and_comm]
    · next hin => simp [hin]
  | _ =>
    rw [hnote, handOutTimes_other (by simp)]
    exact ⟨fun hold => ⟨hold, fun hreaches => hreaches.elim⟩, And.left⟩

theorem Waiting.run : ∀ {es : List SqsCall} {x y : Watched}, Waiting rt oid m cs x → (∀ c ∈ es, c.Routine ∧ c ∈ cs) →
    steps (watchStep cfg rt oid) es x = some y → Waiting rt oid m cs y
  | [], x, y, hx, _, h => by
    cases h
    exact hx
  | c :: es, x, y, hx, hes, h => by
    obtain ⟨u, hu, huy⟩ := steps_cons_eq_some.mp h
    obtain ⟨hc, hes⟩ := List.forall_mem_cons.mp hes
    exact Waiting.run (hx.step hc.1 hc.2 hu) hes huy

theorem notBefore_run {due : TimePoint} : ∀ {es : List SqsCall} {x y : Watched}, Waiting rt oid m cs x →
    (∀ c ∈ es, c.Routine ∧ c ∈ cs) → steps (watchStep cfg rt oid) es x = some y →
    ((∀ t ∈ y.2, due ≤ t) ↔ (∀ t ∈ x.2, due ≤ t) ∧ Along (watchStep cfg rt oid) (OnlyAfter rt oid due) es x)
  | [], x, y, _, _, h => by
    cases h
    simp [Along]
  | c :: es, x, y, hx, hes, h => by
    obtain ⟨u, hu, huy⟩ := steps_cons_eq_some.mp h
    obtain ⟨hc, hes⟩ := List.forall_mem_cons.mp hes
    rw [notBefore_run (hx.step hc.1 hc.2 hu) hes huy, notBefore_step hx hu, Along, and_assoc]
    simp [hu]

/-- A message that was not handed out is returned by the next receive with room for it. -/
theorem Waiting.available (hx : Waiting rt oid m cs x) (hnone : x.2 = []) : ∃ m', x.1.db.messages.get? oid = some m' ∧
    m'.region = m.region ∧
    (m'.queueUrl = m.queueUrl ∨ ∃ policy, .redriveMessages m.queueUrl policy ∈ cs ∧ policy.maxReceiveCount < 0) ∧
    ∀ visibility maxMessages, x.1.db.Room oid m'.region m'.queueUrl maxMessages → ∃ messageList w',
      exec cfg rt (.receiveMessages m'.region m'.queueUrl visibility maxMessages) x.1 = some (messageList, w') ∧
        oid ∈ messageList.map Message.oid := by
  obtain ⟨m', hm', hs, -, hregion, hurl⟩ := hx.visible hnone
  have hvisible : SqsMemoryDb.deliverable m'.region m'.queueUrl (oid, m') = true := by simp [SqsMemoryDb.deliverable, hs]
  refine ⟨m', hm', hregion, hurl, fun visibility maxMessages hroom => ⟨_, _, rfl, ?_⟩⟩
  rw [receiveMessages_oids hx.messages.keyed]
  exact (mem_received_iff_reaches visibility).mpr ⟨⟨m', hm', hvisible⟩, hroom⟩

/-! ### The result -/

variable {env : Env} {w w' : World} {request : SendMessageRequest} {queue : Queue}

/-- A send stores a message that is visible and was not received. -/
theorem SentDelayed.waiting {before : List SqsCall} (hbefore : Prog.execAll (exec env.cfg rt) before {} = some w)
    (hsent : SentDelayed env rt w request queue w' oid m) : Waiting rt oid m cs (w', []) := by
  have hw : MessagesOk rt w :=
    Prog.execAll_invariant (fun (c : SqsCall) w (r : c.Reply × World) hw hr => MessagesOk.step hw hr)
      MessagesOk.initial hbefore
  obtain ⟨response, hrun⟩ := hsent.sent
  have hkept : MessagesOk rt w' ∧ ∀ m, w'.db.messages.get? oid = some m → m.status = .initial ∧ m.retries = 0 := by
    refine (sendMessage_only env request).invariant (I := fun w => MessagesOk rt w ∧
      ∀ m, w.db.messages.get? oid = some m → m.status = .initial ∧ m.retries = 0) ?_ ⟨hw, by simp [hsent.unstored]⟩ hrun
    rintro c w r hc ⟨hw, hold⟩ hexec
    refine ⟨hw.step hexec, fun m hm => ?_⟩
    have hstep := messageStep hw.keyed (exec_eq_some.mp hexec).1 oid
    rw [hm] at hstep
    generalize w.db.messages.get? oid = m₀ at hstep hold
    cases hstep with
    | same => exact hold m rfl
    | created => exact hc
    | updated | received | reset | redriven | undelayed => exact hc.elim
  obtain ⟨hs, hretries⟩ := hkept.2 m hsent.stored
  exact ⟨hkept.1, fun _ => ⟨m, hsent.stored, hs, hretries, rfl, .inl rfl⟩⟩

/-- The delay of a message is kept in a run of receives and worker passes exactly when no receive gets to it
    before. -/
theorem delay_iff (env : Env) (rt : Runtime) (before : List SqsCall) (w w' : World) (request : SendMessageRequest)
    (queue : Queue) (oid : Str) (m : Message) (hbefore : Prog.execAll (exec env.cfg rt) before {} = some w)
    (hsent : SentDelayed env rt w request queue w' oid m) (cs : List SqsCall) (hcs : ∀ c ∈ cs, c.Routine)
    (x : Watched) (hrun : steps (watchStep env.cfg rt oid) cs (w', []) = some x) :
    DelayKept env.cfg rt oid m queue.attributes.delaySeconds cs x ↔
      Along (watchStep env.cfg rt oid) (OnlyAfter rt oid (m.created + seconds queue.attributes.delaySeconds)) cs
        (w', []) := by
  have hstart : Waiting rt oid m cs (w', []) := hsent.waiting hbefore
  have hes : ∀ c ∈ cs, c.Routine ∧ c ∈ cs := fun c hc => ⟨hcs c hc, hc⟩
  have hiff := @notBefore_run env.cfg rt oid m cs (m.created + seconds queue.attributes.delaySeconds) cs _ _ hstart hes hrun
  simp only [List.not_mem_nil, false_implies, implies_true, true_and] at hiff
  exact ⟨fun h => hiff.mp h.notBefore, fun h => ⟨hiff.mpr h, (hstart.run hes hrun).available⟩⟩

/-- A queue with a delay of a minute. -/
def slowQueue : Queue where
  region := str "eu"
  name := str "slow"
  queueUrl := str "http://slow"
  attributes := { delaySeconds := 60 }
  created := 0
  modified := 0

def slowSend : SendMessageRequest := { region := str "eu", queueUrl := str "http://slow", body := str "hello" }

/-- The processes before and after the send. -/
def slowWorld : World := ((exec Env.sample.cfg (.counting 20) (.createQueue slowQueue) {}).map Prod.snd).getD {}

def slowSent : World := (((sendMessage .sample slowSend).run (exec Env.sample.cfg (.counting 20)) slowWorld).map Prod.snd).getD {}

/-- The message is stored by the tenth call. -/
def slowMessage : Message := (slowSent.db.messages.get? ((Runtime.counting 20).uuid 9)).getD (SqsMemoryDb.noMessage 0)

theorem sentDelayed_slow : SentDelayed .sample (.counting 20) slowWorld slowSend
    { slowQueue with oid := (Runtime.counting 20).uuid 0 } slowSent ((Runtime.counting 20).uuid 9) slowMessage where
  sent := ⟨_, rfl⟩
  existing := ⟨(Runtime.counting 20).uuid 0, rfl⟩
  delayed := by decide
  unstored := rfl
  stored := rfl
  addressed := ⟨rfl, rfl⟩

/-- A worker call, and a receive from the queue. -/
def slowRun : List SqsCall :=
  [.resetDelayedMessages (str "http://slow") 60, .receiveMessages (str "eu") (str "http://slow") 30 10]

/-- With the worker's call before it the receive comes after the minute. -/
theorem delay_iff_slow : ∃ x, steps (watchStep Env.sample.cfg (.counting 20) ((Runtime.counting 20).uuid 9)) slowRun
      (slowSent, []) = some x ∧ x.2 = [seconds 220] ∧ slowMessage.created = seconds 160 ∧
    DelayKept Env.sample.cfg (.counting 20) ((Runtime.counting 20).uuid 9) slowMessage 60 slowRun x := by
  refine ⟨_, rfl, rfl, rfl, ?_⟩
  refine (delay_iff .sample (.counting 20) [.createQueue slowQueue] slowWorld slowSent slowSend _ _ _ rfl
    sentDelayed_slow slowRun (List.forall_mem_cons.mpr ⟨trivial, List.forall_mem_singleton.mpr trivial⟩) _ rfl).mpr ?_
  refine ⟨False.elim, fun t ht => ⟨fun _ => ?_, fun _ _ => trivial⟩⟩
  cases ht
  decide

/-- A receive right after the send returns the message, forty seconds after it was sent. -/
theorem delay_ignored : ∃ x, steps (watchStep Env.sample.cfg (.counting 20) ((Runtime.counting 20).uuid 9))
      [.receiveMessages (str "eu") (str "http://slow") 30 10] (slowSent, []) = some x ∧ x.2 = [seconds 200] ∧
    slowMessage.created = seconds 160 ∧
    ¬ DelayKept Env.sample.cfg (.counting 20) ((Runtime.counting 20).uuid 9) slowMessage 60
      [.receiveMessages (str "eu") (str "http://slow") 30 10] x := by
  refine ⟨_, rfl, rfl, rfl, fun h => ?_⟩
  exact absurd (h.notBefore (seconds 200) List.mem_cons_self) (by decide)

end AwsMock.Sqs
