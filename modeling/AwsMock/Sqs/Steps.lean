import AwsMock.Sqs.Database

/-!
# What a call does to a stored message

One lemma for each method that changes the message map, and from them `messageStep`: everything a
single call can do to the record under one key.
-/

namespace AwsMock.Sqs

open Lib

namespace SqsMemoryDb

variable {db : SqsMemoryDb}

/-- Every message record carries its key. -/
def KeyedMessages (db : SqsMemoryDb) : Prop := ∀ k m, db.messages.get? k = some m → m.oid = k

/-- Every queue record carries its key. -/
def KeyedQueues (db : SqsMemoryDb) : Prop := ∀ k q, db.queues.get? k = some q → q.oid = k

/-! ### Lookups -/

@[simp] theorem fetchQueue_messages (now : TimePoint) (it : Option (Str × Queue)) :
    (db.fetchQueue now it).2.messages = db.messages := by
  rcases it with _ | ⟨oid, queue⟩ <;> rfl

@[simp] theorem fetchMessage_queues (now : TimePoint) (it : Option (Str × Message)) :
    (db.fetchMessage now it).2.queues = db.queues := by
  rcases it with _ | ⟨oid, message⟩ <;> rfl

/-- Where every record carries its key, a lookup only reads. -/
theorem fetchMessage_snd (h : db.KeyedMessages) (now : TimePoint) (p : Str → Message → Bool) :
    (db.fetchMessage now (db.messages.findIf p)).2 = db := by
  cases he : db.messages.findIf p with
  | none => rfl
  | some e =>
    have hget := (OrderedMap.findIf_some he).1
    have hoid : { e.2 with oid := e.1 } = e.2 := by rw [← h _ _ hget]
    simp only [fetchMessage, hoid, OrderedMap.insert_get?_self hget]

/-- What a lookup returns when it finds a message. -/
theorem fetchMessage_fst {now : TimePoint} {e : Str × Message} (h : db.KeyedMessages)
    (he : db.messages.get? e.1 = some e.2) : (db.fetchMessage now (some e)).1 = e.2 := by
  change { e.2 with oid := e.1 } = e.2
  rw [← h _ _ he]

/-- A created message is stored with its key in the `oid` field. -/
theorem createMessage_eq (oid : Str) (message : Message) (now : TimePoint) :
    db.createMessage oid message now = ({ message with oid := oid },
      { db with messages := db.messages.insert oid { message with oid := oid } }) := by
  have h : (db.messages.insert oid message).get? oid = some message := by simp
  simp only [createMessage, getMessageById, OrderedMap.findIf_key h, fetchMessage,
    OrderedMap.insert_insert]

theorem createQueue_eq (oid : Str) (queue : Queue) (now : TimePoint) :
    db.createQueue oid queue now = ({ queue with oid := oid },
      { db with queues := db.queues.insert oid { queue with oid := oid } }) := by
  have h : (db.queues.insert oid queue).get? oid = some queue := by simp
  simp only [createQueue, getQueueById, OrderedMap.findIf_key h, fetchQueue,
    OrderedMap.insert_insert]

/-- An updated message replaces the record under its own `oid`. -/
theorem updateMessage_eq_some (h : db.KeyedMessages) {message : Message}
    {r : Message × SqsMemoryDb} : db.updateMessage message = some r ↔
      (∃ m, db.messages.get? message.oid = some m) ∧
      r = (message, { db with messages := db.messages.insert message.oid message }) := by
  unfold updateMessage
  constructor
  · intro hr
    obtain ⟨e, he, rfl⟩ := Option.map_eq_some_iff.mp hr
    obtain ⟨hget, hp⟩ := OrderedMap.findIf_some he
    have hkey : e.1 = message.oid := (h _ _ hget).symm.trans (by simpa using hp)
    exact ⟨⟨e.2, hkey ▸ hget⟩, by rw [hkey]⟩
  · rintro ⟨⟨m, hm⟩, rfl⟩
    have : (db.messages.findIf fun _ m => m.oid = message.oid) = some (message.oid, m) :=
      OrderedMap.findIf_unique hm (by simpa using h _ _ hm) fun k v hv hp => by
        rw [← h k v hv]; simpa using hp
    rw [this]
    rfl

/-! ### Receiving -/

/-- The test of the loop of `ReceiveMessages`. -/
def deliverable (region queueUrl : Str) (e : Str × Message) : Bool :=
  e.2.region = region ∧ e.2.queueUrl = queueUrl ∧ e.2.status = .initial

/-- The record handed out for an entry. -/
def handOut (receiptHandle : Str → Str) (e : Str × Message) : Message :=
  { e.2 with retries := e.2.retries + 1, receiptHandle := receiptHandle e.1 }

/-- The record stored for an entry that is handed out. -/
def held (receiptHandle : Str → Str) (reset : TimePoint) (k : Str) (m : Message) : Message :=
  { handOut receiptHandle (k, m) with status := .invisible, reset := reset }

/-- The entries handed out when `size` messages are already in the list: the first deliverable
    ones up to the limit, but at least one. -/
def picked (region queueUrl : Str) (maxMessages : Int) (size : Nat) (es : List (Str × Message)) :
    List (Str × Message) :=
  (es.filter (deliverable region queueUrl)).take
    (max 1 ((maxMessages % 18446744073709551616).toNat - size))

theorem limitReached_iff {size : Nat} {maxMessages : Int} :
    limitReached size maxMessages = true ↔
      (maxMessages % 18446744073709551616).toNat ≤ size := by
  simp [limitReached]

theorem receiveLoop_eq (region queueUrl : Str) (reset : TimePoint) (maxMessages : Int)
    (receiptHandle : Str → Str) : ∀ (es : List (Str × Message)) (messages : OrderedMap Str Message)
    (messageList : List Message),
    receiveLoop region queueUrl reset maxMessages receiptHandle es messages messageList =
      (messageList ++ (picked region queueUrl maxMessages messageList.length es).map
          (handOut receiptHandle),
        (picked region queueUrl maxMessages messageList.length es).foldl
          (fun s e => s.insert e.1 (held receiptHandle reset e.1 e.2)) messages)
  | [], messages, messageList => by simp [receiveLoop, picked]
  | (oid, message) :: rest, messages, messageList => by
    unfold receiveLoop
    split
    · next h =>
      have hd : deliverable region queueUrl (oid, message) = true := by simpa [deliverable] using h
      simp only [limitReached_iff, List.length_append, List.length_singleton]
      split
      · next hlim =>
        -- the limit is reached with this entry
        have : max 1 ((maxMessages % 18446744073709551616).toNat - messageList.length) = 1 := by
          omega
        simp only [picked, List.filter_cons_of_pos hd, this]
        rfl
      · next hlim =>
        have : max 1 ((maxMessages % 18446744073709551616).toNat - messageList.length) =
            max 1 ((maxMessages % 18446744073709551616).toNat - (messageList.length + 1)) + 1 := by
          omega
        rw [receiveLoop_eq]
        simp only [picked, List.filter_cons_of_pos hd, this, List.take_succ_cons, List.map_cons,
          List.foldl_cons, List.append_assoc, List.length_append, List.length_singleton]
        rfl
    · next h =>
      have hd : ¬ deliverable region queueUrl (oid, message) = true := by
        simpa [deliverable] using h
      rw [receiveLoop_eq]
      simp only [picked, List.filter_cons_of_neg hd]

theorem picked_sublist (region queueUrl : Str) (maxMessages : Int) (size : Nat)
    (es : List (Str × Message)) : (picked region queueUrl maxMessages size es).Sublist es :=
  (List.take_sublist _ _).trans List.filter_sublist

variable {region queueUrl : Str} {visibility maxMessages : Int} {now : TimePoint}
  {receiptHandle : Str → Str}

/-- The entries one call hands out. -/
abbrev received (db : SqsMemoryDb) (region queueUrl : Str) (maxMessages : Int) :
    List (Str × Message) := picked region queueUrl maxMessages 0 db.messages.entries

theorem receiveMessages_eq : db.receiveMessages region queueUrl visibility maxMessages now
    receiptHandle = ((db.received region queueUrl maxMessages).map (handOut receiptHandle),
      { db with messages := db.messages.mapVal fun k m =>
          if k ∈ (db.received region queueUrl maxMessages).map Prod.fst then
            held receiptHandle (now + seconds visibility) k m else m }) := by
  simp only [receiveMessages, receiveLoop_eq, List.nil_append, List.length_nil]
  rw [OrderedMap.foldl_insert_eq_mapVal _ (picked_sublist ..)]

theorem mem_received {e : Str × Message} (h : e ∈ db.received region queueUrl maxMessages) :
    db.messages.get? e.1 = some e.2 ∧ e.2.region = region ∧ e.2.queueUrl = queueUrl ∧
      e.2.status = .initial := by
  have hmem := List.mem_filter.mp (List.mem_of_mem_take h)
  exact ⟨OrderedMap.get?_eq_some.mpr hmem.1, by simpa [deliverable] using hmem.2⟩

theorem received_keys_nodup :
    ((db.received region queueUrl maxMessages).map Prod.fst).Nodup :=
  db.messages.keys_nodup.sublist ((picked_sublist ..).map _)

/-- The value under a received key is the received one. -/
theorem mem_received_of_key {k : Str} {m : Message} (hm : db.messages.get? k = some m)
    (hk : k ∈ (db.received region queueUrl maxMessages).map Prod.fst) :
    (k, m) ∈ db.received region queueUrl maxMessages := by
  obtain ⟨e, he, rfl⟩ := List.mem_map.mp hk
  have := (mem_received he).1.symm.trans hm
  rwa [← Option.some.inj this]

/-! ### Retention -/

theorem messageRetention_some {clock : Str → TimePoint} {db' : SqsMemoryDb}
    (h : db.messageRetention queueUrl clock = some db') : db' = db := by
  unfold messageRetention at h
  split at h
  · cases h
  · exact (Option.some.inj h).symm

end SqsMemoryDb

/-! ### One step of one message -/

/-- The messages a call deletes. -/
def SqsCall.deletes : SqsCall → Message → Prop
  | .purgeQueue region queueUrl, m => m.region = region ∧ m.queueUrl = queueUrl
  | .deleteMessages queueUrl, m => m.queueUrl = queueUrl
  | .deleteMessage receiptHandle, m => m.receiptHandle = receiptHandle
  | .deleteAllMessages, _ => True
  | _, _ => False

/-- What the `n`-th call of a run can do to the record under the key `k`. -/
inductive MessageStep (cfg : Configuration) (rt : Runtime) (n : Nat) (k : Str) :
    SqsCall → Option Message → Option Message → Prop
  | same {c m} : MessageStep cfg rt n k c m m
  | created {m m₀} (hk : k = rt.uuid n) :
    MessageStep cfg rt n k (.createMessage m) m₀ (some { m with oid := k })
  | updated {m m₀} (hk : m.oid = k) : MessageStep cfg rt n k (.updateMessage m) (some m₀) (some m)
  | received {m region queueUrl visibility maxMessages} (hr : m.region = region)
    (hu : m.queueUrl = queueUrl) (hs : m.status = .initial) :
    MessageStep cfg rt n k (.receiveMessages region queueUrl visibility maxMessages) (some m)
      (some (SqsMemoryDb.held (rt.receiptHandle n) (rt.now n + seconds visibility) k m))
  | reset {m queueUrl visibility} (hu : m.queueUrl = queueUrl) (hs : m.status = .invisible)
    (ht : m.reset < rt.clock n k) :
    MessageStep cfg rt n k (.resetMessages queueUrl visibility) (some m)
      (some { m with status := .initial, receiptHandle := [] })
  | redriven {m queueUrl policy} (hu : m.queueUrl = queueUrl) (hs : m.status = .initial)
    (hc : m.retries > policy.maxReceiveCount) :
    MessageStep cfg rt n k (.redriveMessages queueUrl policy) (some m) (some { m with
      retries := 0, queueUrl := convertSQSQueueArnToUrl cfg policy.deadLetterTargetArn })
  | undelayed {m queueUrl delay} (hu : m.queueUrl = queueUrl) (hs : m.status = .delayed)
    (ht : m.reset < rt.clock n k) :
    MessageStep cfg rt n k (.resetDelayedMessages queueUrl delay) (some m)
      (some { m with status := .initial })
  | deleted {c m} (hd : c.deletes m) : MessageStep cfg rt n k c (some m) none

namespace MessageStep

variable {cfg : Configuration} {rt : Runtime} {n : Nat} {k : Str} {c : SqsCall}

theorem of_erase {m : OrderedMap Str Message} {p : Str → Message → Bool}
    (h : ∀ v, p k v = true → c.deletes v) :
    MessageStep cfg rt n k c (m.get? k) ((m.eraseIf p).get? k) := by
  rw [OrderedMap.get?_eraseIf]
  cases m.get? k with
  | none => exact .same
  | some v =>
    cases hp : p k v with
    | true => rw [Option.filter_some_neg (by simp [hp])]; exact .deleted (h v hp)
    | false => rw [Option.filter_some_pos (by simp [hp])]; exact .same

theorem of_assign {m : OrderedMap Str Message} {p : Str → Message → Bool}
    {f : Str → Message → Message}
    (h : ∀ v, p k v = true → MessageStep cfg rt n k c (some v) (some (f k v))) :
    MessageStep cfg rt n k c (m.get? k) ((m.assignEach p f).get? k) := by
  rw [OrderedMap.get?_assignEach]
  cases m.get? k with
  | none => exact .same
  | some v =>
    rw [Option.map_some]
    split
    · next hp => exact h v hp
    · exact .same

end MessageStep

open MessageStep in
/-- Every call takes every stored message a `MessageStep` further. -/
theorem messageStep {cfg : Configuration} {rt : Runtime} {n : Nat} {db db' : SqsMemoryDb}
    {c : SqsCall} {r : c.Reply} (hkeyed : db.KeyedMessages)
    (h : c.apply cfg rt n db = some (r, db')) (k : Str) :
    MessageStep cfg rt n k c (db.messages.get? k) (db'.messages.get? k) := by
  cases c with
  | createMessage message =>
    simp only [SqsCall.apply, SqsMemoryDb.createMessage_eq, Option.some.injEq, Prod.mk.injEq] at h
    obtain ⟨-, rfl⟩ := h
    by_cases hk : k = rt.uuid n
    · subst hk
      simpa using MessageStep.created rfl
    · simpa [OrderedMap.get?_insert, hk] using MessageStep.same
  | updateMessage message =>
    obtain ⟨⟨m, hm⟩, he⟩ := (SqsMemoryDb.updateMessage_eq_some hkeyed).mp h
    obtain ⟨-, rfl⟩ := Prod.mk.inj he
    by_cases hk : k = message.oid
    · subst hk
      simpa [hm] using MessageStep.updated rfl
    · simpa [OrderedMap.get?_insert, hk] using MessageStep.same
  | receiveMessages region queueUrl visibility maxMessages =>
    simp only [SqsCall.apply, SqsMemoryDb.receiveMessages_eq, Option.some.injEq,
      Prod.mk.injEq] at h
    obtain ⟨-, rfl⟩ := h
    simp only [OrderedMap.get?_mapVal]
    cases hm : db.messages.get? k with
    | none => exact .same
    | some m =>
      rw [Option.map_some]
      split
      · next hk =>
        obtain ⟨-, hr, hu, hs⟩ := SqsMemoryDb.mem_received (SqsMemoryDb.mem_received_of_key hm hk)
        exact .received hr hu hs
      · exact .same
  | getMessageById oid =>
    obtain rfl : _ = db' := congrArg Prod.snd (Option.some.inj h)
    rw [SqsMemoryDb.getMessageById, SqsMemoryDb.fetchMessage_snd hkeyed]
    exact .same
  | getMessageByReceiptHandle receiptHandle =>
    obtain rfl : _ = db' := congrArg Prod.snd (Option.some.inj h)
    rw [SqsMemoryDb.getMessageByReceiptHandle, SqsMemoryDb.fetchMessage_snd hkeyed]
    exact .same
  | resetMessages queueUrl visibility =>
    cases h
    exact of_assign fun v hv => by
      obtain ⟨hu, hs, ht⟩ := of_decide_eq_true hv
      exact .reset hu hs ht
  | redriveMessages queueUrl policy =>
    cases h
    exact of_assign fun v hv => by
      obtain ⟨hu, hs, hc⟩ := of_decide_eq_true hv
      exact .redriven hu hs hc
  | resetDelayedMessages queueUrl delay =>
    cases h
    exact of_assign fun v hv => by
      obtain ⟨hu, hs, ht⟩ := of_decide_eq_true hv
      exact .undelayed hu hs ht
  | messageRetention queueUrl retentionPeriod =>
    obtain ⟨db'', hdb, he⟩ := Option.map_eq_some_iff.mp h
    obtain ⟨-, rfl⟩ := Prod.mk.inj he
    rw [SqsMemoryDb.messageRetention_some hdb]
    exact .same
  | purgeQueue | deleteMessages | deleteMessage =>
    cases h
    exact of_erase fun v hv => by simpa [SqsCall.deletes] using hv
  | deleteAllMessages =>
    cases h
    cases db.messages.get? k with
    | none => exact .same
    | some m => exact .deleted trivial
  | updateQueue queue =>
    obtain ⟨it, -, he⟩ := Option.map_eq_some_iff.mp h
    obtain ⟨-, rfl⟩ := Prod.mk.inj he
    exact .same
  | createQueue queue =>
    simp only [SqsCall.apply, SqsMemoryDb.createQueue_eq, Option.some.injEq, Prod.mk.injEq] at h
    obtain ⟨-, rfl⟩ := h
    exact .same
  | getQueueById | getQueueByArn | getQueueByUrl | getQueueByName =>
    have hm : db'.messages = db.messages :=
      (congrArg (fun x => x.2.messages) (Option.some.inj h)).symm.trans
        (SqsMemoryDb.fetchQueue_messages ..)
    rw [hm]
    exact .same
  | _ => cases h; exact .same

/-- The calls that may write a queue record. -/
def SqsCall.writesQueues : SqsCall → Bool
  | .createQueue .. | .getQueueById .. | .getQueueByArn .. | .getQueueByUrl .. | .getQueueByName ..
  | .updateQueue .. | .deleteQueue .. | .deleteAllQueues => true
  | _ => false

/-- All other calls leave the queues alone. -/
theorem queues_of_apply {cfg : Configuration} {rt : Runtime} {n : Nat} {db db' : SqsMemoryDb}
    {c : SqsCall} {r : c.Reply} (hc : c.writesQueues = false)
    (h : c.apply cfg rt n db = some (r, db')) : db'.queues = db.queues := by
  cases c with
  | createQueue | getQueueById | getQueueByArn | getQueueByUrl | getQueueByName | updateQueue
  | deleteQueue | deleteAllQueues => cases hc
  | createMessage message =>
    simp only [SqsCall.apply, SqsMemoryDb.createMessage_eq, Option.some.injEq, Prod.mk.injEq] at h
    rw [← h.2]
  | getMessageById | getMessageByReceiptHandle =>
    obtain rfl : _ = db' := congrArg Prod.snd (Option.some.inj h)
    exact SqsMemoryDb.fetchMessage_queues ..
  | receiveMessages region queueUrl visibility maxMessages =>
    simp only [SqsCall.apply, SqsMemoryDb.receiveMessages_eq, Option.some.injEq,
      Prod.mk.injEq] at h
    rw [← h.2]
  | updateMessage message =>
    obtain ⟨it, -, he⟩ := Option.map_eq_some_iff.mp h
    obtain rfl : _ = db' := congrArg Prod.snd he
    rfl
  | messageRetention queueUrl retentionPeriod =>
    obtain ⟨db'', hdb, he⟩ := Option.map_eq_some_iff.mp h
    obtain rfl : db'' = db' := congrArg Prod.snd he
    rw [SqsMemoryDb.messageRetention_some hdb]
  | _ => cases h; rfl

/-! ### Reachable message stores -/

/-- Message records carry their keys, and the keys were drawn by earlier calls. -/
structure MessagesOk (rt : Runtime) (w : World) : Prop where
  keyed : w.db.KeyedMessages
  drawn : ∀ k m, w.db.messages.get? k = some m → ∃ i < w.calls, k = rt.uuid i

namespace MessagesOk

variable {cfg : Configuration} {rt : Runtime} {w w' : World} {c : SqsCall} {r : c.Reply}

theorem initial : MessagesOk rt {} where
  keyed _ _ h := nomatch h
  drawn _ _ h := nomatch h

/-- No message is stored under an id that is still to be drawn. -/
theorem fresh (hw : MessagesOk rt w) {i : Nat} (hi : w.calls ≤ i) :
    w.db.messages.get? (rt.uuid i) = none := by
  refine Option.eq_none_iff_forall_not_mem.mpr fun m hm => ?_
  obtain ⟨j, hj, he⟩ := hw.drawn _ m hm
  have := rt.uuid_inj he
  omega

end MessagesOk

theorem exec_eq_some {cfg : Configuration} {rt : Runtime} {w w' : World} {c : SqsCall}
    {r : c.Reply} : exec cfg rt c w = some (r, w') ↔
      c.apply cfg rt w.calls w.db = some (r, w'.db) ∧ w'.calls = w.calls + 1 := by
  unfold exec
  constructor
  · intro h
    obtain ⟨⟨r', db'⟩, ha, he⟩ := Option.map_eq_some_iff.mp h
    obtain ⟨rfl, rfl⟩ := Prod.mk.inj he
    exact ⟨ha, rfl⟩
  · rintro ⟨ha, hn⟩
    rw [ha]
    obtain ⟨db', n⟩ := w'
    cases hn
    rfl

/-- A call keeps the invariant of the message store. -/
theorem MessagesOk.step {cfg : Configuration} {rt : Runtime} {w w' : World} {c : SqsCall}
    {r : c.Reply} (hw : MessagesOk rt w) (h : exec cfg rt c w = some (r, w')) :
    MessagesOk rt w' := by
  obtain ⟨ha, hn⟩ := exec_eq_some.mp h
  have hstep := messageStep hw.keyed ha
  refine ⟨fun k m hm => ?_, fun k m hm => ?_⟩
  · have hk := hstep k
    have hkeyed := hw.keyed k
    rw [hm] at hk
    generalize w.db.messages.get? k = m₀ at hk hkeyed
    cases hk with
    | same => exact hkeyed m rfl
    | created => rfl
    | updated hk => exact hk
    | received | reset | redriven | undelayed =>
      have := hkeyed _ rfl
      exact this
  · rw [hn]
    have hk := hstep k
    have hdrawn := hw.drawn k
    rw [hm] at hk
    generalize w.db.messages.get? k = m₀ at hk hdrawn
    have old : ∀ {m}, m₀ = some m → ∃ i < w.calls + 1, k = rt.uuid i := fun hm =>
      let ⟨i, hi, he⟩ := hdrawn _ hm
      ⟨i, by omega, he⟩
    cases hk with
    | created hk => exact ⟨w.calls, by omega, hk⟩
    | same | updated | received | reset | redriven | undelayed => exact old rfl

/-! ### Defined calls

`MessageRetention` has no defined result on a store with an expired delayed message. `SendMessage`
creates visible messages only, so no such message exists. -/

/-- No message is delayed. -/
def Undelayed (db : SqsMemoryDb) : Prop := ∀ k m, db.messages.get? k = some m → m.status ≠ .delayed

theorem Undelayed.step {cfg : Configuration} {rt : Runtime} {w w' : World} {c : SqsCall}
    {r : c.Reply} (hw : MessagesOk rt w)
    (hu : Undelayed w.db) (hcreate : ∀ m, c = .createMessage m → m.status ≠ .delayed)
    (hupdate : ∀ m, c = .updateMessage m → m.status ≠ .delayed)
    (h : exec cfg rt c w = some (r, w')) : Undelayed w'.db := by
  intro k m hm
  have hstep := messageStep hw.keyed (exec_eq_some.mp h).1 k
  have hk := hu k
  rw [hm] at hstep
  generalize w.db.messages.get? k = m₀ at hstep hk
  cases hstep with
  | same => exact hk _ rfl
  | created =>
    have := hcreate _ rfl
    exact this
  | updated => exact hupdate _ rfl
  | redriven _ hs => simp [hs]
  | received | reset | undelayed => simp [SqsMemoryDb.held]

/-- No delayed message is stored: a send stores a visible one, and a write-back keeps the status. -/
def SqsCall.Undelaying : SqsCall → Prop
  | .createMessage m | .updateMessage m => m.status ≠ .delayed
  | _ => True

/-- Such calls lead to stores without delayed messages. -/
theorem undelayed_of_execAll {cfg : Configuration} {rt : Runtime} : ∀ {cs : List SqsCall}
    {w w' : World}, MessagesOk rt w → Undelayed w.db → (∀ c ∈ cs, c.Undelaying) →
    Prog.execAll (exec cfg rt) cs w = some w' → MessagesOk rt w' ∧ Undelayed w'.db
  | [], w, w', hw, hu, _, h => by
    cases h
    exact ⟨hw, hu⟩
  | c :: cs, w, w', hw, hu, hcs, h => by
    obtain ⟨hc, hcs⟩ := List.forall_mem_cons.mp hcs
    obtain ⟨r, hr, h⟩ := Option.bind_eq_some_iff.mp h
    refine undelayed_of_execAll (hw.step hr) (hu.step hw ?_ ?_ hr) hcs h
    · rintro m rfl; exact hc
    · rintro m rfl; exact hc

/-- On such a store every call is defined, up to the update of a missing record. -/
theorem Undelayed.defined (cfg : Configuration) (rt : Runtime) {w : World}
    (hu : Undelayed w.db) {c : SqsCall} (hq : ∀ q, c ≠ .updateQueue q) (hc : ∀ m, c ≠ .updateMessage m) :
    ∃ r, exec cfg rt c w = some r := by
  cases c with
  | updateQueue q => exact absurd rfl (hq q)
  | updateMessage m => exact absurd rfl (hc m)
  | messageRetention queueUrl retentionPeriod =>
    have : w.db.messageRetention queueUrl (rt.clock w.calls) = some w.db := by
      unfold SqsMemoryDb.messageRetention
      rw [OrderedMap.findIf_none.mpr fun k m hm => by simp [hu k m hm]]
    exact ⟨((), ⟨w.db, w.calls + 1⟩), by simp [exec, SqsCall.apply, this]⟩
  | _ => exact ⟨_, rfl⟩

end AwsMock.Sqs
