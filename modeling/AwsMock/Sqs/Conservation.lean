import Mathlib.Logic.Relation
import AwsMock.Sqs.Requests

/-!
# Conservation of messages

Sends, receives, visibility changes and worker passes, one at a time in any order, on a store with
any queues and no message. Every such run is defined; at its end every message sent is stored exactly
once, with what identified it when it was sent, in its queue or in one that the dead letter targets
of the queues lead to; and nothing else is stored.
-/

namespace AwsMock.Sqs

open Lib Relation

/-- What stays with a message from its send on. -/
structure Identity where
  messageId : Str
  body : Str
  md5Body : Str
  md5UserAttr : Str
  attributes : OrderedMap Str Str

def Message.identity (m : Message) : Identity :=
  ⟨m.messageId, m.body, m.md5Body, m.md5UserAttr, m.attributes⟩

/-- Some queue with the URL `u` redrives its messages to the URL `u'`. -/
def Redrives (cfg : Configuration) (queues : OrderedMap Str Queue) (u u' : Str) : Prop :=
  ∃ k q, queues.get? k = some q ∧ q.queueUrl = u ∧
    q.attributes.redrivePolicy.deadLetterTargetArn ≠ [] ∧
    u' = convertSQSQueueArnToUrl cfg q.attributes.redrivePolicy.deadLetterTargetArn

/-- A successful `SendMessage`, with the store it left. -/
structure Sent where
  request : SendMessageRequest
  response : SendMessageResponse
  after : SqsMemoryDb

/-- The process, and the messages sent so far. -/
structure Journal where
  world : World
  sends : List Sent := []

inductive Operation where
  | sendMessage (request : SendMessageRequest)
  | receiveMessages (request : ReceiveMessageRequest)
  | setVisibilityTimeout (request : ChangeMessageVisibilityRequest)
  | workerPass

/-- One operation, alone in the process; a failed request is an answer as well. -/
def Operation.run (env : Env) (rt : Runtime) (j : Journal) : Operation → Option Journal
  | .sendMessage request => ((Sqs.sendMessage env request).run (exec env.cfg rt) j.world).map fun
    | (.ok response, w) => ⟨w, j.sends ++ [⟨request, response, w.db⟩]⟩
    | (.error _, w) => ⟨w, j.sends⟩
  | .receiveMessages request =>
    ((Sqs.receiveMessages request).run (exec env.cfg rt) j.world).map fun r => ⟨r.2, j.sends⟩
  | .setVisibilityTimeout request =>
    ((Sqs.setVisibilityTimeout request).run (exec env.cfg rt) j.world).map fun r => ⟨r.2, j.sends⟩
  | .workerPass => (Sqs.workerPass.run (exec env.cfg rt) j.world).map fun r => ⟨r.2, j.sends⟩

/-- The operations of a run, one after the other. -/
def runOperations (env : Env) (rt : Runtime) (ops : List Operation) (j : Journal) :
    Option Journal :=
  ops.foldlM (Operation.run env rt) j

/-- The message of a send, as it was stored by it. -/
def Sent.Stored (s : Sent) (k : Str) (m : Message) : Prop :=
  s.after.messages.get? k = some m ∧ m.queueUrl = s.request.queueUrl ∧
    m.body = s.request.body ∧ m.messageId = s.response.messageId ∧
    m.md5Body = s.response.md5Body ∧ m.md5UserAttr = s.response.md5UserAttr

/-- Every message sent is stored exactly once, and nothing else is stored. -/
structure Conserved (cfg : Configuration) (queues : OrderedMap Str Queue) (j : Journal) : Prop where
  kept : ∀ s ∈ j.sends, ∃ k m₀ m, s.Stored k m₀ ∧ j.world.db.messages.get? k = some m ∧
    m.identity = m₀.identity ∧ ReflTransGen (Redrives cfg queues) m₀.queueUrl m.queueUrl
  once : ∀ k k' m m', j.world.db.messages.get? k = some m →
    j.world.db.messages.get? k' = some m' → m.messageId = m'.messageId → k = k'
  sentOnly : ∀ k m, j.world.db.messages.get? k = some m →
    ∃ s ∈ j.sends, m.messageId = s.response.messageId

/-! ### Stores that keep their messages -/

variable {cfg : Configuration} {rt : Runtime} {queues : OrderedMap Str Queue}

/-- From `db` to `db'` no message is lost or added, and each has kept its identity and moved along
    the redrives. -/
structure Kept (cfg : Configuration) (queues : OrderedMap Str Queue) (db db' : SqsMemoryDb) :
    Prop where
  forward : ∀ k m, db.messages.get? k = some m → ∃ m', db'.messages.get? k = some m' ∧
    m'.identity = m.identity ∧ ReflTransGen (Redrives cfg queues) m.queueUrl m'.queueUrl
  backward : ∀ k m', db'.messages.get? k = some m' → ∃ m, db.messages.get? k = some m

theorem Kept.refl (db : SqsMemoryDb) : Kept cfg queues db db :=
  ⟨fun _ m hm => ⟨m, hm, rfl, .refl⟩, fun _ m hm => ⟨m, hm⟩⟩

theorem Kept.trans {db db' db'' : SqsMemoryDb} (h : Kept cfg queues db db')
    (h' : Kept cfg queues db' db'') : Kept cfg queues db db'' := by
  refine ⟨fun k m hm => ?_, fun k m'' hm'' => ?_⟩
  · obtain ⟨m', hm', hid, hchain⟩ := h.forward k m hm
    obtain ⟨m'', hm'', hid', hchain'⟩ := h'.forward k m' hm'
    exact ⟨m'', hm'', hid'.trans hid, hchain.trans hchain'⟩
  · obtain ⟨m', hm'⟩ := h'.backward k m'' hm''
    exact h.backward k m' hm'

/-- Two queue records agree in what redriving and the worker's write-back depend on. -/
structure SameQueue (q q' : Queue) : Prop where
  region : q'.region = q.region
  name : q'.name = q.name
  queueUrl : q'.queueUrl = q.queueUrl
  redrivePolicy : q'.attributes.redrivePolicy = q.attributes.redrivePolicy

/-- The queue records come from those at the start of the run, and none is missing. -/
structure QueuesOk (queues current : OrderedMap Str Queue) : Prop where
  keys : ∀ k q', current.get? k = some q' → ∃ q, queues.get? k = some q
  old : ∀ k q', current.get? k = some q' → ∃ k₀ q, queues.get? k₀ = some q ∧ SameQueue q q'
  present : ∀ k q, queues.get? k = some q →
    ∃ q', current.get? k = some q' ∧ q'.region = q.region ∧ q'.name = q.name

/-- The calls of receives, visibility changes and worker passes, but the record write-back. -/
def Harmless (queues : OrderedMap Str Queue) : SqsCall → Prop
  | .redriveMessages queueUrl policy => policy.deadLetterTargetArn ≠ [] ∧
      ∃ k q, queues.get? k = some q ∧ q.queueUrl = queueUrl ∧ q.attributes.redrivePolicy = policy
  | .updateQueue q' => ∃ k q, queues.get? k = some q ∧ SameQueue q q'
  | .clockNow | .createMessageId | .createSqsReceiptHandler | .queueUrlExists .. | .getQueueByUrl ..
  | .listQueues .. | .messageExists .. | .getMessageByReceiptHandle .. | .receiveMessages ..
  | .resetMessages .. | .resetDelayedMessages .. | .messageRetention .. | .countMessages ..
  | .countMessagesByStatus .. => True
  | _ => False

/-- What holds between operations, seen from the store `db₀`. -/
structure StoreOk (cfg : Configuration) (rt : Runtime) (queues : OrderedMap Str Queue)
    (w₀ w : World) : Prop where
  messages : MessagesOk rt w
  undelayed : Undelayed w.db
  kept : Kept cfg queues w₀.db w.db
  queuesOk : QueuesOk queues w.db.queues
  calls : w₀.calls ≤ w.calls

/-- A store with any queues and no message. -/
theorem StoreOk.initial (n : Nat) : StoreOk cfg rt queues ⟨{ queues := queues }, n⟩
    ⟨{ queues := queues }, n⟩ where
  messages := ⟨by simp [SqsMemoryDb.KeyedMessages], by simp⟩
  undelayed := by simp [Undelayed]
  kept := .refl _
  queuesOk := ⟨fun k q hq => ⟨q, hq⟩, fun k q hq => ⟨k, q, hq, rfl, rfl, rfl, rfl⟩,
    fun k q hq => ⟨q, hq, rfl, rfl⟩⟩
  calls := le_rfl

theorem QueuesOk.insert {current : OrderedMap Str Queue} {k : Str} {q q' : Queue}
    (h : QueuesOk queues current) (hk : current.get? k = some q)
    (hold : ∃ k₀ q₀, queues.get? k₀ = some q₀ ∧ SameQueue q₀ q')
    (hsame : q'.region = q.region ∧ q'.name = q.name) :
    QueuesOk queues (current.insert k q') := by
  refine ⟨fun k' x hx => ?_, fun k' x hx => ?_, fun k' q₀ hq₀ => ?_⟩
  · rw [OrderedMap.get?_insert] at hx
    split at hx
    · next hkk => exact h.keys k' q (hkk ▸ hk)
    · exact h.keys k' x hx
  · rw [OrderedMap.get?_insert] at hx
    split at hx
    · cases hx; exact hold
    · exact h.old k' x hx
  · obtain ⟨x, hx, hr, hn⟩ := h.present k' q₀ hq₀
    rw [OrderedMap.get?_insert]
    split
    · next hkk =>
      subst hkk
      obtain rfl : q = x := Option.some.inj (hk.symm.trans hx)
      exact ⟨q', rfl, hsame.1.trans hr, hsame.2.trans hn⟩
    · exact ⟨x, hx, hr, hn⟩

theorem QueuesOk.fetchQueue {db : SqsMemoryDb} (h : QueuesOk queues db.queues) (now : TimePoint)
    (p : Str → Queue → Bool) :
    QueuesOk queues (db.fetchQueue now (db.queues.findIf p)).2.queues := by
  cases he : db.queues.findIf p with
  | none => exact h
  | some e =>
    have hget := (OrderedMap.findIf_some he).1
    obtain ⟨k₀, q₀, hq₀, hs⟩ := h.old _ _ hget
    exact h.insert hget ⟨k₀, q₀, hq₀, hs.region, hs.name, hs.queueUrl, hs.redrivePolicy⟩ ⟨rfl, rfl⟩

/-- The worker's write-back finds its queue. -/
theorem QueuesOk.updateQueue {db : SqsMemoryDb} (h : QueuesOk queues db.queues) {q' : Queue}
    (hold : ∃ k q, queues.get? k = some q ∧ SameQueue q q') :
    ∃ r, db.updateQueue q' = some r ∧ QueuesOk queues r.2.queues := by
  obtain ⟨k, q, hq, hs⟩ := hold
  obtain ⟨x, hx, hr, hn⟩ := h.present k q hq
  unfold SqsMemoryDb.updateQueue
  cases he : db.queues.findIf fun _ q => q.region = q'.region ∧ q.name = q'.name with
  | none =>
    have := OrderedMap.findIf_none.mp he k x hx
    simp [hr, hn, hs.region, hs.name] at this
  | some e =>
    obtain ⟨hget, hp⟩ := OrderedMap.findIf_some he
    obtain ⟨hre, hne⟩ := of_decide_eq_true hp
    exact ⟨_, rfl, h.insert hget ⟨k, q, hq, hs⟩ ⟨hre.symm, hne.symm⟩⟩

/-- A harmless call leaves every message where its step allows. -/
theorem kept_of_step {w w' : World} {c : SqsCall} {r : c.Reply} (hw : MessagesOk rt w)
    (hc : Harmless queues c) (h : exec cfg rt c w = some (r, w')) :
    Kept cfg queues w.db w'.db := by
  have hstep := messageStep hw.keyed (exec_eq_some.mp h).1
  refine ⟨fun k m hm => ?_, fun k m' hm' => ?_⟩
  · have hk := hstep k
    rw [hm] at hk
    generalize w'.db.messages.get? k = x at hk
    cases hk with
    | same => exact ⟨m, rfl, rfl, .refl⟩
    | created => exact hc.elim
    | updated => exact hc.elim
    | received | reset | undelayed => exact ⟨_, rfl, rfl, .refl⟩
    | redriven hu =>
      obtain ⟨harn, k₀, q, hq, hqu, rfl⟩ := hc
      exact ⟨_, rfl, rfl, .single ⟨k₀, q, hq, hqu.trans hu.symm, harn, rfl⟩⟩
    | deleted hd => cases c <;> first | exact hd.elim | exact hc.elim
  · have hk := hstep k
    rw [hm'] at hk
    generalize w.db.messages.get? k = x at hk
    cases hk with
    | created => exact hc.elim
    | same | updated | received | reset | redriven | undelayed => exact ⟨_, rfl⟩

theorem StoreOk.step {w₀ w : World} (hw : StoreOk cfg rt queues w₀ w) {c : SqsCall}
    (hc : Harmless queues c) : ∃ r, exec cfg rt c w = some r ∧ StoreOk cfg rt queues w₀ r.2 := by
  -- the call is defined, and its queue side
  have hqueues : ∃ r, exec cfg rt c w = some r ∧ QueuesOk queues r.2.db.queues := by
    cases hwrites : c.writesQueues with
    | true =>
      cases c with
      | updateQueue q' =>
        obtain ⟨r, hr, hok⟩ := hw.queuesOk.updateQueue hc
        exact ⟨(r.1, ⟨r.2, w.calls + 1⟩), by simp [exec, SqsCall.apply, hr], hok⟩
      | getQueueByUrl region queueUrl => exact ⟨_, rfl, hw.queuesOk.fetchQueue _ _⟩
      | _ => first | exact hc.elim | cases hwrites
    | false =>
      have hq : ∀ q, c ≠ .updateQueue q := by rintro q rfl; cases hwrites
      have hm : ∀ m, c ≠ .updateMessage m := by rintro m rfl; exact hc.elim
      obtain ⟨r, hr⟩ := hw.undelayed.defined cfg rt hq hm
      exact ⟨r, hr, queues_of_apply hwrites (exec_eq_some.mp hr).1 ▸ hw.queuesOk⟩
  obtain ⟨⟨reply, w'⟩, hr, hq⟩ := hqueues
  refine ⟨_, hr, hw.messages.step hr, ?_, hw.kept.trans (kept_of_step hw.messages hc hr), hq, ?_⟩
  · refine hw.undelayed.step hw.messages (fun m hm => ?_) (fun m hm => ?_) hr
    · subst hm; exact hc.elim
    · subst hm; exact hc.elim
  · have := (exec_eq_some.mp hr).2
    have := hw.calls
    dsimp only
    omega

/-- A program of harmless calls. -/
theorem StoreOk.run {α : Type} {w₀ w : World} (hw : StoreOk cfg rt queues w₀ w) {p : SqsProg α}
    (hp : p.Only (Harmless queues)) :
    ∃ r, p.run (exec cfg rt) w = some r ∧ StoreOk cfg rt queues w₀ r.2 :=
  hp.run (fun _ _ hc hs => hs.step hc) hw

/-! ### Operations that keep the messages -/

theorem receiveMessages_harmless (request : ReceiveMessageRequest) :
    (receiveMessages request).Only (Harmless queues) := by
  refine (receiveMessages_only request).mono fun c hc => ?_
  cases c with
  | clockNow | queueUrlExists | getQueueByUrl | resetMessages | receiveMessages => trivial
  | _ => exact hc.elim

/-- The work on a queue of the run's start is harmless. -/
theorem harmless_of_maintains {queue : Queue}
    (hq : ∃ k q, queues.get? k = some q ∧ SameQueue q queue) {c : SqsCall}
    (hc : c.Maintains queue) : Harmless queues c := by
  obtain ⟨k, q, hget, hs⟩ := hq
  cases c with
  | redriveMessages queueUrl redrivePolicy =>
    obtain ⟨rfl, rfl, harn⟩ := hc
    exact ⟨harn, k, q, hget, hs.queueUrl.symm, hs.redrivePolicy.symm⟩
  | updateQueue q' =>
    obtain ⟨_, _, _, rfl⟩ := hc
    exact ⟨k, q, hget, hs.region, hs.name, hs.queueUrl, hs.redrivePolicy⟩
  | messageRetention | resetMessages | resetDelayedMessages | countMessages
  | countMessagesByStatus => trivial
  | _ => exact hc.elim

theorem StoreOk.workerPass {w : World} (hw : StoreOk cfg rt queues w w) :
    ∃ r, Sqs.workerPass.run (exec cfg rt) w = some r ∧ StoreOk cfg rt queues w r.2 := by
  have hsnapshot : ∀ queue ∈ w.db.queues.values,
      ∃ k q, queues.get? k = some q ∧ SameQueue q queue := by
    intro queue hmem
    obtain ⟨e, he, rfl⟩ := List.mem_map.mp hmem
    exact hw.queuesOk.old e.1 e.2 (OrderedMap.get?_eq_some.mpr he)
  have hlist : Harmless queues (.listQueues []) := trivial
  obtain ⟨r, hr, hok⟩ := hw.step hlist
  cases hr
  exact hok.run (Prog.only_forEach fun queue hmem =>
    (maintainQueue_only queue).mono fun _ => harmless_of_maintains (hsnapshot queue hmem))

/-- More calls without an effect. -/
theorem StoreOk.later {w₀ w : World} (hw : StoreOk cfg rt queues w₀ w) {n : Nat}
    (hn : w.calls ≤ n) : StoreOk cfg rt queues w₀ ⟨w.db, n⟩ := by
  refine ⟨⟨hw.messages.keyed, fun k m hm => ?_⟩, hw.undelayed, hw.kept, hw.queuesOk,
    hw.calls.trans hn⟩
  obtain ⟨i, hi, he⟩ := hw.messages.drawn k m hm
  exact ⟨i, by dsimp only; omega, he⟩

/-- A record rewritten without touching what the invariant speaks of. -/
theorem StoreOk.rewrite {w₀ w : World} (hw : StoreOk cfg rt queues w₀ w) {k : Str}
    {m m' : Message} (hm : w.db.messages.get? k = some m) (hoid : m'.oid = m.oid)
    (hid : m'.identity = m.identity) (hu : m'.queueUrl = m.queueUrl) (hs : m'.status = m.status) :
    StoreOk cfg rt queues w₀
      ⟨{ w.db with messages := w.db.messages.insert k m' }, w.calls⟩ := by
  refine ⟨⟨fun k' x hx => ?_, fun k' x hx => ?_⟩, fun k' x hx => ?_, hw.kept.trans ⟨fun k' x hx => ?_,
    fun k' x hx => ?_⟩, hw.queuesOk, hw.calls⟩
  all_goals simp only [OrderedMap.get?_insert] at *
  · split at hx
    · next hk => cases hx; rw [hk, hoid]; exact hw.messages.keyed k m hm
    · exact hw.messages.keyed k' x hx
  · split at hx
    · next hk => exact hk ▸ hw.messages.drawn k m hm
    · exact hw.messages.drawn k' x hx
  · split at hx
    · cases hx; rw [hs]; exact hw.undelayed k m hm
    · exact hw.undelayed k' x hx
  · split
    · next hk =>
      subst hk
      obtain rfl : m = x := Option.some.inj (hm.symm.trans hx)
      exact ⟨m', rfl, hid, hu ▸ .refl⟩
    · exact ⟨x, hx, rfl, .refl⟩
  · split at hx
    · next hk => exact ⟨m, hk ▸ hm⟩
    · exact ⟨x, hx⟩

theorem StoreOk.setVisibilityTimeout {w : World} (hw : StoreOk cfg rt queues w w)
    (request : ChangeMessageVisibilityRequest) :
    ∃ r, (Sqs.setVisibilityTimeout request).run (exec cfg rt) w = some r ∧
      StoreOk cfg rt queues w r.2 := by
  rw [setVisibilityTimeout_run request hw.messages.keyed]
  cases he : w.db.messages.findIf fun _ m => m.receiptHandle = request.receiptHandle with
  | none => exact ⟨_, rfl, hw.later (by simp)⟩
  | some e =>
    have hget := (OrderedMap.findIf_some he).1
    have hrewritten : StoreOk cfg rt queues w ⟨⟨w.db.queues, w.db.messages.insert e.1
        (withVisibility request.visibilityTimeout (rt.now (w.calls + 2)) e.2)⟩, w.calls⟩ :=
      hw.rewrite hget rfl rfl rfl rfl
    exact ⟨_, rfl, hrewritten.later (Nat.le_add_right _ 4)⟩

/-! ### Runs -/

/-- What holds between the operations of a run. -/
structure JournalOk (cfg : Configuration) (rt : Runtime) (queues : OrderedMap Str Queue)
    (j : Journal) : Prop where
  store : StoreOk cfg rt queues j.world j.world
  ids : ∀ k m, j.world.db.messages.get? k = some m → ∃ i < j.world.calls, m.messageId = rt.uuid i
  conserved : Conserved cfg queues j

/-- An operation that keeps the messages keeps the account of those sent. -/
theorem JournalOk.keep {j : Journal} (hj : JournalOk cfg rt queues j) {w : World}
    (hw : StoreOk cfg rt queues j.world w) : JournalOk cfg rt queues ⟨w, j.sends⟩ := by
  -- a stored message was stored before, under the same key and with the same identity
  have hback : ∀ k m, w.db.messages.get? k = some m →
      ∃ m₀, j.world.db.messages.get? k = some m₀ ∧ m.identity = m₀.identity := by
    intro k m hm
    obtain ⟨m₀, hm₀⟩ := hw.kept.backward k m hm
    obtain ⟨m', hm', hid, -⟩ := hw.kept.forward k m₀ hm₀
    obtain rfl : m = m' := Option.some.inj (hm.symm.trans hm')
    exact ⟨m₀, hm₀, hid⟩
  have hmid : ∀ {m m₀ : Message}, m.identity = m₀.identity → m.messageId = m₀.messageId :=
    fun h => congrArg Identity.messageId h
  refine ⟨{ hw with kept := .refl _, calls := le_rfl }, fun k m hm => ?_, ⟨fun s hs => ?_,
    fun k k' m m' hm hm' he => ?_, fun k m hm => ?_⟩⟩
  · obtain ⟨m₀, hm₀, hid⟩ := hback k m hm
    obtain ⟨i, hi, he⟩ := hj.ids k m₀ hm₀
    have := hw.calls
    exact ⟨i, by dsimp only; omega, (hmid hid).trans he⟩
  · obtain ⟨k, m₀, m, hstored, hm, hid, hchain⟩ := hj.conserved.kept s hs
    obtain ⟨m', hm', hid', hchain'⟩ := hw.kept.forward k m hm
    exact ⟨k, m₀, m', hstored, hm', hid'.trans hid, hchain.trans hchain'⟩
  · obtain ⟨m₀, hm₀, hid⟩ := hback k m hm
    obtain ⟨m₀', hm₀', hid'⟩ := hback k' m' hm'
    exact hj.conserved.once k k' m₀ m₀' hm₀ hm₀'
      ((hmid hid).symm.trans (he.trans (hmid hid')))
  · obtain ⟨m₀, hm₀, hid⟩ := hback k m hm
    obtain ⟨s, hs, he⟩ := hj.conserved.sentOnly k m₀ hm₀
    exact ⟨s, hs, (hmid hid).trans he⟩

/-- The queue found for a send has the URL asked for. -/
theorem getQueueByUrl_queueUrl {db : SqsMemoryDb} (region : Str) {queueUrl : Str}
    {now : TimePoint} (h : queueUrl = [] ∨ db.queueUrlExists region queueUrl = true) :
    (db.getQueueByUrl queueUrl now).1.queueUrl = queueUrl := by
  unfold SqsMemoryDb.getQueueByUrl
  cases he : db.queues.findIf fun _ queue => queue.queueUrl = queueUrl with
  | some e =>
    have := (OrderedMap.findIf_some he).2
    exact of_decide_eq_true this
  | none =>
    rcases h with rfl | h
    · rfl
    · obtain ⟨e, hf⟩ := Option.isSome_iff_exists.mp h
      obtain ⟨hget, hp⟩ := OrderedMap.findIf_some hf
      have := OrderedMap.findIf_none.mp he _ _ hget
      simp [(of_decide_eq_true hp).2] at this

/-- A message added under a fresh id. -/
theorem StoreOk.add {w : World} (hw : StoreOk cfg rt queues w w) {current : OrderedMap Str Queue}
    (hq : QueuesOk queues current) {i n : Nat} (hi : w.calls ≤ i) (hn : i < n) {m : Message}
    (hoid : m.oid = rt.uuid i) (hs : m.status ≠ .delayed) :
    StoreOk cfg rt queues ⟨⟨current, w.db.messages.insert (rt.uuid i) m⟩, n⟩
      ⟨⟨current, w.db.messages.insert (rt.uuid i) m⟩, n⟩ := by
  refine ⟨⟨fun k x hx => ?_, fun k x hx => ?_⟩, fun k x hx => ?_, .refl _, hq, le_rfl⟩
  all_goals simp only [OrderedMap.get?_insert] at hx; split at hx
  · next hk => cases hx; rw [hk, hoid]
  · exact hw.messages.keyed k x hx
  · next hk => exact ⟨i, hn, hk⟩
  · obtain ⟨j, hj, he⟩ := hw.messages.drawn k x hx
    exact ⟨j, by dsimp only; omega, he⟩
  · cases hx; exact hs
  · exact hw.undelayed k x hx

/-- A send adds its message, and nothing else. -/
theorem JournalOk.send {env : Env} {j : Journal} (hj : JournalOk env.cfg rt queues j)
    {request : SendMessageRequest}
    (hurl : (j.world.db.getQueueByUrl request.queueUrl (rt.now j.world.calls)).1.queueUrl =
      request.queueUrl) :
    ∃ response w, (sendToQueue env request).run (exec env.cfg rt) j.world =
      some (.ok response, w) ∧
      JournalOk env.cfg rt queues ⟨w, j.sends ++ [⟨request, response, w.db⟩]⟩ := by
  have hrun := @sendToQueue_run env.cfg rt env request j.world
  generalize hfound : j.world.db.getQueueByUrl request.queueUrl (rt.now j.world.calls) = found
    at hurl hrun
  have hmessages : found.2.messages = j.world.db.messages :=
    hfound ▸ SqsMemoryDb.fetchQueue_messages ..
  have hqueues : QueuesOk queues found.2.queues := hfound ▸ hj.store.queuesOk.fetchQueue _ _
  obtain ⟨queue, ⟨current, messages⟩⟩ := found
  dsimp only at hurl hmessages hqueues hrun
  subst hmessages
  refine ⟨_, _, hrun, hj.store.add hqueues (Nat.le_add_right _ 7) (Nat.lt_succ_self _) rfl nofun,
    fun k m hm => ?_, fun s hs => ?_, fun k k' m m' hm hm' he => ?_, fun k m hm => ?_⟩
  -- the new id and the new message id are not drawn before
  · simp only [OrderedMap.get?_insert] at hm
    split at hm
    · cases hm; exact ⟨j.world.calls + 4, by dsimp only; omega, rfl⟩
    · obtain ⟨i, hi, he⟩ := hj.ids k m hm
      exact ⟨i, by dsimp only; omega, he⟩
  · rcases List.mem_append.mp hs with hs | hs
    · obtain ⟨k, m₀, m, hstored, hm, hid, hchain⟩ := hj.conserved.kept s hs
      have hk : k ≠ rt.uuid (j.world.calls + 7) := by
        rintro rfl
        rw [hj.store.messages.fresh (Nat.le_add_right _ 7)] at hm
        cases hm
      exact ⟨k, m₀, m, hstored, by rw [OrderedMap.get?_insert_of_ne _ _ hk]; exact hm, hid, hchain⟩
    · cases List.mem_singleton.mp hs
      exact ⟨_, _, _, ⟨OrderedMap.get?_insert_self _ _ _, hurl, rfl, rfl, rfl, rfl⟩,
        OrderedMap.get?_insert_self _ _ _, rfl, .refl⟩
  · have hnew : ∀ {k m}, j.world.db.messages.get? k = some m →
        m.messageId ≠ rt.uuid (j.world.calls + 4) := by
      intro k m hm he
      obtain ⟨i, hi, hid⟩ := hj.ids k m hm
      have := rt.uuid_inj (hid.symm.trans he)
      omega
    simp only [OrderedMap.get?_insert] at hm hm'
    split at hm <;> split at hm'
    · next h1 h2 => rw [h1, h2]
    · cases hm; exact absurd he.symm (hnew hm')
    · cases hm'; exact absurd he (hnew hm)
    · exact hj.conserved.once k k' m m' hm hm' he
  · simp only [OrderedMap.get?_insert] at hm
    split at hm
    · cases hm; exact ⟨_, List.mem_append_right _ (List.mem_singleton_self _), rfl⟩
    · obtain ⟨s, hs, he⟩ := hj.conserved.sentOnly k m hm
      exact ⟨s, List.mem_append_left _ hs, he⟩

/-- One operation of a run. -/
theorem JournalOk.step {env : Env} {j : Journal} (hj : JournalOk env.cfg rt queues j)
    (op : Operation) : ∃ j', op.run env rt j = some j' ∧ JournalOk env.cfg rt queues j' := by
  cases op with
  | sendMessage request =>
    simp only [Operation.run, sendMessage]
    split
    · next hempty =>
      obtain ⟨response, w, hr, hok⟩ :=
        hj.send (getQueueByUrl_queueUrl request.region (.inl hempty))
      exact ⟨_, by rw [hr]; rfl, hok⟩
    · rw [Prog.run_perform_bind]
      simp only [exec, SqsCall.apply, Option.map_some, Option.bind_some]
      have hlater : JournalOk env.cfg rt queues ⟨⟨j.world.db, j.world.calls + 1⟩, j.sends⟩ :=
        hj.keep (hj.store.later (Nat.le_add_right _ 1))
      split
      · next hfound =>
        obtain ⟨response, w, hr, hok⟩ := hlater.send (getQueueByUrl_queueUrl _ (.inr hfound))
        exact ⟨_, by rw [hr]; rfl, hok⟩
      · exact ⟨_, rfl, hlater⟩
  | receiveMessages request =>
    obtain ⟨r, hr, hok⟩ := hj.store.run (receiveMessages_harmless request)
    exact ⟨_, by rw [Operation.run, hr]; rfl, hj.keep hok⟩
  | setVisibilityTimeout request =>
    obtain ⟨r, hr, hok⟩ := hj.store.setVisibilityTimeout request
    exact ⟨_, by rw [Operation.run, hr]; rfl, hj.keep hok⟩
  | workerPass =>
    obtain ⟨r, hr, hok⟩ := hj.store.workerPass
    exact ⟨_, by rw [Operation.run, hr]; rfl, hj.keep hok⟩

theorem JournalOk.run {env : Env} : ∀ (ops : List Operation) {j : Journal},
    JournalOk env.cfg rt queues j →
    ∃ j', runOperations env rt ops j = some j' ∧ JournalOk env.cfg rt queues j'
  | [], j, hj => ⟨j, rfl, hj⟩
  | op :: ops, j, hj => by
    obtain ⟨j₁, hop, hj₁⟩ := hj.step op
    obtain ⟨j₂, hops, hj₂⟩ := JournalOk.run ops hj₁
    refine ⟨j₂, ?_, hj₂⟩
    rw [runOperations, List.foldlM_cons, hop]
    exact hops

/-- Every run on a store with any queues and no message is defined and conserves the messages. -/
theorem messages_conserved (env : Env) (rt : Runtime) (queues : OrderedMap Str Queue) (n : Nat)
    (ops : List Operation) :
    ∃ j, runOperations env rt ops { world := ⟨{ queues := queues }, n⟩ } = some j ∧
      Conserved env.cfg queues j := by
  have hstart : JournalOk env.cfg rt queues { world := ⟨{ queues := queues }, n⟩ } :=
    ⟨.initial n, by simp, by simp, by simp, by simp⟩
  obtain ⟨j, hrun, hj⟩ := hstart.run ops
  exact ⟨j, hrun, hj.conserved⟩

end AwsMock.Sqs
