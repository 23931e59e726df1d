import Mathlib.Data.List.Nodup
import AwsMock.Sqs.HandOuts

/-!
# Redrive

What a worker pass does to the messages of a queue with a redrive policy, in every run of `Operation`:
it moves the visible and expired ones that were handed out more often than the policy allows, each
once, to the dead letter queue, and no others. A receive makes expired messages visible by itself, so
the hand-outs of a message are bounded only when a pass comes between an expiry and the next receive.
-/

namespace AwsMock.Sqs

open Lib

/-- A message that a pass starting at `now` finds visible. -/
def Due (now : TimePoint) (m : Message) : Prop :=
  m.status = .initial ∨ m.status = .invisible ∧ m.reset < now

/-- Every receive from the queue `d` that asks for enough messages gets the message `m`. -/
def ReceivableFrom (env : Env) (rt : Runtime) (d : Queue) (w : World) (m : Message) : Prop :=
  ∀ request : ReceiveMessageRequest, request.region = d.region → request.queueUrl = d.queueUrl →
    0 < request.waitTimeSeconds → IsInt request.maxMessages →
    w.db.messages.size ≤ request.maxMessages → ∃ response w',
    (receiveMessages request).run (exec env.cfg rt) w = some (.ok response, w') ∧
    ∃ m' ∈ response.messageList, m'.messageId = m.messageId ∧ m'.body = m.body

/-- What a pass from `l` to `l'` does to the messages of the queue `q` with the dead letter queue
    `d`. -/
structure PassRedrives (env : Env) (rt : Runtime) (q d : Queue) (l l' : Logged) : Prop where
  moved : ∀ k m, l.1.db.messages.get? k = some m → m.queueUrl = q.queueUrl →
    Due (rt.now l.1.calls) m →
    q.attributes.redrivePolicy.maxReceiveCount < handOuts k q.queueUrl l.2 →
    ∃ m', l'.1.db.messages.get? k = some m' ∧ m'.queueUrl = d.queueUrl ∧ m'.body = m.body ∧
      m'.messageId = m.messageId ∧
      history k l'.2 = .moved k q.queueUrl d.queueUrl :: history k l.2 ∧
      ReceivableFrom env rt d l'.1 m'
  stays : ∀ k m, l.1.db.messages.get? k = some m → m.queueUrl = q.queueUrl →
    handOuts k q.queueUrl l.2 ≤ q.attributes.redrivePolicy.maxReceiveCount →
    ∃ m', l'.1.db.messages.get? k = some m' ∧ m'.queueUrl = q.queueUrl ∧
      history k l'.2 = history k l.2
  visible : ∀ k m, l'.1.db.messages.get? k = some m → m.queueUrl = q.queueUrl →
    m.status = .initial →
    handOuts k q.queueUrl l'.2 ≤ q.attributes.redrivePolicy.maxReceiveCount

/-- No message of the queue `q` that is held at the start of a receive from it expires before its
    end: a pass has come since the last expiry. -/
def InTime (env : Env) (rt : Runtime) (q : Queue) (l : Logged) : Operation → Prop
  | op@(.receiveMessages request) => request.queueUrl = q.queueUrl →
    ∀ l', runLogged env rt [op] l = some l' → ∀ k m, l.1.db.messages.get? k = some m →
      m.queueUrl = q.queueUrl → m.status = .invisible → rt.now l'.1.calls ≤ m.reset
  | _ => True

/-- Every receive of a run is in time. -/
def Timely (env : Env) (rt : Runtime) (q : Queue) : List Operation → Logged → Prop
  | [], _ => True
  | op :: ops, l => InTime env rt q l op ∧
      ∀ l', runLogged env rt [op] l = some l' → Timely env rt q ops l'

variable {cfg : Configuration} {rt : Runtime} {queues : OrderedMap Str Queue}

/-! ### One message during a pass -/

/-- The record under `k` has the property `Φ`, and its events are `h`. -/
structure Tracked (cfg : Configuration) (rt : Runtime) (queues : OrderedMap Str Queue)
    (w₀ : World) (k : Str) (Φ : Message → Prop) (h : List Event) (l : Logged) : Prop where
  ok : LogOk cfg rt queues w₀ l
  stored : ∃ m, l.1.db.messages.get? k = some m ∧ Φ m
  noted : history k l.2 = h

variable {w₀ : World} {k u : Str} {Φ : Message → Prop} {h : List Event} {queue : Queue}

/-- A call that keeps the property and notes nothing. -/
theorem Tracked.step {l : Logged} (hdlq : DeadLetterQueues cfg queues)
    (hl : Tracked cfg rt queues w₀ k Φ h l) {c : SqsCall} (hc : Harmless queues c)
    (hΦ : ∀ n m m' es, Φ m → LoggedStep cfg rt n k c m m' es → Φ m' ∧ es = []) :
    ∃ r, execLogged cfg rt c l = some r ∧ Tracked cfg rt queues w₀ k Φ h r.2 := by
  obtain ⟨r, hr, hok⟩ := hl.ok.step hdlq hc
  obtain ⟨m, hm, hφ⟩ := hl.stored
  obtain ⟨m', es, hm', hhist, hstep⟩ := loggedStep hl.ok.store hc hdlq hr hm
  obtain ⟨hφ', rfl⟩ := hΦ _ m m' es hφ hstep
  exact ⟨r, hr, hok, ⟨m', hm', hφ'⟩, hhist.trans hl.noted⟩

/-- The work on a queue whose calls keep the property. -/
theorem Tracked.maintainQueue (hdlq : DeadLetterQueues cfg queues)
    (hq : ∃ k q, queues.get? k = some q ∧ SameQueue q queue)
    (hΦ : ∀ c n m m' es, c.Maintains queue → Harmless queues c → Φ m →
      LoggedStep cfg rt n k c m m' es → Φ m' ∧ es = []) :
    (Sqs.maintainQueue queue).Total (execLogged cfg rt) (Tracked cfg rt queues w₀ k Φ h)
      fun _ => Tracked cfg rt queues w₀ k Φ h :=
  maintainQueue_total fun c _ hc hl =>
    have hharm := harmless_of_maintains hq hc
    hl.step hdlq hharm fun n m m' es => hΦ c n m m' es hc hharm

/-- The work on other queues leaves a message alone. -/
theorem LoggedStep.elsewhere {c : SqsCall} {n : Nat} {m m' : Message} {es : List Event}
    (hc : c.Maintains queue) (hu : m.queueUrl ≠ queue.queueUrl)
    (h : LoggedStep cfg rt n k c m m' es) : m' = m ∧ es = [] := by
  cases h with
  | same => exact ⟨rfl, rfl⟩
  | handedOut => exact hc.elim
  | reset hu' => exact absurd (hu'.trans hc) hu
  | moved hu' => exact absurd (hu'.trans hc.1) hu

/-- The work on any queue leaves a visible message alone that was not handed out. -/
theorem LoggedStep.untouched {c : SqsCall} {n : Nat} {m m' : Message} {es : List Event}
    (hdlq : DeadLetterQueues cfg queues) (hharm : Harmless queues c) (hc : c.Maintains queue)
    (hs : m.status = .initial) (hretries : m.retries = 0) (h : LoggedStep cfg rt n k c m m' es) :
    m' = m ∧ es = [] := by
  cases h with
  | same => exact ⟨rfl, rfl⟩
  | handedOut => exact hc.elim
  | reset _ hs' => rw [hs] at hs'; cases hs'
  | moved _ _ hcount =>
    obtain ⟨harn, k₀, q, hq, -, rfl⟩ := hharm
    have := (hdlq.policy hq harn).1
    omega

/-- The calls of a receive or a pass that can do nothing to any message. -/
def SqsCall.Quiet : SqsCall → Prop
  | .receiveMessages .. | .redriveMessages .. | .resetMessages .. => False
  | _ => True

theorem LoggedStep.quiet {c : SqsCall} {n : Nat} {m m' : Message} {es : List Event}
    (hc : c.Quiet) (h : LoggedStep cfg rt n k c m m' es) : m' = m ∧ es = [] := by
  cases h with
  | same => exact ⟨rfl, rfl⟩
  | handedOut | reset | moved => exact hc.elim

/-- A call that can do nothing to a message. -/
theorem Tracked.quiet (hdlq : DeadLetterQueues cfg queues) {c : SqsCall} (hc : Harmless queues c)
    (hquiet : c.Quiet) :
    (call c).Total (execLogged cfg rt) (Tracked cfg rt queues w₀ k Φ h)
      fun _ => Tracked cfg rt queues w₀ k Φ h :=
  Prog.total_perform fun l hl => hl.step hdlq hc fun n m m' es hφ hstep => by
    obtain ⟨rfl, rfl⟩ := hstep.quiet hquiet
    exact ⟨hφ, rfl⟩

/-- Expired messages of the queue become visible. -/
theorem Tracked.resetMessages (hdlq : DeadLetterQueues cfg queues) {u : Str} {count : Int}
    (visibility : Int) :
    (call (.resetMessages u visibility)).Total (execLogged cfg rt)
      (Tracked cfg rt queues w₀ k
        (fun m => m.queueUrl = u ∧ count < m.retries ∧ Due (rt.now w₀.calls) m) h)
      fun _ => Tracked cfg rt queues w₀ k
        (fun m => m.queueUrl = u ∧ count < m.retries ∧ m.status = .initial) h := by
  refine Prog.total_perform fun l hl => ?_
  have hharm : Harmless queues (.resetMessages u visibility) := trivial
  obtain ⟨r, hr, hok⟩ := hl.ok.step hdlq hharm
  obtain ⟨hexec, hlog⟩ := Prog.noting_eq_some.mp hr
  obtain ⟨m, hm, hu, hcount, hdue⟩ := hl.stored
  refine ⟨r, hr, hok, ⟨_, resetMessages_get? hexec hm, ?_⟩, (congrArg _ hlog).trans hl.noted⟩
  rcases hdue with hs | ⟨hs, ht⟩
  · simp [hs, hu, hcount]
  · have hclock : m.reset < rt.clock l.1.calls k :=
      ht.trans_le (rt.now_le_clock k hl.ok.store.calls)
    simp [hs, hu, hcount, hclock]

/-- Visible messages handed out too often are moved. -/
theorem Tracked.redriveMessages (hdlq : DeadLetterQueues cfg queues) {u : Str}
    {policy : RedrivePolicy} (hharm : Harmless queues (.redriveMessages u policy)) :
    (call (.redriveMessages u policy)).Total (execLogged cfg rt)
      (Tracked cfg rt queues w₀ k
        (fun m => m.queueUrl = u ∧ policy.maxReceiveCount < m.retries ∧ m.status = .initial) h)
      fun _ => Tracked cfg rt queues w₀ k
        (fun m => m.queueUrl = convertSQSQueueArnToUrl cfg policy.deadLetterTargetArn ∧
          m.retries = 0 ∧ m.status = .initial)
        (.moved k u (convertSQSQueueArnToUrl cfg policy.deadLetterTargetArn) :: h) := by
  refine Prog.total_perform fun l hl => ?_
  obtain ⟨r, hr, hok⟩ := hl.ok.step hdlq hharm
  obtain ⟨m, hm, hu, hcount, hs⟩ := hl.stored
  obtain ⟨m', es, hm', hhist, hstep⟩ := loggedStep hl.ok.store hharm hdlq hr hm
  cases hstep with
  | moved => exact ⟨r, hr, hok, ⟨_, hm', rfl, rfl, hs⟩, by rw [hhist, hl.noted, hu]; rfl⟩
  | same =>
    -- the record would be unchanged, but its receive count is positive
    have hget := redriveMessages_get? (Prog.noting_eq_some.mp hr).1 hm
    rw [hm', if_pos ⟨hu, hs, hcount⟩] at hget
    obtain ⟨harn, k₀, q, hq, -, rfl⟩ := hharm
    have hpositive := (hdlq.policy hq harn).1
    have := congrArg Message.retries (Option.some.inj hget)
    dsimp only at this
    omega

variable {kq : Str} {q d : Queue}

/-- The work on the queue itself moves a message that is due. -/
theorem redriveQueue_total (hdlq : DeadLetterQueues cfg queues) (hq : queues.get? kq = some q)
    (harn : q.attributes.redrivePolicy.deadLetterTargetArn ≠ []) (hd : IsDeadLetterQueue cfg q d)
    (hs : SameQueue q queue) :
    (maintainQueue queue).Total (execLogged cfg rt)
      (Tracked cfg rt queues w₀ k (fun m => m.queueUrl = q.queueUrl ∧
        q.attributes.redrivePolicy.maxReceiveCount < m.retries ∧ Due (rt.now w₀.calls) m) h)
      fun _ => Tracked cfg rt queues w₀ k
        (fun m => m.queueUrl = d.queueUrl ∧ m.retries = 0 ∧ m.status = .initial)
        (.moved k q.queueUrl d.queueUrl :: h) := by
  have hharm : ∀ {c}, c.Maintains queue → Harmless queues c :=
    fun hc => harmless_of_maintains ⟨kq, q, hq, hs⟩ hc
  have hredrive : (call (.redriveMessages q.queueUrl q.attributes.redrivePolicy)).Total
      (execLogged cfg rt) _ fun _ => Tracked cfg rt queues w₀ k _ (.moved k q.queueUrl _ :: h) :=
    Tracked.redriveMessages hdlq ⟨harn, kq, q, hq, rfl, rfl⟩
  rw [hd.url] at hredrive
  unfold maintainQueue
  rw [hs.queueUrl, hs.redrivePolicy]
  refine Prog.total_bind (Prog.total_when (fun _ => Tracked.quiet hdlq trivial trivial) fun _ _ hl => hl) fun _ => ?_
  refine Prog.total_bind (Tracked.resetMessages hdlq _) fun _ => ?_
  refine Prog.total_bind (Tracked.quiet hdlq trivial trivial) fun messages => ?_
  refine Prog.total_bind (Tracked.quiet hdlq trivial trivial) fun delayed => ?_
  refine Prog.total_bind (Tracked.quiet hdlq trivial trivial) fun notVisible => ?_
  refine Prog.total_bind (Prog.total_when (fun _ => hredrive) fun hno => absurd harn hno)
    fun _ => ?_
  refine Prog.total_bind (Prog.total_when (fun _ => Tracked.quiet hdlq trivial trivial) fun _ _ hl => hl) fun _ => ?_
  exact Prog.total_bind (Tracked.quiet hdlq (hharm ⟨_, _, _, rfl⟩) trivial) fun _ => Prog.total_pure () fun _ hl => hl

/-! ### All messages during a pass -/

/-- Every message has the property `Ψ`. -/
structure Every (cfg : Configuration) (rt : Runtime) (queues : OrderedMap Str Queue) (w₀ : World)
    (Ψ : Message → Prop) (l : Logged) : Prop where
  ok : LogOk cfg rt queues w₀ l
  all : ∀ k m, l.1.db.messages.get? k = some m → Ψ m

variable {Ψ : Message → Prop}

theorem Every.step {l : Logged} (hdlq : DeadLetterQueues cfg queues)
    (hl : Every cfg rt queues w₀ Ψ l) {c : SqsCall} (hc : Harmless queues c)
    (hΨ : ∀ k n m m' es, Ψ m → LoggedStep cfg rt n k c m m' es → Ψ m') :
    ∃ r, execLogged cfg rt c l = some r ∧ Every cfg rt queues w₀ Ψ r.2 := by
  obtain ⟨r, hr, hok⟩ := hl.ok.step hdlq hc
  refine ⟨r, hr, hok, fun k m' hm' => ?_⟩
  obtain ⟨m, hm⟩ := (kept_of_step hl.ok.store.messages hc (Prog.noting_eq_some.mp hr).1).backward
    k m' hm'
  obtain ⟨m'', es, hm'', -, hstep⟩ := loggedStep hl.ok.store hc hdlq hr hm
  obtain rfl : m' = m'' := Option.some.inj (hm'.symm.trans hm'')
  exact hΨ k _ m m' es (hl.all k m hm) hstep

/-- The work on a queue whose calls keep the property. -/
theorem Every.maintainQueue (hdlq : DeadLetterQueues cfg queues)
    (hq : ∃ k q, queues.get? k = some q ∧ SameQueue q queue)
    (hΨ : ∀ c k n m m' es, c.Maintains queue → Harmless queues c → Ψ m →
      LoggedStep cfg rt n k c m m' es → Ψ m') :
    (Sqs.maintainQueue queue).Total (execLogged cfg rt) (Every cfg rt queues w₀ Ψ)
      fun _ => Every cfg rt queues w₀ Ψ :=
  maintainQueue_total fun c _ hc hl =>
    have hharm := harmless_of_maintains hq hc
    hl.step hdlq hharm fun k n m m' es => hΨ c k n m m' es hc hharm

/-- A visible message of the queue was not handed out too often. -/
def VisibleOk (q : Queue) (m : Message) : Prop :=
  m.queueUrl = q.queueUrl → m.status = .initial →
    m.retries ≤ q.attributes.redrivePolicy.maxReceiveCount

/-- The work on the queue itself leaves no visible message that was handed out too often. -/
theorem visibleQueue_total (hdlq : DeadLetterQueues cfg queues) (hq : queues.get? kq = some q)
    (harn : q.attributes.redrivePolicy.deadLetterTargetArn ≠ []) (hs : SameQueue q queue) :
    (maintainQueue queue).Total (execLogged cfg rt) (LogOk cfg rt queues w₀)
      fun _ => Every cfg rt queues w₀ (VisibleOk q) := by
  have hharm : ∀ {c}, c.Maintains queue → Harmless queues c :=
    fun hc => harmless_of_maintains ⟨kq, q, hq, hs⟩ hc
  have hcall : ∀ c : SqsCall, c.Maintains queue →
      (call c).Total (execLogged cfg rt) (LogOk cfg rt queues w₀)
        fun _ => LogOk cfg rt queues w₀ :=
    fun c hc => Prog.total_perform fun l hl => hl.step hdlq (hharm hc)
  have hquiet : ∀ c : SqsCall, Harmless queues c → c.Quiet → (call c).Total
      (execLogged cfg rt) (Every cfg rt queues w₀ (VisibleOk q))
      fun _ => Every cfg rt queues w₀ (VisibleOk q) :=
    fun c hc h => Prog.total_perform fun l hl => hl.step hdlq hc
      fun k n m m' es hm hstep => by rw [(hstep.quiet h).1]; exact hm
  have hredrive : (call (.redriveMessages queue.queueUrl queue.attributes.redrivePolicy)).Total
      (execLogged cfg rt) (LogOk cfg rt queues w₀)
      fun _ => Every cfg rt queues w₀ (VisibleOk q) := by
    refine Prog.total_perform fun l hl => ?_
    have hc : Harmless queues (.redriveMessages queue.queueUrl queue.attributes.redrivePolicy) :=
      hharm ⟨rfl, rfl, hs.redrivePolicy ▸ harn⟩
    obtain ⟨r, hr, hok⟩ := hl.step hdlq hc
    have hexec := (Prog.noting_eq_some.mp hr).1
    refine ⟨r, hr, hok, fun k m' hm' hu hs' => ?_⟩
    obtain ⟨m, hm⟩ := (kept_of_step hl.store.messages hc hexec).backward k m' hm'
    rw [redriveMessages_get? hexec hm, hs.queueUrl, hs.redrivePolicy] at hm'
    have hpositive := (hdlq.policy hq harn).1
    split at hm'
    · cases hm'
      dsimp only
      omega
    · next hcond =>
      cases hm'
      have : ¬ q.attributes.redrivePolicy.maxReceiveCount < m'.retries :=
        fun h => hcond ⟨hu, hs', h⟩
      omega
  unfold maintainQueue
  refine Prog.total_bind (Prog.total_when (fun _ => hcall _ rfl) fun _ _ hl => hl) fun _ => ?_
  refine Prog.total_bind (hcall _ rfl) fun _ => ?_
  refine Prog.total_bind (hcall _ trivial) fun messages => ?_
  refine Prog.total_bind (hcall _ trivial) fun delayed => ?_
  refine Prog.total_bind (hcall _ trivial) fun notVisible => ?_
  refine Prog.total_bind (Prog.total_when (fun _ => hredrive)
    fun hno => absurd (hs.redrivePolicy ▸ harn) hno) fun _ => ?_
  refine Prog.total_bind (Prog.total_when (fun _ => hquiet _ trivial trivial)
    fun _ _ hl => hl) fun _ => ?_
  exact Prog.total_bind (hquiet _ (hharm ⟨_, _, _, rfl⟩) trivial) fun _ =>
    Prog.total_pure () fun _ hl => hl

/-! ### The whole pass -/

/-- The record of a queue of the run's start is still stored under its key. -/
theorem QueuesOk.same {current : OrderedMap Str Queue} (hdlq : DeadLetterQueues cfg queues)
    (hok : QueuesOk queues current) (hq : queues.get? kq = some q) :
    ∃ q', current.get? kq = some q' ∧ SameQueue q q' := by
  obtain ⟨q', hq', hregion, hname⟩ := hok.present kq q hq
  obtain ⟨k₀, q₀, hq₀, hs⟩ := hok.old kq q' hq'
  have hkey := hdlq.names hq₀ hq (hs.region.symm.trans hregion) (hs.name.symm.trans hname)
  subst hkey
  obtain rfl : q₀ = q := Option.some.inj (hq₀.symm.trans hq)
  exact ⟨q', hq', hs⟩

/-- The snapshot of a pass holds one record of the queue; the others have other URLs. -/
theorem snapshot_split {l : Logged} (hdlq : DeadLetterQueues cfg queues)
    (hl : LogOk cfg rt queues w₀ l) (hq : queues.get? kq = some q) :
    ∃ pre queue post, l.1.db.queues.values = pre ++ queue :: post ∧ SameQueue q queue ∧
      ∀ x, x ∈ pre ∨ x ∈ post → x.queueUrl ≠ q.queueUrl ∧
        ∃ k₀ q₀, queues.get? k₀ = some q₀ ∧ SameQueue q₀ x := by
  obtain ⟨queue, hget, hs⟩ := hl.store.queuesOk.same hdlq hq
  obtain ⟨pre, post, hsplit⟩ := List.append_of_mem (OrderedMap.get?_eq_some.mp hget)
  have hkeys := l.1.db.queues.keys_nodup
  rw [hsplit, List.map_append, List.map_cons, List.nodup_middle, List.nodup_cons] at hkeys
  refine ⟨pre.map Prod.snd, queue, post.map Prod.snd, ?_, hs, fun x hx => ?_⟩
  · rw [OrderedMap.values, hsplit, List.map_append, List.map_cons]
  obtain ⟨e, he, rfl⟩ : ∃ e ∈ pre ++ post, e.2 = x := by
    rcases hx with hx | hx <;> obtain ⟨e, he, rfl⟩ := List.mem_map.mp hx
    · exact ⟨e, by simp [he], rfl⟩
    · exact ⟨e, by simp [he], rfl⟩
  have hmem : e ∈ l.1.db.queues.entries := by
    rw [hsplit]
    rcases List.mem_append.mp he with he | he <;> simp [he]
  have hne : e.1 ≠ kq := fun hk => hkeys.1 (by
    rw [← List.map_append]
    exact List.mem_map.mpr ⟨e, he, hk⟩)
  have hcurrent := OrderedMap.get?_eq_some.mpr hmem
  obtain ⟨q₀, hq₀⟩ := hl.store.queuesOk.keys e.1 e.2 hcurrent
  obtain ⟨x, hx', hs₀⟩ := hl.store.queuesOk.same hdlq hq₀
  obtain rfl : e.2 = x := Option.some.inj (hcurrent.symm.trans hx')
  exact ⟨fun hu => hne (hdlq.urls hq₀ hq (hs₀.queueUrl.symm.trans hu)), e.1, q₀, hq₀, hs₀⟩

/-- The record under a key in a pass over the queues: `Φ` holds up to the work on the queue, `Φ'`
    from then on. -/
theorem Tracked.pass {l : Logged} {Φ' : Message → Prop} {h' : List Event}
    (hdlq : DeadLetterQueues cfg queues) (hl : Tracked cfg rt queues w₀ k Φ h l)
    (hq : queues.get? kq = some q)
    (hbefore : ∀ c x n m m' es, x.queueUrl ≠ q.queueUrl → SqsCall.Maintains x c →
      Harmless queues c → Φ m → LoggedStep cfg rt n k c m m' es → Φ m' ∧ es = [])
    (hwork : ∀ queue, SameQueue q queue → (Sqs.maintainQueue queue).Total (execLogged cfg rt)
      (Tracked cfg rt queues w₀ k Φ h) fun _ => Tracked cfg rt queues w₀ k Φ' h')
    (hafter : ∀ c x n m m' es, x.queueUrl ≠ q.queueUrl → SqsCall.Maintains x c →
      Harmless queues c → Φ' m → LoggedStep cfg rt n k c m m' es → Φ' m' ∧ es = []) :
    ∃ l', workerPass.run (execLogged cfg rt) l = some (.ok (), l') ∧
      Tracked cfg rt queues w₀ k Φ' h' l' := by
  obtain ⟨pre, queue, post, hsplit, hs, hothers⟩ := snapshot_split hdlq hl.ok hq
  refine workerPass_run (P := Tracked cfg rt queues w₀ k Φ h) ?_
    { hl with ok := hl.ok.listQueues hdlq }
  rw [hsplit]
  refine Prog.total_forEach_split (fun x hx => ?_) (hwork queue hs) fun x hx => ?_
  · obtain ⟨hne, hx⟩ := hothers x (.inl hx)
    exact Tracked.maintainQueue hdlq hx fun c n m m' es => hbefore c x n m m' es hne
  · obtain ⟨hne, hx⟩ := hothers x (.inr hx)
    exact Tracked.maintainQueue hdlq hx fun c n m m' es => hafter c x n m m' es hne

/-- A message of the queue that is due moves, once. -/
theorem pass_moves {l : Logged} (hdlq : DeadLetterQueues cfg queues)
    (hl : LogOk cfg rt queues l.1 l) (hq : queues.get? kq = some q)
    (harn : q.attributes.redrivePolicy.deadLetterTargetArn ≠ []) (hd : IsDeadLetterQueue cfg q d)
    {m : Message} (hm : l.1.db.messages.get? k = some m) (hu : m.queueUrl = q.queueUrl)
    (hdue : Due (rt.now l.1.calls) m)
    (hcount : q.attributes.redrivePolicy.maxReceiveCount < m.retries) :
    ∃ l', workerPass.run (execLogged cfg rt) l = some (.ok (), l') ∧
      Tracked cfg rt queues l.1 k
        (fun m => m.queueUrl = d.queueUrl ∧ m.retries = 0 ∧ m.status = .initial)
        (.moved k q.queueUrl d.queueUrl :: history k l.2) l' := by
  refine Tracked.pass hdlq ⟨hl, ⟨m, hm, hu, hcount, hdue⟩, rfl⟩ hq ?_
    (fun queue hs => redriveQueue_total hdlq hq harn hd hs) ?_
  · intro c x n m m' es hne hc hharm hφ hstep
    obtain ⟨rfl, rfl⟩ := hstep.elsewhere hc (by rw [hφ.1]; exact hne.symm)
    exact ⟨hφ, rfl⟩
  · intro c x n m m' es hne hc hharm hφ hstep
    obtain ⟨rfl, rfl⟩ := hstep.untouched hdlq hharm hc hφ.2.2 hφ.2.1
    exact ⟨hφ, rfl⟩

/-- A message of the queue that was not handed out too often stays. -/
theorem pass_stays {l : Logged} (hdlq : DeadLetterQueues cfg queues)
    (hl : LogOk cfg rt queues l.1 l) (hq : queues.get? kq = some q)
    {m : Message} (hm : l.1.db.messages.get? k = some m) (hu : m.queueUrl = q.queueUrl)
    (hcount : m.retries ≤ q.attributes.redrivePolicy.maxReceiveCount) :
    ∃ l', workerPass.run (execLogged cfg rt) l = some (.ok (), l') ∧
      Tracked cfg rt queues l.1 k (fun m => m.queueUrl = q.queueUrl ∧
        m.retries ≤ q.attributes.redrivePolicy.maxReceiveCount) (history k l.2) l' := by
  have hkeep : ∀ c x n m m' es, SqsCall.Maintains x c → Harmless queues c →
      (m.queueUrl = q.queueUrl ∧ m.retries ≤ q.attributes.redrivePolicy.maxReceiveCount) →
      LoggedStep cfg rt n k c m m' es → (m'.queueUrl = q.queueUrl ∧
        m'.retries ≤ q.attributes.redrivePolicy.maxReceiveCount) ∧ es = [] := by
    intro c x n m m' es hc hharm hφ hstep
    cases hstep with
    | same | reset => exact ⟨hφ, rfl⟩
    | handedOut => exact hc.elim
    | moved hu' _ hcount' =>
      obtain ⟨harn, k₀, q₀, hq₀, hu₀, rfl⟩ := hharm
      have hkey := hdlq.urls hq₀ hq (hu₀.trans (hu'.symm.trans hφ.1))
      subst hkey
      obtain rfl : q₀ = q := Option.some.inj (hq₀.symm.trans hq)
      have := hφ.2
      omega
  refine Tracked.pass hdlq ⟨hl, ⟨m, hm, hu, hcount⟩, rfl⟩ hq (fun c x n m m' es _ => hkeep c x n m m' es)
    (fun queue hs => ?_) fun c x n m m' es _ => hkeep c x n m m' es
  exact Tracked.maintainQueue hdlq ⟨kq, q, hq, hs⟩ fun c n m m' es => hkeep c queue n m m' es

/-- After a pass no visible message of the queue was handed out too often. -/
theorem pass_visible {l : Logged} (hdlq : DeadLetterQueues cfg queues)
    (hl : LogOk cfg rt queues l.1 l) (hq : queues.get? kq = some q)
    (harn : q.attributes.redrivePolicy.deadLetterTargetArn ≠ []) :
    ∃ l', workerPass.run (execLogged cfg rt) l = some (.ok (), l') ∧
      Every cfg rt queues l.1 (VisibleOk q) l' := by
  obtain ⟨pre, queue, post, hsplit, hs, hothers⟩ := snapshot_split hdlq hl hq
  refine workerPass_run (P := LogOk cfg rt queues l.1) ?_ (hl.listQueues hdlq)
  rw [hsplit]
  refine Prog.total_forEach_split (fun x hx => ?_) (visibleQueue_total hdlq hq harn hs)
    fun x hx => ?_
  · exact LogOk.maintainQueue hdlq (hothers x (.inl hx)).2
  · obtain ⟨hne, hx⟩ := hothers x (.inr hx)
    refine Every.maintainQueue hdlq hx fun c k n m m' es hc hharm hm hstep => ?_
    have hpositive := (hdlq.policy hq harn).1
    cases hstep with
    | same => exact hm
    | handedOut => exact hc.elim
    | reset hu' => exact fun hu _ => absurd (hu.symm.trans (hu'.trans hc)).symm hne
    | moved => exact fun _ _ => by dsimp only; omega

/-! ### Receiving from the dead letter queue -/

/-- A queue of the run's start still exists. -/
theorem queueUrlExists_same {db : SqsMemoryDb} (hdlq : DeadLetterQueues cfg queues)
    (hok : QueuesOk queues db.queues) (hq : queues.get? kq = some q) :
    db.queueUrlExists q.region q.queueUrl = true := by
  obtain ⟨q', hq', hs⟩ := hok.same hdlq hq
  by_contra hno
  rw [SqsMemoryDb.queueUrlExists, Option.not_isSome_iff_eq_none, OrderedMap.findIf_none] at hno
  simpa [hs.region, hs.queueUrl] using hno kq q' hq'

/-- The record found for its URL has its region. -/
theorem getQueueByUrl_same {db : SqsMemoryDb} (hdlq : DeadLetterQueues cfg queues)
    (hok : QueuesOk queues db.queues) (hq : queues.get? kq = some q) (now : TimePoint) :
    ∃ queue queues', db.getQueueByUrl q.queueUrl now = (queue, ⟨queues', db.messages⟩) ∧
      queue.region = q.region ∧ queue.queueUrl = q.queueUrl := by
  unfold SqsMemoryDb.getQueueByUrl
  cases he : db.queues.findIf fun _ queue => queue.queueUrl = q.queueUrl with
  | none =>
    obtain ⟨q', hq', hs⟩ := hok.same hdlq hq
    have := OrderedMap.findIf_none.mp he kq q' hq'
    simp [hs.queueUrl] at this
  | some e =>
    obtain ⟨hget, hp⟩ := OrderedMap.findIf_some he
    have hp := of_decide_eq_true hp
    obtain ⟨k₀, q₀, hq₀, hs₀⟩ := hok.old e.1 e.2 hget
    have hkey := hdlq.urls hq₀ hq (hs₀.queueUrl.symm.trans hp)
    subst hkey
    obtain rfl : q₀ = q := Option.some.inj (hq₀.symm.trans hq)
    exact ⟨_, _, rfl, hs₀.region, hp⟩

/-- A visible message is picked when the limit leaves room for all messages. -/
theorem mem_received_of_visible {db : SqsMemoryDb} {m : Message} {maxMessages : Int}
    (hm : db.messages.get? k = some m) (hs : m.status = .initial) (hint : IsInt maxMessages)
    (hsize : db.messages.size ≤ maxMessages) :
    (k, m) ∈ db.received m.region m.queueUrl maxMessages := by
  have hlength : (db.messages.entries.filter
      (SqsMemoryDb.deliverable m.region m.queueUrl)).length ≤
      max 1 ((maxMessages % 18446744073709551616).toNat - 0) := by
    have hle := List.length_filter_le (SqsMemoryDb.deliverable m.region m.queueUrl)
      db.messages.entries
    have hint := hint.2
    rw [OrderedMap.size] at hsize
    omega
  rw [SqsMemoryDb.received, SqsMemoryDb.picked, List.take_of_length_le hlength]
  refine List.mem_filter.mpr ⟨OrderedMap.get?_eq_some.mp hm, ?_⟩
  simp [SqsMemoryDb.deliverable, hs]

/-- A request whose first round finds a message returns what the round has found. -/
theorem receiveMessages_first {request : ReceiveMessageRequest} {w : World} {queue : Queue}
    {db : SqsMemoryDb} (hempty : request.queueUrl ≠ [])
    (hexists : w.db.queueUrlExists request.region request.queueUrl = true)
    (hfound : w.db.getQueueByUrl request.queueUrl (rt.now (w.calls + 1)) = (queue, db))
    (hwait : 0 < request.waitTimeSeconds) {r : List Message × SqsMemoryDb}
    (hr : (db.resetMessages queue.queueUrl (rt.clock (w.calls + 3))).receiveMessages queue.region
      queue.queueUrl queue.attributes.visibilityTimeout request.maxMessages
      (rt.now (w.calls + 4)) (rt.receiptHandle (w.calls + 4)) = r) (hne : r.1 ≠ []) :
    (receiveMessages request).run (exec cfg rt) w =
      some (.ok { messageList := r.1, requestId := request.requestId }, ⟨r.2, w.calls + 5⟩) := by
  have hpoll := @pollMessages_first cfg rt queue request (rt.now (w.calls + 2)) (2 * request.waitTimeSeconds).toNat
    ⟨db, w.calls + 3⟩ hwait r hr hne
  rw [receiveMessages, if_neg hempty, Prog.run_perform_bind]
  simp only [exec, SqsCall.apply, Option.map_some, Option.bind_some, hexists, if_true]
  rw [receiveFromQueue, guarded, Prog.run_mapThrow, Prog.run_perform_bind]
  simp only [exec, SqsCall.apply, Option.map_some, Option.bind_some, hfound]
  rw [Prog.run_perform_bind]
  simp only [exec, SqsCall.apply, Option.map_some, Option.bind_some]
  rw [Prog.run_bind]
  erw [hpoll]
  simp only [Option.bind_some, if_pos hne]
  rfl

/-- A visible message of a queue is received by every request that asks for enough messages. -/
theorem receivable {env : Env} (hdlq : DeadLetterQueues env.cfg queues) {w : World}
    (hok : QueuesOk queues w.db.queues) (hq : queues.get? kq = some q) {m : Message}
    (hm : w.db.messages.get? k = some m) (hu : m.queueUrl = q.queueUrl)
    (hregion : m.region = q.region) (hs : m.status = .initial) : ReceivableFrom env rt q w m := by
  intro request hr hurl hwait hint hsize
  obtain ⟨queue, queues', hfound, hqregion, hqurl⟩ :=
    getQueueByUrl_same hdlq hok hq (rt.now (w.calls + 1))
  -- the reset at the start of the round leaves the message as it is
  let db₁ := SqsMemoryDb.resetMessages ⟨queues', w.db.messages⟩ queue.queueUrl
    (rt.clock (w.calls + 3))
  have hstored : db₁.messages.get? k = some m := by
    simp [db₁, SqsMemoryDb.resetMessages, hm, hs]
  have hsize₁ : db₁.messages.size ≤ request.maxMessages := by
    simpa only [db₁, SqsMemoryDb.resetMessages, OrderedMap.assignEach_eq_mapVal, OrderedMap.size,
      OrderedMap.entries_mapVal, List.length_map] using hsize
  have hpicked := mem_received_of_visible hstored hs hint hsize₁
  rw [hu, hregion, ← hqregion, ← hqurl] at hpicked
  have hexists := queueUrlExists_same hdlq hok hq
  rw [← hr, ← hurl] at hexists
  rw [← hurl] at hfound
  have hmem : SqsMemoryDb.handOut (rt.receiptHandle (w.calls + 4)) (k, m) ∈
      (db₁.receiveMessages queue.region queue.queueUrl queue.attributes.visibilityTimeout
        request.maxMessages (rt.now (w.calls + 4)) (rt.receiptHandle (w.calls + 4))).1 := by
    rw [SqsMemoryDb.receiveMessages_eq]
    exact List.mem_map_of_mem hpicked
  exact ⟨_, _, receiveMessages_first (hurl ▸ hdlq.named hq) hexists hfound hwait rfl
    (List.ne_nil_of_mem hmem), _, hmem, rfl, rfl⟩

/-! ### The bound -/

/-- Hand-outs from the queue: at most `maxReceiveCount + 1`, and one less while it is visible. -/
def Bounded (q : Queue) (m : Message) : Prop :=
  m.queueUrl = q.queueUrl → m.retries ≤ q.attributes.redrivePolicy.maxReceiveCount + 1 ∧
    (m.status = .initial → m.retries ≤ q.attributes.redrivePolicy.maxReceiveCount)

/-- What holds while a receive that ends at the time `T` with the call `N` polls the queue with the
    URL `u`. -/
structure Polling (cfg : Configuration) (rt : Runtime) (queues : OrderedMap Str Queue)
    (w₀ : World) (q : Queue) (u : Str) (N : Nat) (l : Logged) : Prop where
  ok : LogOk cfg rt queues w₀ l
  bounded : l.1.calls ≤ N → ∀ k m, l.1.db.messages.get? k = some m → Bounded q m
  held : l.1.calls ≤ N → u = q.queueUrl → ∀ k m, l.1.db.messages.get? k = some m →
    m.queueUrl = q.queueUrl → m.status = .invisible → rt.now N ≤ m.reset

/-- What holds when the polling has ended. -/
structure Polled (cfg : Configuration) (rt : Runtime) (queues : OrderedMap Str Queue)
    (w₀ : World) (q : Queue) (N : Nat) (l : Logged) : Prop where
  ok : LogOk cfg rt queues w₀ l
  bounded : l.1.calls ≤ N → ∀ k m, l.1.db.messages.get? k = some m → Bounded q m

variable {N : Nat}

/-- A call of a receive before it finds a message. -/
theorem Polling.step {l : Logged} (hdlq : DeadLetterQueues cfg queues)
    (hl : Polling cfg rt queues w₀ q u N l) {c : SqsCall} (hc : Harmless queues c)
    (hcall : c.Quiet ∨ ∃ visibility, c = .resetMessages u visibility) :
    ∃ r, execLogged cfg rt c l = some r ∧ Polling cfg rt queues w₀ q u N r.2 := by
  obtain ⟨r, hr, hok⟩ := hl.ok.step hdlq hc
  have hexec := (Prog.noting_eq_some.mp hr).1
  have hcalls := (exec_eq_some.mp hexec).2
  -- before the deadline of the held messages, a reset finds none of the queue
  have hback : r.2.1.calls ≤ N → ∀ k m', r.2.1.db.messages.get? k = some m' →
      ∃ m, l.1.db.messages.get? k = some m ∧ (m' = m ∨ m'.queueUrl ≠ q.queueUrl) := by
    intro hN k m' hm'
    obtain ⟨m, hm⟩ := (kept_of_step hl.ok.store.messages hc hexec).backward k m' hm'
    obtain ⟨m'', es, hm'', -, hstep⟩ := loggedStep hl.ok.store hc hdlq hr hm
    obtain rfl : m' = m'' := Option.some.inj (hm'.symm.trans hm'')
    refine ⟨m, hm, ?_⟩
    rcases hcall with hquiet | ⟨visibility, rfl⟩
    · exact .inl (hstep.quiet hquiet).1
    cases hstep with
    | same => exact .inl rfl
    | reset hu hs ht =>
      refine .inr fun hq => ?_
      have hlate := hl.held (by omega) (hu.symm.trans hq) k m hm hq hs
      exact absurd (ht.trans_le ((rt.clock_le_now k (by omega)).trans hlate)) (lt_irrefl _)
  refine ⟨r, hr, hok, fun hN k m' hm' hu => ?_, fun hN hu k m' hm' hmu hs => ?_⟩
  · obtain ⟨m, hm, rfl | hne⟩ := hback hN k m' hm'
    · exact hl.bounded (by omega) k m' hm hu
    · exact absurd hu hne
  · obtain ⟨m, hm, rfl | hne⟩ := hback hN k m' hm'
    · exact hl.held (by omega) hu k m' hm hmu hs
    · exact absurd hmu hne

/-- The receive of a round; without a message the polling goes on. -/
theorem Polling.receive (hdlq : DeadLetterQueues cfg queues) (region : Str)
    (visibility maxMessages : Int) :
    (call (.receiveMessages region u visibility maxMessages)).Total (execLogged cfg rt)
      (Polling cfg rt queues w₀ q u N) fun messageList l => Polled cfg rt queues w₀ q N l ∧
        (messageList = [] → Polling cfg rt queues w₀ q u N l) := by
  refine Prog.total_perform fun l hl => ?_
  have hc : Harmless queues (.receiveMessages region u visibility maxMessages) := trivial
  obtain ⟨r, hr, hok⟩ := hl.ok.step hdlq hc
  obtain ⟨hexec, hlog⟩ := Prog.noting_eq_some.mp hr
  have hcalls := (exec_eq_some.mp hexec).2
  have hback : ∀ k m', r.2.1.db.messages.get? k = some m' → ∃ m es,
      l.1.db.messages.get? k = some m ∧ history k r.2.2 = es ++ history k l.2 ∧
      LoggedStep cfg rt l.1.calls k (.receiveMessages region u visibility maxMessages) m m' es := by
    intro k m' hm'
    obtain ⟨m, hm⟩ := (kept_of_step hl.ok.store.messages hc hexec).backward k m' hm'
    obtain ⟨m'', es, hm'', hhist, hstep⟩ := loggedStep hl.ok.store hc hdlq hr hm
    obtain rfl : m' = m'' := Option.some.inj (hm'.symm.trans hm'')
    exact ⟨m, es, hm, hhist, hstep⟩
  refine ⟨r, hr, ⟨hok, fun hN k m' hm' hu => ?_⟩, fun hnone => ?_⟩
  · obtain ⟨m, es, hm, -, hstep⟩ := hback k m' hm'
    have hbound := hl.bounded (by omega) k m hm
    cases hstep with
    | same => exact hbound hu
    | handedOut _ _ hs =>
      have hle := (hbound hu).2 hs
      refine ⟨?_, fun h => by cases h⟩
      simp only [SqsMemoryDb.held, SqsMemoryDb.handOut]
      omega
  · -- nothing was noted, so nothing was handed out
    have hkeep : ∀ k m', r.2.1.db.messages.get? k = some m' → l.1.db.messages.get? k = some m' := by
      intro k m' hm'
      obtain ⟨m, es, hm, hhist, hstep⟩ := hback k m' hm'
      cases hstep with
      | same => exact hm
      | handedOut =>
        rw [hlog, SqsCall.events, hnone, history_append] at hhist
        exact absurd (congrArg List.length hhist) (by simp [history])
    exact ⟨hok, fun hN k m' hm' => hl.bounded (by omega) k m' (hkeep k m' hm'),
      fun hN hu k m' hm' => hl.held (by omega) hu k m' (hkeep k m' hm')⟩

/-- The polling loop. -/
theorem Polling.poll (hdlq : DeadLetterQueues cfg queues) {request : ReceiveMessageRequest}
    (start : TimePoint) : ∀ (rounds : Nat) (elapsed : Int),
    (pollMessages queue request start rounds elapsed).Total (execLogged cfg rt)
      (Polling cfg rt queues w₀ q queue.queueUrl N) fun _ => Polled cfg rt queues w₀ q N
  | 0, _ => Prog.total_pure _ fun _ hl => ⟨hl.ok, hl.bounded⟩
  | rounds + 1, elapsed => by
    have hreset : Harmless queues
        (.resetMessages queue.queueUrl queue.attributes.visibilityTimeout) := trivial
    have hclock : (call .clockNow).Total (execLogged cfg rt)
        (Polling cfg rt queues w₀ q queue.queueUrl N)
        fun _ => Polling cfg rt queues w₀ q queue.queueUrl N :=
      Prog.total_perform fun l hl => hl.step (c := .clockNow) hdlq trivial (.inl trivial)
    have hround : (databaseReceiveMessages queue.region queue.queueUrl
        queue.attributes.visibilityTimeout request.maxMessages).Total (execLogged cfg rt)
        (Polling cfg rt queues w₀ q queue.queueUrl N) fun messageList l =>
          Polled cfg rt queues w₀ q N l ∧
            (messageList = [] → Polling cfg rt queues w₀ q queue.queueUrl N l) :=
      Prog.total_bind (Prog.total_perform fun l hl => hl.step hdlq hreset
        (.inr ⟨_, rfl⟩)) fun _ => Polling.receive hdlq _ _ _
    unfold pollMessages
    split
    · refine Prog.total_bind hround fun messageList => ?_
      split
      · exact Prog.total_pure _ fun _ hl => hl.1
      · next hnone =>
        have hnone : messageList = [] := not_not.mp hnone
        refine Prog.total_bind (hclock.mono (fun _ hl => hl.2 hnone) fun _ _ hl => hl) fun now => ?_
        exact Polling.poll hdlq start rounds _
    · exact Prog.total_pure _ fun _ hl => ⟨hl.ok, hl.bounded⟩

/-- A receive from the store on which every message is bounded. -/
theorem bounded_receive (hdlq : DeadLetterQueues cfg queues) {l : Logged}
    {request : ReceiveMessageRequest}
    (hl : Polling cfg rt queues w₀ q request.queueUrl N l) :
    ∃ r, (receiveMessages request).run (execLogged cfg rt) l = some r ∧
      Polled cfg rt queues w₀ q N r.2 := by
  -- the calls before the polling change nothing
  have hquiet : ∀ {c : SqsCall} {l}, Harmless queues c → c.Quiet →
      Polling cfg rt queues w₀ q request.queueUrl N l → ∃ r, execLogged cfg rt c l = some r ∧
        Polling cfg rt queues w₀ q request.queueUrl N r.2 :=
    fun hc h hl => hl.step hdlq hc (.inl h)
  have hfrom : ∀ l, (request.queueUrl = [] ∨
      l.1.db.queueUrlExists request.region request.queueUrl = true) →
      Polling cfg rt queues w₀ q request.queueUrl N l →
      ∃ r, (receiveFromQueue request).run (execLogged cfg rt) l = some r ∧
        Polled cfg rt queues w₀ q N r.2 := by
    intro l hfound hl
    obtain ⟨r, hr, hok⟩ := hquiet (c := .getQueueByUrl request.region request.queueUrl) trivial
      trivial hl
    have hurl : r.1.queueUrl = request.queueUrl := by
      have := (exec_eq_some.mp (Prog.noting_eq_some.mp hr).1).1
      rw [← congrArg Prod.fst (Option.some.inj this)]
      exact getQueueByUrl_queueUrl request.region hfound
    obtain ⟨r', hr', hok'⟩ := hquiet (c := .clockNow) trivial trivial hok
    rw [← hurl] at hok'
    have hpoll : (pollMessages r.1 request r'.1 ((2 * request.waitTimeSeconds).toNat + 1) 0).Total
        (execLogged cfg rt) _ fun _ => Polled cfg rt queues w₀ q N := Polling.poll hdlq _ _ _
    obtain ⟨messageList, l', hrun, hpolled⟩ := hpoll r'.2 hok'
    rw [receiveFromQueue, guarded, Prog.run_mapThrow, Prog.run_perform_bind, hr, Option.bind_some,
      Prog.run_perform_bind, hr', Option.bind_some, Prog.run_bind, hrun]
    by_cases hne : messageList ≠ []
    · exact ⟨_, by simp only [Option.bind_some, if_pos hne]; rfl, hpolled⟩
    · exact ⟨_, by simp only [Option.bind_some, if_neg hne]; rfl, hpolled⟩
  unfold receiveMessages
  split
  · next hempty => exact hfrom l (.inl hempty) hl
  · obtain ⟨r, hr, hok⟩ := hquiet (c := .queueUrlExists request.region request.queueUrl) trivial
      trivial hl
    rw [Prog.run_perform_bind, hr, Option.bind_some]
    cases hr
    split
    · next hfound => exact hfrom _ (.inr hfound) hok
    · exact ⟨_, rfl, hok.ok, hok.bounded⟩

/-! ### The result -/

/-- The queue `q` with the dead letter queue `d` in a store reached from the queues `queues`. -/
theorem pass_redrives {env : Env} {l : Logged} {kd : Str} (hdlq : DeadLetterQueues env.cfg queues)
    (hl : LogOk env.cfg rt queues l.1 l) (hq : queues.get? kq = some q)
    (harn : q.attributes.redrivePolicy.deadLetterTargetArn ≠ []) (hkd : queues.get? kd = some d)
    (hd : IsDeadLetterQueue env.cfg q d) :
    ∃ l', workerPass.run (execLogged env.cfg rt) l = some (.ok (), l') ∧
      PassRedrives env rt q d l l' := by
  obtain ⟨l', hrun, hvisible⟩ := pass_visible hdlq hl hq harn
  have hunique : ∀ {l''}, workerPass.run (execLogged env.cfg rt) l = some (.ok (), l'') → l'' = l' :=
    fun h => congrArg Prod.snd (Option.some.inj (h.symm.trans hrun))
  refine ⟨l', hrun, fun k m hm hu hdue hcount => ?_, fun k m hm hu hcount => ?_,
    fun k m hm hu hs => ?_⟩
  · rw [← hu, ← hl.counted k m hm] at hcount
    obtain ⟨l'', hrun', hok, ⟨m', hm', hmu, hretries, hms⟩, hhist⟩ :=
      pass_moves hdlq hl hq harn hd hm hu hdue hcount
    cases hunique hrun'
    obtain ⟨m'', hm'', hid, -⟩ := hok.store.kept.forward k m hm
    obtain rfl : m' = m'' := Option.some.inj (hm'.symm.trans hm'')
    exact ⟨m', hm', hmu, congrArg Identity.body hid, congrArg Identity.messageId hid, hhist,
      receivable hdlq hok.store.queuesOk hkd hm' hmu (hok.regions k m' kd d hm' hkd hmu.symm) hms⟩
  · rw [← hu, ← hl.counted k m hm] at hcount
    obtain ⟨l'', hrun', hok, ⟨m', hm', hmu, -⟩, hhist⟩ := pass_stays hdlq hl hq hm hu hcount
    cases hunique hrun'
    exact ⟨m', hm', hmu, hhist⟩
  · rw [← hu, ← hvisible.ok.counted k m hm]
    exact hvisible.all k m hm hu hs

/-- What holds between the operations of a timely run. -/
abbrev BoundedOk (cfg : Configuration) (rt : Runtime) (queues : OrderedMap Str Queue) (q : Queue)
    (l : Logged) : Prop := Every cfg rt queues l.1 (Bounded q) l

/-- A send stores a message that was not handed out. -/
theorem bounded_send {env : Env} {request : SendMessageRequest} {l l' : Logged} {x}
    (hpositive : 1 ≤ q.attributes.redrivePolicy.maxReceiveCount) (hl : BoundedOk cfg rt queues q l)
    (hrun : (sendMessage env request).run (execLogged cfg rt) l = some (x, l')) :
    ∀ k m, l'.1.db.messages.get? k = some m → Bounded q m := by
  have hstep : ∀ (c : SqsCall) (l : Logged) (r : c.Reply × Logged), c.Sends →
      (MessagesOk rt l.1 ∧ ∀ k m, l.1.db.messages.get? k = some m → Bounded q m) →
      execLogged cfg rt c l = some r →
      MessagesOk rt r.2.1 ∧ ∀ k m, r.2.1.db.messages.get? k = some m → Bounded q m := by
    intro c l r hc hl hr
    have hexec := (Prog.noting_eq_some.mp hr).1
    refine ⟨hl.1.step hexec, fun k m' hm' => ?_⟩
    have hstep := messageStep hl.1.keyed (exec_eq_some.mp hexec).1 k
    have hbound := hl.2 k
    rw [hm'] at hstep
    generalize l.1.db.messages.get? k = m₀ at hstep hbound
    cases hstep with
    | same => exact hbound m' rfl
    | created =>
      obtain ⟨-, hretries⟩ := hc
      refine fun _ => ⟨?_, fun _ => ?_⟩ <;> dsimp only <;> omega
    | updated | received | reset | redriven | undelayed => exact hc.elim
  exact ((sendMessage_only env request).invariant hstep ⟨hl.ok.store.messages, hl.all⟩ hrun).2

/-- A pass keeps the bound. -/
theorem bounded_pass {l : Logged} (hdlq : DeadLetterQueues cfg queues)
    (hq : queues.get? kq = some q)
    (harn : q.attributes.redrivePolicy.deadLetterTargetArn ≠ []) (hl : BoundedOk cfg rt queues q l) :
    ∃ l', workerPass.run (execLogged cfg rt) l = some (.ok (), l') ∧
      ∀ k m, l'.1.db.messages.get? k = some m → Bounded q m := by
  have hpositive := (hdlq.policy hq harn).1
  obtain ⟨l', hrun, hvisible⟩ := pass_visible hdlq hl.ok hq harn
  obtain ⟨l'', hrun', hcount⟩ := workerPass_run (P := Every cfg rt queues l.1 fun m =>
      m.queueUrl = q.queueUrl → m.retries ≤ q.attributes.redrivePolicy.maxReceiveCount + 1)
    (Prog.total_forEach fun x hx => Every.maintainQueue hdlq (hl.ok.snapshot x hx)
      fun c k n m m' es hc hharm hm hstep => by
        cases hstep with
        | same | reset => exact hm
        | handedOut => exact hc.elim
        | moved => exact fun _ => by dsimp only; omega)
    ⟨hl.ok.listQueues hdlq, fun k m hm hu => (hl.all k m hm hu).1⟩
  cases hrun.symm.trans hrun'
  exact ⟨l', hrun, fun k m hm hu => ⟨hcount.all k m hm hu, hvisible.all k m hm hu⟩⟩

theorem runLogged_single {env : Env} {l l' : Logged} {op : Operation}
    (h : (op.program env).run (execLogged env.cfg rt) l = some (.ok (), l')) :
    runLogged env rt [op] l = some l' := by
  change (((op.program env) >>= fun _ => pure ()).run _ l).map _ = _
  rw [Prog.run_bind, h]
  rfl

theorem runLogged_cons {env : Env} {l l' : Logged} {op : Operation} {ops : List Operation}
    (h : (op.program env).run (execLogged env.cfg rt) l = some (.ok (), l')) :
    runLogged env rt (op :: ops) l = runLogged env rt ops l' := by
  change (((op.program env) >>= fun _ => Prog.forEach ops _).run _ l).map _ = _
  rw [Prog.run_bind, h]
  rfl

/-- One operation of a timely run. -/
theorem BoundedOk.operation {env : Env} {l l' : Logged} {op : Operation}
    (hdlq : DeadLetterQueues env.cfg queues) (hq : queues.get? kq = some q)
    (harn : q.attributes.redrivePolicy.deadLetterTargetArn ≠ [])
    (hl : BoundedOk env.cfg rt queues q l) (hin : InTime env rt q l op)
    (hrun : (op.program env).run (execLogged env.cfg rt) l = some (.ok (), l'))
    (hok : LogOk env.cfg rt queues l'.1 l') : BoundedOk env.cfg rt queues q l' := by
  refine ⟨hok, ?_⟩
  cases op with
  | sendMessage request =>
    rw [Operation.program, Prog.run_attempt_ignored] at hrun
    obtain ⟨r, hr, hrl⟩ := Option.map_eq_some_iff.mp hrun
    obtain rfl : r.2 = l' := congrArg Prod.snd hrl
    exact bounded_send (hdlq.policy hq harn).1 hl hr
  | receiveMessages request =>
    have hend := fun hu => hin hu l' (runLogged_single hrun)
    rw [Operation.program, Prog.run_attempt_ignored] at hrun
    obtain ⟨r, hr, hrl⟩ := Option.map_eq_some_iff.mp hrun
    obtain rfl : r.2 = l' := congrArg Prod.snd hrl
    obtain ⟨r', hr', hpolled⟩ := bounded_receive (N := r.2.1.calls) hdlq
      ⟨hl.ok, fun _ => hl.all, fun _ hu => hend hu⟩
    cases hr.symm.trans hr'
    exact hpolled.bounded le_rfl
  | setVisibilityTimeout request =>
    rw [Operation.program, Prog.run_attempt_ignored] at hrun
    obtain ⟨r, hr, hrl⟩ := Option.map_eq_some_iff.mp hrun
    obtain rfl : r.2 = l' := congrArg Prod.snd hrl
    rw [run_silent (setVisibilityTimeout_silent request) l.1 l.2] at hr
    obtain ⟨r', hr', rfl⟩ := Option.map_eq_some_iff.mp hr
    intro k m' hm'
    obtain ⟨m, hm, rfl | ⟨now, rfl⟩⟩ :=
      setVisibilityTimeout_keeps hl.ok.store.messages.keyed hr' hm'
    · exact hl.all k m' hm
    · exact hl.all k m hm
  | workerPass =>
    obtain ⟨l'', hrun', hbound⟩ := bounded_pass hdlq hq harn hl
    cases hrun.symm.trans hrun'
    exact hbound

theorem BoundedOk.run {env : Env} (hdlq : DeadLetterQueues env.cfg queues)
    (hq : queues.get? kq = some q)
    (harn : q.attributes.redrivePolicy.deadLetterTargetArn ≠ []) :
    ∀ (ops : List Operation) {l l' : Logged}, BoundedOk env.cfg rt queues q l →
      Timely env rt q ops l → runLogged env rt ops l = some l' → BoundedOk env.cfg rt queues q l'
  | [], l, l', hl, _, h => by cases h; exact hl
  | op :: ops, l, l', hl, ht, h => by
    obtain ⟨hin, ht⟩ := ht
    have hop : (op.program env).Total (execLogged env.cfg rt) _ _ := operation_total hdlq op
    obtain ⟨_, l₁, hrun, hok⟩ := hop l hl.ok
    rw [runLogged_cons hrun] at h
    exact BoundedOk.run hdlq hq harn ops (hl.operation hdlq hq harn hin hrun hok)
      (ht l₁ (runLogged_single hrun)) h

/-- Every run on a store with these queues and no message is defined. After it, the next pass moves
    every message of a queue with a redrive policy that was handed out more than `maxReceiveCount`
    times and is visible or expired, and no other; and in a timely run no message was handed out more
    than `maxReceiveCount + 1` times since it came into the queue. -/
theorem redrive_bound (env : Env) (rt : Runtime) (queues : OrderedMap Str Queue) (n : Nat)
    (hdlq : DeadLetterQueues env.cfg queues) (ops : List Operation) :
    ∃ l, runLogged env rt ops (⟨{ queues := queues }, n⟩, []) = some l ∧
      ∀ kq q, queues.get? kq = some q → q.attributes.redrivePolicy.deadLetterTargetArn ≠ [] →
        (∃ kd d l', queues.get? kd = some d ∧ IsDeadLetterQueue env.cfg q d ∧
          workerPass.run (execLogged env.cfg rt) l = some (.ok (), l') ∧
          PassRedrives env rt q d l l') ∧
        (Timely env rt q ops (⟨{ queues := queues }, n⟩, []) →
          ∀ k m, l.1.db.messages.get? k = some m → m.queueUrl = q.queueUrl →
            handOuts k q.queueUrl l.2 ≤ q.attributes.redrivePolicy.maxReceiveCount + 1) := by
  have hstart : LogOk env.cfg rt queues ⟨{ queues := queues }, n⟩ (⟨{ queues := queues }, n⟩, []) :=
    ⟨.initial n, by simp, by simp, by simp⟩
  have hrun : (Prog.forEach ops fun op => op.program env).Total (execLogged env.cfg rt)
      (fun l => LogOk env.cfg rt queues l.1 l) fun _ l => LogOk env.cfg rt queues l.1 l :=
    Prog.total_forEach fun op _ => operation_total hdlq op
  obtain ⟨_, l, hr, hl⟩ := hrun (_, []) hstart
  have hr : runLogged env rt ops (⟨{ queues := queues }, n⟩, []) = some l := by
    rw [runLogged, hr]; rfl
  refine ⟨l, hr, fun kq q hq harn => ⟨?_, fun ht k m hm hu => ?_⟩⟩
  · obtain ⟨-, kd, d, hkd, hd⟩ := hdlq.policy hq harn
    obtain ⟨l', hpass, hredrives⟩ := pass_redrives hdlq hl hq harn hkd hd
    exact ⟨kd, d, l', hkd, hd, hpass, hredrives⟩
  · have hbound := BoundedOk.run hdlq hq harn ops ⟨hstart, fun k m hm => by simp at hm⟩ ht hr
    rw [← hu, ← hl.counted k m hm]
    exact (hbound.all k m hm hu).1

/-! ### A source and its dead letter queue -/

/-- An installation whose host names agree. -/
def Env.oneHost : Env :=
  { Env.sample with cfg := { hostName := str "localhost", sqsHostname := str "localhost" } }

def deadQueue : Queue where
  name := str "dead"
  queueUrl := createSQSQueueUrl Env.oneHost.cfg (str "dead")
  queueArn := createSQSQueueArn Env.oneHost.cfg (str "dead")
  created := 0
  modified := 0

def sourceQueue : Queue where
  name := str "source"
  queueUrl := createSQSQueueUrl Env.oneHost.cfg (str "source")
  queueArn := createSQSQueueArn Env.oneHost.cfg (str "source")
  attributes := { redrivePolicy := { deadLetterTargetArn := deadQueue.queueArn, maxReceiveCount := 1 } }
  created := 0
  modified := 0

def sourceAndDead : OrderedMap Str Queue :=
  OrderedMap.ofList [(str "1", sourceQueue), (str "2", deadQueue)]

theorem get?_sourceAndDead {k : Str} {q : Queue} (h : sourceAndDead.get? k = some q) :
    k = str "1" ∧ q = sourceQueue ∨ k = str "2" ∧ q = deadQueue := by
  rcases OrderedMap.get?_eq_some.mp h with _ | ⟨_, _ | ⟨_, h⟩⟩
  · exact .inl ⟨rfl, rfl⟩
  · exact .inr ⟨rfl, rfl⟩
  · cases h

theorem deadLetterQueues_sourceAndDead : DeadLetterQueues Env.oneHost.cfg sourceAndDead where
  names h h' _ hn := by
    obtain ⟨rfl, rfl⟩ | ⟨rfl, rfl⟩ := get?_sourceAndDead h <;>
      obtain ⟨rfl, rfl⟩ | ⟨rfl, rfl⟩ := get?_sourceAndDead h' <;>
      first | rfl | exact absurd hn (by decide)
  urls h h' hu := by
    obtain ⟨rfl, rfl⟩ | ⟨rfl, rfl⟩ := get?_sourceAndDead h <;>
      obtain ⟨rfl, rfl⟩ | ⟨rfl, rfl⟩ := get?_sourceAndDead h' <;>
      first | rfl | exact absurd hu (by decide)
  named h := by
    obtain ⟨-, rfl⟩ | ⟨-, rfl⟩ := get?_sourceAndDead h <;> decide
  policy h harn := by
    obtain ⟨-, rfl⟩ | ⟨-, rfl⟩ := get?_sourceAndDead h
    · exact ⟨by decide, str "2", deadQueue, rfl, rfl, rfl, convertSQSQueueArnToUrl_create _ rfl
        (by decide) (by decide) (by decide) (by decide)⟩
    · exact absurd rfl harn

/-- A request to receive from the source. -/
def receiveSource : Operation := .receiveMessages { queueUrl := sourceQueue.queueUrl }

def sendSource : Operation := .sendMessage { queueUrl := sourceQueue.queueUrl, body := str "hello" }

/-- A run of two hand-outs with a pass after the first expiry. -/
def twoHandOuts : List Operation := [sendSource, receiveSource, .workerPass, receiveSource]

/-- That run is timely: no receive finds a held message. -/
theorem timely_twoHandOuts : Timely Env.oneHost (.counting 40) sourceQueue twoHandOuts
    (⟨{ queues := sourceAndDead }, 0⟩, []) := by
  refine ⟨trivial, fun l₁ h₁ => ⟨fun _ l' _ k m hm _ hs => ?_, fun l₂ h₂ => ⟨trivial, fun l₃ h₃ =>
    ⟨fun _ l' _ k m hm _ hs => ?_, fun _ _ => trivial⟩⟩⟩⟩
  · cases h₁
    rcases OrderedMap.get?_eq_some.mp hm with _ | ⟨_, h⟩
    · cases hs
    · cases h
  · cases h₁
    cases h₂
    cases h₃
    rcases OrderedMap.get?_eq_some.mp hm with _ | ⟨_, h⟩
    · cases hs
    · cases h

/-- The pass after the run moves the message, which was handed out twice. -/
theorem redrive_bound_twoHandOuts : ∃ l, runLogged Env.oneHost (.counting 40) twoHandOuts
      (⟨{ queues := sourceAndDead }, 0⟩, []) = some l ∧
    (∃ l', workerPass.run (execLogged Env.oneHost.cfg (.counting 40)) l = some (.ok (), l') ∧
      PassRedrives Env.oneHost (.counting 40) sourceQueue deadQueue l l') ∧
    ∀ k m, l.1.db.messages.get? k = some m → m.queueUrl = sourceQueue.queueUrl →
      handOuts k sourceQueue.queueUrl l.2 ≤ (2 : Int) := by
  obtain ⟨l, hrun, hall⟩ := redrive_bound Env.oneHost (.counting 40) sourceAndDead 0
    deadLetterQueues_sourceAndDead twoHandOuts
  obtain ⟨⟨kd, d, l', hkd, hd, hpass, hredrives⟩, hbound⟩ :=
    hall (str "1") sourceQueue rfl (by decide)
  obtain ⟨-, rfl⟩ | ⟨-, rfl⟩ := get?_sourceAndDead hkd
  · exact absurd hd.arn (by decide)
  · exact ⟨l, hrun, ⟨l', hpass, hredrives⟩, hbound timely_twoHandOuts⟩

/-- With a receive count of one the first expiry and the pass after it do not move the message: it is
    handed out a second time; and a third time by receives without a pass between them. -/
theorem redrive_bound_exceeded :
    sourceQueue.attributes.redrivePolicy.maxReceiveCount = 1 ∧
    (∃ l k, runLogged Env.oneHost (.counting 40) twoHandOuts
        (⟨{ queues := sourceAndDead }, 0⟩, []) = some l ∧
      handOuts k sourceQueue.queueUrl l.2 = 2) ∧
    ∃ l k, runLogged Env.oneHost (.counting 40)
        [sendSource, receiveSource, receiveSource, receiveSource]
        (⟨{ queues := sourceAndDead }, 0⟩, []) = some l ∧
      handOuts k sourceQueue.queueUrl l.2 = 3 :=
  ⟨rfl, ⟨_, (Runtime.counting 40).uuid 8, rfl, by decide⟩,
    _, (Runtime.counting 40).uuid 8, rfl, by decide⟩

end AwsMock.Sqs
