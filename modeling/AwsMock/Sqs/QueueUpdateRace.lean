import AwsMock.Sqs.Interleaving

/-!
# Queue updates during a worker pass

A worker pass reads every queue record at its start and writes each of them back with new counters.
Client requests fall between its calls. As long as each record written back is the one stored, up to
the counters, the pass changes nothing else of the queues. A tag set in between is lost, and a queue
deleted in between makes `UpdateQueue` dereference the end iterator.
-/

namespace AwsMock.Sqs

open Lib

/-- A queue record but for the counters of its messages. -/
def withoutCounters (queue : Queue) : Queue := withCounters queue 0 0 0

/-- The queues of two stores differ in the counters at most. -/
def SameQueues (db db' : SqsMemoryDb) : Prop :=
  (db.queues.mapVal fun _ => withoutCounters) = db'.queues.mapVal fun _ => withoutCounters

instance (db db' : SqsMemoryDb) : Decidable (SameQueues db db') := inferInstanceAs (Decidable (_ = _))

inductive QueueRequest where
  | setQueueAttributes (request : SetQueueAttributesRequest)
  | tagQueue (request : TagQueueRequest)
  | createQueue (request : CreateQueueRequest)
  | deleteQueue (request : DeleteQueueRequest)

/-- Serve one request; the client is told of a failure. -/
def QueueRequest.serve (env : Env) : QueueRequest → SqsProg Unit
  | setQueueAttributes request => do let _ ← (Sqs.setQueueAttributes env request).attempt
  | tagQueue request => do let _ ← (Sqs.tagQueue request).attempt
  | createQueue request => do let _ ← (Sqs.createQueue env request).attempt
  | deleteQueue request => do let _ ← (Sqs.deleteQueue request).attempt

/-- The requests of the clients, one after the other. -/
def serveAll (env : Env) (requests : List QueueRequest) : SqsProg Unit :=
  Prog.forEach requests fun request => request.serve env

/-- A run of a worker pass and the requests is defined, and up to the counters its queues are those
    that the calls of the requests alone lead to. -/
def NoLostUpdate (env : Env) (rt : Runtime) (requests : List QueueRequest) (sched : List Bool)
    (w : World) : Prop :=
  ∃ p q w' db', Prog.interleave (exec env.cfg rt) sched workerPass (serveAll env requests) w =
      some (p, q, w') ∧
    replay env.cfg rt (othersOf (Prog.trace (exec env.cfg rt) sched workerPass
      (serveAll env requests) w)) w.db = some db' ∧
    SameQueues w'.db db'

/-- A queue record the worker writes back replaces the same record, up to the counters. -/
def ReplacesCurrent (e : Bool × SqsCall × World) : Prop :=
  ∀ queue, e.1 = true → e.2.1 = .updateQueue queue → ∃ it,
    (e.2.2.db.queues.findIf fun _ q => q.region = queue.region ∧ q.name = queue.name) = some it ∧
    withoutCounters it.2 = withoutCounters queue

/-! ### Queues up to their counters -/

namespace SameQueues

variable {db db' db'' : SqsMemoryDb}

theorem refl (db : SqsMemoryDb) : SameQueues db db := rfl

theorem symm (h : SameQueues db db') : SameQueues db' db := Eq.symm h

theorem trans (h : SameQueues db db') (h' : SameQueues db' db'') : SameQueues db db'' :=
  Eq.trans h h'

theorem of_queues (h : db'.queues = db.queues) : SameQueues db db' := by rw [SameQueues, h]

/-- A search that does not look at the counters finds the same record in both stores. -/
theorem findIf (h : SameQueues db db') {p : Str → Queue → Bool}
    (hp : ∀ k q, p k (withoutCounters q) = p k q) :
    (db.queues.findIf p).map (fun e => (e.1, withoutCounters e.2)) =
      (db'.queues.findIf p).map fun e => (e.1, withoutCounters e.2) := by
  rw [← OrderedMap.findIf_mapVal _ hp, h, OrderedMap.findIf_mapVal _ hp]

theorem findIf_isSome (h : SameQueues db db') {p : Str → Queue → Bool}
    (hp : ∀ k q, p k (withoutCounters q) = p k q) :
    (db.queues.findIf p).isSome = (db'.queues.findIf p).isSome := by
  simpa using congrArg Option.isSome (h.findIf hp)

theorem findIf_some (h : SameQueues db db') {p : Str → Queue → Bool}
    (hp : ∀ k q, p k (withoutCounters q) = p k q) {e : Str × Queue}
    (he : db.queues.findIf p = some e) :
    ∃ q, db'.queues.findIf p = some (e.1, q) ∧ withoutCounters e.2 = withoutCounters q := by
  have hmap := h.findIf hp
  rw [he, Option.map_some] at hmap
  obtain ⟨⟨k, q⟩, hq, heq⟩ := Option.map_eq_some_iff.mp hmap.symm
  obtain ⟨rfl, hv⟩ := Prod.mk.inj heq
  exact ⟨q, hq, hv.symm⟩

theorem insert {messages messages' : OrderedMap Str Message} (h : SameQueues db db') (k : Str)
    {q q' : Queue} (hq : withoutCounters q = withoutCounters q') :
    SameQueues ⟨db.queues.insert k q, messages⟩ ⟨db'.queues.insert k q', messages'⟩ := by
  simp only [SameQueues, OrderedMap.mapVal_insert, hq]
  rw [h]

theorem eraseIf {messages messages' : OrderedMap Str Message} (h : SameQueues db db')
    {p : Str → Queue → Bool} (hp : ∀ k q, p k (withoutCounters q) = p k q) :
    SameQueues ⟨db.queues.eraseIf p, messages⟩ ⟨db'.queues.eraseIf p, messages'⟩ := by
  simp only [SameQueues, OrderedMap.mapVal_eraseIf _ hp]
  rw [h]

theorem fetchQueue (h : SameQueues db db') (now now' : TimePoint) {p : Str → Queue → Bool}
    (hp : ∀ k q, p k (withoutCounters q) = p k q) :
    SameQueues (db.fetchQueue now (db.queues.findIf p)).2
      (db'.fetchQueue now' (db'.queues.findIf p)).2 := by
  cases he : db.queues.findIf p with
  | none =>
    have hnone := h.findIf_isSome hp
    rw [he, Option.isSome_none, eq_comm, Option.isSome_eq_false_iff, Option.isNone_iff_eq_none] at hnone
    rw [hnone]
    exact h
  | some e =>
    obtain ⟨q, hq, hv⟩ := h.findIf_some hp he
    rw [hq]
    exact h.insert e.1 (congrArg (fun q : Queue => { q with oid := e.1 }) hv)

theorem updateQueue (h : SameQueues db db') {queue : Queue} {r : Queue × SqsMemoryDb}
    (hr : db.updateQueue queue = some r) :
    ∃ r', db'.updateQueue queue = some r' ∧ SameQueues r.2 r'.2 := by
  obtain ⟨e, he, rfl⟩ := Option.map_eq_some_iff.mp hr
  obtain ⟨q, hq, -⟩ := h.findIf_some (fun _ _ => rfl) he
  exact ⟨_, Option.map_eq_some_iff.mpr ⟨_, hq, rfl⟩, h.insert e.1 rfl⟩

end SameQueues

/-! ### The calls of the requests -/

/-- The calls that queue requests make. -/
def SqsCall.OnQueues : SqsCall → Prop
  | .clockNow | .queueExists .. | .queueUrlExists .. | .getQueueByUrl .. | .createQueue ..
  | .updateQueue .. | .deleteMessages .. | .deleteQueue .. => True
  | _ => False

variable {cfg : Configuration} {rt : Runtime}

/-- Such a call does the same to stores with the same queues. -/
theorem SameQueues.apply {db db₂ : SqsMemoryDb} (h : SameQueues db db₂) {n : Nat} {c : SqsCall}
    (hc : c.OnQueues) {r : c.Reply × SqsMemoryDb} (hr : c.apply cfg rt n db = some r) :
    ∃ r₂, c.apply cfg rt n db₂ = some r₂ ∧ SameQueues r.2 r₂.2 := by
  cases c with
  | clockNow | queueExists | queueUrlExists | deleteMessages => cases hr; exact ⟨_, rfl, h⟩
  | getQueueByUrl region queueUrl =>
    cases hr
    exact ⟨_, rfl, h.fetchQueue _ _ fun _ _ => rfl⟩
  | createQueue queue =>
    cases hr
    refine ⟨_, rfl, ?_⟩
    simp only [SqsMemoryDb.createQueue_eq]
    exact h.insert _ rfl
  | updateQueue queue => exact h.updateQueue hr
  | deleteQueue region queueUrl => cases hr; exact ⟨_, rfl, h.eraseIf fun _ _ => rfl⟩
  | _ => exact hc.elim

theorem createQueue_only (env : Env) (request : CreateQueueRequest) :
    (createQueue env request).Only fun c => c.OnQueues ∧ c.total = true := by
  refine Prog.only_bind (Prog.only_perform ⟨trivial, rfl⟩) fun found => ?_
  split
  · exact Prog.only_throw _
  · refine Prog.only_bind (Prog.only_ofExcept _) fun attributes => ?_
    refine Prog.only_bind (Prog.only_perform ⟨trivial, rfl⟩) fun now => ?_
    exact Prog.only_bind (Prog.only_perform ⟨trivial, rfl⟩) fun _ => Prog.only_pure _

theorem deleteQueue_only (request : DeleteQueueRequest) :
    (deleteQueue request).Only fun c => c.OnQueues ∧ c.total = true := by
  refine Prog.only_bind (Prog.only_perform ⟨trivial, rfl⟩) fun found => ?_
  split
  · refine Prog.only_bind (Prog.only_perform ⟨trivial, rfl⟩) fun _ => ?_
    exact Prog.only_bind (Prog.only_perform ⟨trivial, rfl⟩) fun _ => Prog.only_pure _
  · exact Prog.only_throw _

theorem serve_only (env : Env) (request : QueueRequest) :
    (request.serve env).Only SqsCall.OnQueues := by
  cases request with
  | setQueueAttributes request =>
    refine Prog.only_bind (Prog.only_attempt ?_) fun _ => Prog.only_pure _
    refine Prog.only_bind (Prog.only_perform trivial) fun found => ?_
    split
    · refine Prog.only_mapThrow (Prog.only_bind (Prog.only_perform trivial) fun queue => ?_)
      refine Prog.only_bind (Prog.only_ofExcept _) fun queue => ?_
      exact Prog.only_bind (Prog.only_perform trivial) fun _ => Prog.only_pure _
    · exact Prog.only_throw _
  | tagQueue request =>
    refine Prog.only_bind (Prog.only_attempt (Prog.only_mapThrow ?_)) fun _ => Prog.only_pure _
    refine Prog.only_bind (Prog.only_perform trivial) fun found => ?_
    split
    · refine Prog.only_bind (Prog.only_perform trivial) fun queue => ?_
      exact Prog.only_bind (Prog.only_perform trivial) fun _ => Prog.only_pure _
    · exact Prog.only_throw _
  | createQueue request =>
    exact Prog.only_bind (Prog.only_attempt ((createQueue_only env request).mono fun _ hc => hc.1))
      fun _ => Prog.only_pure _
  | deleteQueue request =>
    exact Prog.only_bind (Prog.only_attempt ((deleteQueue_only request).mono fun _ hc => hc.1))
      fun _ => Prog.only_pure _

/-! ### Requests under interference -/

/-- What the worker may do between the calls of a request. -/
def KeepsQueues (w w' : World) : Prop := SameQueues w.db w'.db

theorem KeepsQueues.trans {a b c : World} (h : KeepsQueues a b) (h' : KeepsQueues b c) :
    KeepsQueues a c := SameQueues.trans h h'

/-- The record written back has a record to replace. -/
def Replaces (db : SqsMemoryDb) (queue : Queue) : Prop :=
  (db.queues.findIf fun _ q => q.region = queue.region ∧ q.name = queue.name).isSome = true

theorem withAttributes_ok {poco : Poco} {request : SetQueueAttributesRequest} {queue queue' : Queue}
    (h : withAttributes poco request queue = .ok queue') :
    queue'.region = queue.region ∧ queue'.name = queue.name := by
  simp only [withAttributes, except_bind_eq_ok] at h
  obtain ⟨_, _, _, _, _, _, _, _, _, _, _, _, h⟩ := h
  cases h
  exact ⟨rfl, rfl⟩

theorem safe_updateQueue {queue : Queue} {w : World} (h : Replaces w.db queue) :
    (call (.updateQueue queue)).Safe (exec cfg rt) KeepsQueues w := by
  refine Prog.safe_perform fun w' hw => ?_
  rw [Replaces, SameQueues.findIf_isSome hw fun _ _ => rfl] at h
  obtain ⟨e, he⟩ := Option.isSome_iff_exists.mp h
  exact ⟨(_, ⟨_, w'.calls + 1⟩), exec_eq_some.mpr
    ⟨Option.map_eq_some_iff.mpr ⟨e, he, rfl⟩, rfl⟩⟩

/-- Where a queue exists in some region, its URL is found. -/
theorem findIf_of_queueUrlExists {db : SqsMemoryDb} {region queueUrl : Str}
    (h : db.queueUrlExists region queueUrl = true) :
    ∃ e, db.queues.findIf (fun _ q => q.queueUrl = queueUrl) = some e := by
  obtain ⟨e, he⟩ := Option.isSome_iff_exists.mp h
  obtain ⟨hget, hp⟩ := OrderedMap.findIf_some he
  have hp := of_decide_eq_true hp
  cases hf : db.queues.findIf fun _ q => q.queueUrl = queueUrl with
  | none =>
    have := OrderedMap.findIf_none.mp hf _ _ hget
    simp [hp.2] at this
  | some x => exact ⟨x, rfl⟩

/-- A queue found by its URL can be written back. -/
theorem replaces_getQueueByUrl {db : SqsMemoryDb} {region queueUrl : Str} (now : TimePoint)
    (h : db.queueUrlExists region queueUrl = true) :
    Replaces (db.getQueueByUrl queueUrl now).2 (db.getQueueByUrl queueUrl now).1 := by
  obtain ⟨x, hx⟩ := findIf_of_queueUrlExists h
  rw [SqsMemoryDb.getQueueByUrl, hx]
  by_contra hnone
  rw [Replaces, Option.not_isSome_iff_eq_none, OrderedMap.findIf_none] at hnone
  simpa [SqsMemoryDb.fetchQueue] using
    hnone x.1 { x.2 with oid := x.1 } (OrderedMap.get?_insert_self _ _ _)

theorem safe_getQueueByUrl {α : Type} {region queueUrl : Str} {body : Queue → SqsProg α} {w : World}
    (hexists : w.db.queueUrlExists region queueUrl = true)
    (hbody : ∀ queue w', Replaces w'.db queue → (body queue).Safe (exec cfg rt) KeepsQueues w') :
    (call (.getQueueByUrl region queueUrl) >>= body).Safe (exec cfg rt) KeepsQueues w := by
  refine Prog.safe_perform_bind fun w' hw => ⟨_, rfl, hbody _ _ ?_⟩
  rw [SqsMemoryDb.queueUrlExists, SameQueues.findIf_isSome hw fun _ _ => rfl] at hexists
  exact replaces_getQueueByUrl _ hexists

/-- A request makes defined calls, whatever the worker does to the counters meanwhile. -/
theorem serve_safe (env : Env) (request : QueueRequest) (w : World) :
    (request.serve env).Safe (exec cfg rt) KeepsQueues w := by
  cases request with
  | setQueueAttributes request =>
    refine Prog.safe_bind (Prog.safe_attempt ?_) fun _ _ => trivial
    refine Prog.safe_perform_bind fun w' _ => ⟨_, rfl, ?_⟩
    dsimp only
    split
    · next hfound =>
      refine Prog.safe_mapThrow (safe_getQueueByUrl hfound fun queue w hw => ?_)
      cases hq : withAttributes env.poco request queue with
      | error e => trivial
      | ok queue' =>
        obtain ⟨hregion, hname⟩ := withAttributes_ok hq
        have hw' : Replaces w.db queue' := by rw [Replaces, hregion, hname]; exact hw
        change (call (.updateQueue queue') >>= fun _ => pure _ : SqsProg _).Safe _ _ w
        exact Prog.safe_bind (safe_updateQueue hw') fun _ _ => trivial
    · trivial
  | tagQueue request =>
    refine Prog.safe_bind (Prog.safe_attempt (Prog.safe_mapThrow ?_)) fun _ _ => trivial
    refine Prog.safe_perform_bind fun w' _ => ⟨_, rfl, ?_⟩
    dsimp only
    split
    · next hfound =>
      refine safe_getQueueByUrl hfound fun queue w hw => ?_
      exact Prog.safe_bind (safe_updateQueue hw) fun _ _ => trivial
    · trivial
  | createQueue request =>
    refine Prog.safe_bind (Prog.safe_attempt ?_) fun _ _ => trivial
    exact (createQueue_only env request).safe (fun _ w hc => exec_total w hc.2) w
  | deleteQueue request =>
    refine Prog.safe_bind (Prog.safe_attempt ?_) fun _ _ => trivial
    exact (deleteQueue_only request).safe (fun _ w hc => exec_total w hc.2) w

/-! ### The calls of the worker -/

/-- The calls of a worker pass. -/
def SqsCall.ByWorker (c : SqsCall) : Prop := c = .listQueues [] ∨ ∃ queue, c.Maintains queue

theorem workerPass_only : workerPass.Only SqsCall.ByWorker :=
  Prog.only_bind (Prog.only_perform (.inl rfl)) fun _ => Prog.only_forEach fun queue _ =>
    (maintainQueue_only queue).mono fun _ hc => .inr ⟨queue, hc⟩

theorem SqsCall.ByWorker.keepsMessages {c : SqsCall} (hc : c.ByWorker) :
    (∀ m, c ≠ .updateMessage m) ∧ ∀ m, c ≠ .createMessage m := by
  rcases hc with rfl | ⟨queue, hc⟩
  · exact ⟨nofun, nofun⟩
  · constructor <;> rintro m rfl <;> exact hc

theorem SqsCall.ByWorker.writes {c : SqsCall} (hc : c.ByWorker) (h : c.writesQueues = true) :
    ∃ queue, c = .updateQueue queue := by
  rcases hc with rfl | ⟨queue, hc⟩
  · cases h
  · cases c with
    | updateQueue queue => exact ⟨queue, rfl⟩
    | _ => first | exact hc.elim | cases h

/-- A call of the worker is defined and keeps the queues up to their counters, when a record
    written back replaces the same record. -/
theorem worker_step (cfg : Configuration) (rt : Runtime) {w : World} {c : SqsCall} (hu : Undelayed w.db) (hc : c.ByWorker)
    (hcurrent : ReplacesCurrent (true, c, w)) :
    ∃ r, exec cfg rt c w = some r ∧ SameQueues w.db r.2.db := by
  cases hwrites : c.writesQueues with
  | false =>
    have hq : ∀ q, c ≠ .updateQueue q := by rintro q rfl; cases hwrites
    obtain ⟨r, hr⟩ := hu.defined cfg rt hq hc.keepsMessages.1
    exact ⟨r, hr, .of_queues (queues_of_apply hwrites (exec_eq_some.mp hr).1)⟩
  | true =>
    obtain ⟨queue, rfl⟩ := hc.writes hwrites
    obtain ⟨e, he, hsame⟩ := hcurrent queue rfl rfl
    have hself : w.db.queues.insert e.1 e.2 = w.db.queues :=
      OrderedMap.insert_get?_self (OrderedMap.findIf_some he).1
    have hupdated : SameQueues ⟨w.db.queues.insert e.1 e.2, w.db.messages⟩
        ⟨w.db.queues.insert e.1 queue, w.db.messages⟩ := (SameQueues.refl w.db).insert e.1 hsame
    rw [hself] at hupdated
    exact ⟨(queue, ⟨⟨w.db.queues.insert e.1 queue, w.db.messages⟩, w.calls + 1⟩),
      exec_eq_some.mpr ⟨Option.map_eq_some_iff.mpr ⟨e, he, rfl⟩, rfl⟩, hupdated⟩

/-! ### The result -/

/-- From any point of a worker pass and of the requests on: the run is defined, and a store that has
    the queues of the process now has them at the end, when it makes the calls of the requests. -/
theorem no_lost_update_from (cfg : Configuration) (rt : Runtime) : ∀ (sched : List Bool)
    {p q : SqsProg Unit} {w : World} {db : SqsMemoryDb}, p.Only SqsCall.ByWorker →
    q.Only SqsCall.OnQueues → q.Safe (exec cfg rt) KeepsQueues w → MessagesOk rt w →
    Undelayed w.db → SameQueues w.db db →
    (∀ e ∈ Prog.trace (exec cfg rt) sched p q w, ReplacesCurrent e) →
    ∃ p' q' w' db', Prog.interleave (exec cfg rt) sched p q w = some (p', q', w') ∧
      replay cfg rt (othersOf (Prog.trace (exec cfg rt) sched p q w)) db = some db' ∧
      SameQueues w'.db db'
  | [], p, q, w, db, _, _, _, _, _, hsame, _ => ⟨p, q, w, db, rfl, rfl, hsame⟩
  | true :: sched, p, q, w, db, hp, hq, hsafe, hw, hu, hsame, hcurrent => by
    cases p with
    | ret | throw =>
      rw [Prog.interleave_left_done sched rfl, Prog.trace_left_done sched rfl] at *
      exact no_lost_update_from cfg rt sched hp hq hsafe hw hu hsame hcurrent
    | call c k =>
      obtain ⟨hc, hk⟩ := hp
      obtain ⟨r, hr, hkeeps⟩ := worker_step cfg rt hu hc
        (hcurrent _ (Prog.mem_trace_left sched k q w))
      rw [Prog.trace_left sched hr] at hcurrent ⊢
      rw [Prog.interleave_left sched hr]
      exact no_lost_update_from cfg rt sched (hk r.1) hq
        (hsafe.of_rely (fun h h' => h.trans h') hkeeps) (hw.step hr)
        (hu.step hw (fun m hm => absurd hm (hc.keepsMessages.2 m))
          (fun m hm => absurd hm (hc.keepsMessages.1 m)) hr)
        (hkeeps.symm.trans hsame) (List.forall_mem_cons.mp hcurrent).2
  | false :: sched, p, q, w, db, hp, hq, hsafe, hw, hu, hsame, hcurrent => by
    cases q with
    | ret | throw =>
      rw [Prog.interleave_right_done sched rfl, Prog.trace_right_done sched rfl] at *
      exact no_lost_update_from cfg rt sched hp hq hsafe hw hu hsame hcurrent
    | call c k =>
      obtain ⟨hc, hk⟩ := hq
      obtain ⟨r, hr, hsafe⟩ := hsafe w (.refl _)
      obtain ⟨r₂, hr₂, hsame₂⟩ := hsame.apply hc (exec_eq_some.mp hr).1
      rw [Prog.trace_right sched hr] at hcurrent ⊢
      rw [Prog.interleave_right sched hr]
      have hmessages : (∀ m, c ≠ .updateMessage m) ∧ ∀ m, c ≠ .createMessage m := by
        constructor <;> rintro m rfl <;> exact hc
      obtain ⟨p', q', w', db', hrun, hreplay, hend⟩ := no_lost_update_from cfg rt sched hp (hk r.1)
        hsafe (hw.step hr) (hu.step hw (fun m hm => absurd hm (hmessages.2 m))
          (fun m hm => absurd hm (hmessages.1 m)) hr) hsame₂ (List.forall_mem_cons.mp hcurrent).2
      exact ⟨p', q', w', db', hrun, (replay_cons hr₂).trans hreplay, hend⟩

/-- A run from any reachable state in which every queue record written back by the worker replaces
    the same record loses no update. -/
theorem no_lost_queue_update (env : Env) (rt : Runtime) (requests : List QueueRequest)
    (before : List SqsCall) (sched : List Bool) (w : World)
    (hw : Prog.execAll (exec env.cfg rt) before {} = some w)
    (hbefore : ∀ c ∈ before, c.Undelaying)
    (hcurrent : ∀ e ∈ Prog.trace (exec env.cfg rt) sched workerPass (serveAll env requests) w,
      ReplacesCurrent e) : NoLostUpdate env rt requests sched w := by
  obtain ⟨hok, hu⟩ := undelayed_of_execAll .initial nofun hbefore hw
  have honly : (serveAll env requests).Only SqsCall.OnQueues :=
    Prog.only_forEach fun request _ => serve_only env request
  have hsafe : (serveAll env requests).Safe (exec env.cfg rt) KeepsQueues w :=
    Prog.safe_forEach (fun request w => serve_safe env request w) requests w
  exact no_lost_update_from env.cfg rt sched workerPass_only honly hsafe hok hu (.refl _) hcurrent

/-- A store with one queue. -/
def oneQueue : List SqsCall :=
  [.createQueue { name := str "q", queueUrl := str "url", created := 0, modified := 0 }]

/-- The request to tag that queue. -/
def tagIt : QueueRequest :=
  .tagQueue { queueUrl := str "url", tags := OrderedMap.ofList [(str "team", str "blue")] }

/-- A queue tagged before the pass starts. -/
theorem no_lost_queue_update_before : ∃ w,
    Prog.execAll (exec Env.sample.cfg (.counting 20)) oneQueue {} = some w ∧
    NoLostUpdate Env.sample (.counting 20) [tagIt]
      [false, false, false, true, true, true, true, true, true, true] w := by
  refine ⟨_, rfl, no_lost_queue_update _ _ _ oneQueue _ _ rfl ?_ ?_⟩
  · simp [oneQueue, SqsCall.Undelaying]
  · rintro e he queue hown hcall
    rcases he with _ | ⟨_, _ | ⟨_, _ | ⟨_, _ | ⟨_, _ | ⟨_, _ | ⟨_, _ | ⟨_, _ | ⟨_, _ | ⟨_, _ | ⟨_, he⟩⟩⟩⟩⟩⟩⟩⟩⟩⟩
    case tail.tail.tail.tail.tail.tail.tail.tail.tail.head =>
      cases hcall
      exact ⟨_, rfl, rfl⟩
    all_goals first | cases hown; done | cases hcall | cases he

/-- A tag set while the worker is at work on the queue is gone after the pass; and the pass
    dereferences the end iterator when the queue is deleted at that point. -/
theorem no_lost_queue_update_race : ∃ w,
    Prog.execAll (exec Env.sample.cfg (.counting 20)) oneQueue {} = some w ∧
    ¬ NoLostUpdate Env.sample (.counting 20) [tagIt]
      [true, false, false, false, true, true, true, true, true, true] w ∧
    ¬ NoLostUpdate Env.sample (.counting 20) [.deleteQueue { queueUrl := str "url" }]
      [true, false, false, false, true, true, true, true, true, true] w := by
  refine ⟨_, rfl, ?_, ?_⟩
  · rintro ⟨p, q, w', db', hrun, hreplay, hsame⟩
    cases hrun
    cases hreplay
    exact absurd hsame (by decide)
  · rintro ⟨p, q, w', db', hrun, -⟩
    cases hrun

end AwsMock.Sqs
