import AwsMock.Sqs.Interleaving

/-!
# Changing the visibility while others call

`SetVisibilityTimeout` reads a message, changes the copy and writes the whole record back, with no lock
around the three store calls. Its calls are interleaved with any calls of other clients and of the
worker. As long as the record written back is the one that is stored, up to the change, the run is
the one in which the change is made at a single point; a call that changes or deletes the message
between the read and the write breaks this.
-/

namespace AwsMock.Sqs

open Lib

/-- The store after the visibility of the message `m` under the key `k` has changed. -/
def changeVisibility (request : ChangeMessageVisibilityRequest) (now : TimePoint) (k : Str)
    (m : Message) (db : SqsMemoryDb) : SqsMemoryDb :=
  ⟨db.queues, db.messages.insert k (withVisibility request.visibilityTimeout now m)⟩

/-- The visibility change, made at one point of the other calls. -/
def ChangedOnce (cfg : Configuration) (rt : Runtime) (request : ChangeMessageVisibilityRequest)
    (others : List (Nat × SqsCall)) (db db' : SqsMemoryDb) : Prop :=
  ∃ pre post db₁ k m now, others = pre ++ post ∧ replay cfg rt pre db = some db₁ ∧
    db₁.messages.get? k = some m ∧ m.receiptHandle = request.receiptHandle ∧
    replay cfg rt post (changeVisibility request now k m db₁) = some db'

/-- A record written back is the stored one, up to the change. -/
def WritesCurrent (request : ChangeMessageVisibilityRequest) (e : Bool × SqsCall × World) : Prop :=
  ∀ message, e.1 = true → e.2.1 = .updateMessage message → ∃ stored now,
    e.2.2.db.messages.get? message.oid = some stored ∧
    message = withVisibility request.visibilityTimeout now stored

/-- The run of a schedule is defined, and its store is that of the other calls alone until the
    request has succeeded, and from then on that of the other calls and one visibility change. -/
def AtomicVisibility (cfg : Configuration) (rt : Runtime) (request : ChangeMessageVisibilityRequest)
    (p : SqsProg Unit) (others : List SqsCall) (sched : List Bool) (w : World) : Prop :=
  ∃ p' q' w', Prog.interleave (exec cfg rt) sched p (Prog.callAll others : SqsProg Unit) w =
      some (p', q', w') ∧
    let made := othersOf (Prog.trace (exec cfg rt) sched p (Prog.callAll others : SqsProg Unit) w)
    (p' = .ret () → ChangedOnce cfg rt request made w.db w'.db) ∧
    (p' ≠ .ret () → replay cfg rt made w.db = some w'.db)

/-! ### The stages of the request -/

/-- What is left of `SetVisibilityTimeout` once the message has been read. -/
def afterRead (request : ChangeMessageVisibilityRequest) (message : Message) : SqsProg Unit :=
  guarded do
    let now ← call .clockNow
    let _ ← call (.updateMessage (withVisibility request.visibilityTimeout now message))

/-- What is left of it once the clock has been read. -/
def afterClock (request : ChangeMessageVisibilityRequest) (message : Message) (now : TimePoint) :
    SqsProg Unit :=
  guarded do
    let _ ← call (.updateMessage (withVisibility request.visibilityTimeout now message))

/-- What is left of it once the message is known to exist. -/
def afterExists (request : ChangeMessageVisibilityRequest) : SqsProg Unit :=
  guarded do
    let message ← call (.getMessageByReceiptHandle request.receiptHandle)
    let now ← call .clockNow
    let _ ← call (.updateMessage (withVisibility request.visibilityTimeout now message))

/-- The message read is the one asked for, or none was found. -/
def ReadFor (request : ChangeMessageVisibilityRequest) (message : Message) : Prop :=
  message.receiptHandle = request.receiptHandle ∨ message.oid = []

/-- The request before its write-back. -/
inductive Stage (request : ChangeMessageVisibilityRequest) : SqsProg Unit → Prop
  | start : Stage request (setVisibilityTimeout request)
  | missing (e : Error) : Stage request (.throw e)
  | found : Stage request (afterExists request)
  | read (message : Message) (h : ReadFor request message) :
    Stage request (afterRead request message)
  | timed (message : Message) (now : TimePoint) (h : ReadFor request message) :
    Stage request (afterClock request message now)

variable {cfg : Configuration} {rt : Runtime} {request : ChangeMessageVisibilityRequest}

theorem Stage.ne_ret {p : SqsProg Unit} (h : Stage request p) : p ≠ .ret () := by
  cases h with
  | start | found | read | timed | missing => exact nofun

/-! ### The run, from any stage on -/

/-- Once the request has ended, only the other calls are made. -/
theorem finished (cfg : Configuration) (rt : Runtime) : ∀ (sched : List Bool) (p : SqsProg Unit)
    (others : List SqsCall) (w : World), p.next = none → (∀ c ∈ others, c.total = true) →
    ∃ q' w', Prog.interleave (exec cfg rt) sched p (Prog.callAll others : SqsProg Unit) w =
        some (p, q', w') ∧
      replay cfg rt (othersOf (Prog.trace (exec cfg rt) sched p
        (Prog.callAll others : SqsProg Unit) w)) w.db = some w'.db
  | [], p, others, w, _, _ => ⟨_, w, rfl, rfl⟩
  | true :: sched, p, others, w, hp, ho => by
    rw [Prog.interleave_left_done sched hp, Prog.trace_left_done sched hp]
    exact finished cfg rt sched p others w hp ho
  | false :: sched, p, [], w, hp, ho => finished cfg rt sched p [] w hp ho
  | false :: sched, p, c :: others, w, hp, ho => by
    obtain ⟨hc, ho⟩ := List.forall_mem_cons.mp ho
    obtain ⟨r, hr⟩ := SqsCall.total_apply cfg rt w.calls w.db hc
    have hexec : exec cfg rt c w = some (r.1, ⟨r.2, w.calls + 1⟩) := exec_eq_some.mpr ⟨hr, rfl⟩
    rw [Prog.callAll, Prog.interleave_right sched hexec, Prog.trace_right sched hexec]
    obtain ⟨q', w', hrun, hreplay⟩ := finished cfg rt sched p others ⟨r.2, w.calls + 1⟩ hp ho
    exact ⟨q', w', hrun, (replay_cons hr).trans hreplay⟩

/-- A call of the other party comes first. -/
theorem AtomicVisibility.other {p : SqsProg Unit} {c : SqsCall} {others : List SqsCall}
    {sched : List Bool} {w : World} {r : c.Reply × World} (hr : exec cfg rt c w = some r)
    (h : AtomicVisibility cfg rt request p others sched r.2) :
    AtomicVisibility cfg rt request p (c :: others) (false :: sched) w := by
  obtain ⟨p', q', w', hrun, hdone, hundone⟩ := h
  have happly := (exec_eq_some.mp hr).1
  refine ⟨p', q', w', (Prog.interleave_right sched hr).trans hrun, ?_, ?_⟩
  · rw [Prog.callAll, Prog.trace_right sched hr]
    intro hp
    obtain ⟨pre, post, db₁, k, m, now, hsplit, hpre, hget, hhandle, hpost⟩ := hdone hp
    exact ⟨(w.calls, c) :: pre, post, db₁, k, m, now, congrArg _ hsplit,
      (replay_cons happly).trans hpre, hget, hhandle, hpost⟩
  · rw [Prog.callAll, Prog.trace_right sched hr]
    exact fun hp => (replay_cons happly).trans (hundone hp)

/-- A call of the request that leaves the store alone comes first. -/
theorem AtomicVisibility.own {p : SqsProg Unit} {c : SqsCall} {k : c.Reply → SqsProg Unit}
    {others : List SqsCall} {sched : List Bool} {w : World} {r : c.Reply × World}
    (hp : p = .call c k) (hr : exec cfg rt c w = some r) (hdb : r.2.db = w.db)
    (h : AtomicVisibility cfg rt request (k r.1) others sched r.2) :
    AtomicVisibility cfg rt request p others (true :: sched) w := by
  subst hp
  obtain ⟨p', q', w', hrun, hdone, hundone⟩ := h
  rw [hdb] at hdone hundone
  refine ⟨p', q', w', (Prog.interleave_left sched hr).trans hrun, ?_, ?_⟩
  · rw [Prog.trace_left sched hr]
    exact hdone
  · rw [Prog.trace_left sched hr]
    exact hundone

/-- The whole trace meets the condition, so the trace after the first call does. -/
theorem condition_tail {p : SqsProg Unit} {c : SqsCall} {k : c.Reply → SqsProg Unit}
    {q : SqsProg Unit} {sched : List Bool} {w : World} {r : c.Reply × World}
    (hp : p = .call c k) (hr : exec cfg rt c w = some r)
    (h : ∀ e ∈ Prog.trace (exec cfg rt) (true :: sched) p q w, WritesCurrent request e) :
    ∀ e ∈ Prog.trace (exec cfg rt) sched (k r.1) q r.2, WritesCurrent request e := by
  subst hp
  rw [Prog.trace_left sched hr] at h
  exact (List.forall_mem_cons.mp h).2

/-- What the lookup of the request returns. -/
theorem readFor_lookup {db : SqsMemoryDb} (h : db.KeyedMessages) (now : TimePoint) :
    ReadFor request (db.getMessageByReceiptHandle request.receiptHandle now).1 := by
  unfold SqsMemoryDb.getMessageByReceiptHandle
  cases he : db.messages.findIf fun _ m => m.receiptHandle = request.receiptHandle with
  | none => exact .inr rfl
  | some e =>
    obtain ⟨hget, hp⟩ := OrderedMap.findIf_some he
    rw [SqsMemoryDb.fetchMessage_fst h hget]
    exact .inl (of_decide_eq_true hp)

/-- From every stage before the write-back on, the run is atomic. -/
theorem Stage.atomic : ∀ (sched : List Bool) {p : SqsProg Unit} {others : List SqsCall}
    {w : World}, Stage request p → MessagesOk rt w → (∀ c ∈ others, c.total = true) →
    (∀ e ∈ Prog.trace (exec cfg rt) sched p (Prog.callAll others : SqsProg Unit) w,
      WritesCurrent request e) →
    AtomicVisibility cfg rt request p others sched w
  | [], p, others, w, hp, _, _, _ =>
    ⟨p, _, w, rfl, fun h => absurd h hp.ne_ret, fun _ => rfl⟩
  | false :: sched, p, [], w, hp, hw, ho, hcond => Stage.atomic sched hp hw ho hcond
  | false :: sched, p, c :: others, w, hp, hw, ho, hcond => by
    obtain ⟨hc, ho⟩ := List.forall_mem_cons.mp ho
    obtain ⟨r, hr⟩ := SqsCall.total_apply cfg rt w.calls w.db hc
    have hexec : exec cfg rt c w = some (r.1, ⟨r.2, w.calls + 1⟩) := exec_eq_some.mpr ⟨hr, rfl⟩
    rw [Prog.callAll, Prog.trace_right sched hexec] at hcond
    exact .other hexec (Stage.atomic sched hp (hw.step hexec) ho (List.forall_mem_cons.mp hcond).2)
  | true :: sched, p, others, w, hp, hw, ho, hcond => by
    cases hp with
    | missing e =>
      obtain ⟨q', w', hrun, hreplay⟩ := finished cfg rt (true :: sched) (.throw e) others w rfl ho
      exact ⟨_, q', w', hrun, nofun, fun _ => hreplay⟩
    | start =>
      have hr : exec cfg rt (.messageExists request.receiptHandle) w =
          some (w.db.messageExists request.receiptHandle, ⟨w.db, w.calls + 1⟩) := rfl
      refine .own rfl hr rfl (Stage.atomic sched ?_ (hw.step hr) ho (condition_tail rfl hr hcond))
      cases w.db.messageExists request.receiptHandle with
      | true => exact .found
      | false => exact .missing _
    | found =>
      have hr : exec cfg rt (.getMessageByReceiptHandle request.receiptHandle) w =
          some ((w.db.getMessageByReceiptHandle request.receiptHandle (rt.now w.calls)).1,
            ⟨(w.db.getMessageByReceiptHandle request.receiptHandle (rt.now w.calls)).2,
              w.calls + 1⟩) := rfl
      exact .own rfl hr (SqsMemoryDb.fetchMessage_snd hw.keyed _ _) (Stage.atomic sched
        (.read _ (readFor_lookup hw.keyed _)) (hw.step hr) ho (condition_tail rfl hr hcond))
    | read message hread =>
      have hr : exec cfg rt .clockNow w = some (rt.now w.calls, ⟨w.db, w.calls + 1⟩) := rfl
      exact .own rfl hr rfl (Stage.atomic sched (.timed _ _ hread) (hw.step hr) ho
        (condition_tail rfl hr hcond))
    | timed message now hread =>
      -- the write-back: the condition says that the record read is still stored
      obtain ⟨stored, now', hget, hm⟩ := hcond (true, .updateMessage (withVisibility
        request.visibilityTimeout now message), w) (Prog.mem_trace_left sched _ _ _) _ rfl rfl
      have hkey : message.oid ≠ [] := fun h => by
        obtain ⟨i, -, hi⟩ := hw.drawn _ _ hget
        exact rt.uuid_ne i (hi.symm.trans h)
      have hhandle : stored.receiptHandle = request.receiptHandle :=
        (congrArg Message.receiptHandle hm).symm.trans (hread.resolve_right hkey)
      have hr : exec cfg rt (.updateMessage (withVisibility request.visibilityTimeout now message))
          w = some (_, ⟨_, w.calls + 1⟩) := exec_eq_some.mpr
        ⟨(SqsMemoryDb.updateMessage_eq_some hw.keyed).mpr ⟨⟨stored, hget⟩, rfl⟩, rfl⟩
      obtain ⟨q', w', hrun, hreplay⟩ := finished cfg rt sched (.ret ()) others
        ⟨_, w.calls + 1⟩ rfl ho
      refine ⟨.ret (), q', w', (Prog.interleave_left sched hr).trans hrun, fun _ => ?_,
        fun h => absurd rfl h⟩
      have ht : Prog.trace (exec cfg rt) (true :: sched) (afterClock request message now)
          (Prog.callAll others : SqsProg Unit) w = _ := Prog.trace_left sched hr
      rw [ht]
      refine ⟨[], _, w.db, _, stored, now', rfl, rfl, hget, hhandle, ?_⟩
      rw [changeVisibility, ← hm]
      exact hreplay

/-! ### The result -/

/-- A run from any reachable state in which every record written back is current is atomic. -/
theorem setVisibilityTimeout_atomic (cfg : Configuration) (rt : Runtime)
    (request : ChangeMessageVisibilityRequest) (before others : List SqsCall) (sched : List Bool)
    (w : World) (hw : Prog.execAll (exec cfg rt) before {} = some w)
    (ho : ∀ c ∈ others, c.total = true)
    (hcurrent : ∀ e ∈ Prog.trace (exec cfg rt) sched (setVisibilityTimeout request)
      (Prog.callAll others : SqsProg Unit) w, WritesCurrent request e) :
    AtomicVisibility cfg rt request (setVisibilityTimeout request) others sched w := by
  have hok : MessagesOk rt w :=
    Prog.execAll_invariant (fun c s r hs hr => hs.step hr) .initial hw
  exact Stage.start.atomic sched hok ho hcurrent

/-- A message that has been received; its receipt handle is the one of call 1. -/
def receivedOnce : List SqsCall :=
  [.createMessage { queueUrl := str "q", created := 0, modified := 0 },
    .receiveMessages [] (str "q") 30 10]

/-- The request to keep that message invisible for a minute. -/
def keepInvisible : ChangeMessageVisibilityRequest where
  receiptHandle := (Runtime.counting 20).receiptHandle 1 ((Runtime.counting 20).uuid 0)
  visibilityTimeout := 60

/-- Nothing falls between the calls of the request, and then the message is deleted. -/
theorem setVisibilityTimeout_atomic_alone : ∃ w,
    Prog.execAll (exec Env.sample.cfg (.counting 20)) receivedOnce {} = some w ∧
    AtomicVisibility Env.sample.cfg (.counting 20) keepInvisible
      (setVisibilityTimeout keepInvisible) [.deleteMessage keepInvisible.receiptHandle]
      [true, true, true, true, false] w := by
  refine ⟨_, rfl, setVisibilityTimeout_atomic _ _ _ receivedOnce _ _ _ rfl
    (by simp [SqsCall.total]) ?_⟩
  rintro e (_ | ⟨_, _ | ⟨_, _ | ⟨_, _ | ⟨_, _ | ⟨_, he⟩⟩⟩⟩⟩) message hown hcall
  case tail.tail.tail.head =>
    cases hcall
    exact ⟨_, _, rfl, rfl⟩
  all_goals first | cases hcall | cases hown | cases he

/-- A deletion between the read and the write makes `UpdateMessage` dereference the end iterator; a
    second delivery there is undone: the message ends with the handle and the count of the first. -/
theorem setVisibilityTimeout_race : ∃ w,
    Prog.execAll (exec Env.sample.cfg (.counting 20)) receivedOnce {} = some w ∧
    ¬ AtomicVisibility Env.sample.cfg (.counting 20) keepInvisible
      (setVisibilityTimeout keepInvisible) [.deleteMessage keepInvisible.receiptHandle]
      [true, true, true, false, true] w ∧
    ∃ p q w', Prog.interleave (exec Env.sample.cfg (.counting 20))
        [true, true, true, false, false, true] (setVisibilityTimeout keepInvisible)
        (Prog.callAll [.resetMessages (str "q") 30, .receiveMessages [] (str "q") 30 10] :
          SqsProg Unit) w = some (p, q, w') ∧
      w'.db.messages.values.map (fun m => (m.receiptHandle, m.retries)) =
        [(keepInvisible.receiptHandle, 1)] := by
  refine ⟨_, rfl, ?_, _, _, _, rfl, by decide⟩
  rintro ⟨p, q, w, hrun, -⟩
  cases hrun

end AwsMock.Sqs
