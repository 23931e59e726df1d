import AwsMock.Sqs.Steps

/-!
# Exclusive delivery

A run is a list of store calls, made by any number of clients and worker passes. Each
`ReceiveMessages` call of the run is logged with the messages it handed out and the store it left.
The invariant `Held` follows every logged message: as long as it is stored it is invisible with a
deadline not before the logged one, or the logged deadline has passed.
-/

namespace AwsMock.Sqs

open Lib

variable {cfg : Configuration} {rt : Runtime}

/-- One `ReceiveMessages` call: when it was made, what it handed out and the store after it. -/
structure Delivery where
  time : TimePoint
  messageList : List Message
  after : SqsMemoryDb

/-- The log entry of a call. -/
def deliveryOf (rt : Runtime) (w : World) : (c : SqsCall) → c.Reply × World → List Delivery
  | .receiveMessages .., (messageList, w') => [⟨rt.now w.calls, messageList, w'.db⟩]
  | _, _ => []

/-- The deliveries of a run, up to its first call without a defined result. -/
def deliveries (cfg : Configuration) (rt : Runtime) : List SqsCall → World → List Delivery
  | [], _ => []
  | c :: cs, w =>
    match exec cfg rt c w with
    | some r => deliveryOf rt w c r ++ deliveries cfg rt cs r.2
    | none => []

/-- Of two deliveries of one message, the later one is made after the deadline that the earlier one
    stored with the message. -/
def Expired (d e : Delivery) : Prop :=
  ∀ a ∈ d.messageList, ∀ b ∈ e.messageList, a.oid = b.oid →
    ∃ stored, d.after.messages.get? a.oid = some stored ∧ stored.reset < e.time

/-- No message twice in one delivery, and none again before its deadline has passed. -/
structure Exclusive (log : List Delivery) : Prop where
  nodup : ∀ d ∈ log, (d.messageList.map Message.oid).Nodup
  expired : log.Pairwise Expired

/-! ### The invariant -/

/-- What is known of a delivered message in the state `w`. -/
structure Held (rt : Runtime) (w : World) (d : Delivery) (a : Message) : Prop where
  drawn : ∃ i < w.calls, a.oid = rt.uuid i
  stored : ∃ stored, d.after.messages.get? a.oid = some stored ∧
    ((∀ m, w.db.messages.get? a.oid = some m → m.status = .invisible ∧ stored.reset ≤ m.reset) ∨
      ∀ i ≥ w.calls, stored.reset < rt.now i)

/-- A delivered message keeps its hold through every call that does not rewrite whole records. -/
theorem Held.step {w w' : World} {c : SqsCall} {r : c.Reply} {d : Delivery} {a : Message}
    (hw : MessagesOk rt w) (ha : Held rt w d a) (hc : ∀ m, c ≠ .updateMessage m)
    (h : exec cfg rt c w = some (r, w')) : Held rt w' d a := by
  obtain ⟨happ, hn⟩ := exec_eq_some.mp h
  obtain ⟨⟨i, hi, hoid⟩, stored, hs, hcase⟩ := ha
  refine ⟨⟨i, by omega, hoid⟩, stored, hs, ?_⟩
  rcases hcase with hinv | hpast
  · have hstep := messageStep hw.keyed happ a.oid
    -- the only way out of `invisible` is a reset after the deadline
    cases hstep' : w'.db.messages.get? a.oid with
    | none => exact .inl fun m hm => nomatch hm
    | some m' =>
      rw [hstep'] at hstep
      generalize w.db.messages.get? a.oid = m₀ at hstep hinv
      cases hstep with
      | same => exact .inl hinv
      | created hk => have := rt.uuid_inj (hoid.symm.trans hk); omega
      | updated => exact absurd rfl (hc _)
      | received _ _ hs => simp [hs] at hinv
      | redriven _ hs => simp [hs] at hinv
      | undelayed _ hs => simp [hs] at hinv
      | reset _ _ ht =>
        refine .inr fun i hi => ?_
        calc stored.reset ≤ _ := (hinv _ rfl).2
          _ < rt.clock w.calls a.oid := ht
          _ ≤ rt.now i := rt.clock_le_now _ (by omega)
  · exact .inr fun i hi => hpast i (by omega)

/-- The state of a run together with its log. -/
structure RunOk (rt : Runtime) (w : World) (log : List Delivery) : Prop where
  messages : MessagesOk rt w
  held : ∀ d ∈ log, ∀ a ∈ d.messageList, Held rt w d a
  exclusive : Exclusive log

/-- What a `ReceiveMessages` call adds to the log. -/
theorem delivery_held {region queueUrl : Str} {visibility maxMessages : Int} {w w' : World}
    {messageList : List Message} (hw : MessagesOk rt w)
    (h : exec cfg rt (.receiveMessages region queueUrl visibility maxMessages) w =
      some (messageList, w')) :
    (messageList.map Message.oid).Nodup ∧
      (∀ b ∈ messageList, ∃ m, w.db.messages.get? b.oid = some m ∧ m.status = .initial) ∧
      ∀ b ∈ messageList, Held rt w' ⟨rt.now w.calls, messageList, w'.db⟩ b := by
  obtain ⟨ha, hn⟩ := exec_eq_some.mp h
  simp only [SqsCall.apply, SqsMemoryDb.receiveMessages_eq, Option.some.injEq,
    Prod.mk.injEq] at ha
  obtain ⟨hlist, hdb⟩ := ha
  -- a handed-out record still carries its key
  have key : ∀ e ∈ w.db.received region queueUrl maxMessages,
      (SqsMemoryDb.handOut (rt.receiptHandle w.calls) e).oid = e.1 := fun e he => by
    have := hw.keyed _ _ (SqsMemoryDb.mem_received he).1
    exact this
  have hoids : messageList.map Message.oid =
      (w.db.received region queueUrl maxMessages).map Prod.fst := by
    rw [← hlist, List.map_map]
    exact List.map_congr_left key
  refine ⟨hoids ▸ SqsMemoryDb.received_keys_nodup, fun b hb => ?_, fun b hb => ?_⟩
  · rw [← hlist] at hb
    obtain ⟨e, he, rfl⟩ := List.mem_map.mp hb
    obtain ⟨hget, -, -, hs⟩ := SqsMemoryDb.mem_received he
    exact ⟨e.2, by rw [key e he]; exact hget, hs⟩
  · rw [← hlist] at hb
    obtain ⟨e, he, rfl⟩ := List.mem_map.mp hb
    have hget := (SqsMemoryDb.mem_received he).1
    obtain ⟨i, hi, hdrawn⟩ := hw.drawn _ _ hget
    have hafter : w'.db.messages.get? e.1 = some (SqsMemoryDb.held (rt.receiptHandle w.calls)
        (rt.now w.calls + seconds visibility) e.1 e.2) := by
      rw [← hdb]
      have : e.1 ∈ (w.db.received region queueUrl maxMessages).map Prod.fst :=
        List.mem_map_of_mem he
      simp only [OrderedMap.get?_mapVal, hget, Option.map_some, this, if_true]
    rw [← key e he] at hafter hdrawn
    exact ⟨⟨i, by omega, hdrawn⟩, _, hafter, .inl fun m hm => by
      rw [hafter] at hm
      cases hm
      exact ⟨rfl, le_rfl⟩⟩

/-- One call of a run. -/
theorem RunOk.step {w w' : World} {log : List Delivery} {c : SqsCall} {r : c.Reply}
    (hw : RunOk rt w log) (hc : ∀ m, c ≠ .updateMessage m)
    (h : exec cfg rt c w = some (r, w')) : RunOk rt w' (log ++ deliveryOf rt w c (r, w')) := by
  have hmessages := hw.messages.step h
  have hheld : ∀ d ∈ log, ∀ a ∈ d.messageList, Held rt w' d a := fun d hd a ha =>
    (hw.held d hd a ha).step hw.messages hc h
  cases c with
  | receiveMessages region queueUrl visibility maxMessages =>
    obtain ⟨hnodup, hinitial, hnew⟩ := delivery_held hw.messages h
    change RunOk rt w' (log ++ [⟨rt.now w.calls, r, w'.db⟩])
    refine ⟨hmessages, ?_, ?_, ?_⟩
    · simpa [or_imp, forall_and] using ⟨hheld, hnew⟩
    · simpa [or_imp, forall_and] using ⟨hw.exclusive.nodup, hnodup⟩
    · refine List.pairwise_append.mpr ⟨hw.exclusive.expired, by simp, fun d hd e he => ?_⟩
      rw [List.mem_singleton.mp he]
      intro a ha b hb hab
      -- the message is visible now, so its earlier deadline has passed
      obtain ⟨-, stored, hs, hcase⟩ := hw.held d hd a ha
      refine ⟨stored, hs, ?_⟩
      rcases hcase with hinv | hpast
      · obtain ⟨m, hm, hi⟩ := hinitial b hb
        have := (hinv m (hab ▸ hm)).1
        simp [hi] at this
      · exact hpast _ le_rfl
  | _ => simpa [deliveryOf] using ⟨hmessages, hheld, hw.exclusive⟩

theorem RunOk.run : ∀ {cs : List SqsCall} {w : World} {log : List Delivery}, RunOk rt w log →
    (∀ c ∈ cs, ∀ m, c ≠ .updateMessage m) → Exclusive (log ++ deliveries cfg rt cs w)
  | [], _, log, hw, _ => by simpa [deliveries] using hw.exclusive
  | c :: cs, w, log, hw, hcs => by
    unfold deliveries
    cases h : exec cfg rt c w with
    | none => simpa using hw.exclusive
    | some r =>
      have hstep := hw.step (hcs c (by simp)) h
      rw [← List.append_assoc]
      exact RunOk.run hstep fun c' hc' => hcs c' (by simp [hc'])

/-! ### Defined runs -/

theorem Undelayed.run : ∀ {cs : List SqsCall} {w : World}, MessagesOk rt w → Undelayed w.db →
    (∀ c ∈ cs, ∀ m, c ≠ .updateMessage m) → (∀ c ∈ cs, ∀ q, c ≠ .updateQueue q) →
    (∀ c ∈ cs, ∀ m, c = .createMessage m → m.status ≠ .delayed) →
    ∃ w', Prog.execAll (exec cfg rt) cs w = some w'
  | [], w, _, _, _, _, _ => ⟨w, rfl⟩
  | c :: cs, w, hw, hu, hc, hq, hcreate => by
    obtain ⟨hc, hcs⟩ := List.forall_mem_cons.mp hc
    obtain ⟨hq, hqs⟩ := List.forall_mem_cons.mp hq
    obtain ⟨hcreate, hcreates⟩ := List.forall_mem_cons.mp hcreate
    obtain ⟨r, hr⟩ := hu.defined cfg rt hq hc
    obtain ⟨w', hw'⟩ := Undelayed.run (hw.step hr)
      (hu.step hw hcreate (fun m hm => absurd hm (hc m)) hr) hcs hqs hcreates
    exact ⟨w', by simp only [Prog.execAll, hr, Option.bind_some, hw']⟩

/-! ### The result -/

/-- Whatever calls clients and worker passes make on an empty store, in any order, deliveries are
    exclusive; and the run is defined when, as with `SendMessage`, no created message is delayed. -/
theorem exclusive_delivery (cfg : Configuration) (rt : Runtime) (cs : List SqsCall)
    (hcs : ∀ c ∈ cs, ∀ m, c ≠ .updateMessage m) :
    Exclusive (deliveries cfg rt cs {}) ∧
      ((∀ c ∈ cs, ∀ q, c ≠ .updateQueue q) →
        (∀ c ∈ cs, ∀ m, c = .createMessage m → m.status ≠ .delayed) →
        ∃ w, Prog.execAll (exec cfg rt) cs {} = some w) := by
  have hinit : RunOk rt {} [] := ⟨.initial, by simp, ⟨by simp, .nil⟩⟩
  exact ⟨hinit.run hcs, fun hq hcreate =>
    Undelayed.run .initial (fun _ _ h => nomatch h) hcs hq hcreate⟩

/-- A message received, held, reset after its deadline and received again. -/
theorem exclusive_delivery_redelivered :
    let url := str "http://q"
    let receive := SqsCall.receiveMessages [] url 30 10
    let log := deliveries { hostName := [] } (Runtime.counting 20)
      [.createMessage { queueUrl := url, created := 0, modified := 0 }, receive, receive,
        .resetMessages url 30, receive] {}
    Exclusive log ∧ log.map (·.messageList.length) = [1, 0, 1] :=
  ⟨(exclusive_delivery _ _ _ (by simp)).1, by decide⟩

end AwsMock.Sqs
