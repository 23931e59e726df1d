import AwsMock.Sqs.Requests

/-!
# Delete precision

A ledger notes beside the store which receipt handle was last returned for each message, by the send
or by a hand-out. In every reachable ledger a stored message has the handle noted for it or the empty
handle that `ResetMessages` leaves, and the noted handles differ. So `DeleteMessage` removes exactly
the message a handle was returned for, unless it is sent the empty handle while an expired message
is stored: then every such message goes.
-/

namespace AwsMock.Sqs

open Lib

/-- The process, and the last handle returned for each message. -/
structure Ledger where
  world : World := {}
  lastHandle : OrderedMap Str Str := ∅
  deriving DecidableEq

/-- Note a handle returned for a message. -/
def noteHandle (lastHandle : OrderedMap Str Str) (message : Message) : OrderedMap Str Str :=
  lastHandle.insert message.oid message.receiptHandle

/-- What a reply adds to the notes. -/
def note (lastHandle : OrderedMap Str Str) : (c : SqsCall) → c.Reply → OrderedMap Str Str
  | .createMessage _, message => noteHandle lastHandle message
  | .receiveMessages .., messageList => messageList.foldl noteHandle lastHandle
  | _, _ => lastHandle

/-- A call in the process, with its reply noted. -/
def execLedger (cfg : Configuration) (rt : Runtime) : Prog.Exec SqsCall SqsCall.Reply Ledger :=
  fun c l => (exec cfg rt c l.world).map fun r => (r.1, ⟨r.2, note l.lastHandle c r.1⟩)

/-- A record written back has the handle that is stored with its message. -/
def Current (l : Ledger) : SqsCall → Prop
  | .updateMessage message => ∀ stored, l.world.db.messages.get? message.oid = some stored →
      stored.receiptHandle = message.receiptHandle
  | _ => True

/-- What sends and the store calls of all other requests and of the worker lead to, in any order,
    when no stale record is written back. -/
inductive Reachable (env : Env) (rt : Runtime) : Ledger → Prop
  | initial : Reachable env rt {}
  | send {l : Ledger} {r : Except Error SendMessageResponse × Ledger}
    (hl : Reachable env rt l) (request : SendMessageRequest)
    (h : (sendMessage env request).run (execLedger env.cfg rt) l = some r) : Reachable env rt r.2
  | call {l : Ledger} {c : SqsCall} {r : c.Reply × Ledger} (hl : Reachable env rt l)
    (hcreate : ∀ m, c ≠ .createMessage m) (hcurrent : Current l c)
    (h : execLedger env.cfg rt c l = some r) : Reachable env rt r.2

/-- `DeleteMessage` fails and changes nothing, or it removes the one message whose last handle is
    the handle sent, and no other. -/
def PreciseDelete (env : Env) (rt : Runtime) (l : Ledger) (request : DeleteMessageRequest) : Prop :=
  ∃ outcome w, (deleteMessage request).run (exec env.cfg rt) l.world = some (outcome, w) ∧
    match outcome with
    | .error _ => w.db = l.world.db
    | .ok () => w.db.queues = l.world.db.queues ∧ ∃ oid,
        (∃ m, l.world.db.messages.get? oid = some m) ∧
        l.lastHandle.get? oid = some request.receiptHandle ∧
        ∀ k, w.db.messages.get? k = if k = oid then none else l.world.db.messages.get? k

/-! ### The invariant -/

/-- The notes agree with the store. -/
structure LedgerOk (rt : Runtime) (l : Ledger) : Prop where
  messages : MessagesOk rt l.world
  noted : ∀ k m, l.world.db.messages.get? k = some m →
    ∃ h, l.lastHandle.get? k = some h ∧ (m.receiptHandle = [] ∨ m.receiptHandle = h)
  distinct : ∀ k k' h, l.lastHandle.get? k = some h → l.lastHandle.get? k' = some h → k = k'
  drawn : ∀ k h, l.lastHandle.get? k = some h → ∃ i < l.world.calls, ∃ j, h = rt.receiptHandle i j

variable {cfg : Configuration} {rt : Runtime} {l : Ledger}

theorem execLedger_eq_some {c : SqsCall} {r : c.Reply × Ledger} :
    execLedger cfg rt c l = some r ↔
      exec cfg rt c l.world = some (r.1, r.2.world) ∧ r.2.lastHandle = note l.lastHandle c r.1 := by
  unfold execLedger
  constructor
  · intro h
    obtain ⟨x, hx, rfl⟩ := Option.map_eq_some_iff.mp h
    exact ⟨hx, rfl⟩
  · rintro ⟨hx, hn⟩
    rw [hx, Option.map_some, ← hn]

/-- The handles noted for one delivery. -/
theorem get?_foldl_noteHandle : ∀ {ms : List Message} {last : OrderedMap Str Str} {k h : Str},
    (ms.foldl noteHandle last).get? k = some h →
    (∃ m ∈ ms, m.oid = k ∧ m.receiptHandle = h) ∨
      last.get? k = some h ∧ ∀ m ∈ ms, m.oid ≠ k
  | [], last, k, h, hk => .inr ⟨hk, by simp⟩
  | m :: ms, last, k, h, hk => by
    rcases @get?_foldl_noteHandle ms _ k h hk with ⟨m', hm', he⟩ | ⟨hlast, hne⟩
    · exact .inl ⟨m', by simp [hm'], he⟩
    · rw [noteHandle, OrderedMap.get?_insert] at hlast
      split at hlast
      · next hmk => exact .inl ⟨m, by simp, hmk.symm, Option.some.inj hlast⟩
      · next hmk => exact .inr ⟨hlast, by simpa [Ne.symm hmk] using hne⟩

theorem exists_get?_foldl_noteHandle {ms : List Message} {last : OrderedMap Str Str} {k : Str}
    (hk : (∃ m ∈ ms, m.oid = k) ∨ ∃ h, last.get? k = some h) :
    ∃ h, (ms.foldl noteHandle last).get? k = some h := by
  induction ms generalizing last with
  | nil => simpa using hk
  | cons m ms ih =>
    refine ih ?_
    rw [noteHandle, OrderedMap.get?_insert]
    by_cases hmk : k = m.oid
    · exact .inr ⟨m.receiptHandle, if_pos hmk⟩
    · rw [if_neg hmk]
      rcases hk with ⟨m', hm', he⟩ | h
      · rcases List.mem_cons.mp hm' with rfl | hm'
        · exact absurd he.symm hmk
        · exact .inl ⟨m', hm', he⟩
      · exact .inr h

/-- Calls that return no handle keep the notes. -/
theorem LedgerOk.keep {l' : Ledger} (hl : LedgerOk rt l) (hm : MessagesOk rt l'.world)
    (hcalls : l.world.calls ≤ l'.world.calls) (hlast : l'.lastHandle = l.lastHandle)
    (hstored : ∀ k m', l'.world.db.messages.get? k = some m' →
      ∃ m, l.world.db.messages.get? k = some m ∧
        (m'.receiptHandle = [] ∨ m'.receiptHandle = m.receiptHandle)) : LedgerOk rt l' := by
  refine ⟨hm, fun k m' hm' => ?_, ?_, ?_⟩
  · obtain ⟨m, hget, he⟩ := hstored k m' hm'
    obtain ⟨h, hh, hcase⟩ := hl.noted k m hget
    refine ⟨h, hlast ▸ hh, ?_⟩
    rcases he with he | he
    · exact .inl he
    · rw [he]; exact hcase
  · rw [hlast]; exact hl.distinct
  · rw [hlast]
    intro k h hk
    obtain ⟨i, hi, hj⟩ := hl.drawn k h hk
    exact ⟨i, by omega, hj⟩

/-- A delivery notes fresh handles. -/
theorem LedgerOk.receive {region queueUrl : Str} {visibility maxMessages : Int} {r}
    (hl : LedgerOk rt l)
    (h : execLedger cfg rt (.receiveMessages region queueUrl visibility maxMessages) l = some r) :
    LedgerOk rt r.2 := by
  obtain ⟨hx, hlast⟩ := execLedger_eq_some.mp h
  have hm := hl.messages.step hx
  obtain ⟨ha, hcalls⟩ := exec_eq_some.mp hx
  simp only [SqsCall.apply, SqsMemoryDb.receiveMessages_eq, Option.some.injEq,
    Prod.mk.injEq] at ha
  obtain ⟨hlist, hdb⟩ := ha
  -- a handed-out message is returned under its key, with a handle of this call
  have hout : ∀ m ∈ r.1, (∃ e ∈ l.world.db.received region queueUrl maxMessages, e.1 = m.oid) ∧
      m.receiptHandle = rt.receiptHandle l.world.calls m.oid := by
    intro m hmem
    rw [← hlist] at hmem
    obtain ⟨e, he, rfl⟩ := List.mem_map.mp hmem
    have hkey : e.2.oid = e.1 := hl.messages.keyed _ _ (SqsMemoryDb.mem_received he).1
    exact ⟨⟨e, he, hkey.symm⟩, congrArg _ hkey.symm⟩
  have hin : ∀ k, k ∈ (l.world.db.received region queueUrl maxMessages).map Prod.fst →
      ∃ m ∈ r.1, m.oid = k := by
    intro k hk
    obtain ⟨e, he, rfl⟩ := List.mem_map.mp hk
    refine ⟨_, hlist ▸ List.mem_map_of_mem he, ?_⟩
    have := hl.messages.keyed _ _ (SqsMemoryDb.mem_received he).1
    exact this
  have hnote : r.2.lastHandle = r.1.foldl noteHandle l.lastHandle := hlast
  -- each note is an old one or one of this call
  have hcases : ∀ k h, r.2.lastHandle.get? k = some h →
      h = rt.receiptHandle l.world.calls k ∨ l.lastHandle.get? k = some h := by
    intro k h hk
    rw [hnote] at hk
    rcases get?_foldl_noteHandle hk with ⟨m, hmem, rfl, rfl⟩ | ⟨hold, -⟩
    · exact .inl (hout m hmem).2
    · exact .inr hold
  have hold_ne : ∀ k k' h, l.lastHandle.get? k = some h →
      h ≠ rt.receiptHandle l.world.calls k' := by
    rintro k k' h hk rfl
    obtain ⟨i, hi, j, he⟩ := hl.drawn k _ hk
    have := (rt.receiptHandle_inj he).1
    omega
  refine ⟨hm, fun k m' hm' => ?_, fun k k' h hk hk' => ?_, fun k h hk => ?_⟩
  · rw [← hdb, OrderedMap.get?_mapVal] at hm'
    obtain ⟨m, hget, rfl⟩ := Option.map_eq_some_iff.mp hm'
    split
    · next hkin =>
      obtain ⟨a, ha, hak⟩ := hin k hkin
      obtain ⟨h, hh⟩ : ∃ h, (r.1.foldl noteHandle l.lastHandle).get? k = some h :=
        exists_get?_foldl_noteHandle (.inl ⟨a, ha, hak⟩)
      rw [← hnote] at hh
      refine ⟨h, hh, .inr ?_⟩
      rw [hnote] at hh
      rcases get?_foldl_noteHandle hh with ⟨b, hb, rfl, rfl⟩ | ⟨-, hne⟩
      · exact (hout b hb).2.symm
      · exact absurd hak (hne a ha)
    · next hkout =>
      obtain ⟨h, hh, hcase⟩ := hl.noted k m hget
      refine ⟨h, ?_, hcase⟩
      obtain ⟨h', hh'⟩ : ∃ h', (r.1.foldl noteHandle l.lastHandle).get? k = some h' :=
        exists_get?_foldl_noteHandle (.inr ⟨h, hh⟩)
      rcases get?_foldl_noteHandle hh' with ⟨b, hb, rfl, -⟩ | ⟨hold, -⟩
      · obtain ⟨⟨e, he, hek⟩, -⟩ := hout b hb
        exact absurd (hek ▸ List.mem_map_of_mem he) hkout
      · rw [hnote, hh', ← hold, hh]
  · rcases hcases k h hk with rfl | hold
    · rcases hcases k' _ hk' with he | hold'
      · exact (rt.receiptHandle_inj he).2
      · exact absurd rfl (hold_ne k' k _ hold')
    · rcases hcases k' h hk' with rfl | hold'
      · exact absurd rfl (hold_ne k k' _ hold)
      · exact hl.distinct k k' h hold hold'
  · rw [hcalls]
    rcases hcases k h hk with rfl | hold
    · exact ⟨_, by omega, k, rfl⟩
    · obtain ⟨i, hi, hj⟩ := hl.drawn k h hold
      exact ⟨i, by omega, hj⟩

/-- Every call but a creation keeps the invariant, if it writes back no stale record. -/
theorem LedgerOk.step {c : SqsCall} {r} (hl : LedgerOk rt l) (hcreate : ∀ m, c ≠ .createMessage m)
    (hcurrent : Current l c) (h : execLedger cfg rt c l = some r) : LedgerOk rt r.2 := by
  by_cases hreceive : ∃ region queueUrl visibility maxMessages,
      c = .receiveMessages region queueUrl visibility maxMessages
  · obtain ⟨region, queueUrl, visibility, maxMessages, rfl⟩ := hreceive
    exact hl.receive h
  · obtain ⟨hx, hlast⟩ := execLedger_eq_some.mp h
    obtain ⟨ha, hcalls⟩ := exec_eq_some.mp hx
    have hnote : note l.lastHandle c r.1 = l.lastHandle := by
      cases c with
      | createMessage m => exact absurd rfl (hcreate m)
      | receiveMessages => simp at hreceive
      | _ => rfl
    refine hl.keep (hl.messages.step hx) (by omega) (hlast.trans hnote) fun k m' hm' => ?_
    have hstep := messageStep hl.messages.keyed ha k
    rw [hm'] at hstep
    cases hk : l.world.db.messages.get? k with
    | none =>
      rw [hk] at hstep
      cases hstep with
      | created => exact absurd rfl (hcreate _)
    | some m =>
      rw [hk] at hstep
      refine ⟨m, rfl, ?_⟩
      cases hstep with
      | same => exact .inr rfl
      | created => exact absurd rfl (hcreate _)
      | updated hoid => exact .inr (hcurrent m (hoid ▸ hk)).symm
      | received => simp at hreceive
      | reset => exact .inl rfl
      | redriven | undelayed => exact .inr rfl

/-- A call that neither creates a message nor writes one back. -/
theorem LedgerOk.silent {c : SqsCall} {r : c.Reply × Ledger} (hl : LedgerOk rt l)
    (h : execLedger cfg rt c l = some r) (hcreate : ∀ m, c ≠ .createMessage m := by simp)
    (hcurrent : Current l c := by trivial) : LedgerOk rt r.2 := hl.step hcreate hcurrent h

/-- A message created with a handle drawn before and noted for no other message. -/
theorem LedgerOk.create {message : Message} {r} {i : Nat} (hl : LedgerOk rt l)
    (hi : i < l.world.calls) (hh : message.receiptHandle = rt.receiptHandle i [])
    (hfresh : ∀ k, l.lastHandle.get? k ≠ some message.receiptHandle)
    (h : execLedger cfg rt (.createMessage message) l = some r) : LedgerOk rt r.2 := by
  obtain ⟨hx, hlast⟩ := execLedger_eq_some.mp h
  have hm := hl.messages.step hx
  obtain ⟨ha, hcalls⟩ := exec_eq_some.mp hx
  simp only [SqsCall.apply, SqsMemoryDb.createMessage_eq, Option.some.injEq, Prod.mk.injEq] at ha
  obtain ⟨hr, hdb⟩ := ha
  have hnote : r.2.lastHandle = l.lastHandle.insert (rt.uuid l.world.calls)
      message.receiptHandle := by
    rw [hlast, ← hr]
    rfl
  refine ⟨hm, fun k m' hm' => ?_, fun k k' h hk hk' => ?_, fun k h hk => ?_⟩
  · rw [← hdb, OrderedMap.get?_insert] at hm'
    rw [hnote, OrderedMap.get?_insert]
    split at hm'
    · next hk => cases hm'; exact ⟨_, if_pos hk, .inr rfl⟩
    · next hk => rw [if_neg hk]; exact hl.noted k m' hm'
  · rw [hnote, OrderedMap.get?_insert] at hk hk'
    split at hk <;> split at hk'
    · next h1 h2 => rw [h1, h2]
    · next h1 h2 => cases hk; exact absurd hk' (hfresh k')
    · next h1 h2 => cases hk'; exact absurd hk (hfresh k)
    · exact hl.distinct k k' h hk hk'
  · rw [hcalls]
    rw [hnote, OrderedMap.get?_insert] at hk
    split at hk
    · cases hk; exact ⟨i, by omega, [], hh⟩
    · obtain ⟨j, hj, he⟩ := hl.drawn k h hk
      exact ⟨j, by omega, he⟩

/-- `SendMessage` keeps the invariant: its handle is drawn by the run itself. -/
theorem LedgerOk.sendToQueue {env : Env} {request : SendMessageRequest} {r} (hl : LedgerOk rt l)
    (h : (sendToQueue env request).run (execLedger cfg rt) l = some r) : LedgerOk rt r.2 := by
  obtain ⟨x, hx, rfl⟩ := Prog.run_mapThrow_eq_some.mp h
  -- the calls before the creation, one by one
  obtain ⟨⟨queue, l₁⟩, h₁, h⟩ := Prog.run_perform_bind_eq_some.mp hx
  obtain ⟨⟨sent, l₂⟩, h₂, h⟩ := Prog.run_perform_bind_eq_some.mp h
  obtain ⟨⟨first, l₃⟩, h₃, h⟩ := Prog.run_perform_bind_eq_some.mp h
  obtain ⟨⟨now, l₄⟩, h₄, h⟩ := Prog.run_perform_bind_eq_some.mp h
  obtain ⟨⟨messageId, l₅⟩, h₅, h⟩ := Prog.run_perform_bind_eq_some.mp h
  obtain ⟨⟨handle, l₆⟩, h₆, h⟩ := Prog.run_perform_bind_eq_some.mp h
  obtain ⟨⟨created, l₇⟩, h₇, h⟩ := Prog.run_perform_bind_eq_some.mp h
  obtain ⟨⟨message, l₈⟩, h₈, h⟩ := Prog.run_perform_bind_eq_some.mp h
  cases h
  have ok₅ : LedgerOk rt l₅ :=
    ((((hl.silent h₁).silent h₂).silent h₃).silent h₄).silent h₅
  have ok₇ : LedgerOk rt l₇ := (ok₅.silent h₆).silent h₇
  cases h₆
  cases h₇
  refine ok₇.create (Nat.lt_succ_of_lt (Nat.lt_succ_self l₅.world.calls)) rfl (fun k hk => ?_) h₈
  obtain ⟨i, hi, j, he⟩ := ok₅.drawn k _ hk
  exact hi.ne' (rt.receiptHandle_inj he).1

theorem LedgerOk.send {env : Env} {request : SendMessageRequest} {r} (hl : LedgerOk rt l)
    (h : (sendMessage env request).run (execLedger cfg rt) l = some r) : LedgerOk rt r.2 := by
  unfold sendMessage at h
  split at h
  · exact hl.sendToQueue h
  · obtain ⟨⟨found, l₁⟩, h₁, h⟩ := Prog.run_perform_bind_eq_some.mp h
    have ok₁ := hl.silent h₁
    dsimp only at h
    split at h
    · exact ok₁.sendToQueue h
    · cases h; exact ok₁

theorem Reachable.ledgerOk {env : Env} (h : Reachable env rt l) : LedgerOk rt l := by
  induction h with
  | initial => exact ⟨.initial, by simp, by simp, by simp⟩
  | send _ request h ih => exact ih.send h
  | call _ hcreate hcurrent h ih => exact ih.step hcreate hcurrent h

/-- A sequence of calls that neither create nor write back messages. -/
theorem Reachable.calls {env : Env} : ∀ (cs : List SqsCall) {l l' : Ledger}, Reachable env rt l →
    (∀ c ∈ cs, (∀ m, c ≠ .createMessage m) ∧ ∀ m, c ≠ .updateMessage m) →
    Prog.execAll (execLedger env.cfg rt) cs l = some l' → Reachable env rt l'
  | [], l, l', hl, _, h => by cases h; exact hl
  | c :: cs, l, l', hl, hcs, h => by
    obtain ⟨r, hr, h⟩ := Option.bind_eq_some_iff.mp h
    obtain ⟨⟨hcreate, hupdate⟩, hcs⟩ := List.forall_mem_cons.mp hcs
    have hcurrent : Current l c := by
      cases c with
      | updateMessage m => exact absurd rfl (hupdate m)
      | _ => trivial
    exact Reachable.calls cs (hl.call hcreate hcurrent hr) hcs h

/-- `SetVisibilityTimeout` alone in the process writes back a current record. -/
theorem Reachable.setVisibilityTimeout {env : Env} {request : ChangeMessageVisibilityRequest}
    {r : Except Error Unit × Ledger} (hl : Reachable env rt l)
    (h : (setVisibilityTimeout request).run (execLedger env.cfg rt) l = some r) :
    Reachable env rt r.2 := by
  obtain ⟨⟨found, l₁⟩, h₁, h⟩ := Prog.run_perform_bind_eq_some.mp h
  have reach₁ : Reachable env rt l₁ := hl.call (by simp) (by trivial) h₁
  dsimp only at h
  split at h
  · next hfound =>
    obtain ⟨x, hx, rfl⟩ := Prog.run_mapThrow_eq_some.mp h
    obtain ⟨⟨message, l₂⟩, h₂, hx⟩ := Prog.run_perform_bind_eq_some.mp hx
    obtain ⟨⟨now, l₃⟩, h₃, hx⟩ := Prog.run_perform_bind_eq_some.mp hx
    obtain ⟨⟨updated, l₄⟩, h₄, hx⟩ := Prog.run_perform_bind_eq_some.mp hx
    cases hx
    have reach₂ : Reachable env rt l₂ := reach₁.call (by simp) (by trivial) h₂
    have reach₃ : Reachable env rt l₃ := reach₂.call (by simp) (by trivial) h₃
    have keyed := hl.ledgerOk.messages.keyed
    -- nothing is written between the read and the write
    have hcurrent : Current l₃ (.updateMessage (withVisibility request.visibilityTimeout now
        message)) := by
      intro stored hstored
      cases h₁
      obtain ⟨e, he⟩ := Option.isSome_iff_exists.mp hfound
      have hget := (OrderedMap.findIf_some he).1
      have hread : l.world.db.getMessageByReceiptHandle request.receiptHandle
          (rt.now (l.world.calls + 1)) = (e.2, l.world.db) :=
        Prod.ext (by rw [SqsMemoryDb.getMessageByReceiptHandle, he,
          SqsMemoryDb.fetchMessage_fst keyed hget]) (SqsMemoryDb.fetchMessage_snd keyed _ _)
      have hx₂ := (execLedger_eq_some.mp h₂).1
      simp only [exec, SqsCall.apply, hread, Option.map_some, Option.some.injEq,
        Prod.mk.injEq] at hx₂
      obtain ⟨rfl, hw₂⟩ := hx₂
      cases h₃
      change l₂.world.db.messages.get? e.2.oid = some stored at hstored
      rw [← hw₂, keyed _ _ hget, hget] at hstored
      cases hstored
      rfl
    exact reach₃.call (by simp) hcurrent h₄
  · cases h; exact reach₁

/-! ### The result -/

/-- A handle that is not empty belongs to at most one stored message. -/
theorem LedgerOk.key_unique (hl : LedgerOk rt l) {k k' : Str} {m m' : Message}
    (hk : l.world.db.messages.get? k = some m) (hk' : l.world.db.messages.get? k' = some m')
    (hh : m'.receiptHandle = m.receiptHandle) (hne : m.receiptHandle ≠ []) : k' = k := by
  obtain ⟨h, hlast, hcase⟩ := hl.noted k m hk
  obtain ⟨h', hlast', hcase'⟩ := hl.noted k' m' hk'
  have e : m.receiptHandle = h := hcase.resolve_left hne
  have e' : m'.receiptHandle = h' := hcase'.resolve_left (hh ▸ hne)
  exact hl.distinct k' k h (by rw [hlast', ← e', hh, e]) hlast

theorem LedgerOk.preciseDelete_iff {env : Env} (hl : LedgerOk rt l)
    (request : DeleteMessageRequest) : PreciseDelete env rt l request ↔
      (request.receiptHandle ≠ [] ∨
        ∀ k m, l.world.db.messages.get? k = some m → m.receiptHandle ≠ []) := by
  unfold PreciseDelete
  rw [deleteMessage_run]
  by_cases hex : l.world.db.messageExists request.receiptHandle = true
  · rw [if_pos hex]
    obtain ⟨k, m, hm, hh⟩ := messageExists_iff.mp hex
    constructor
    · rintro ⟨outcome, w, he, hprecise⟩
      cases he
      obtain ⟨-, oid, -, hlast, -⟩ := hprecise
      -- no empty handle is ever returned
      obtain ⟨i, -, j, hd⟩ := hl.drawn oid _ hlast
      exact .inl (hd ▸ rt.receiptHandle_ne i j)
    · intro hcond
      have hne : m.receiptHandle ≠ [] := by
        rcases hcond with h | h
        · rwa [hh]
        · exact h k m hm
      obtain ⟨h, hlast, hcase⟩ := hl.noted k m hm
      refine ⟨_, _, rfl, rfl, k, ⟨m, hm⟩, ?_, fun k' => ?_⟩
      · rw [hlast, ← hh, hcase.resolve_left hne]
      · simp only [SqsMemoryDb.deleteMessage, OrderedMap.get?_eraseIf]
        cases hm' : l.world.db.messages.get? k' with
        | none => simp
        | some m' =>
          by_cases hk : k' = k
          · subst hk
            obtain rfl : m = m' := Option.some.inj (hm.symm.trans hm')
            simp [hh]
          · have hne' : m'.receiptHandle ≠ request.receiptHandle := fun he =>
              hk (hl.key_unique hm hm' (he.trans hh.symm) hne)
            simp [hne', hk]
  · rw [if_neg hex]
    refine ⟨fun _ => ?_, fun _ => ⟨_, _, rfl, rfl⟩⟩
    by_cases hempty : request.receiptHandle = []
    · exact .inr fun k m hm hh => hex (messageExists_iff.mpr ⟨k, m, hm, hh.trans hempty.symm⟩)
    · exact .inl hempty

/-- `DeleteMessage` is precise exactly when it is sent a handle that is not empty, or no stored
    message has the empty handle. -/
theorem deleteMessage_precise_iff (env : Env) (rt : Runtime) (l : Ledger)
    (hl : Reachable env rt l) (request : DeleteMessageRequest) :
    PreciseDelete env rt l request ↔ (request.receiptHandle ≠ [] ∨
      ∀ k m, l.world.db.messages.get? k = some m → m.receiptHandle ≠ []) :=
  hl.ledgerOk.preciseDelete_iff request

/-- A message is deleted by the handle its send returned. -/
theorem deleteMessage_precise_sent : ∃ l, Reachable .sample (.counting 20) l ∧
    l.world.db.messages.size = 1 ∧ PreciseDelete .sample (.counting 20) l
      { receiptHandle := (Runtime.counting 20).receiptHandle 7 [] } := by
  have queue : Reachable .sample (.counting 20) _ := .calls
    [.createQueue { queueUrl := str "http://a", created := 0, modified := 0 }]
    .initial (by simp) rfl
  have sent := queue.send { queueUrl := str "http://a" } rfl
  exact ⟨_, sent, by decide, (deleteMessage_precise_iff _ _ _ sent _).mpr
    (.inl ((Runtime.counting 20).receiptHandle_ne 7 []))⟩

/-- A message of each of two queues is received and expires; deleting the empty handle on one queue
    removes both. -/
theorem deleteMessage_empty_handle : ∃ l, Reachable .sample (.counting 20) l ∧
    ¬ PreciseDelete .sample (.counting 20) l { queueUrl := str "http://a" } ∧
    l.world.db.messages.size = 2 ∧ ∃ w, w.db.messages.size = 0 ∧
      (deleteMessage { queueUrl := str "http://a" }).run (exec Env.sample.cfg (.counting 20))
        l.world = some (.ok (), w) := by
  have queues : Reachable .sample (.counting 20) _ := .calls
    [.createQueue { queueUrl := str "http://a", created := 0, modified := 0 },
      .createQueue { queueUrl := str "http://b", created := 0, modified := 0 }]
    .initial (by simp) rfl
  have sent := (queues.send { queueUrl := str "http://a" } rfl).send
    { queueUrl := str "http://b" } rfl
  have expired : Reachable .sample (.counting 20) _ := .calls
    [.receiveMessages [] (str "http://a") 30 10, .receiveMessages [] (str "http://b") 30 10,
      .resetMessages (str "http://a") 30, .resetMessages (str "http://b") 30]
    sent (by simp) rfl
  refine ⟨_, expired, fun h => ?_, by decide, _, ?_, rfl⟩
  · rcases (expired.ledgerOk.preciseDelete_iff _).mp h with h | h
    · exact h rfl
    · exact h ((Runtime.counting 20).uuid 10) _ rfl rfl
  · decide

end AwsMock.Sqs
