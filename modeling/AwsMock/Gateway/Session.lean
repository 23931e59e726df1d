import AwsMock.Lib.Bytes
import AwsMock.Lib.Machine

/-!
# The gateway session

One connection of the gateway: requests are read, handled and their responses queued and written. The
handlers of a session run one at a time on its strand, so a step is one completion handler.
-/

namespace AwsMock.Gateway

open Lib

/-- A type-erased response. -/
structure MessageGenerator where
  keepAlive : Bool
  message : Str
  deriving DecidableEq, Repr

/-- What a read completes with. For a request it also has what `HandleRequest` returns for it. -/
inductive ReadResult (Request : Type) : Type
  | success (request : Request) (response : MessageGenerator)
  | endOfStream
  | error

structure GatewaySession (Request : Type) where
  responseQueue : List MessageGenerator := []
  /-- Outstanding reads. -/
  reads : Nat := 0
  /-- Outstanding writes, each with the `keep_alive` its completion handler is bound to. -/
  writes : List Bool := []
  /-- `DoClose` has shut the socket down. -/
  closed : Bool := false
  /-- A completion handler has logged an error and returned. -/
  failed : Bool := false
  /-- The requests read, in order, with their responses. -/
  answered : List (Request × MessageGenerator) := []
  /-- The responses given to `async_write`, in order. -/
  written : List MessageGenerator := []

variable {Request : Type}

namespace GatewaySession

def doClose (s : GatewaySession Request) : GatewaySession Request := { s with closed := true }

def doRead (s : GatewaySession Request) : GatewaySession Request := { s with reads := s.reads + 1 }

def doWrite (s : GatewaySession Request) : GatewaySession Request :=
  match s.responseQueue with
  | [] => s
  | front :: _ =>
    { s with writes := s.writes ++ [front.keepAlive], written := s.written ++ [front] }

def queueWrite (response : MessageGenerator) (s : GatewaySession Request) :
    GatewaySession Request :=
  let s := { s with responseQueue := s.responseQueue ++ [response] }
  if s.responseQueue.length = 1 then s.doWrite else s

def onRead (queueLimit : Nat) (ec : ReadResult Request) (s : GatewaySession Request) :
    GatewaySession Request :=
  match ec with
  | .endOfStream => s.doClose
  | .error => { s with failed := true }
  | .success request response =>
    let s := queueWrite response { s with answered := s.answered ++ [(request, response)] }
    if s.responseQueue.length < queueLimit then s.doRead else s

/-- `none`: a pop from an empty queue is undefined. -/
def onWrite (queueLimit : Nat) (keepAlive ec : Bool) (s : GatewaySession Request) :
    Option (GatewaySession Request) :=
  if ec then some { s with failed := true }
  else if !keepAlive then some s.doClose
  else
    let s := if s.responseQueue.length = queueLimit then s.doRead else s
    match s.responseQueue with
    | [] => none
    | _ :: rest => some (doWrite { s with responseQueue := rest })

/-- `Run`: a new session starts to read. -/
def run : GatewaySession Request := doRead {}

end GatewaySession

/-- The completion of an outstanding operation. `written ec`: with or without an error. -/
inductive Completion (Request : Type) : Type
  | read (ec : ReadResult Request)
  | written (ec : Bool)

open GatewaySession in
/-- Call the handler of a completed operation. -/
def complete (queueLimit : Nat) :
    Completion Request → GatewaySession Request → Option (GatewaySession Request)
  | .read ec, s =>
    if s.reads = 0 then none else some (onRead queueLimit ec { s with reads := s.reads - 1 })
  | .written ec, s =>
    match s.writes with
    | [] => none
    | keepAlive :: rest => onWrite queueLimit keepAlive ec { s with writes := rest }

/-- The sessions reached by completions in any order. -/
def Reachable (queueLimit : Nat) (s : GatewaySession Request) : Prop :=
  ∃ events, steps (complete queueLimit) events .run = some s

/-- The client has not closed the connection, no response asked to close it, and nothing failed. -/
def GatewaySession.isOpen (s : GatewaySession Request) : Prop := s.closed = false ∧ s.failed = false

/-- What all completions preserve: where the session stands between its reads and its writes. -/
structure Pipelined (queueLimit : Nat) (s : GatewaySession Request) : Prop where
  reads_le : s.reads ≤ 1
  /-- A read is outstanding only when its response has room. -/
  room : s.reads = 1 → s.responseQueue.length < queueLimit
  /-- Only the front of the queue is being written. -/
  front : s.writes = [] ∨ s.responseQueue ≠ [] ∧ s.writes = (s.responseQueue.take 1).map (·.keepAlive)
  bound : s.responseQueue.length ≤ queueLimit
  /-- The queue holds the responses not popped yet; the front has been given to `async_write`. -/
  order : ∃ popped, s.answered.map Prod.snd = popped ++ s.responseQueue ∧
    s.written = popped ++ s.responseQueue.take 1
  /-- An open session reads whenever there is room and writes whenever there is a response. -/
  busy : s.isOpen → (s.responseQueue.length < queueLimit → s.reads = 1) ∧
    (s.responseQueue ≠ [] → s.writes ≠ [])

variable {queueLimit : Nat} {s t : GatewaySession Request}

theorem doWrite_eq (s : GatewaySession Request) : s.doWrite = { s with
    writes := s.writes ++ (s.responseQueue.take 1).map (·.keepAlive)
    written := s.written ++ s.responseQueue.take 1 } := by
  rcases s with ⟨_ | ⟨front, rest⟩, _, _, _, _, _, _⟩ <;> simp [GatewaySession.doWrite]

/-- The write loop starts exactly when the response is the only one. -/
theorem queueWrite_eq (response : MessageGenerator) (s : GatewaySession Request) :
    s.queueWrite response = { s with
      responseQueue := s.responseQueue ++ [response]
      writes := s.writes ++ if s.responseQueue = [] then [response.keepAlive] else []
      written := s.written ++ if s.responseQueue = [] then [response] else [] } := by
  rcases hq : s.responseQueue with _ | ⟨front, rest⟩ <;>
    simp [GatewaySession.queueWrite, doWrite_eq, hq]

theorem onRead_success (request : Request) (response : MessageGenerator) (s : GatewaySession Request) :
    s.onRead queueLimit (.success request response) = { s with
      responseQueue := s.responseQueue ++ [response]
      reads := if s.responseQueue.length + 1 < queueLimit then s.reads + 1 else s.reads
      writes := s.writes ++ if s.responseQueue = [] then [response.keepAlive] else []
      answered := s.answered ++ [(request, response)]
      written := s.written ++ if s.responseQueue = [] then [response] else [] } := by
  simp only [GatewaySession.onRead, queueWrite_eq, List.length_append, List.length_singleton]
  split <;> rfl

theorem onWrite_success {front : MessageGenerator} {rest : List MessageGenerator}
    (s : GatewaySession Request) (hq : s.responseQueue = front :: rest) :
    s.onWrite queueLimit true false = some { s with
      responseQueue := rest
      reads := if rest.length + 1 = queueLimit then s.reads + 1 else s.reads
      writes := s.writes ++ (rest.take 1).map (·.keepAlive)
      written := s.written ++ rest.take 1 } := by
  by_cases hfull : rest.length + 1 = queueLimit <;>
    simp [GatewaySession.onWrite, GatewaySession.doRead, doWrite_eq, hq, hfull]

theorem Pipelined.initial (hlimit : 1 ≤ queueLimit) :
    Pipelined queueLimit (.run : GatewaySession Request) where
  reads_le := Nat.le_refl 1
  room := fun _ => hlimit
  front := Or.inl rfl
  bound := Nat.zero_le _
  order := ⟨[], rfl, rfl⟩
  busy := fun _ => ⟨fun _ => rfl, fun h => absurd rfl h⟩

/-- A completion that only closes the connection or gives up starts nothing. -/
theorem Pipelined.stop (h : Pipelined queueLimit s) {reads : Nat} {writes : List Bool}
    {closed failed : Bool} (hr : reads ≤ s.reads) (hw : writes = [] ∨ writes = s.writes)
    (hstop : closed = true ∨ failed = true) :
    Pipelined queueLimit { s with reads, writes, closed, failed } where
  reads_le := hr.trans h.reads_le
  room := by
    intro hreads
    have hs : s.reads = 1 := Nat.le_antisymm h.reads_le (hreads ▸ hr)
    exact h.room hs
  front := by
    rcases hw with rfl | rfl
    · exact Or.inl rfl
    · exact h.front
  bound := h.bound
  order := h.order
  busy := by
    rintro ⟨hclosed, hfailed⟩
    rcases hstop with rfl | rfl
    · cases hclosed
    · cases hfailed

/-- A request was read: its response had room, and reading goes on while there is more. -/
theorem Pipelined.answer (h : Pipelined queueLimit s) (hread : s.reads = 1) (request : Request)
    (response : MessageGenerator) :
    Pipelined queueLimit
      (GatewaySession.onRead queueLimit (.success request response) { s with reads := 0 }) := by
  have hroom := h.room hread
  obtain ⟨popped, hanswered, hwritten⟩ := h.order
  rw [onRead_success]
  refine ⟨?_, ?_, ?_, ?_, ?_, ?_⟩
  · -- reads_le
    dsimp only
    split <;> omega
  · -- room
    intro hreads
    simp only [List.length_append, List.length_singleton]
    by_contra hfull
    simp [hfull] at hreads
  · -- front
    rcases hq : s.responseQueue with _ | ⟨front, rest⟩
    · have hidle : s.writes = [] := by
        rcases h.front with hw | ⟨hne, _⟩
        · exact hw
        · exact absurd hq hne
      simp [hidle]
    · simpa [hq] using h.front
  · -- bound
    simp only [List.length_append, List.length_singleton]
    omega
  · -- order
    refine ⟨popped, by simp [hanswered], ?_⟩
    rcases hq : s.responseQueue with _ | ⟨front, rest⟩ <;> simp [hwritten, hq]
  · -- busy
    intro hopen
    refine ⟨fun hmore => ?_, fun _ => ?_⟩
    · simp only [List.length_append, List.length_singleton] at hmore
      simp [hmore]
    · by_cases hq : s.responseQueue = []
      · simp [hq]
      · simpa [hq] using (h.busy hopen).2 hq

/-- A response was written: reading resumes when the queue was full, and the next one is written. -/
theorem Pipelined.pop (h : Pipelined queueLimit s) {front : MessageGenerator}
    {rest : List MessageGenerator} (hq : s.responseQueue = front :: rest)
    (ht : GatewaySession.onWrite queueLimit true false { s with writes := [] } = some t) :
    Pipelined queueLimit t := by
  have hbound : rest.length + 1 ≤ queueLimit := by simpa [hq] using h.bound
  obtain ⟨popped, hanswered, hwritten⟩ := h.order
  -- A full queue left no read outstanding, so resuming starts the only one.
  have hpaused : rest.length + 1 = queueLimit → s.reads = 0 := by
    intro hfull
    have hle := h.reads_le
    by_contra hne
    have := h.room (by omega)
    simp [hq] at this
    omega
  rw [onWrite_success (s := { s with writes := [] }) hq, Option.some.injEq] at ht
  subst ht
  refine ⟨?_, ?_, ?_, ?_, ?_, ?_⟩
  · -- reads_le
    dsimp only
    split
    · next hfull => rw [hpaused hfull]
    · exact h.reads_le
  · -- room
    intro _
    exact hbound
  · -- front
    rcases rest with _ | ⟨r, rest⟩
    · exact Or.inl rfl
    · exact Or.inr ⟨by simp, by simp⟩
  · -- bound
    dsimp only
    omega
  · -- order
    refine ⟨popped ++ [front], ?_, ?_⟩
    · simpa [hq] using hanswered
    · simp [hwritten, hq]
  · -- busy
    intro hopen
    refine ⟨fun _ => ?_, fun hne => ?_⟩
    · dsimp only
      split
      · next hfull => rw [hpaused hfull]
      · next hroom => exact (h.busy hopen).1 (by simp [hq]; omega)
    · rcases rest with _ | ⟨r, rest⟩
      · exact absurd rfl hne
      · simp

/-- One completion, of the read or of the write that is outstanding. -/
theorem Pipelined.complete (h : Pipelined queueLimit s) {c : Completion Request}
    (ht : Gateway.complete queueLimit c s = some t) : Pipelined queueLimit t := by
  rcases c with ec | ec
  · rcases hr : s.reads with _ | n
    · simp [Gateway.complete, hr] at ht
    · have hone : s.reads = 1 := by have := h.reads_le; omega
      simp only [Gateway.complete, hone, Nat.one_ne_zero, if_false, Option.some.injEq] at ht
      subst ht
      rcases ec with ⟨request, response⟩ | _ | _
      · exact h.answer hone request response
      · exact h.stop (Nat.zero_le _) (Or.inr rfl) (Or.inl rfl)
      · exact h.stop (Nat.zero_le _) (Or.inr rfl) (Or.inr rfl)
  · rcases h.front with hw | ⟨hne, hw⟩
    · simp [Gateway.complete, hw] at ht
    · obtain ⟨front, rest, hq⟩ := List.exists_cons_of_ne_nil hne
      have hfront : s.writes = [front.keepAlive] := by simpa [hq] using hw
      simp only [Gateway.complete, hfront] at ht
      rcases ec with _ | _
      · rcases hk : front.keepAlive with _ | _ <;> rw [hk] at ht
        · cases ht
          exact h.stop (Nat.le_refl _) (Or.inl rfl) (Or.inl rfl)
        · exact h.pop hq ht
      · cases ht
        exact h.stop (Nat.le_refl _) (Or.inl rfl) (Or.inr rfl)

/-- The completion of an outstanding write never pops from an empty queue. -/
theorem Pipelined.defined (h : Pipelined queueLimit s) (hw : s.writes ≠ []) (ec : Bool) :
    (Gateway.complete queueLimit (.written ec) s).isSome := by
  rcases h.front with hnone | ⟨hne, hfront⟩
  · exact absurd hnone hw
  · obtain ⟨front, rest, hq⟩ := List.exists_cons_of_ne_nil hne
    have hwrites : s.writes = [front.keepAlive] := by simpa [hq] using hfront
    simp only [Gateway.complete, hwrites]
    rcases ec with _ | _
    · rcases front.keepAlive with _ | _
      · rfl
      · rw [onWrite_success { s with writes := [] } hq]
        rfl
    · rfl

theorem Reachable.pipelined (hlimit : 1 ≤ queueLimit) (h : Reachable queueLimit s) :
    Pipelined queueLimit s := by
  obtain ⟨events, hrun⟩ := h
  exact steps_inv (fun hstep hs => hs.complete hstep) hrun (.initial hlimit)

/-- However the reads and writes of a connection complete: one of each at a time, a bounded queue,
    the responses written in the order of their requests, and an open session never stalls. -/
theorem session_pipeline (hlimit : 1 ≤ queueLimit) (h : Reachable queueLimit s) :
    s.reads ≤ 1 ∧ s.writes.length ≤ 1 ∧ s.responseQueue.length ≤ queueLimit ∧
      s.written <+: s.answered.map Prod.snd ∧ (s.isOpen → 1 ≤ s.reads + s.writes.length) := by
  have hs := h.pipelined hlimit
  refine ⟨hs.reads_le, ?_, hs.bound, ?_, fun hopen => ?_⟩
  · rcases hs.front with hw | ⟨_, hw⟩ <;> rw [hw] <;> simp
  · obtain ⟨popped, hanswered, hwritten⟩ := hs.order
    rw [hanswered, hwritten]
    exact (List.prefix_append_right_inj popped).mpr (List.take_prefix 1 _)
  · by_cases hq : s.responseQueue = []
    · have hread := (hs.busy hopen).1 (by rw [hq]; exact hlimit)
      omega
    · have hwrite := (hs.busy hopen).2 hq
      have := List.length_pos_iff.mpr hwrite
      omega

/-- With room for one response, the second read waits until the first response is written. -/
theorem session_pipeline_one : ∃ s t : GatewaySession Unit,
    steps (complete 1) [.read (.success () ⟨true, str "a"⟩)] .run = some s ∧ s.reads = 0 ∧
    1 ≤ s.reads + s.writes.length ∧
    complete 1 (.written false) s = some t ∧ t.reads = 1 :=
  ⟨_, _, rfl, rfl,
    (session_pipeline (Nat.le_refl 1) ⟨[.read (.success () ⟨true, str "a"⟩)], rfl⟩).2.2.2.2
      ⟨rfl, rfl⟩, rfl, rfl⟩

end AwsMock.Gateway
