import AwsMock.Gateway.Session

/-!
# The shutdown of a session

`DoClose` shuts the connection down at the end of the stream and after a response that asks for it,
whatever responses are still queued. Beside the session stands the number of responses that were written
completely before.
-/

namespace AwsMock.Gateway

open Lib

structure Tracked (Request : Type) where
  session : GatewaySession Request
  /-- How many writes have completed without an error before the shutdown. -/
  delivered : Nat := 0

variable {Request : Type}

/-- What a completion adds. -/
def Completion.delivers (s : GatewaySession Request) : Completion Request → Nat
  | .written false => if s.closed then 0 else 1
  | _ => 0

def Tracked.complete (queueLimit : Nat) (c : Completion Request) (x : Tracked Request) :
    Option (Tracked Request) :=
  (Gateway.complete queueLimit c x.session).map fun t =>
    { session := t, delivered := x.delivered + c.delivers x.session }

/-- When the connection is shut down, every request read has its response written. -/
def Drained (x : Tracked Request) : Prop :=
  x.session.closed → x.session.written.take x.delivered = x.session.answered.map Prod.snd

/-- The stream ends when no response is queued, a response that closes the connection is the last one
    queued, and no request is read after the shutdown. -/
def Orderly : Completion Request → Tracked Request → Prop
  | .read (.success ..), x => x.session.closed = false
  | .read .endOfStream, x => x.session.closed = false → x.session.responseQueue = []
  | .written false, x => x.session.closed = false → x.session.writes.head? = some false →
    x.session.responseQueue.length = 1
  | _, _ => True

/-- Where the deliveries stand: the front of the queue is being written, and before the shutdown the
    responses delivered are those that have left the queue. -/
structure Balanced (x : Tracked Request) : Prop where
  front : x.session.writes = [] ∨ x.session.responseQueue ≠ [] ∧
    x.session.writes = (x.session.responseQueue.take 1).map (·.keepAlive)
  order : ∃ popped, x.session.answered.map Prod.snd = popped ++ x.session.responseQueue ∧
    x.session.written = popped ++ x.session.responseQueue.take 1 ∧
    (x.session.closed = false → x.delivered = popped.length)
  le : x.delivered ≤ x.session.written.length

variable {queueLimit : Nat} {x y : Tracked Request} {c : Completion Request}

theorem balanced_run : Balanced ({ session := .run } : Tracked Request) where
  front := Or.inl rfl
  order := ⟨[], rfl, rfl, fun _ => rfl⟩
  le := Nat.le_refl 0

/-- What the completions do: one alternative for each. -/
theorem complete_cases (h : x.complete queueLimit c = some y) :
    (∃ request response n, c = .read (.success request response) ∧ y = { x with
        session := GatewaySession.onRead queueLimit (.success request response) { x.session with reads := n } }) ∨
    (∃ n, c = .read .endOfStream ∧ y = { x with session := { x.session with reads := n, closed := true } }) ∨
    (∃ n, c = .read .error ∧ y = { x with session := { x.session with reads := n, failed := true } }) ∨
    (∃ keepAlive rest, c = .written true ∧ x.session.writes = keepAlive :: rest ∧
      y = { x with session := { x.session with writes := rest, failed := true } }) ∨
    (∃ rest, c = .written false ∧ x.session.writes = false :: rest ∧ y =
      { session := { x.session with writes := rest, closed := true }
        delivered := x.delivered + c.delivers x.session }) ∨
    (∃ rest session, c = .written false ∧ x.session.writes = true :: rest ∧
      GatewaySession.onWrite queueLimit true false { x.session with writes := rest } = some session ∧
      y = { session := session, delivered := x.delivered + c.delivers x.session }) := by
  obtain ⟨t, ht, rfl⟩ := Option.map_eq_some_iff.mp h
  rcases c with ec | ec
  · simp only [Gateway.complete] at ht
    split at ht
    · cases ht
    · cases ht
      rcases ec with ⟨request, response⟩ | _ | _
      · exact Or.inl ⟨request, response, _, rfl, rfl⟩
      · exact Or.inr (Or.inl ⟨_, rfl, rfl⟩)
      · exact Or.inr (Or.inr (Or.inl ⟨_, rfl, rfl⟩))
  · rcases hw : x.session.writes with _ | ⟨keepAlive, rest⟩
    · simp [Gateway.complete, hw] at ht
    · simp only [Gateway.complete, hw] at ht
      rcases ec with _ | _
      · rcases keepAlive with _ | _
        · cases ht
          exact Or.inr (Or.inr (Or.inr (Or.inr (Or.inl ⟨rest, rfl, rfl, rfl⟩))))
        · exact Or.inr (Or.inr (Or.inr (Or.inr (Or.inr ⟨rest, t, rfl, rfl, ht, rfl⟩))))
      · cases ht
        exact Or.inr (Or.inr (Or.inr (Or.inl ⟨keepAlive, rest, rfl, rfl, rfl⟩)))

/-- A write that is outstanding is that of the front. -/
theorem Balanced.queue (h : Balanced x) {keepAlive : Bool} {rest : List Bool}
    (hw : x.session.writes = keepAlive :: rest) :
    ∃ front queue, x.session.responseQueue = front :: queue ∧ keepAlive = front.keepAlive ∧ rest = [] := by
  rcases h.front with hidle | ⟨hne, hfront⟩
  · rw [hidle] at hw
    cases hw
  · obtain ⟨front, queue, hq⟩ := List.exists_cons_of_ne_nil hne
    rw [hq] at hfront
    rw [hw] at hfront
    simp at hfront
    exact ⟨front, queue, hq, hfront.1, hfront.2⟩

theorem Balanced.step (h : Balanced x) (hc : x.complete queueLimit c = some y) : Balanced y := by
  obtain ⟨popped, hanswered, hwritten, hdelivered⟩ := h.order
  rcases complete_cases hc with ⟨request, response, n, rfl, rfl⟩ | ⟨n, rfl, rfl⟩ | ⟨n, rfl, rfl⟩ |
    ⟨keepAlive, rest, rfl, hw, rfl⟩ | ⟨rest, rfl, hw, rfl⟩ | ⟨rest, session, rfl, hw, hsession, rfl⟩
  · -- a request was read
    rw [onRead_success]
    refine ⟨?_, ⟨popped, ?_, ?_, hdelivered⟩, ?_⟩
    · rcases hq : x.session.responseQueue with _ | ⟨front, queue⟩
      · rcases h.front with hidle | ⟨hne, -⟩
        · simp [hidle]
        · exact absurd hq hne
      · simpa [hq] using h.front
    · simp [hanswered]
    · rcases hq : x.session.responseQueue with _ | ⟨front, queue⟩ <;> simp [hwritten, hq]
    · have hle := h.le
      simp only [List.length_append]
      omega
  · exact ⟨h.front, ⟨popped, hanswered, hwritten, nofun⟩, h.le⟩
  · exact ⟨h.front, ⟨popped, hanswered, hwritten, hdelivered⟩, h.le⟩
  · obtain ⟨front, queue, hq, -, rfl⟩ := h.queue hw
    have hle := h.le
    exact ⟨Or.inl rfl, ⟨popped, hanswered, hwritten, fun hopen => hdelivered hopen⟩, hle⟩
  · -- the last response was written
    obtain ⟨front, queue, hq, -, rfl⟩ := h.queue hw
    refine ⟨Or.inl rfl, ⟨popped, hanswered, hwritten, nofun⟩, ?_⟩
    have hle := h.le
    rcases hclosed : x.session.closed with _ | _
    · have hpopped := hdelivered hclosed
      simp [Completion.delivers, hclosed, hwritten, hq, hpopped]
    · simpa [Completion.delivers, hclosed] using hle
  · -- a response was written, and the next one follows
    obtain ⟨front, queue, hq, -, rfl⟩ := h.queue hw
    rw [onWrite_success { x.session with writes := [] } hq, Option.some.injEq] at hsession
    subst hsession
    refine ⟨?_, ⟨popped ++ [front], ?_, ?_, fun hopen => ?_⟩, ?_⟩
    · rcases queue with _ | ⟨next, queue⟩
      · exact Or.inl rfl
      · exact Or.inr ⟨by simp, by simp⟩
    · simpa [hq] using hanswered
    · simp [hwritten, hq]
    · have hopen' : x.session.closed = false := hopen
      simp [Completion.delivers, hopen', hdelivered hopen']
    · have hle := h.le
      rcases hclosed : x.session.closed with _ | _
      · have hpopped := hdelivered hclosed
        simp [Completion.delivers, hclosed, hwritten, hq, hpopped]
      · simp only [Completion.delivers, hclosed, if_true, List.length_append]
        omega

/-- Before the shutdown nothing is asked. -/
theorem drained_of_open (hopen : x.session.closed = false) : Drained x := by
  intro hclosed
  rw [hopen] at hclosed
  cases hclosed

/-- At the shutdown the responses that have left the queue must be all. -/
theorem take_popped {popped queue : List MessageGenerator} :
    (popped ++ queue.take 1).take popped.length = popped ++ queue ↔ queue = [] := by
  rw [List.take_left]
  simp

theorem Balanced.drained_iff (h : Balanced x) (hc : x.complete queueLimit c = some y) :
    Drained y ↔ Drained x ∧ Orderly c x := by
  obtain ⟨popped, hanswered, hwritten, hdelivered⟩ := h.order
  rcases complete_cases hc with ⟨request, response, n, rfl, rfl⟩ | ⟨n, rfl, rfl⟩ | ⟨n, rfl, rfl⟩ |
    ⟨keepAlive, rest, rfl, hw, rfl⟩ | ⟨rest, rfl, hw, rfl⟩ | ⟨rest, session, rfl, hw, hsession, rfl⟩
  · rcases hclosed : x.session.closed with _ | _
    · rw [onRead_success]
      exact iff_of_true (drained_of_open hclosed) ⟨drained_of_open hclosed, hclosed⟩
    · -- The response to a request that is read after the shutdown is one too many.
      refine iff_of_false (fun hdrained => ?_) fun horderly => ?_
      · rw [onRead_success] at hdrained
        have hlength := congrArg List.length (hdrained hclosed)
        have hle := h.le
        have hprefix : x.session.written.length ≤ (x.session.answered.map Prod.snd).length := by
          rw [hanswered, hwritten, List.length_append, List.length_append, List.length_take]
          omega
        simp only [List.map_append, List.length_append, List.length_take, List.length_map, List.map_cons,
          List.length_cons, List.length_nil, List.map_nil] at hlength hprefix
        omega
      · have hopen : x.session.closed = false := horderly.2
        rw [hclosed] at hopen
        cases hopen
  · rcases hclosed : x.session.closed with _ | _
    · have hend : Drained { x with session := { x.session with reads := n, closed := true } } ↔
          x.session.responseQueue = [] := by
        simp only [Drained, forall_const, hanswered, hwritten, hdelivered hclosed]
        exact take_popped
      rw [hend]
      refine ⟨fun hq => ⟨drained_of_open hclosed, fun _ => hq⟩, fun horderly => horderly.2 hclosed⟩
    · refine ⟨fun hdrained => ⟨fun _ => hdrained rfl, fun hopen => ?_⟩, fun horderly _ => horderly.1 hclosed⟩
      rw [hclosed] at hopen
      cases hopen
  · exact ⟨fun hdrained => ⟨hdrained, trivial⟩, And.left⟩
  · exact ⟨fun hdrained => ⟨hdrained, trivial⟩, And.left⟩
  · obtain ⟨front, queue, hq, -, rfl⟩ := h.queue hw
    rcases hclosed : x.session.closed with _ | _
    · have hend : Drained { session := { x.session with writes := [], closed := true },
                            delivered := x.delivered + Completion.delivers x.session (.written false) } ↔
          x.session.responseQueue.length = 1 := by
        simp only [Drained, forall_const, hanswered, hwritten, hdelivered hclosed, Completion.delivers, hclosed, hq]
        simp [List.take_of_length_le]
      rw [hend]
      exact ⟨fun hq => ⟨drained_of_open hclosed, fun _ _ => hq⟩,
        fun horderly => horderly.2 hclosed (by rw [hw]; rfl)⟩
    · have hend : Drained { session := { x.session with writes := [], closed := true },
                            delivered := x.delivered + Completion.delivers x.session (.written false) } ↔
          Drained x := by
        simp [Drained, hclosed, Completion.delivers]
      rw [hend]
      refine ⟨fun hdrained => ⟨hdrained, fun hopen => ?_⟩, And.left⟩
      rw [hclosed] at hopen
      cases hopen
  · obtain ⟨front, queue, hq, -, rfl⟩ := h.queue hw
    rw [onWrite_success { x.session with writes := [] } hq, Option.some.injEq] at hsession
    subst hsession
    have horderly : Orderly (.written false) x := by
      intro _ hfront
      rw [hw] at hfront
      cases hfront
    rcases hclosed : x.session.closed with _ | _
    · exact iff_of_true (drained_of_open rfl) ⟨drained_of_open hclosed, horderly⟩
    · have htake : (x.session.written ++ queue.take 1).take x.delivered = x.session.written.take x.delivered :=
        List.take_append_of_le_length h.le
      simp only [Drained, hclosed, Completion.delivers, if_true, Nat.add_zero, htake]
      exact ⟨fun hdrained => ⟨hdrained, horderly⟩, And.left⟩

/-- However the reads and writes of a connection complete, the response to every request that was read is
    written before the shutdown exactly when every step is orderly. -/
theorem session_drained {events : List (Completion Request)}
    (h : steps (Tracked.complete queueLimit) events { session := .run } = some x) :
    Drained x ↔ Along (Tracked.complete queueLimit) Orderly events { session := .run } := by
  rw [steps_iff_along (fun hc hb => hb.step hc) (fun hc hb => hb.drained_iff hc) h balanced_run]
  exact and_iff_right (drained_of_open rfl)

/-- A response that asks to close the connection is written, and the connection is closed. -/
theorem session_drained_close : ∃ x : Tracked Unit,
    steps (Tracked.complete 2) [.read (.success () ⟨false, str "a"⟩), .written false] { session := .run } =
      some x ∧ x.session.closed = true ∧ x.delivered = 1 ∧
    (Drained x ↔ Along (Tracked.complete 2) Orderly
      [.read (.success () ⟨false, str "a"⟩), .written false] { session := .run }) :=
  ⟨_, rfl, rfl, rfl, session_drained rfl⟩

/-- A client sends a request and closes its side: the connection is shut down before the response is
    written. -/
theorem session_drained_endOfStream : ¬ ∀ (events : List (Completion Unit)) x,
    steps (Tracked.complete 2) events { session := .run } = some x → Drained x := by
  intro h
  have hdrained := h [.read (.success () ⟨true, str "a"⟩), .read .endOfStream] _ rfl rfl
  cases hdrained

end AwsMock.Gateway
