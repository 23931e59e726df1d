import Mathlib.Logic.Basic

/-!
# Programs over a shared state

A sequential client of a shared state is a program whose only effects are calls. `exec` gives one
call its meaning on the state; `none` is undefined behaviour. `run` executes a program alone,
`interleave` executes two programs under a schedule, one call at a time.
-/

namespace Lib

/-- A client: it returns, throws, or makes a call and goes on with the reply. -/
inductive Prog (C : Type) (R : C → Type) (E : Type) (α : Type) : Type
  | ret (a : α)
  | throw (e : E)
  | call (c : C) (k : R c → Prog C R E α)

/-- A sequence succeeds when its parts do. -/
theorem except_bind_eq_ok {E α β : Type} {x : Except E α} {f : α → Except E β} {b : β} :
    (x >>= f) = .ok b ↔ ∃ a, x = .ok a ∧ f a = .ok b := by
  cases x with
  | error e => exact ⟨fun h => (nomatch h), fun ⟨_, h, _⟩ => (nomatch h)⟩
  | ok a => exact ⟨fun h => ⟨a, rfl, h⟩, fun ⟨_, h, hf⟩ => by cases h; exact hf⟩

namespace Prog

variable {C : Type} {R : C → Type} {E α β σ : Type}

/-- Sequencing; an exception skips the rest. -/
def bind : Prog C R E α → (α → Prog C R E β) → Prog C R E β
  | .ret a, f => f a
  | .throw e, _ => .throw e
  | .call c k, f => .call c fun r => (k r).bind f

instance : Monad (Prog C R E) where
  pure := .ret
  bind := .bind

/-- Rewrite the exception that escapes. -/
def mapThrow {E' : Type} (f : E → E') : Prog C R E α → Prog C R E' α
  | .ret a => .ret a
  | .throw e => .throw (f e)
  | .call c k => .call c fun r => (k r).mapThrow f

/-- The end of a computation without calls. -/
def ofExcept : Except E α → Prog C R E α
  | .ok a => .ret a
  | .error e => .throw e

/-- Continue with the outcome, whether it is a result or an exception. -/
def attempt {E' : Type} : Prog C R E α → Prog C R E' (Except E α)
  | .ret a => .ret (.ok a)
  | .throw e => .ret (.error e)
  | .call c k => .call c fun r => (k r).attempt

/-- A single call. -/
def perform (c : C) : Prog C R E (R c) := .call c .ret

/-- `if (b) { p }`. -/
def when (b : Prop) [Decidable b] (p : Prog C R E Unit) : Prog C R E Unit := if b then p else pure ()

/-- `for (auto &x : xs) body(x)`. -/
def forEach : List β → (β → Prog C R E Unit) → Prog C R E Unit
  | [], _ => pure ()
  | x :: xs, body => do
    body x
    forEach xs body

/-- The meaning of a call: its reply and the next state, or undefined behaviour. -/
abbrev Exec (C : Type) (R : C → Type) (σ : Type) := (c : C) → σ → Option (R c × σ)

variable (exec : Exec C R σ)

/-- Execute a program alone. -/
def run : Prog C R E α → σ → Option (Except E α × σ)
  | .ret a, s => some (.ok a, s)
  | .throw e, s => some (.error e, s)
  | .call c k, s => (exec c s).bind fun r => (k r.1).run r.2

/-- Let a program make its next call; a finished program does nothing. -/
def step : Prog C R E α → σ → Option (Prog C R E α × σ)
  | .call c k, s => (exec c s).map fun r => (k r.1, r.2)
  | p, s => some (p, s)

/-- Execute two programs under a schedule: `true` lets the first make its next call. -/
def interleave : List Bool → Prog C R E α → Prog C R E β → σ →
    Option (Prog C R E α × Prog C R E β × σ)
  | [], p, q, s => some (p, q, s)
  | true :: sched, p, q, s => (p.step exec s).bind fun r => interleave sched r.1 q r.2
  | false :: sched, p, q, s => (q.step exec s).bind fun r => interleave sched p r.1 r.2

/-- The call a program is about to make. -/
def next : Prog C R E α → Option C
  | .call c _ => some c
  | _ => none

/-- The calls made under a schedule: by the first program or not, the call, and the state before it.
    A call without a defined result is the last one. -/
def trace : List Bool → Prog C R E α → Prog C R E β → σ → List (Bool × C × σ)
  | [], _, _, _ => []
  | true :: sched, p, q, s => (p.next.map fun c => (true, c, s)).toList ++
    match p.step exec s with
    | some r => trace sched r.1 q r.2
    | none => []
  | false :: sched, p, q, s => (q.next.map fun c => (false, c, s)).toList ++
    match q.step exec s with
    | some r => trace sched p r.1 r.2
    | none => []

/-- The program of a part of the process: each call is made by `f`. -/
def via {C' : Type} {R' : C' → Type} (f : (c : C) → Prog C' R' E (R c)) :
    Prog C R E α → Prog C' R' E α
  | .ret a => .ret a
  | .throw e => .throw e
  | .call c k => (f c).bind fun r => (k r).via f

/-- The program that makes a list of calls. -/
def callAll : List C → Prog C R E Unit
  | [] => .ret ()
  | c :: cs => .call c fun _ => callAll cs

/-- Execute a list of calls, forgetting the replies. -/
def execAll : List C → σ → Option σ
  | [], s => some s
  | c :: cs, s => (exec c s).bind fun r => execAll cs r.2

variable {exec}

@[simp] theorem run_ret (a : α) (s : σ) : (ret a : Prog C R E α).run exec s = some (.ok a, s) := rfl

@[simp] theorem run_pure (a : α) (s : σ) :
    (pure a : Prog C R E α).run exec s = some (.ok a, s) := rfl

@[simp] theorem run_throw (e : E) (s : σ) :
    (throw e : Prog C R E α).run exec s = some (.error e, s) := rfl

@[simp] theorem run_perform (c : C) (s : σ) :
    (perform c : Prog C R E _).run exec s = (exec c s).map fun r => (.ok r.1, r.2) := by
  simp only [perform, run]
  cases exec c s <;> rfl

protected theorem pure_bind (a : α) (f : α → Prog C R E β) : (pure a >>= f) = f a := rfl

protected theorem bind_assoc {δ : Type} (p : Prog C R E α) (f : α → Prog C R E β)
    (g : β → Prog C R E δ) : (p.bind f).bind g = p.bind fun a => (f a).bind g := by
  induction p with
  | ret a => rfl
  | throw e => rfl
  | call c k ih => exact congrArg _ (funext ih)

theorem run_bind (p : Prog C R E α) (f : α → Prog C R E β) (s : σ) :
    (p >>= f).run exec s = (p.run exec s).bind fun
      | (.ok a, s') => (f a).run exec s'
      | (.error e, s') => some (.error e, s') := by
  change (p.bind f).run exec s = _
  induction p generalizing s with
  | ret a => rfl
  | throw e => rfl
  | call c k ih =>
    simp only [Prog.bind, run, Option.bind_assoc]
    exact congrArg _ (funext fun r => ih r.1 r.2)

theorem run_bind_eq_ok {p : Prog C R E α} {f : α → Prog C R E β} {s t : σ} {b : β} :
    (p >>= f).run exec s = some (.ok b, t) ↔
      ∃ a s', p.run exec s = some (.ok a, s') ∧ (f a).run exec s' = some (.ok b, t) := by
  rw [run_bind]
  rcases p.run exec s with _ | ⟨_ | a, s'⟩
  · simp
  · simp
  · constructor
    · intro h
      exact ⟨a, s', rfl, h⟩
    · rintro ⟨_, _, ⟨⟩, h⟩
      exact h

/-- A program whose result is converted. -/
theorem run_bind_pure (p : Prog C R E α) (f : α → β) (s : σ) :
    (p >>= fun a => pure (f a)).run exec s = (p.run exec s).map fun r => (r.1.map f, r.2) := by
  rw [run_bind]
  rcases p.run exec s with _ | ⟨_ | _, _⟩ <;> rfl

/-- A call and what follows it. -/
theorem run_perform_bind (c : C) (f : R c → Prog C R E α) (s : σ) :
    (perform c >>= f).run exec s = (exec c s).bind fun r => (f r.1).run exec r.2 := rfl

theorem run_perform_bind_some {c : C} {f : R c → Prog C R E α} {s : σ} {r : R c × σ}
    (hr : exec c s = some r) : (perform c >>= f).run exec s = (f r.1).run exec r.2 := by
  rw [run_perform_bind, hr]
  rfl

theorem run_perform_bind_eq_some {c : C} {f : R c → Prog C R E α} {s : σ} {r : Except E α × σ} :
    (perform c >>= f).run exec s = some r ↔
      ∃ x, exec c s = some x ∧ (f x.1).run exec x.2 = some r := by
  rw [run_perform_bind, Option.bind_eq_some_iff]

@[simp] theorem run_mapThrow {E' : Type} (f : E → E') (p : Prog C R E α) (s : σ) :
    (p.mapThrow f).run exec s = (p.run exec s).map fun r => (r.1.mapError f, r.2) := by
  induction p generalizing s with
  | ret a => rfl
  | throw e => rfl
  | call c k ih =>
    simp only [mapThrow, run, Option.map_bind]
    exact congrArg _ (funext fun r => ih r.1 r.2)

theorem run_mapThrow_eq_some {E' : Type} {f : E → E'} {p : Prog C R E α} {s : σ}
    {r : Except E' α × σ} : (p.mapThrow f).run exec s = some r ↔
      ∃ x, p.run exec s = some x ∧ (x.1.mapError f, x.2) = r := by
  rw [run_mapThrow, Option.map_eq_some_iff]

theorem ofExcept_ok_bind (a : α) (f : α → Prog C R E β) : (ofExcept (.ok a) >>= f) = f a := rfl

theorem ofExcept_error_bind (e : E) (f : α → Prog C R E β) :
    ((ofExcept (.error e) : Prog C R E α) >>= f) = .throw e := rfl

@[simp] theorem run_ofExcept (x : Except E α) (s : σ) :
    (ofExcept x : Prog C R E α).run exec s = some (x, s) := by
  cases x <;> rfl

theorem run_attempt {E' : Type} (p : Prog C R E α) (s : σ) :
    (p.attempt : Prog C R E' _).run exec s = (p.run exec s).map fun r => (.ok r.1, r.2) := by
  induction p generalizing s with
  | ret a => rfl
  | throw e => rfl
  | call c k ih =>
    simp only [attempt, run, Option.map_bind]
    exact congrArg _ (funext fun r => ih r.1 r.2)

/-- Run a program whose outcome nobody looks at. -/
theorem run_attempt_ignored {E' : Type} (p : Prog C R E α) (s : σ) :
    (do let _ ← p.attempt : Prog C R E' Unit).run exec s =
      (p.run exec s).map fun r => (.ok (), r.2) := by
  change ((p.attempt : Prog C R E' _) >>= fun _ => pure ()).run exec s = _
  rw [run_bind, run_attempt]
  cases p.run exec s <;> rfl

/-- The program of a part of the process runs as it does on that part. -/
theorem run_via {C' : Type} {R' : C' → Type} {τ : Type} {exec' : Exec C' R' τ}
    {f : (c : C) → Prog C' R' E (R c)} (get : τ → σ) (put : τ → σ → τ)
    (hget : ∀ t s, get (put t s) = s) (hput : ∀ t, put t (get t) = t)
    (hputput : ∀ t s s', put (put t s) s' = put t s')
    (hcall : ∀ c t, (f c).run exec' t = (exec c (get t)).map fun r => (.ok r.1, put t r.2))
    (p : Prog C R E α) (t : τ) :
    (p.via f).run exec' t = (p.run exec (get t)).map fun r => (r.1, put t r.2) := by
  induction p generalizing t with
  | ret a => simp [via, hput]
  | throw e => simp [via, hput]
  | call c k ih =>
    change ((f c) >>= fun r => (k r).via f).run exec' t = _
    rw [run_bind, hcall]
    rcases hr : exec c (get t) with _ | r
    · simp [run, hr]
    · simp only [run, hr, Option.map_some, Option.bind_some, ih, hget, hputput]

/-- An invariant that every call keeps holds after every list of calls. -/
theorem execAll_invariant {I : σ → Prop} (hstep : ∀ c s r, I s → exec c s = some r → I r.2) :
    ∀ {cs : List C} {s s' : σ}, I s → execAll exec cs s = some s' → I s'
  | [], s, s', hs, h => by cases h; exact hs
  | c :: cs, s, s', hs, h => by
    obtain ⟨r, hr, h⟩ := Option.bind_eq_some_iff.mp h
    exact execAll_invariant hstep (hstep c s r hs hr) h

/-- An invariant that every call keeps holds after every run of a program. -/
theorem run_invariant {I : σ → Prop} (hstep : ∀ c s r, I s → exec c s = some r → I r.2)
    {p : Prog C R E α} {s : σ} {r : Except E α × σ} (hs : I s) (h : p.run exec s = some r) :
    I r.2 := by
  induction p generalizing s with
  | ret a => cases h; exact hs
  | throw e => cases h; exact hs
  | call c k ih =>
    obtain ⟨x, hx, h⟩ := Option.bind_eq_some_iff.mp h
    exact ih x.1 (hstep c s x hs hx) h

/-! ### Interleavings -/

section Interleavings

attribute [local simp] interleave trace

variable {p : Prog C R E α} {q : Prog C R E β} {c : C} {s : σ} {r : R c × σ} (sched : List Bool)

theorem step_of_next_eq_none (hp : p.next = none) : p.step exec s = some (p, s) := by
  cases p with
  | ret | throw => rfl
  | call => cases hp

/-- A finished program lets its turn pass. -/
theorem interleave_left_done (hp : p.next = none) :
    interleave exec (true :: sched) p q s = interleave exec sched p q s := by
  simp [step_of_next_eq_none hp]

theorem trace_left_done (hp : p.next = none) :
    trace exec (true :: sched) p q s = trace exec sched p q s := by
  simp [step_of_next_eq_none hp, hp]

theorem interleave_right_done (hq : q.next = none) :
    interleave exec (false :: sched) p q s = interleave exec sched p q s := by
  simp [step_of_next_eq_none hq]

theorem trace_right_done (hq : q.next = none) :
    trace exec (false :: sched) p q s = trace exec sched p q s := by
  simp [step_of_next_eq_none hq, hq]

/-- The first program makes its next call. -/
theorem interleave_left {k : R c → Prog C R E α} (hr : exec c s = some r) :
    interleave exec (true :: sched) (.call c k) q s = interleave exec sched (k r.1) q r.2 := by
  simp [step, hr]

theorem trace_left {k : R c → Prog C R E α} (hr : exec c s = some r) :
    trace exec (true :: sched) (.call c k) q s = (true, c, s) :: trace exec sched (k r.1) q r.2 := by
  simp [step, next, hr]

/-- The second program makes its next call. -/
theorem interleave_right {k : R c → Prog C R E β} (hr : exec c s = some r) :
    interleave exec (false :: sched) p (.call c k) s = interleave exec sched p (k r.1) r.2 := by
  simp [step, hr]

theorem trace_right {k : R c → Prog C R E β} (hr : exec c s = some r) :
    trace exec (false :: sched) p (.call c k) s =
      (false, c, s) :: trace exec sched p (k r.1) r.2 := by
  simp [step, next, hr]

/-- A call about to be made is in the trace, whether it is defined or not. -/
theorem mem_trace_left (k : R c → Prog C R E α) (q : Prog C R E β) (s : σ) :
    (true, c, s) ∈ trace exec (true :: sched) (.call c k) q s := by
  simp [next]

end Interleavings

/-- Under interference that keeps `rely`, the program makes no undefined call. -/
def Safe (exec : Exec C R σ) (rely : σ → σ → Prop) : Prog C R E α → σ → Prop
  | .ret _, _ => True
  | .throw _, _ => True
  | .call c k, s => ∀ s', rely s s' → ∃ r, exec c s' = some r ∧ (k r.1).Safe exec rely r.2

section Safety

variable {rely : σ → σ → Prop}

/-- Interference that has happened does no harm. -/
theorem Safe.of_rely (htrans : ∀ {a b c}, rely a b → rely b c → rely a c) {p : Prog C R E α}
    {s s' : σ} (hp : p.Safe exec rely s) (hs : rely s s') : p.Safe exec rely s' := by
  cases p with
  | ret | throw => trivial
  | call c k => exact fun s'' h => hp s'' (htrans hs h)

/-- A sequence is safe from everywhere when its parts are. -/
theorem safe_bind {p : Prog C R E α} {f : α → Prog C R E β} {s : σ} (hp : p.Safe exec rely s)
    (hf : ∀ a s, (f a).Safe exec rely s) : (p >>= f).Safe exec rely s := by
  change (p.bind f).Safe exec rely s
  induction p generalizing s with
  | ret a => exact hf a s
  | throw e => trivial
  | call c k ih =>
    intro s' hs
    obtain ⟨r, hr, hk⟩ := hp s' hs
    exact ⟨r, hr, ih r.1 hk⟩

theorem safe_mapThrow {E' : Type} {f : E → E'} {p : Prog C R E α} {s : σ}
    (hp : p.Safe exec rely s) : (p.mapThrow f).Safe exec rely s := by
  induction p generalizing s with
  | ret a => trivial
  | throw e => trivial
  | call c k ih =>
    intro s' hs
    obtain ⟨r, hr, hk⟩ := hp s' hs
    exact ⟨r, hr, ih r.1 hk⟩

theorem safe_attempt {E' : Type} {p : Prog C R E α} {s : σ} (hp : p.Safe exec rely s) :
    (p.attempt : Prog C R E' _).Safe exec rely s := by
  induction p generalizing s with
  | ret a => trivial
  | throw e => trivial
  | call c k ih =>
    intro s' hs
    obtain ⟨r, hr, hk⟩ := hp s' hs
    exact ⟨r, hr, ih r.1 hk⟩

theorem safe_perform {c : C} {s : σ} (h : ∀ s', rely s s' → ∃ r, exec c s' = some r) :
    (perform c : Prog C R E _).Safe exec rely s := fun s' hs =>
  let ⟨r, hr⟩ := h s' hs
  ⟨r, hr, trivial⟩

theorem safe_perform_bind {c : C} {f : R c → Prog C R E α} {s : σ}
    (h : ∀ s', rely s s' → ∃ r, exec c s' = some r ∧ (f r.1).Safe exec rely r.2) :
    (perform c >>= f).Safe exec rely s := h

/-- A loop is safe from everywhere when its body is. -/
theorem safe_forEach {body : β → Prog C R E Unit} (h : ∀ x s, (body x).Safe exec rely s) :
    ∀ (xs : List β) (s : σ), (forEach xs body).Safe exec rely s
  | [], _ => trivial
  | x :: xs, s => safe_bind (h x s) fun _ s => safe_forEach h xs s

end Safety

/-! ### Programs that make only certain calls -/

/-- Whatever the replies, the program makes no call outside `P`. -/
def Only (P : C → Prop) : Prog C R E α → Prop
  | .ret _ => True
  | .throw _ => True
  | .call c k => P c ∧ ∀ r, (k r).Only P

variable {P Q : C → Prop}

theorem only_pure (a : α) : (pure a : Prog C R E α).Only P := trivial

theorem only_throw (e : E) : (.throw e : Prog C R E α).Only P := trivial

theorem only_ofExcept (x : Except E α) : (ofExcept x : Prog C R E α).Only P := by
  cases x <;> trivial

theorem only_perform {c : C} (hc : P c) : (perform c : Prog C R E _).Only P :=
  ⟨hc, fun _ => trivial⟩

theorem Only.mono (h : ∀ c, P c → Q c) {p : Prog C R E α} (hp : p.Only P) : p.Only Q := by
  induction p with
  | ret a => trivial
  | throw e => trivial
  | call c k ih => exact ⟨h c hp.1, fun r => ih r (hp.2 r)⟩

theorem only_bind {p : Prog C R E α} {f : α → Prog C R E β} (hp : p.Only P)
    (hf : ∀ a, (f a).Only P) : (p >>= f).Only P := by
  change (p.bind f).Only P
  induction p with
  | ret a => exact hf a
  | throw e => trivial
  | call c k ih => exact ⟨hp.1, fun r => ih r (hp.2 r)⟩

theorem only_when {b : Prop} [Decidable b] {p : Prog C R E Unit} (hp : b → p.Only P) :
    (Prog.when b p).Only P := by
  unfold Prog.when
  split
  · next hb => exact hp hb
  · exact only_pure _

theorem only_mapThrow {E' : Type} {f : E → E'} {p : Prog C R E α} (hp : p.Only P) :
    (p.mapThrow f).Only P := by
  induction p with
  | ret a => trivial
  | throw e => trivial
  | call c k ih => exact ⟨hp.1, fun r => ih r (hp.2 r)⟩

theorem only_attempt {E' : Type} {p : Prog C R E α} (hp : p.Only P) :
    (p.attempt : Prog C R E' _).Only P := by
  induction p with
  | ret a => trivial
  | throw e => trivial
  | call c k ih => exact ⟨hp.1, fun r => ih r (hp.2 r)⟩

theorem only_forEach {body : β → Prog C R E Unit} : ∀ {xs : List β},
    (∀ x ∈ xs, (body x).Only P) → (forEach xs body).Only P
  | [], _ => trivial
  | x :: xs, h => only_bind (h x (by simp)) fun _ => only_forEach fun y hy => h y (by simp [hy])

/-- What every call in `P` keeps holds after a run. -/
theorem Only.invariant {I : σ → Prop}
    (hstep : ∀ c s r, P c → I s → exec c s = some r → I r.2) {p : Prog C R E α} (hp : p.Only P)
    {s : σ} {r : Except E α × σ} (hs : I s) (h : p.run exec s = some r) : I r.2 := by
  induction p generalizing s with
  | ret a => cases h; exact hs
  | throw e => cases h; exact hs
  | call c k ih =>
    obtain ⟨x, hx, h⟩ := Option.bind_eq_some_iff.mp h
    exact ih x.1 (hp.2 x.1) (hstep c s x hp.1 hs hx) h

/-- Where the calls in `P` are always defined, the program is safe. -/
theorem Only.safe {rely : σ → σ → Prop} (h : ∀ c s, P c → ∃ r, exec c s = some r)
    {p : Prog C R E α} (hp : p.Only P) (s : σ) : p.Safe exec rely s := by
  induction p generalizing s with
  | ret a => trivial
  | throw e => trivial
  | call c k ih =>
    intro s' _
    obtain ⟨r, hr⟩ := h c s' hp.1
    exact ⟨r, hr, ih r.1 (hp.2 r.1) r.2⟩

/-- Where the calls in `P` are defined and keep an invariant, the program runs to its end and keeps
    it. -/
theorem Only.run {I : σ → Prop} (hstep : ∀ c s, P c → I s → ∃ r, exec c s = some r ∧ I r.2)
    {p : Prog C R E α} (hp : p.Only P) {s : σ} (hs : I s) :
    ∃ r, p.run exec s = some r ∧ I r.2 := by
  induction p generalizing s with
  | ret a => exact ⟨_, rfl, hs⟩
  | throw e => exact ⟨_, rfl, hs⟩
  | call c k ih =>
    obtain ⟨r, hr, hi⟩ := hstep c s hp.1 hs
    obtain ⟨x, hx, hix⟩ := ih r.1 (hp.2 r.1) hi
    exact ⟨x, by rw [Prog.run, hr]; exact hx, hix⟩

/-- Where the calls in `P` reply the same in related states and keep them related, so does the program. -/
theorem Only.run_related {T : σ → σ → Prop}
    (hstep : ∀ c s t, P c → T s t →
      Option.Rel (fun r r' => r.1 = r'.1 ∧ T r.2 r'.2) (exec c s) (exec c t))
    {p : Prog C R E α} (hp : p.Only P) {s t : σ} (h : T s t) :
    Option.Rel (fun r r' => r.1 = r'.1 ∧ T r.2 r'.2) (p.run exec s) (p.run exec t) := by
  induction p generalizing s t with
  | ret a => exact .some ⟨rfl, h⟩
  | throw e => exact .some ⟨rfl, h⟩
  | call c k ih =>
    have hrel := hstep c s t hp.1 h
    rw [Prog.run, Prog.run]
    rcases hs : exec c s with _ | ⟨x, s'⟩ <;> rcases ht : exec c t with _ | ⟨y, t'⟩ <;>
      rw [hs, ht] at hrel
    · exact .none
    · cases hrel
    · cases hrel
    · obtain ⟨⟨⟩, hnext⟩ := hrel
      exact ih x (hp.2 x) hnext

/-- Calls in `P` that mean the same. -/
theorem Only.run_congr {exec' : Exec C R σ} (h : ∀ c s, P c → exec c s = exec' c s) {p : Prog C R E α}
    (hp : p.Only P) (s : σ) : p.run exec s = p.run exec' s := by
  induction p generalizing s with
  | ret a => rfl
  | throw e => rfl
  | call c k ih =>
    simp only [Prog.run]
    rw [h c s hp.1]
    exact congrArg _ (funext fun r => ih r.1 (hp.2 r.1) r.2)

end Prog

end Lib
