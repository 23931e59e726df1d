import AwsMock.Lib.Prog

/-!
# What a program makes sure of

`Ensures exec S Q p s`: run from `s`, every call the program makes meets `S` in the state it is made in,
and every end of the run, by a result or an exception, meets `Q`. Nothing is said of a run that a call
without a defined result cuts off. `Makes exec P p s`: the run makes a call that meets `P`. One rule for
each way a program is put together.
-/

namespace Lib.Prog

variable {C : Type} {R : C → Type} {E α β σ : Type}

/-- Safety of the calls and partial correctness of the end. -/
def Ensures (exec : Exec C R σ) (S : C → σ → Prop) (Q : Except E α → σ → Prop) :
    Prog C R E α → σ → Prop
  | .ret a, s => Q (.ok a) s
  | .throw e, s => Q (.error e) s
  | .call c k, s => S c s ∧ ∀ r, exec c s = some r → (k r.1).Ensures exec S Q r.2

/-- What the rest of a sequence has to ensure. -/
def After (exec : Exec C R σ) (S : C → σ → Prop) (f : α → Prog C R E β)
    (Q : Except E β → σ → Prop) : Except E α → σ → Prop
  | .ok a, s => (f a).Ensures exec S Q s
  | .error e, s => Q (.error e) s

variable {exec : Exec C R σ} {S : C → σ → Prop}

theorem Ensures.mono {p : Prog C R E α} {Q Q' : Except E α → σ → Prop}
    (h : ∀ x s, Q x s → Q' x s) {s : σ} (hp : p.Ensures exec S Q s) : p.Ensures exec S Q' s := by
  induction p generalizing s with
  | ret a => exact h _ _ hp
  | throw e => exact h _ _ hp
  | call c k ih => exact ⟨hp.1, fun r hr => ih r.1 (hp.2 r hr)⟩

theorem Ensures.and {p : Prog C R E α} {Q Q' : Except E α → σ → Prop} {s : σ}
    (hp : p.Ensures exec S Q s) (hp' : p.Ensures exec S Q' s) :
    p.Ensures exec S (fun x s => Q x s ∧ Q' x s) s := by
  induction p generalizing s with
  | ret a => exact ⟨hp, hp'⟩
  | throw e => exact ⟨hp, hp'⟩
  | call c k ih => exact ⟨hp.1, fun r hr => ih r.1 (hp.2 r hr) (hp'.2 r hr)⟩

/-- The end of a run. -/
theorem Ensures.of_run {p : Prog C R E α} {Q : Except E α → σ → Prop} {s : σ}
    (hp : p.Ensures exec S Q s) {x : Except E α} {s' : σ} (h : p.run exec s = some (x, s')) :
    Q x s' := by
  induction p generalizing s with
  | ret a => cases h; exact hp
  | throw e => cases h; exact hp
  | call c k ih =>
    obtain ⟨r, hr, h⟩ := Option.bind_eq_some_iff.mp h
    exact ih r.1 (hp.2 r hr) h

/-- Every end that `Q` speaks of is the end of the run. -/
theorem Ensures.attained {p : Prog C R E α} {Q : Except E α → σ → Prop} {s : σ}
    (hp : p.Ensures exec S Q s) :
    p.Ensures exec S (fun x s' => Q x s' ∧ p.run exec s = some (x, s')) s := by
  induction p generalizing s with
  | ret a => exact ⟨hp, rfl⟩
  | throw e => exact ⟨hp, rfl⟩
  | call c k ih =>
    refine ⟨hp.1, fun r hr => (ih r.1 (hp.2 r hr)).mono fun x s' h => ⟨h.1, ?_⟩⟩
    rw [Prog.run, hr]
    exact h.2

variable {Q : Except E β → σ → Prop}

theorem ensures_bind {p : Prog C R E α} {f : α → Prog C R E β} {s : σ}
    (hp : p.Ensures exec S (After exec S f Q) s) : (p >>= f).Ensures exec S Q s := by
  change (p.bind f).Ensures exec S Q s
  induction p generalizing s with
  | ret a => exact hp
  | throw e => exact hp
  | call c k ih => exact ⟨hp.1, fun r hr => ih r.1 (hp.2 r hr)⟩

/-- A sequence whose first part ensures `M` of its result. -/
theorem ensures_bind_of {p : Prog C R E α} {f : α → Prog C R E β} {s : σ}
    {M : Except E α → σ → Prop} (hp : p.Ensures exec S M s)
    (hf : ∀ a s', M (.ok a) s' → (f a).Ensures exec S Q s')
    (herr : ∀ e s', M (.error e) s' → Q (.error e) s') : (p >>= f).Ensures exec S Q s := by
  refine ensures_bind (hp.mono fun x s' hm => ?_)
  cases x with
  | ok a => exact hf a s' hm
  | error e => exact herr e s' hm

theorem ensures_perform_bind {c : C} {f : R c → Prog C R E β} {s : σ} (hc : S c s)
    (hf : ∀ r, exec c s = some r → (f r.1).Ensures exec S Q r.2) :
    (perform c >>= f).Ensures exec S Q s := ⟨hc, hf⟩

theorem ensures_perform {c : C} {Q : Except E (R c) → σ → Prop} {s : σ} (hc : S c s)
    (hq : ∀ r, exec c s = some r → Q (.ok r.1) r.2) :
    (perform c : Prog C R E _).Ensures exec S Q s := ⟨hc, hq⟩

theorem ensures_ofExcept {x : Except E β} {s : σ} (h : Q x s) :
    (ofExcept x : Prog C R E β).Ensures exec S Q s := by
  cases x <;> exact h

theorem ensures_when {b : Prop} [Decidable b] {p : Prog C R E Unit} {Q : Except E Unit → σ → Prop}
    {s : σ} (hp : b → p.Ensures exec S Q s) (hskip : ¬ b → Q (.ok ()) s) :
    (Prog.when b p).Ensures exec S Q s := by
  unfold Prog.when
  split
  · next hb => exact hp hb
  · next hb => exact hskip hb

theorem ensures_mapThrow {E' : Type} {f : E → E'} {p : Prog C R E β}
    {Q : Except E' β → σ → Prop} {s : σ} (hp : p.Ensures exec S (fun x => Q (x.mapError f)) s) :
    (p.mapThrow f).Ensures exec S Q s := by
  induction p generalizing s with
  | ret a => exact hp
  | throw e => exact hp
  | call c k ih => exact ⟨hp.1, fun r hr => ih r.1 (hp.2 r hr)⟩

/-- A program keeps what its calls keep, where they meet `S`. -/
theorem Only.ensures {P : C → Prop} {I : σ → Prop} (hsafe : ∀ c s, P c → I s → S c s)
    (hstep : ∀ c s r, P c → I s → exec c s = some r → I r.2) {p : Prog C R E α} (hp : p.Only P)
    {s : σ} (hs : I s) : p.Ensures exec S (fun _ => I) s := by
  induction p generalizing s with
  | ret a => exact hs
  | throw e => exact hs
  | call c k ih => exact ⟨hsafe c s hp.1 hs, fun r hr => ih r.1 (hp.2 r.1) (hstep c s r hp.1 hs hr)⟩

/-! ### Calls that are made -/

/-- The run makes a call that meets `P` in the state it is made in. -/
def Makes (exec : Exec C R σ) (P : C → σ → Prop) : Prog C R E α → σ → Prop
  | .call c k, s => P c s ∨ ∃ r, exec c s = some r ∧ (k r.1).Makes exec P r.2
  | _, _ => False

variable {P : C → σ → Prop}

theorem makes_bind {p : Prog C R E α} {f : α → Prog C R E β} {s : σ} :
    (p >>= f).Makes exec P s ↔
      p.Makes exec P s ∨ ∃ a s', p.run exec s = some (.ok a, s') ∧ (f a).Makes exec P s' := by
  change (p.bind f).Makes exec P s ↔ _
  induction p generalizing s with
  | ret a =>
    simp only [Prog.bind, Makes, run, false_or]
    constructor
    · intro h
      exact ⟨a, s, rfl, h⟩
    · rintro ⟨_, _, h, hf⟩
      cases h
      exact hf
  | throw e => simp [Prog.bind, Makes, run]
  | call c k ih =>
    simp only [Prog.bind, Makes, run, ih, Option.bind_eq_some_iff]
    constructor
    · rintro (h | ⟨r, hr, h | ⟨a, s', h, hf⟩⟩)
      · exact Or.inl (Or.inl h)
      · exact Or.inl (Or.inr ⟨r, hr, h⟩)
      · exact Or.inr ⟨a, s', ⟨r, hr, h⟩, hf⟩
    · rintro ((h | ⟨r, hr, h⟩) | ⟨a, s', ⟨r, hr, h⟩, hf⟩)
      · exact Or.inl h
      · exact Or.inr ⟨r, hr, Or.inl h⟩
      · exact Or.inr ⟨r, hr, Or.inr ⟨a, s', h, hf⟩⟩

/-- A call of another kind is passed over. -/
theorem makes_perform_bind {c : C} {f : R c → Prog C R E β} {s : σ} {r : R c × σ} (hc : ¬ P c s)
    (hr : exec c s = some r) :
    (perform c >>= f).Makes exec P s ↔ (f r.1).Makes exec P r.2 := by
  change (P c s ∨ ∃ r, exec c s = some r ∧ (f r.1).Makes exec P r.2) ↔ _
  simp [hc, hr]

theorem makes_mapThrow {E' : Type} {f : E → E'} {p : Prog C R E α} {s : σ} :
    (p.mapThrow f).Makes exec P s ↔ p.Makes exec P s := by
  induction p generalizing s with
  | ret a => exact Iff.rfl
  | throw e => exact Iff.rfl
  | call c k ih => simp only [mapThrow, Makes, ih]

theorem Only.not_makes {A : C → Prop} (h : ∀ c s, A c → ¬ P c s) {p : Prog C R E α} (hp : p.Only A)
    {s : σ} : ¬ p.Makes exec P s := by
  induction p generalizing s with
  | ret a => exact id
  | throw e => exact id
  | call c k ih =>
    rintro (hc | ⟨r, -, hr⟩)
    · exact h c s hp.1 hc
    · exact ih r.1 (hp.2 r.1) hr

theorem not_makes (h : ∀ c s, ¬ P c s) {p : Prog C R E α} {s : σ} : ¬ p.Makes exec P s := by
  induction p generalizing s with
  | ret a => exact id
  | throw e => exact id
  | call c k ih =>
    rintro (hc | ⟨r, -, hr⟩)
    · exact h c s hc
    · exact ih r.1 hr

/-- The run makes a call after which `J` holds, and `J` holds at its end. -/
def Establishes (exec : Exec C R σ) (J : σ → Prop) (p : Prog C R E α) (s : σ) : Prop :=
  p.Makes exec (fun c s => ∃ r, exec c s = some r ∧ J r.2) s ∧
    ∀ x s', p.run exec s = some (x, s') → J s'

section Establishes

variable {J : σ → Prop} {c : C} {f : R c → Prog C R E α} {s : σ} {r : R c × σ}

theorem Establishes.call (hr : exec c s = some r) (h : (f r.1).Establishes exec J r.2) :
    (perform c >>= f).Establishes exec J s := by
  refine ⟨Or.inr ⟨r, hr, h.1⟩, fun x s' hrun => ?_⟩
  rw [run_perform_bind_some hr] at hrun
  exact h.2 x s' hrun

/-- The calls after the one that establishes `J` keep it. -/
theorem establishes_of_only {A : C → Prop} (hr : exec c s = some r) (hj : J r.2)
    (hkeep : ∀ c s r, A c → J s → exec c s = some r → J r.2) (hf : (f r.1).Only A) :
    (perform c >>= f).Establishes exec J s := by
  refine ⟨Or.inl ⟨r, hr, hj⟩, fun x s' hrun => ?_⟩
  rw [run_perform_bind_some hr] at hrun
  exact hf.invariant hkeep hj hrun

end Establishes

/-- Execute only calls that do not meet `P`. -/
def without (exec : Exec C R σ) (P : C → σ → Bool) : Exec C R σ :=
  fun c s => if P c s then none else exec c s

section Without

variable {P : C → σ → Bool} {p : Prog C R E α}

theorem without_eq_some {c : C} {s : σ} {r : R c × σ} :
    without exec P c s = some r ↔ P c s = false ∧ exec c s = some r := by
  unfold without
  cases P c s <;> simp

/-- A run without such calls is a run. -/
theorem run_of_without {s : σ} {r : Except E α × σ} (h : p.run (without exec P) s = some r) :
    p.run exec s = some r := by
  induction p generalizing s with
  | ret a => exact h
  | throw e => exact h
  | call c k ih =>
    obtain ⟨x, hx, h⟩ := Option.bind_eq_some_iff.mp h
    rw [run, (without_eq_some.mp hx).2]
    exact ih x.1 h

/-- A run that makes no such call is one without them. -/
theorem run_without {s : σ} (h : ¬ p.Makes exec (fun c s => P c s = true) s) :
    p.run (without exec P) s = p.run exec s := by
  induction p generalizing s with
  | ret a => rfl
  | throw e => rfl
  | call c k ih =>
    simp only [Makes, not_or, Bool.not_eq_true] at h
    rw [run, run, without, h.1, if_neg (by simp)]
    rcases hr : exec c s with _ | r
    · rfl
    · exact ih r.1 fun hmakes => h.2 ⟨r, hr, hmakes⟩

end Without

end Lib.Prog
