import AwsMock.Lib.Prog

/-!
# Triples and notes

`Total P p Q`: from every state that meets `P` the program ends with a result, in a state that meets
`Q`. One rule for each way a program is put together. `noting` keeps notes beside the state, which the
program does not see.
-/

namespace Lib.Prog

variable {C : Type} {R : C → Type} {E α β σ γ : Type} {exec : Exec C R σ}

/-- Total correctness with a result. -/
def Total (exec : Exec C R σ) (P : σ → Prop) (p : Prog C R E α) (Q : α → σ → Prop) : Prop :=
  ∀ s, P s → ∃ a s', p.run exec s = some (.ok a, s') ∧ Q a s'

variable {P P' : σ → Prop}

theorem total_pure {Q : α → σ → Prop} (a : α) (h : ∀ s, P s → Q a s) :
    (pure a : Prog C R E α).Total exec P Q := fun s hs => ⟨a, s, rfl, h s hs⟩

theorem total_perform {c : C} {Q : R c → σ → Prop}
    (h : ∀ s, P s → ∃ r, exec c s = some r ∧ Q r.1 r.2) :
    (perform c : Prog C R E _).Total exec P Q := by
  intro s hs
  obtain ⟨r, hr, hq⟩ := h s hs
  exact ⟨r.1, r.2, by rw [run_perform, hr]; rfl, hq⟩

theorem total_bind {p : Prog C R E α} {f : α → Prog C R E β} {M : α → σ → Prop}
    {Q : β → σ → Prop} (hp : p.Total exec P M) (hf : ∀ a, (f a).Total exec (M a) Q) :
    (p >>= f).Total exec P Q := by
  intro s hs
  obtain ⟨a, s₁, hrun, hm⟩ := hp s hs
  obtain ⟨b, s₂, hrun', hq⟩ := hf a s₁ hm
  exact ⟨b, s₂, by rw [run_bind, hrun]; exact hrun', hq⟩

theorem Total.mono {p : Prog C R E α} {Q Q' : α → σ → Prop} (hp : p.Total exec P Q)
    (hpre : ∀ s, P' s → P s) (hpost : ∀ a s, Q a s → Q' a s) : p.Total exec P' Q' := by
  intro s hs
  obtain ⟨a, s', hrun, hq⟩ := hp s (hpre s hs)
  exact ⟨a, s', hrun, hpost a s' hq⟩

theorem total_when {b : Prop} [Decidable b] {p : Prog C R E Unit} {Q : Unit → σ → Prop}
    (hp : b → p.Total exec P Q) (hskip : ¬ b → ∀ s, P s → Q () s) :
    (Prog.when b p).Total exec P Q := by
  unfold Prog.when
  split
  · next hb => exact hp hb
  · next hb => exact total_pure () (hskip hb)

/-- Whatever the outcome is, it is a result of `attempt`. -/
theorem total_attempt {E' : Type} {p : Prog C R E α} {Q : Except E α → σ → Prop}
    (h : ∀ s, P s → ∃ r, p.run exec s = some r ∧ Q r.1 r.2) :
    (p.attempt : Prog C R E' _).Total exec P Q := by
  intro s hs
  obtain ⟨r, hr, hq⟩ := h s hs
  exact ⟨r.1, r.2, by rw [run_attempt, hr]; rfl, hq⟩

/-- A loop keeps what every round keeps. -/
theorem total_forEach {body : β → Prog C R E Unit} : ∀ {xs : List β},
    (∀ x ∈ xs, (body x).Total exec P fun _ => P) → (forEach xs body).Total exec P fun _ => P
  | [], _ => total_pure () fun _ hs => hs
  | x :: xs, h => total_bind (h x (by simp)) fun _ => total_forEach fun y hy => h y (by simp [hy])

theorem forEach_append (body : β → Prog C R E Unit) (xs ys : List β) :
    forEach (xs ++ ys) body = (forEach xs body >>= fun _ => forEach ys body) := by
  induction xs with
  | nil => rfl
  | cons x xs ih =>
    change (body x).bind _ = ((body x).bind _).bind _
    rw [Prog.bind_assoc]
    exact congrArg _ (funext fun _ => ih)

/-- A loop up to one round, that round, and the loop after it. -/
theorem total_forEach_split {body : β → Prog C R E Unit} {xs ys : List β} {x : β} {Q : σ → Prop}
    (hxs : ∀ y ∈ xs, (body y).Total exec P fun _ => P) (hx : (body x).Total exec P fun _ => Q)
    (hys : ∀ y ∈ ys, (body y).Total exec Q fun _ => Q) :
    (forEach (xs ++ x :: ys) body).Total exec P fun _ => Q := by
  rw [forEach_append]
  exact total_bind (total_forEach hxs) fun _ => total_bind hx fun _ => total_forEach hys

/-! ### Notes -/

/-- Execute a call and add to the notes. -/
def noting (exec : Exec C R σ) (note : (c : C) → σ → R c → σ → γ → γ) : Exec C R (σ × γ) :=
  fun c s => (exec c s.1).map fun r => (r.1, (r.2, note c s.1 r.1 r.2 s.2))

variable {note : (c : C) → σ → R c → σ → γ → γ}

theorem noting_eq_some {c : C} {s : σ × γ} {r : R c × σ × γ} : noting exec note c s = some r ↔
    exec c s.1 = some (r.1, r.2.1) ∧ r.2.2 = note c s.1 r.1 r.2.1 s.2 := by
  unfold noting
  constructor
  · intro h
    obtain ⟨x, hx, rfl⟩ := Option.map_eq_some_iff.mp h
    exact ⟨hx, rfl⟩
  · rintro ⟨hx, hn⟩
    rw [hx, Option.map_some, ← hn]

/-- Taking notes does not change a run. -/
theorem run_noting (p : Prog C R E α) (s : σ) (g : γ) :
    (p.run (noting exec note) (s, g)).map (fun r => (r.1, r.2.1)) = p.run exec s := by
  induction p generalizing s g with
  | ret a => rfl
  | throw e => rfl
  | call c k ih =>
    simp only [run, noting]
    rcases exec c s with _ | r
    · rfl
    · exact ih r.1 r.2 _

/-- A program that makes only calls without a note. -/
theorem run_noting_silent {S : C → Prop} (hsilent : ∀ c s r s' g, S c → note c s r s' g = g)
    {p : Prog C R E α} (hp : p.Only S) (s : σ) (g : γ) :
    p.run (noting exec note) (s, g) = (p.run exec s).map fun r => (r.1, (r.2, g)) := by
  induction p generalizing s with
  | ret a => rfl
  | throw e => rfl
  | call c k ih =>
    simp only [run, noting]
    cases exec c s with
    | none => rfl
    | some r =>
      simp only [Option.map_some, Option.bind_some, hsilent c s r.1 r.2 g hp.1]
      exact ih r.1 (hp.2 r.1) r.2

end Lib.Prog
