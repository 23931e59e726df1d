import AwsMock.Lib.Prog

/-!
# Programs that see a part of the state

`view` keeps one part of a state and blanks everything else, `rest` is what lies beside that part. A
program is isolated on a state when on the view it has the same outcome and leaves the same part,
and nothing beside the part changes.
-/

namespace Lib.Prog

variable {C : Type} {R : C → Type} {E α σ ρ : Type}

/-- Every call the run makes meets `S` in the state it is made in. -/
def Along (exec : Exec C R σ) (S : C → σ → Prop) : Prog C R E α → σ → Prop
  | .ret _, _ => True
  | .throw _, _ => True
  | .call c k, s => S c s ∧ ∀ r, exec c s = some r → (k r.1).Along exec S r.2

/-- A call whose reply and effect lie in the part. -/
def IsolatedCall (exec : Exec C R σ) (view : σ → σ) (rest : σ → ρ) (c : C) (s : σ) : Prop :=
  ∃ r, exec c s = some r ∧ exec c (view s) = some (r.1, view r.2) ∧ rest r.2 = rest s

/-- The program ends, sees only the part, and changes nothing beside it. -/
def Isolated (exec : Exec C R σ) (view : σ → σ) (rest : σ → ρ) (p : Prog C R E α) (s : σ) : Prop :=
  ∃ x s', p.run exec s = some (x, s') ∧ p.run exec (view s) = some (x, view s') ∧ rest s' = rest s

variable {exec : Exec C R σ} {view : σ → σ} {rest : σ → ρ}

theorem isolated_ret (a : α) (s : σ) : (.ret a : Prog C R E α).Isolated exec view rest s :=
  ⟨_, s, rfl, rfl, rfl⟩

theorem isolated_throw (e : E) (s : σ) : (.throw e : Prog C R E α).Isolated exec view rest s :=
  ⟨_, s, rfl, rfl, rfl⟩

/-- An isolated call and what follows it. -/
theorem isolated_call {c : C} {k : R c → Prog C R E α} {s : σ}
    (hc : IsolatedCall exec view rest c s)
    (hk : ∀ r, exec c s = some r → (k r.1).Isolated exec view rest r.2) :
    (Prog.call c k).Isolated exec view rest s := by
  obtain ⟨r, hr, hv, hrest⟩ := hc
  obtain ⟨x, s', hrun, hrun', hrest'⟩ := hk r hr
  refine ⟨x, s', ?_, ?_, hrest'.trans hrest⟩
  · rw [run, hr]
    exact hrun
  · rw [run, hv]
    exact hrun'

theorem isolated_perform_bind {c : C} {f : R c → Prog C R E α} {s : σ}
    (hc : IsolatedCall exec view rest c s)
    (hf : ∀ r, exec c s = some r → (f r.1).Isolated exec view rest r.2) :
    (perform c >>= f).Isolated exec view rest s := isolated_call hc hf

theorem isolated_mapThrow {E' : Type} {f : E → E'} {p : Prog C R E α} {s : σ}
    (hp : p.Isolated exec view rest s) : (p.mapThrow f).Isolated exec view rest s := by
  obtain ⟨x, s', hrun, hrun', hrest⟩ := hp
  refine ⟨x.mapError f, s', ?_, ?_, hrest⟩
  · rw [run_mapThrow, hrun]
    rfl
  · rw [run_mapThrow, hrun']
    rfl

theorem Along.of_perform_bind {S : C → σ → Prop} {c : C} {f : R c → Prog C R E α} {s : σ}
    (h : (perform c >>= f).Along exec S s) :
    S c s ∧ ∀ r, exec c s = some r → (f r.1).Along exec S r.2 := h

theorem Along.of_mapThrow {E' : Type} {S : C → σ → Prop} {f : E → E'} {p : Prog C R E α} {s : σ}
    (h : (p.mapThrow f).Along exec S s) : p.Along exec S s := by
  induction p generalizing s with
  | ret a => trivial
  | throw e => trivial
  | call c k ih => exact ⟨h.1, fun r hr => ih r.1 (h.2 r hr)⟩

/-- A program whose calls are isolated, where they meet `S` and an invariant holds, is isolated. -/
theorem Only.isolated {P : C → Prop} {S : C → σ → Prop} {I : σ → Prop}
    (hstep : ∀ c s, P c → S c s → I s → IsolatedCall exec view rest c s)
    (hinv : ∀ c s r, I s → exec c s = some r → I r.2) {p : Prog C R E α} (hp : p.Only P) {s : σ}
    (hs : I s) (h : p.Along exec S s) : p.Isolated exec view rest s := by
  induction p generalizing s with
  | ret a => exact isolated_ret a s
  | throw e => exact isolated_throw e s
  | call c k ih =>
    refine isolated_call (hstep c s hp.1 h.1 hs) fun r hr => ?_
    exact ih r.1 (hp.2 r.1) (hinv c s r hs hr) (h.2 r hr)

/-- Two states with the same part lead to the same outcome and the same part. -/
theorem Isolated.same {p : Prog C R E α} {s t : σ} (hs : p.Isolated exec view rest s)
    (ht : p.Isolated exec view rest t) (h : view s = view t) :
    ∃ x s' t', p.run exec s = some (x, s') ∧ p.run exec t = some (x, t') ∧ view s' = view t' := by
  obtain ⟨x, s', hrun, hv, -⟩ := hs
  obtain ⟨y, t', hrun', hv', -⟩ := ht
  rw [h, hv'] at hv
  obtain ⟨rfl, he⟩ := Prod.mk.inj (Option.some.inj hv)
  exact ⟨y, s', t', hrun, hrun', he.symm⟩

end Lib.Prog
