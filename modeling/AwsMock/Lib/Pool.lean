import AwsMock.Lib.Prog

/-!
# Pools of programs

Any number of programs over one shared state, let forward one call at a time by a schedule. `Keeps` is the
rely-guarantee rule of one of them: whatever the others do within `rely`, its calls stay within `guar`,
keep the invariant, and its end meets `Q`. Beside the state stand notes, which the programs do not see and
each call may add to. `cond` is what is assumed of the calls of the run.
-/

namespace Lib.Prog

variable {C : Type} {R : C → Type} {E α β σ γ : Type}

/-- Execute a pool under a schedule, which says whose call is next. -/
def runPool (exec : Exec C R σ) : List Nat → List (Prog C R E α) → σ →
    Option (List (Prog C R E α) × σ)
  | [], ps, s => some (ps, s)
  | i :: sched, ps, s =>
    match ps[i]? with
    | none => runPool exec sched ps s
    | some p => (p.step exec s).bind fun r => runPool exec sched (ps.set i r.1) r.2

/-- The calls made under a schedule: whose it is, the call, and the state before it. A call without a
    defined result is the last one. -/
def poolTrace (exec : Exec C R σ) : List Nat → List (Prog C R E α) → σ → List (Nat × C × σ)
  | [], _, _ => []
  | i :: sched, ps, s =>
    match ps[i]? with
    | none => poolTrace exec sched ps s
    | some p => (p.next.map fun c => (i, c, s)).toList ++
      match p.step exec s with
      | some r => poolTrace exec sched (ps.set i r.1) r.2
      | none => []

/-- The outcome of a program that has ended. -/
def outcome : Prog C R E α → Option (Except E α)
  | .ret a => some (.ok a)
  | .throw e => some (.error e)
  | .call .. => none

/-- What a program keeps under the interference of others. -/
structure Contract (C E α σ γ : Type) where
  inv : σ × γ → Prop
  rely : σ × γ → σ × γ → Prop
  guar : σ × γ → σ × γ → Prop
  cond : C → σ → Prop
  post : Except E α → σ × γ → Prop

def Keeps (exec : Exec C R σ) (K : Contract C E α σ γ) : Prog C R E α → σ × γ → Prop
  | .ret a, x => ∀ y, K.rely x y → K.inv y → K.post (.ok a) y
  | .throw e, x => ∀ y, K.rely x y → K.inv y → K.post (.error e) y
  | .call c k, x => ∀ y, K.rely x y → K.inv y → K.cond c y.1 →
      ∃ r g, exec c y.1 = some r ∧ K.inv (r.2, g) ∧ K.guar y (r.2, g) ∧ (k r.1).Keeps exec K (r.2, g)

variable {exec : Exec C R σ} {K : Contract C E α σ γ}

/-- Interference that has happened does no harm. -/
theorem Keeps.of_rely (htrans : ∀ {x y z}, K.rely x y → K.rely y z → K.rely x z) {p : Prog C R E α}
    {x y : σ × γ} (hp : p.Keeps exec K x) (h : K.rely x y) : p.Keeps exec K y := by
  cases p with
  | ret a => exact fun z hz => hp z (htrans h hz)
  | throw e => exact fun z hz => hp z (htrans h hz)
  | call c k => exact fun z hz => hp z (htrans h hz)

/-- What an end comes to. -/
theorem Keeps.post (hrefl : ∀ x, K.rely x x) {p : Prog C R E α} {x : σ × γ} (hp : p.Keeps exec K x)
    (hx : K.inv x) {a : Except E α} (ha : p.outcome = some a) : K.post a x := by
  cases p with
  | ret b =>
    cases ha
    exact hp x (hrefl x) hx
  | throw e =>
    cases ha
    exact hp x (hrefl x) hx
  | call c k => cases ha

/-- The same contract with another end. -/
def Contract.ending (K : Contract C E β σ γ) (post : Except E α → σ × γ → Prop) :
    Contract C E α σ γ :=
  { inv := K.inv, rely := K.rely, guar := K.guar, cond := K.cond, post := post }

/-- The contract of a place where no program is. -/
def Contract.idle (inv : σ × γ → Prop) (cond : C → σ → Prop) : Contract C E α σ γ :=
  { inv := inv, rely := fun _ _ => True, guar := fun x y => y = x, cond := cond, post := fun _ _ => True }

/-- A weaker end. -/
theorem Keeps.mono {K : Contract C E α σ γ} {post : Except E α → σ × γ → Prop}
    (h : ∀ a y, K.inv y → K.post a y → post a y) {p : Prog C R E α} {x : σ × γ} (hp : p.Keeps exec K x) :
    p.Keeps exec (K.ending post) x := by
  induction p generalizing x with
  | ret a => exact fun y hy hinv => h _ y hinv (hp y hy hinv)
  | throw e => exact fun y hy hinv => h _ y hinv (hp y hy hinv)
  | call c k ih =>
    intro y hy hinv hcond
    obtain ⟨r, g, hr, hinv', hguar, hk⟩ := hp y hy hinv hcond
    exact ⟨r, g, hr, hinv', hguar, ih r.1 hk⟩

/-- What the rest of a sequence has to keep. -/
def afterKeeps (exec : Exec C R σ) (K : Contract C E β σ γ) (f : α → Prog C R E β) :
    Except E α → σ × γ → Prop
  | .ok a, y => (f a).Keeps exec K y
  | .error e, y => ∀ z, K.rely y z → K.inv z → K.post (.error e) z

theorem keeps_bind {K : Contract C E β σ γ} (hrefl : ∀ x, K.rely x x) {p : Prog C R E α}
    {f : α → Prog C R E β} {x : σ × γ} (hx : K.inv x)
    (hp : p.Keeps exec (K.ending (afterKeeps exec K f)) x) : (p >>= f).Keeps exec K x := by
  change (p.bind f).Keeps exec K x
  induction p generalizing x with
  | ret a => exact hp x (hrefl x) hx
  | throw e => exact hp x (hrefl x) hx
  | call c k ih =>
    intro y hy hinv hcond
    obtain ⟨r, g, hr, hinv', hguar, hk⟩ := hp y hy hinv hcond
    exact ⟨r, g, hr, hinv', hguar, ih r.1 hinv' hk⟩

theorem keeps_attempt {E' : Type} {K : Contract C E' (Except E α) σ γ} {p : Prog C R E α} {x : σ × γ}
    (hp : p.Keeps exec { inv := K.inv, rely := K.rely, guar := K.guar, cond := K.cond,
                         post := fun a => K.post (.ok a) } x) : p.attempt.Keeps exec K x := by
  induction p generalizing x with
  | ret a => exact hp
  | throw e => exact hp
  | call c k ih =>
    intro y hy hinv hcond
    obtain ⟨r, g, hr, hinv', hguar, hk⟩ := hp y hy hinv hcond
    exact ⟨r, g, hr, hinv', hguar, ih r.1 hk⟩

/-- What a round of a loop has to keep. -/
def roundKeeps (K : Contract C E Unit σ γ) (J : σ × γ → Prop) : Except E Unit → σ × γ → Prop
  | .ok _, y => J y
  | .error e, y => ∀ z, K.rely y z → K.inv z → K.post (.error e) z

/-- A loop whose rounds keep what the next one needs. -/
theorem keeps_forEach {K : Contract C E Unit σ γ} (hrefl : ∀ x, K.rely x x) {J : σ × γ → Prop}
    (hJ : ∀ x y, J x → K.rely x y → J y) (hend : ∀ x, J x → K.inv x → K.post (.ok ()) x)
    {body : β → Prog C R E Unit} : ∀ {xs : List β} {x : σ × γ}, J x → K.inv x →
    (∀ b ∈ xs, ∀ x, J x → K.inv x → (body b).Keeps exec (K.ending (roundKeeps K J)) x) →
    (forEach xs body).Keeps exec K x
  | [], x, hx, _, _ => fun y hy hinv => hend y (hJ x y hx hy) hinv
  | b :: xs, x, hx, hinv, hbody => by
    refine keeps_bind hrefl hinv ?_
    refine Keeps.mono (K := K.ending (roundKeeps K J)) (fun a y hinv' hpost => ?_)
      (hbody b List.mem_cons_self x hx hinv)
    cases a with
    | error e => exact hpost
    | ok u =>
      exact keeps_forEach hrefl hJ hend hpost hinv' fun b hb => hbody b (List.mem_cons_of_mem _ hb)

/-! ### Every schedule -/

/-- The programs of a pool with the contracts they keep. -/
def PoolKeeps (exec : Exec C R σ) (K : Nat → Contract C E α σ γ) (ps : List (Prog C R E α)) (x : σ × γ) :
    Prop :=
  ∀ (i : Nat) (p : Prog C R E α), ps[i]? = some p → p.Keeps exec (K i) x

/-- Contracts that fit together: one invariant and one assumption, and what one program guarantees the
    others rely on. -/
structure Compatible (K : Nat → Contract C E α σ γ) (inv : σ × γ → Prop) (cond : C → σ → Prop) : Prop where
  inv_eq : ∀ i, (K i).inv = inv
  cond_eq : ∀ i, (K i).cond = cond
  refl : ∀ i x, (K i).rely x x
  trans : ∀ i {x y z}, (K i).rely x y → (K i).rely y z → (K i).rely x z
  relies : ∀ i j x y, i ≠ j → (K i).guar x y → (K j).rely x y

variable {K : Nat → Contract C E α σ γ} {inv : σ × γ → Prop} {cond : C → σ → Prop}

/-- One call of one program. -/
theorem poolKeeps_step (hK : Compatible K inv cond) {ps : List (Prog C R E α)} {x : σ × γ} {i : Nat}
    {c : C} {k : R c → Prog C R E α} (hps : PoolKeeps exec K ps x) (hx : inv x)
    (hi : ps[i]? = some (.call c k)) (hc : cond c x.1) :
    ∃ r g, exec c x.1 = some r ∧ inv (r.2, g) ∧ (K i).guar x (r.2, g) ∧
      PoolKeeps exec K (ps.set i (k r.1)) (r.2, g) := by
  obtain ⟨r, g, hr, hinv, hguar, hk⟩ := hps i _ hi x (hK.refl i x) ((hK.inv_eq i).symm ▸ hx)
    ((hK.cond_eq i).symm ▸ hc)
  refine ⟨r, g, hr, hK.inv_eq i ▸ hinv, hguar, fun j p hj => ?_⟩
  rw [List.getElem?_set] at hj
  split at hj
  · next hij =>
    subst hij
    split at hj
    · cases hj
      exact hk
    · cases hj
  · next hij => exact (hps j p hj).of_rely (hK.trans j) (hK.relies i j _ _ hij hguar)

/-- A program that has ended stays. -/
theorem set_self {α : Type} {xs : List α} {i : Nat} {x : α} (h : xs[i]? = some x) : xs.set i x = xs := by
  obtain ⟨hi, rfl⟩ := List.getElem?_eq_some_iff.mp h
  exact List.set_getElem_self hi

/-- Under every schedule, as long as the calls meet what is assumed of them, the pool runs on, its
    programs keep their contracts and the invariant holds. -/
theorem poolKeeps_run (hK : Compatible K inv cond) : ∀ {sched : List Nat} {ps : List (Prog C R E α)}
    {s : σ} {g : γ}, PoolKeeps exec K ps (s, g) → inv (s, g) →
    (∀ e ∈ poolTrace exec sched ps s, cond e.2.1 e.2.2) →
    ∃ ps' s' g', runPool exec sched ps s = some (ps', s') ∧ PoolKeeps exec K ps' (s', g') ∧ inv (s', g') ∧
      ps'.length = ps.length
  | [], ps, s, g, hps, hinv, _ => ⟨ps, s, g, rfl, hps, hinv, rfl⟩
  | i :: sched, ps, s, g, hps, hinv, hcond => by
    simp only [runPool, poolTrace] at hcond ⊢
    rcases hi : ps[i]? with _ | p
    · simp only [hi] at hcond ⊢
      exact poolKeeps_run hK hps hinv hcond
    simp only [hi] at hcond ⊢
    cases p with
    | call c k =>
      simp only [next, step, Option.map_some, Option.toList_some] at hcond ⊢
      obtain ⟨r, g', hr, hinv', -, hps'⟩ := poolKeeps_step hK hps hinv hi
        (hcond (i, c, s) (List.mem_append_left _ List.mem_cons_self))
      simp only [hr, Option.map_some, Option.bind_some] at hcond ⊢
      obtain ⟨ps', s', g'', hrun, hps'', hinv'', hlength⟩ := poolKeeps_run hK hps' hinv'
        fun e he => hcond e (List.mem_append_right _ he)
      exact ⟨ps', s', g'', hrun, hps'', hinv'', hlength.trans List.length_set⟩
    | ret a =>
      simp only [next, step, Option.map_none, Option.toList_none, List.nil_append, Option.bind_some] at hcond ⊢
      rw [set_self hi] at hcond ⊢
      exact poolKeeps_run hK hps hinv hcond
    | throw e =>
      simp only [next, step, Option.map_none, Option.toList_none, List.nil_append, Option.bind_some] at hcond ⊢
      rw [set_self hi] at hcond ⊢
      exact poolKeeps_run hK hps hinv hcond

end Lib.Prog
