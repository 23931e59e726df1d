import AwsMock.Lib.Machine
import AwsMock.Lib.Prog

/-!
# Two stores behind one interface

Two stores that answer the same calls: what they answer to a call, and what they hold after it, along a run of calls.
A call may itself be a program on either store. Two programs are compared call by call: what is known of the two states
before a call may be used in it, and what is known of its replies in what follows.
-/

namespace Lib

/-! ### Replies -/

/-- Both results or both exceptions. -/
def Outcomes {E E' α β : Type} (A : α → β → Prop) : Except E α → Except E' β → Prop
  | .ok a, .ok b => A a b
  | .error _, .error _ => True
  | _, _ => False

theorem Outcomes.mono {E E' α β : Type} {A B : α → β → Prop} (h : ∀ a b, A a b → B a b) :
    ∀ {x : Except E α} {y : Except E' β}, Outcomes A x y → Outcomes B x y
  | .ok a, .ok b, hab => h a b hab
  | .error _, .error _, _ => trivial

/-! ### Programs -/

namespace Prog

variable {C : Type} {R : C → Type} {E E' α α' β β' σ τ : Type}

/-- From states in `S` both programs come to an end, alike in their outcomes and in states in `I`. -/
def Corresponds (exec : Exec C R σ) (exec' : Exec C R τ) (S : σ → τ → Prop) (p : Prog C R E α) (p' : Prog C R E' α')
    (A : α → α' → Prop) (I : σ → τ → Prop) : Prop :=
  ∀ s t, S s t → ∃ x y, p.run exec s = some x ∧ p'.run exec' t = some y ∧ Outcomes A x.1 y.1 ∧ I x.2 y.2

/-- From states in `S` both calls have a reply, in `P`, and lead to states in `Q`. -/
def Replies (exec : Exec C R σ) (exec' : Exec C R τ) (S : σ → τ → Prop) (c c' : C) (P : R c → R c' → Prop)
    (Q : R c → σ → τ → Prop) : Prop :=
  ∀ s t, S s t → ∃ x y, exec c s = some x ∧ exec' c' t = some y ∧ P x.1 y.1 ∧ Q x.1 x.2 y.2

variable {exec : Exec C R σ} {exec' : Exec C R τ} {S S' I J : σ → τ → Prop} {A : α → α' → Prop} {B : β → β' → Prop}
  {p : Prog C R E α} {p' : Prog C R E' α'}

theorem Corresponds.weaken (h : Corresponds exec exec' S' p p' A I) (hS : ∀ s t, S s t → S' s t)
    (hI : ∀ s t, I s t → J s t) : Corresponds exec exec' S p p' A J := by
  intro s t hs
  obtain ⟨x, y, hx, hy, hA, hi⟩ := h s t (hS s t hs)
  exact ⟨x, y, hx, hy, hA, hI _ _ hi⟩

theorem corresponds_ret {a : α} {a' : α'} (hA : A a a') (hI : ∀ s t, S s t → I s t) :
    Corresponds exec exec' S (.ret a : Prog C R E α) (.ret a' : Prog C R E' α') A I :=
  fun s t hs => ⟨(.ok a, s), (.ok a', t), rfl, rfl, hA, hI s t hs⟩

theorem corresponds_throw {e : E} {e' : E'} (hI : ∀ s t, S s t → I s t) :
    Corresponds exec exec' S (.throw e : Prog C R E α) (.throw e' : Prog C R E' α') A I :=
  fun s t hs => ⟨(.error e, s), (.error e', t), rfl, rfl, trivial, hI s t hs⟩

theorem corresponds_call {c c' : C} {P : R c → R c' → Prop} {Q : R c → σ → τ → Prop} {f : R c → Prog C R E β}
    {f' : R c' → Prog C R E' β'} (hcall : Replies exec exec' S c c' P Q)
    (hf : ∀ r r', P r r' → Corresponds exec exec' (Q r) (f r) (f' r') B I) :
    Corresponds exec exec' S (perform c >>= f) (perform c' >>= f') B I := by
  intro s t hs
  obtain ⟨x, y, hx, hy, hP, hQ⟩ := hcall s t hs
  obtain ⟨u, v, hu, hv, hB, hi⟩ := hf x.1 y.1 hP x.2 y.2 hQ
  refine ⟨u, v, ?_, ?_, hB, hi⟩
  · rw [run_perform_bind_some hx, hu]
  · rw [run_perform_bind_some hy, hv]

/-- The last call of a program. -/
theorem corresponds_perform {c c' : C} {P : R c → R c' → Prop} {Q : R c → σ → τ → Prop}
    (hcall : Replies exec exec' S c c' P Q) (hI : ∀ r s t, Q r s t → I s t) :
    Corresponds exec exec' S (perform c : Prog C R E (R c)) (perform c' : Prog C R E' (R c')) P I := by
  intro s t hs
  obtain ⟨x, y, hx, hy, hP, hQ⟩ := hcall s t hs
  refine ⟨(.ok x.1, x.2), (.ok y.1, y.2), ?_, ?_, hP, hI _ _ _ hQ⟩
  · rw [run_perform, hx, Option.map_some]
  · rw [run_perform, hy, Option.map_some]

/-- A reply that may be an exception. -/
theorem corresponds_ofExcept {x : Except E α} {y : Except E' α'} (hx : Outcomes A x y) (hI : ∀ s t, S s t → I s t) :
    Corresponds exec exec' S (ofExcept x : Prog C R E α) (ofExcept y : Prog C R E' α') A I := by
  intro s t hs
  exact ⟨(x, s), (y, t), run_ofExcept x s, run_ofExcept y t, hx, hI s t hs⟩

theorem corresponds_ofExcept_bind {x : Except E α} {y : Except E' α'} {f : α → Prog C R E β}
    {f' : α' → Prog C R E' β'} (hx : Outcomes A x y) (hI : ∀ s t, S s t → I s t)
    (hf : ∀ a a', x = .ok a → A a a' → Corresponds exec exec' S (f a) (f' a') B I) :
    Corresponds exec exec' S (ofExcept x >>= f) (ofExcept y >>= f') B I := by
  rcases x with e | a <;> rcases y with e' | a'
  · rw [ofExcept_error_bind, ofExcept_error_bind]
    exact corresponds_throw hI
  · exact hx.elim
  · exact hx.elim
  · rw [ofExcept_ok_bind, ofExcept_ok_bind]
    exact hf a a' rfl hx

theorem Corresponds.mapThrow {E₁ E₁' : Type} {f : E → E₁} {f' : E' → E₁'} (h : Corresponds exec exec' S p p' A I) :
    Corresponds exec exec' S (p.mapThrow f) (p'.mapThrow f') A I := by
  intro s t hs
  obtain ⟨x, y, hx, hy, hA, hi⟩ := h s t hs
  refine ⟨(x.1.mapError f, x.2), (y.1.mapError f', y.2), ?_, ?_, ?_, hi⟩
  · rw [run_mapThrow, hx, Option.map_some]
  · rw [run_mapThrow, hy, Option.map_some]
  · rcases x with ⟨_ | _, _⟩ <;> rcases y with ⟨_ | _, _⟩ <;> exact hA

theorem Corresponds.bind {f : α → Prog C R E β} {f' : α' → Prog C R E' β'} (h : Corresponds exec exec' S p p' A J)
    (hJ : ∀ s t, J s t → I s t) (hf : ∀ a a', A a a' → Corresponds exec exec' J (f a) (f' a') B I) :
    Corresponds exec exec' S (p >>= f) (p' >>= f') B I := by
  intro s t hs
  obtain ⟨⟨x, s'⟩, ⟨y, t'⟩, hx, hy, hA, hj⟩ := h s t hs
  rw [run_bind, run_bind, hx, hy]
  rcases x with e | a <;> rcases y with e' | a'
  · exact ⟨(.error e, s'), (.error e', t'), rfl, rfl, trivial, hJ s' t' hj⟩
  · exact hA.elim
  · exact hA.elim
  · exact hf a a' hA s' t' hj

/-- Both take the same branch. -/
theorem corresponds_ite {b b' : Prop} [Decidable b] [Decidable b'] (hb : b ↔ b') {p q : Prog C R E α}
    {p' q' : Prog C R E' α'} (hp : b → Corresponds exec exec' S p p' A I)
    (hq : ¬ b → Corresponds exec exec' S q q' A I) :
    Corresponds exec exec' S (if b then p else q) (if b' then p' else q') A I := by
  by_cases h : b
  · rw [if_pos h, if_pos (hb.mp h)]
    exact hp h
  · rw [if_neg h, if_neg fun h' => h (hb.mpr h')]
    exact hq h

theorem corresponds_when {b b' : Prop} [Decidable b] [Decidable b'] (hb : b ↔ b') {p : Prog C R E Unit}
    {p' : Prog C R E' Unit} {A : Unit → Unit → Prop} (hA : A () ()) (hI : ∀ s t, S s t → I s t)
    (hp : Corresponds exec exec' S p p' A I) : Corresponds exec exec' S (Prog.when b p) (Prog.when b' p') A I :=
  corresponds_ite hb (fun _ => hp) fun _ => corresponds_ret hA hI

/-- What is known of the first reply. -/
theorem Replies.known {c c' : C} {P : R c → R c' → Prop} {Q : R c → σ → τ → Prop} {T : R c → Prop}
    (h : Replies exec exec' S c c' P Q) (hT : ∀ r s t, Q r s t → T r) :
    Replies exec exec' S c c' (fun r r' => P r r' ∧ T r) Q := by
  intro s t hs
  obtain ⟨x, y, hx, hy, hP, hQ⟩ := h s t hs
  exact ⟨x, y, hx, hy, ⟨hP, hT _ _ _ hQ⟩, hQ⟩

theorem Replies.weaken {c c' : C} {P : R c → R c' → Prop} {Q Q' : R c → σ → τ → Prop}
    (h : Replies exec exec' S' c c' P Q) (hS : ∀ s t, S s t → S' s t) (hQ : ∀ r s t, Q r s t → Q' r s t) :
    Replies exec exec' S c c' P Q' := by
  intro s t hs
  obtain ⟨x, y, hx, hy, hP, hq⟩ := h s t (hS s t hs)
  exact ⟨x, y, hx, hy, hP, hQ _ _ _ hq⟩

end Prog

/-! ### Stores -/

/-- The meaning of a call, when `n` calls have been made before. -/
abbrev Store (C : Type) (R : C → Type) (σ : Type) := Nat → Prog.Exec C R σ

/-- Both stores, and the number of calls made so far. -/
structure Twin (σ τ : Type) where
  left : σ
  right : τ
  calls : Nat := 0

namespace Twin

variable {C : Type} {R : C → Type} {σ τ : Type} (store : Store C R σ) (store' : Store C R τ)

/-- A call on both stores. -/
def both (c : C) (s : Twin σ τ) : Option ((R c × σ) × (R c × τ)) := do
  let r ← store s.calls c s.left
  let r' ← store' s.calls c s.right
  return (r, r')

def next (c : C) (s : Twin σ τ) : Option (Twin σ τ) :=
  (both store store' c s).map fun r => { left := r.1.2, right := r.2.2, calls := s.calls + 1 }

variable (same : (c : C) → R c → R c → Prop) (alike : σ → τ → Prop)

/-- Both answer the call, with the same reply, and are alike afterwards. -/
def Agrees (c : C) (s : Twin σ τ) : Prop :=
  ∃ r, both store store' c s = some r ∧ same c r.1.1 r.2.1 ∧ alike r.1.2 r.2.2

/-- Where `Sound` holds, the calls on which the stores agree are those that conform, and these keep it. -/
structure Judged (Sound : Twin σ τ → Prop) (Conforms : C → Twin σ τ → Prop) : Prop where
  serves : ∀ {c s}, Sound s → Conforms c s → ∃ r, both store store' c s = some r ∧ same c r.1.1 r.2.1 ∧
    Sound { left := r.1.2, right := r.2.2, calls := s.calls + 1 }
  conforms : ∀ {c s}, Sound s → Agrees store store' same alike c s → Conforms c s
  alike : ∀ {s}, Sound s → alike s.left s.right

variable {store store' same alike} {Sound : Twin σ τ → Prop} {Conforms : C → Twin σ τ → Prop}

theorem both_eq_some {c : C} {s : Twin σ τ} {r : (R c × σ) × (R c × τ)} (h : both store store' c s = some r) :
    store s.calls c s.left = some r.1 ∧ store' s.calls c s.right = some r.2 := by
  obtain ⟨left, hleft, h⟩ := Option.bind_eq_some_iff.mp h
  obtain ⟨right, hright, h⟩ := Option.bind_eq_some_iff.mp h
  obtain rfl := Option.some.inj h
  exact ⟨hleft, hright⟩

theorem both_of_eq_some {c : C} {s : Twin σ τ} {r : R c × σ} {r' : R c × τ}
    (hleft : store s.calls c s.left = some r) (hright : store' s.calls c s.right = some r') :
    both store store' c s = some (r, r') := by
  rw [both, hleft, hright]
  rfl

namespace Judged

variable (h : Judged store store' same alike Sound Conforms)

include h

theorem next {c : C} {s : Twin σ τ} (hs : Sound s) (hfit : Conforms c s) :
    ∃ t, Twin.next store store' c s = some t ∧ Sound t := by
  obtain ⟨r, hr, -, hsound⟩ := h.serves hs hfit
  exact ⟨_, by rw [Twin.next, hr]; rfl, hsound⟩

theorem step {c : C} {s t : Twin σ τ} (hs : Sound s) (hfit : Conforms c s)
    (hnext : Twin.next store store' c s = some t) : Sound t := by
  obtain ⟨u, hu, hsound⟩ := h.next hs hfit
  rw [hnext, Option.some.injEq] at hu
  exact hu ▸ hsound

/-- The stores agree along a run exactly when every call conforms, and then the run has an end, where they are
    alike. -/
theorem agrees_iff {calls : List C} {s : Twin σ τ} (hs : Sound s) :
    (Along (Twin.next store store') (Agrees store store' same alike) calls s ↔
      Along (Twin.next store store') Conforms calls s) ∧
    (Along (Twin.next store store') Conforms calls s →
      ∃ t, steps (Twin.next store store') calls s = some t ∧ alike t.left t.right) := by
  refine ⟨⟨fun hagrees => ?_, fun hconforms => ?_⟩, fun hconforms => ?_⟩
  · exact along_of_along (fun hagrees hnext hs => h.step hs (h.conforms hs hagrees) hnext)
      (fun hagrees hs => h.conforms hs hagrees) hagrees hs
  · refine along_of_along (fun hfit hnext hs => h.step hs hfit hnext) (fun hfit hs => ?_) hconforms hs
    obtain ⟨r, hr, hsame, hsound⟩ := h.serves hs hfit
    exact ⟨r, hr, hsame, h.alike hsound⟩
  · obtain ⟨t, ht, hsound⟩ := steps_along_total (fun hfit hs => h.next hs hfit) hconforms hs
    exact ⟨t, ht, h.alike hsound⟩

theorem conforming (hall : ∀ {c s}, Sound s → Conforms c s) :
    ∀ {calls : List C} {s : Twin σ τ}, Sound s → Along (Twin.next store store') Conforms calls s
  | [], _, _ => trivial
  | _ :: _, _, hs => ⟨hall hs, fun _ hnext => conforming hall (h.step hs (hall hs) hnext)⟩

/-- Where every call conforms the stores agree along every run. -/
theorem agrees (hall : ∀ {c s}, Sound s → Conforms c s) {calls : List C} {s : Twin σ τ} (hs : Sound s) :
    Along (Twin.next store store') (Agrees store store' same alike) calls s ∧
      ∃ t, steps (Twin.next store store') calls s = some t ∧ alike t.left t.right :=
  ⟨(h.agrees_iff hs).1.mpr (h.conforming hall hs), (h.agrees_iff hs).2 (h.conforming hall hs)⟩

end Judged

end Twin

end Lib
