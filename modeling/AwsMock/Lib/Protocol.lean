import AwsMock.Lib.Ensures

/-!
# Protocols

A protocol says which calls a program may make next, in a state of its own that the replies move on.
What every allowed call keeps, a program that follows the protocol keeps.
-/

namespace Lib.Prog

variable {C : Type} {R : C → Type} {E α β σ τ : Type}

/-- The calls that are allowed, and the state after a reply. -/
structure Protocol (C : Type) (R : C → Type) (τ : Type) where
  law : τ → C → Prop
  next : (t : τ) → (c : C) → R c → τ

/-- Whatever the replies, every call is allowed, and every result meets `Q` in the state it is reached
    in. -/
def Follows (P : Protocol C R τ) (Q : α → τ → Prop) : Prog C R E α → τ → Prop
  | .ret a, t => Q a t
  | .throw _, _ => True
  | .call c k, t => P.law t c ∧ ∀ r, (k r).Follows P Q (P.next t c r)

variable {P : Protocol C R τ}

theorem Follows.mono {Q Q' : α → τ → Prop} (h : ∀ a t, Q a t → Q' a t) {p : Prog C R E α} {t : τ}
    (hp : p.Follows P Q t) : p.Follows P Q' t := by
  induction p generalizing t with
  | ret a => exact h a t hp
  | throw e => trivial
  | call c k ih => exact ⟨hp.1, fun r => ih r (hp.2 r)⟩

theorem follows_bind {Q : β → τ → Prop} {p : Prog C R E α} {f : α → Prog C R E β} {t : τ}
    (hp : p.Follows P (fun a t => (f a).Follows P Q t) t) : (p >>= f).Follows P Q t := by
  change (p.bind f).Follows P Q t
  induction p generalizing t with
  | ret a => exact hp
  | throw e => trivial
  | call c k ih => exact ⟨hp.1, fun r => ih r (hp.2 r)⟩

theorem follows_perform {c : C} {Q : R c → τ → Prop} {t : τ} (hc : P.law t c)
    (hq : ∀ r, Q r (P.next t c r)) : (perform c : Prog C R E _).Follows P Q t := ⟨hc, hq⟩

theorem follows_perform_bind {c : C} {Q : β → τ → Prop} {f : R c → Prog C R E β} {t : τ}
    (hc : P.law t c) (hf : ∀ r, (f r).Follows P Q (P.next t c r)) :
    (perform c >>= f).Follows P Q t := ⟨hc, hf⟩

theorem follows_mapThrow {E' : Type} {f : E → E'} {Q : α → τ → Prop} {p : Prog C R E α} {t : τ}
    (hp : p.Follows P Q t) : (p.mapThrow f).Follows P Q t := by
  induction p generalizing t with
  | ret a => exact hp
  | throw e => trivial
  | call c k ih => exact ⟨hp.1, fun r => ih r (hp.2 r)⟩

/-- A sequence whose rest may start in every state. -/
theorem Follows.bind {Q : β → τ → Prop} {p : Prog C R E α} {f : α → Prog C R E β} {t : τ}
    (hp : p.Follows P (fun _ _ => True) t) (hf : ∀ a t, (f a).Follows P Q t) : (p >>= f).Follows P Q t :=
  follows_bind (hp.mono fun a t _ => hf a t)

theorem Follows.attempt {E' : Type} {p : Prog C R E α} {t : τ} (hp : p.Follows P (fun _ _ => True) t) :
    (p.attempt : Prog C R E' _).Follows P (fun _ _ => True) t := by
  induction p generalizing t with
  | ret a => trivial
  | throw e => trivial
  | call c k ih => exact ⟨hp.1, fun r => ih r (hp.2 r)⟩

theorem follows_ofExcept (x : Except E α) (t : τ) :
    (ofExcept x : Prog C R E α).Follows P (fun _ _ => True) t := by
  cases x <;> trivial

/-- Calls that are allowed in a state and stay in it. -/
theorem Only.follows {A : C → Prop} {t : τ} (h : ∀ c, A c → P.law t c ∧ ∀ r, P.next t c r = t)
    {p : Prog C R E α} (hp : p.Only A) : p.Follows P (fun _ t' => t' = t) t := by
  induction p with
  | ret a => rfl
  | throw e => trivial
  | call c k ih =>
    refine ⟨(h c hp.1).1, fun r => ?_⟩
    rw [(h c hp.1).2 r]
    exact ih r (hp.2 r)

/-- Such calls, and the rest of the program. -/
theorem Only.follows_bind {A : C → Prop} {t : τ}
    (h : ∀ c, A c → P.law t c ∧ ∀ r, P.next t c r = t) {p : Prog C R E α} (hp : p.Only A)
    {Q : β → τ → Prop} {f : α → Prog C R E β} (hf : ∀ a, (f a).Follows P Q t) :
    (p >>= f).Follows P Q t := by
  refine Prog.follows_bind ((hp.follows h).mono ?_)
  rintro a _ rfl
  exact hf a

/-- A loop whose rounds leave what the next one needs. -/
theorem follows_forEach {J : τ → Prop} {body : β → Prog C R E Unit} : ∀ {xs : List β} {t : τ}, J t →
    (∀ b ∈ xs, ∀ t, J t → (body b).Follows P (fun _ t' => J t') t) → (forEach xs body).Follows P (fun _ t' => J t') t
  | [], _, ht, _ => ht
  | b :: _, t, ht, hbody =>
    follows_bind ((hbody b List.mem_cons_self t ht).mono fun _ _ ht' =>
      follows_forEach ht' fun b hb => hbody b (List.mem_cons_of_mem _ hb))

/-! ### Ends that throw -/

/-- As `Follows`, with what holds at an exception as well. -/
def Complies (P : Protocol C R τ) (Q : Except E α → τ → Prop) : Prog C R E α → τ → Prop
  | .ret a, t => Q (.ok a) t
  | .throw e, t => Q (.error e) t
  | .call c k, t => P.law t c ∧ ∀ r, (k r).Complies P Q (P.next t c r)

theorem Complies.mono {Q Q' : Except E α → τ → Prop} (h : ∀ a t, Q a t → Q' a t) {p : Prog C R E α} {t : τ}
    (hp : p.Complies P Q t) : p.Complies P Q' t := by
  induction p generalizing t with
  | ret a => exact h _ t hp
  | throw e => exact h _ t hp
  | call c k ih => exact ⟨hp.1, fun r => ih r (hp.2 r)⟩

/-- What the rest of a sequence has to do. -/
def afterComplies (P : Protocol C R τ) (Q : Except E β → τ → Prop) (f : α → Prog C R E β) : Except E α → τ → Prop
  | .ok a, t => (f a).Complies P Q t
  | .error e, t => Q (.error e) t

theorem complies_bind {Q : Except E β → τ → Prop} {p : Prog C R E α} {f : α → Prog C R E β} {t : τ}
    (hp : p.Complies P (afterComplies P Q f) t) : (p >>= f).Complies P Q t := by
  change (p.bind f).Complies P Q t
  induction p generalizing t with
  | ret a => exact hp
  | throw e => exact hp
  | call c k ih => exact ⟨hp.1, fun r => ih r (hp.2 r)⟩

theorem complies_perform_bind {c : C} {Q : Except E β → τ → Prop} {f : R c → Prog C R E β} {t : τ}
    (hc : P.law t c) (hf : ∀ r, (f r).Complies P Q (P.next t c r)) : (perform c >>= f).Complies P Q t := ⟨hc, hf⟩

theorem complies_mapThrow {E' : Type} {f : E → E'} {Q : Except E' α → τ → Prop} {p : Prog C R E α} {t : τ}
    (hp : p.Complies P (fun x => Q (x.mapError f)) t) : (p.mapThrow f).Complies P Q t := by
  induction p generalizing t with
  | ret a => exact hp
  | throw e => exact hp
  | call c k ih => exact ⟨hp.1, fun r => ih r (hp.2 r)⟩

/-- The program of a part of the process, whose calls are made by programs that comply. -/
theorem complies_via {C' : Type} {R' : C' → Type} {P' : Protocol C' R' τ} {f : (c : C) → Prog C' R' E (R c)}
    (hcall : ∀ c t, P.law t c → (f c).Complies P' (fun x t' => ∃ r, x = .ok r ∧ t' = P.next t c r) t)
    {Q : Except E α → τ → Prop} {p : Prog C R E α} {t : τ} (hp : p.Complies P Q t) : (p.via f).Complies P' Q t := by
  induction p generalizing t with
  | ret a => exact hp
  | throw e => exact hp
  | call c k ih =>
    refine complies_bind ((hcall c t hp.1).mono ?_)
    rintro _ _ ⟨r, rfl, rfl⟩
    exact ih r (hp.2 r)

/-- Calls that are allowed in every state. -/
theorem Only.complies {A : C → Prop} (h : ∀ c t, A c → P.law t c) {p : Prog C R E α} (hp : p.Only A) (t : τ) :
    p.Complies P (fun _ _ => True) t := by
  induction p generalizing t with
  | ret a => trivial
  | throw e => trivial
  | call c k ih => exact ⟨h c t hp.1, fun r => ih r (hp.2 r) _⟩

/-- Where every call is allowed. -/
theorem complies_of_law (h : ∀ t c, P.law t c) (p : Prog C R E α) (t : τ) : p.Complies P (fun _ _ => True) t := by
  induction p generalizing t with
  | ret a => trivial
  | throw e => trivial
  | call c k ih => exact ⟨h t c, fun r => ih r _⟩

theorem complies_attempt {E' : Type} {Q : Except E' (Except E α) → τ → Prop} {p : Prog C R E α} {t : τ}
    (hp : p.Complies P (fun x => Q (.ok x)) t) : (p.attempt : Prog C R E' _).Complies P Q t := by
  induction p generalizing t with
  | ret a => exact hp
  | throw e => exact hp
  | call c k ih => exact ⟨hp.1, fun r => ih r (hp.2 r)⟩

theorem complies_ofExcept {Q : Except E α → τ → Prop} {x : Except E α} {t : τ} (h : Q x t) :
    (ofExcept x : Prog C R E α).Complies P Q t := by
  cases x <;> exact h

/-- What a round of a loop has to do. -/
def roundComplies (Q : Except E Unit → τ → Prop) (J : τ → Prop) : Except E Unit → τ → Prop
  | .ok _, t => J t
  | .error e, t => Q (.error e) t

/-- A loop whose rounds leave what the next one needs. -/
theorem complies_forEach {Q : Except E Unit → τ → Prop} {J : τ → Prop} {body : β → Prog C R E Unit}
    (hend : ∀ t, J t → Q (.ok ()) t) : ∀ {xs : List β} {t : τ}, J t →
    (∀ b ∈ xs, ∀ t, J t → (body b).Complies P (roundComplies Q J) t) → (forEach xs body).Complies P Q t
  | [], t, ht, _ => hend t ht
  | b :: xs, t, ht, hbody => by
    refine complies_bind ((hbody b List.mem_cons_self t ht).mono fun a t' h => ?_)
    cases a with
    | error e => exact h
    | ok u => exact complies_forEach hend h fun b hb => hbody b (List.mem_cons_of_mem _ hb)

/-! ### Runs -/

variable {exec : Exec C R σ} {I : τ → σ → Prop}

/-- What the allowed calls keep holds at the end. -/
theorem Follows.ensures
    (hstep : ∀ t c s r, P.law t c → I t s → exec c s = some r → I (P.next t c r.1) r.2)
    {Q : α → τ → Prop} {p : Prog C R E α} {t : τ} {s : σ} (hp : p.Follows P Q t) (hs : I t s) :
    p.Ensures exec (fun _ _ => True) (fun _ s' => ∃ t', I t' s') s := by
  induction p generalizing t s with
  | ret a => exact ⟨t, hs⟩
  | throw e => exact ⟨t, hs⟩
  | call c k ih => exact ⟨trivial, fun r hr => ih r.1 (hp.2 r.1) (hstep t c s r hp.1 hs hr)⟩

end Lib.Prog
