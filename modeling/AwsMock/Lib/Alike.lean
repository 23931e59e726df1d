import AwsMock.Lib.Prog

/-!
# Programs that do alike

Two programs that make alike calls and go on alike after alike replies. What tells their states apart has no part in
what they do.
-/

namespace Lib.Prog

variable {C : Type} {R : C → Type} {E α β : Type}

/-- Which calls are alike, and which of their replies are. -/
abbrev Likeness (C : Type) (R : C → Type) : Type := (c c' : C) → (R c → R c' → Prop) → Prop

inductive Alike (K : Likeness C R) (A : α → α → Prop) : Prog C R E α → Prog C R E α → Prop
  | ret {a a' : α} : A a a' → Alike K A (.ret a) (.ret a')
  | throw (e : E) : Alike K A (.throw e) (.throw e)
  | call {c c' : C} {Q : R c → R c' → Prop} {k : R c → Prog C R E α} {k' : R c' → Prog C R E α} :
    K c c' Q → (∀ r r', Q r r' → Alike K A (k r) (k' r')) → Alike K A (.call c k) (.call c' k')

variable {K : Likeness C R} {A : α → α → Prop} {B : β → β → Prop}

theorem Alike.mono {A' : α → α → Prop} {p p' : Prog C R E α} (h : Alike K A p p') (hA : ∀ a a', A a a' → A' a a') :
    Alike K A' p p' := by
  induction h with
  | ret ha => exact .ret (hA _ _ ha)
  | throw e => exact .throw e
  | call hK _ ih => exact .call hK ih

theorem Alike.bind {p p' : Prog C R E α} {f f' : α → Prog C R E β} (h : Alike K A p p')
    (hf : ∀ a a', A a a' → Alike K B (f a) (f' a')) : Alike K B (p >>= f) (p' >>= f') := by
  change Alike K B (p.bind f) (p'.bind f')
  induction h with
  | ret ha => exact hf _ _ ha
  | throw e => exact .throw e
  | call hK _ ih => exact .call hK ih

theorem alike_perform {c c' : C} {Q : R c → R c' → Prop} {f : R c → Prog C R E β} {f' : R c' → Prog C R E β}
    (hK : K c c' Q) (hf : ∀ r r', Q r r' → Alike K B (f r) (f' r')) :
    Alike K B (perform c >>= f) (perform c' >>= f') := .call hK hf

/-- Two programs that make the same call, to which replies are alike only if they are equal. -/
theorem alike_same {c : C} {f f' : R c → Prog C R E β} (hK : K c c Eq) (hf : ∀ r, Alike K B (f r) (f' r)) :
    Alike K B (perform c >>= f) (perform c >>= f') := by
  refine .call hK fun r r' h => ?_
  cases h
  exact hf r

theorem Alike.mapThrow {E' : Type} {f : E → E'} {p p' : Prog C R E α} (h : Alike K A p p') :
    Alike K A (p.mapThrow f) (p'.mapThrow f) := by
  induction h with
  | ret ha => exact .ret ha
  | throw e => exact .throw (f e)
  | call hK _ ih => exact .call hK ih

theorem alike_ofExcept (x : Except E α) : Alike K Eq (.ofExcept x : Prog C R E α) (.ofExcept x) := by
  cases x with
  | ok a => exact .ret rfl
  | error e => exact .throw e

/-- A program does like itself, when no reply to its calls is alike to another. -/
theorem Only.alike {P : C → Prop} (hK : ∀ c, P c → K c c Eq) {p : Prog C R E α} (hp : p.Only P) : Alike K Eq p p := by
  induction p with
  | ret a => exact .ret rfl
  | throw e => exact .throw e
  | call c k ih =>
    refine .call (hK c hp.1) fun r r' h => ?_
    cases h
    exact ih r (hp.2 r)

end Lib.Prog
