import Mathlib.Logic.Basic

/-!
# Code that may end without a value

A piece of code returns, throws, or has no defined behaviour. The predicates `Defined`, `Returns` and
`Contains` say which ends are ruled out, each with a rule for sequences.
-/

namespace Lib

/-- How a piece of code ends. `undefined` is undefined behaviour, such as an index past the end of a
    vector. -/
inductive Outcome (E α : Type) : Type
  | returns (a : α)
  | throws (e : E)
  | undefined
  deriving DecidableEq

namespace Outcome

variable {E α β : Type}

/-- Sequencing: what follows runs only on a result. -/
def bind : Outcome E α → (α → Outcome E β) → Outcome E β
  | returns a, f => f a
  | throws e, _ => throws e
  | undefined, _ => undefined

instance : Monad (Outcome E) where
  pure := returns
  bind := bind

@[simp] theorem pure_eq (a : α) : (pure a : Outcome E α) = returns a := rfl

@[simp] theorem returns_bind (a : α) (f : α → Outcome E β) : (returns a >>= f) = f a := rfl

@[simp] theorem throws_bind (e : E) (f : α → Outcome E β) :
    ((throws e : Outcome E α) >>= f) = throws e := rfl

@[simp] theorem undefined_bind (f : α → Outcome E β) :
    ((undefined : Outcome E α) >>= f) = undefined := rfl

instance : LawfulMonad (Outcome E) := LawfulMonad.mk' _
  (fun x => by cases x <;> rfl) (fun _ _ => rfl) (fun x _ _ => by cases x <;> rfl)

theorem bind_eq_returns {x : Outcome E α} {f : α → Outcome E β} {b : β} :
    (x >>= f) = returns b ↔ ∃ a, x = returns a ∧ f a = returns b := by
  cases x with
  | returns a => simp
  | throws e => simp
  | undefined => simp

theorem mapM_returns {f : α → Outcome E β} {g : α → β} {xs : List α}
    (h : ∀ x ∈ xs, f x = returns (g x)) : xs.mapM f = returns (xs.map g) := by
  induction xs with
  | nil => rfl
  | cons x xs ih =>
    rw [List.mapM_cons, h x (List.mem_cons_self ..), returns_bind,
      ih fun y hy => h y (List.mem_cons_of_mem _ hy)]
    rfl

/-- Elements that are read back after they were written. -/
theorem mapM_map_self {write : α → β} {read : β → Outcome E α} : ∀ {xs : List α},
    (∀ x ∈ xs, read (write x) = returns x) → (xs.map write).mapM read = returns xs
  | [], _ => rfl
  | x :: xs, h => by
    rw [List.map_cons, List.mapM_cons, h x (List.mem_cons_self ..), returns_bind,
      mapM_map_self fun y hy => h y (List.mem_cons_of_mem _ hy)]
    rfl

/-- A computation that throws instead of failing. -/
def ofExcept : Except E α → Outcome E α
  | .ok a => returns a
  | .error e => throws e

/-- `xs[i]` on a vector, without a check. -/
def get (xs : List α) (i : Nat) : Outcome E α :=
  match xs[i]? with
  | some a => returns a
  | none => undefined

/-! ### No undefined behaviour -/

def Defined (x : Outcome E α) : Prop := x ≠ undefined

instance (x : Outcome E α) : Decidable x.Defined :=
  match x with
  | returns _ => isTrue nofun
  | throws _ => isTrue nofun
  | undefined => isFalse fun h => h rfl

@[simp] theorem defined_returns (a : α) : (returns a : Outcome E α).Defined := nofun

@[simp] theorem defined_throws (e : E) : (throws e : Outcome E α).Defined := nofun

@[simp] theorem not_defined_undefined : ¬ (undefined : Outcome E α).Defined := fun h => h rfl

/-- A sequence is defined when its parts are, as far as it gets. -/
theorem defined_bind {x : Outcome E α} {f : α → Outcome E β} :
    (x >>= f).Defined ↔ x.Defined ∧ ∀ a, x = returns a → (f a).Defined := by
  cases x with
  | returns a => simp
  | throws e => simp
  | undefined => simp

theorem defined_mapM {f : α → Outcome E β} {xs : List α} (h : ∀ x ∈ xs, (f x).Defined) :
    (xs.mapM f).Defined := by
  induction xs with
  | nil => exact defined_returns _
  | cons x xs ih =>
    rw [List.mapM_cons, defined_bind]
    refine ⟨h x (List.mem_cons_self ..), fun y _ => ?_⟩
    rw [defined_bind]
    exact ⟨ih fun z hz => h z (List.mem_cons_of_mem _ hz), fun _ _ => defined_returns _⟩

/-- A loop over a vector throws when its body does at some element. -/
theorem mapM_throws {f : α → Outcome E β} : ∀ {xs : List α}, (∀ x ∈ xs, (f x).Defined) →
    ((∃ e, xs.mapM f = throws e) ↔ ∃ x ∈ xs, ∃ e, f x = throws e)
  | [], _ => by simp
  | x :: xs, hdefined => by
      have ih := mapM_throws fun y hy => hdefined y (List.mem_cons_of_mem _ hy)
      rw [List.mapM_cons]
      simp only [List.mem_cons, exists_eq_or_imp, ← ih]
      rcases hx : f x with y | e | _
      · rcases hxs : xs.mapM f with ys | e | _ <;> simp
      · simp
      · exact absurd hx (hdefined x (List.mem_cons_self ..))

/-- A loop whose body returns or is undefined, depending on the element, returns when it does at each
    element, and is undefined else. -/
theorem foldlM_cases {P : α → Prop} {f : β → α → Outcome E β}
    (hreturns : ∀ b x, P x → ∃ b', f b x = returns b') (hundefined : ∀ b x, ¬ P x → f b x = undefined) :
    ∀ (xs : List α) (b : β), ((∀ x ∈ xs, P x) ∧ ∃ b', xs.foldlM f b = returns b') ∨
      ((¬ ∀ x ∈ xs, P x) ∧ xs.foldlM f b = undefined)
  | [], b => .inl ⟨nofun, b, rfl⟩
  | x :: xs, b => by
      rw [List.foldlM_cons, List.forall_mem_cons]
      by_cases hx : P x
      · obtain ⟨b', hb'⟩ := hreturns b x hx
        rw [hb', returns_bind]
        simpa [hx] using foldlM_cases hreturns hundefined xs b'
      · rw [hundefined b x hx, undefined_bind]
        exact .inr ⟨fun h => hx h.1, rfl⟩

theorem defined_ite {p : Prop} [Decidable p] {x y : Outcome E α} :
    (if p then x else y).Defined ↔ (p → x.Defined) ∧ (¬ p → y.Defined) := by
  split <;> simp [*]

@[simp] theorem defined_ofExcept (x : Except E α) : (ofExcept x).Defined := by
  cases x <;> simp [ofExcept]

theorem defined_get {xs : List α} {i : Nat} : (get xs i : Outcome E α).Defined ↔ i < xs.length := by
  rcases h : xs[i]? with _ | a
  · simp [get, List.getElem?_eq_none_iff.mp h]
  · obtain ⟨hi, -⟩ := List.getElem?_eq_some_iff.mp h
    simp [get, hi]

theorem get_eq_returns {xs : List α} {i : Nat} {a : α} :
    (get xs i : Outcome E α) = returns a ↔ xs[i]? = some a := by
  rcases h : xs[i]? with _ | b <;> simp [get, h]

theorem get_bind {xs : List α} {i : Nat} (d : α) (f : α → Outcome E β) :
    (get xs i >>= f) = if i < xs.length then f (xs.getD i d) else undefined := by
  split
  · next hi => rw [get_eq_returns.mpr (List.getElem?_eq_getElem hi)]; simp [hi]
  · next hi => simp [get, List.getElem?_eq_none (Nat.le_of_not_lt hi)]

theorem defined_get_bind {xs : List α} {i : Nat} (d : α) {f : α → Outcome E β} :
    (get xs i >>= f).Defined ↔ i < xs.length ∧ (f (xs.getD i d)).Defined := by
  rw [get_bind d]
  split <;> simp [*]

theorem get_bind_eq_returns {xs : List α} {i : Nat} (d : α) {f : α → Outcome E β} {b : β} :
    (get xs i >>= f) = returns b ↔ i < xs.length ∧ f (xs.getD i d) = returns b := by
  rw [get_bind d]
  split <;> simp [*]

end Outcome

end Lib
