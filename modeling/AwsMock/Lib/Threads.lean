import AwsMock.Lib.Machine
import AwsMock.Lib.Prog

/-!
# Threads

Any number of threads over one shared state, let forward one call at a time. A call may have to wait, and it
may start further threads; without a meaning it ends the process. Every thread bears a label that it keeps.
-/

namespace Lib

/-- What a call comes to: it waits, or it has a reply, a next state and threads that it starts. -/
inductive Turn (ρ σ τ : Type)
  | waits
  | goes (reply : ρ) (state : σ) (started : List τ)

structure Thread (L C : Type) (R : C → Type) (E α : Type) where
  label : L
  prog : Prog C R E α

namespace Thread

variable {L C : Type} {R : C → Type} {E α σ : Type}

/-- The threads and the state that they share. -/
abbrev Pool (L C : Type) (R : C → Type) (E α σ : Type) := List (Thread L C R E α) × σ

/-- The meaning of a call of the `i`-th thread. -/
abbrev Exec (L C : Type) (R : C → Type) (E α σ : Type) :=
  (i : Nat) → (c : C) → σ → Option (Turn (R c) σ (Thread L C R E α))

/-- Let the `i`-th thread make its next call; one that has ended lets its turn pass. -/
def turn (exec : Exec L C R E α σ) (i : Nat) (x : Pool L C R E α σ) : Option (Pool L C R E α σ) :=
  match x.1[i]? with
  | some ⟨label, .call c k⟩ => (exec i c x.2).map fun
    | .waits => x
    | .goes r s started => (x.1.set i ⟨label, k r⟩ ++ started, s)
  | _ => some x

variable {exec : Exec L C R E α σ} {x y : Pool L C R E α σ} {i : Nat}

/-- A turn that changes something is a call with its reply. -/
theorem turn_cases (h : turn exec i x = some y) : y = x ∨ ∃ label c k r started,
    x.1[i]? = some ⟨label, .call c k⟩ ∧ exec i c x.2 = some (.goes r y.2 started) ∧
      y.1 = x.1.set i ⟨label, k r⟩ ++ started := by
  unfold turn at h
  split at h
  · next label c k hi =>
    obtain ⟨w, hw, hy⟩ := Option.map_eq_some_iff.mp h
    cases w with
    | waits => exact .inl hy.symm
    | goes r s started =>
      cases hy
      exact .inr ⟨label, c, k, r, started, hi, hw, rfl⟩
  · exact .inl (Option.some_inj.mp h).symm

/-- Where the threads of the next state come from. -/
theorem getElem?_moved {ts started : List (Thread L C R E α)} {t u : Thread L C R E α} {j : Nat}
    (h : (ts.set i t ++ started)[j]? = some u) :
    j = i ∧ u = t ∨ j ≠ i ∧ ts[j]? = some u ∨ u ∈ started ∧ ts.length ≤ j := by
  rw [List.getElem?_append, List.length_set] at h
  split at h
  · rw [List.getElem?_set] at h
    split at h
    · next hij =>
      split at h
      · cases h
        exact .inl ⟨hij.symm, rfl⟩
      · cases h
    · next hij => exact .inr (.inl ⟨Ne.symm hij, h⟩)
  · next hj => exact .inr (.inr ⟨List.mem_of_getElem? h, Nat.le_of_not_lt hj⟩)

theorem getElem?_moved_self {ts started : List (Thread L C R E α)} {t u : Thread L C R E α}
    (h : ts[i]? = some u) : (ts.set i t ++ started)[i]? = some t := by
  obtain ⟨hi, -⟩ := List.getElem?_eq_some_iff.mp h
  rw [List.getElem?_append_left (by rwa [List.length_set]), List.getElem?_set_self hi]

theorem getElem?_moved_of_ne {ts started : List (Thread L C R E α)} {t u : Thread L C R E α} {j : Nat}
    (h : ts[j]? = some u) (hj : j ≠ i) : (ts.set i t ++ started)[j]? = some u := by
  obtain ⟨hlt, -⟩ := List.getElem?_eq_some_iff.mp h
  rw [List.getElem?_append_left (by rwa [List.length_set]), List.getElem?_set_ne hj.symm, h]

end Thread

end Lib
