import Mathlib.Logic.Basic

/-!
# Loops

A loop goes round until its body leaves it with a result. Whether it ends at all is a question of its
own: `loop` has a bound on its rounds, and `Ends` has none.
-/

namespace Lib

variable {σ β : Type}

/-- The result of a loop that is left within `n` rounds. -/
def loop (body : σ → β ⊕ σ) : Nat → σ → Option β
  | 0, _ => none
  | n + 1, s => match body s with
    | .inl b => some b
    | .inr s' => loop body n s'

/-- The loop is left with this result. -/
def Ends (body : σ → β ⊕ σ) (s : σ) (b : β) : Prop := ∃ n, loop body n s = some b

variable {body : σ → β ⊕ σ} {s s' : σ} {b b' : β}

theorem loop_of_left (h : body s = .inl b) (n : Nat) : loop body (n + 1) s = some b := by
  simp only [loop, h]

theorem loop_of_right (h : body s = .inr s') (n : Nat) : loop body (n + 1) s = loop body n s' := by
  simp only [loop, h]

/-- More rounds do no harm. -/
theorem loop_mono : ∀ {n m : Nat} {s : σ}, loop body n s = some b → n ≤ m → loop body m s = some b
  | n + 1, 0, s, _, hle => absurd hle (Nat.not_succ_le_zero n)
  | n + 1, m + 1, s, h, hle => by
    cases hs : body s with
    | inl c =>
      rw [loop_of_left hs] at h ⊢
      exact h
    | inr s' =>
      rw [loop_of_right hs] at h ⊢
      exact loop_mono h (Nat.le_of_succ_le_succ hle)

theorem ends_of_left (h : body s = .inl b) : Ends body s b := ⟨1, loop_of_left h 0⟩

theorem Ends.round (h : body s = .inr s') (hends : Ends body s' b) : Ends body s b := by
  obtain ⟨n, hn⟩ := hends
  exact ⟨n + 1, (loop_of_right h n).trans hn⟩

theorem Ends.unique (h : Ends body s b) (h' : Ends body s b') : b = b' := by
  obtain ⟨n, hn⟩ := h
  obtain ⟨m, hm⟩ := h'
  have hleft := loop_mono hn (Nat.le_max_left n m)
  have hright := loop_mono hm (Nat.le_max_right n m)
  exact Option.some.inj (hleft.symm.trans hright)

/-- A loop that finds a reason to go round again each time. -/
theorem not_ends {I : σ → Prop} (hround : ∀ s, I s → ∃ s', body s = .inr s' ∧ I s') (hs : I s) :
    ¬ Ends body s b := by
  rintro ⟨n, hn⟩
  induction n generalizing s with
  | zero => cases hn
  | succ n ih =>
    obtain ⟨s', h, hs'⟩ := hround s hs
    exact ih hs' ((loop_of_right h n).symm.trans hn)

end Lib
