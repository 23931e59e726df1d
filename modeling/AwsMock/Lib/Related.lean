import Mathlib.Data.List.Forall2

/-!
# Lists related entry by entry

Rules for `List.Forall₂` beside those of the library.
-/

namespace Lib

variable {α β : Type} {R S : α → β → Prop} {xs : List α} {ys : List β}

/-- Every member has a partner. -/
theorem forall₂_partner (h : List.Forall₂ R xs ys) {x : α} (hx : x ∈ xs) : ∃ y ∈ ys, R x y := by
  induction h with
  | nil => cases hx
  | cons hr _ ih =>
    rcases List.mem_cons.mp hx with rfl | hx
    · exact ⟨_, List.mem_cons_self, hr⟩
    · obtain ⟨y, hy, hxy⟩ := ih hx
      exact ⟨y, List.mem_cons_of_mem _ hy, hxy⟩

theorem forall₂_mem_imp (h : List.Forall₂ R xs ys) (himp : ∀ x y, x ∈ xs → R x y → S x y) :
    List.Forall₂ S xs ys := by
  induction h with
  | nil => exact .nil
  | cons hr _ ih =>
    exact .cons (himp _ _ List.mem_cons_self hr)
      (ih fun x y hx => himp x y (List.mem_cons_of_mem _ hx))

theorem forall₂_concat {x : α} {y : β} :
    List.Forall₂ R (xs ++ [x]) (ys ++ [y]) ↔ List.Forall₂ R xs ys ∧ R x y := by
  rw [← List.forall₂_reverse_iff, List.reverse_append, List.reverse_append]
  simp [List.forall₂_reverse_iff, and_comm]

/-- One more entry on the left needs one on the right, when there were at least as many. -/
theorem forall₂_concat_toList {x : α} {o : Option β} (hle : ys.length ≤ xs.length) :
    List.Forall₂ R (xs ++ [x]) (ys ++ o.toList) ↔ List.Forall₂ R xs ys ∧ ∃ y, o = some y ∧ R x y := by
  rcases o with _ | y
  · constructor
    · intro h
      have hlength := h.length_eq
      simp at hlength
      omega
    · rintro ⟨-, y, hy, -⟩
      cases hy
  · simp [forall₂_concat]

/-- A traversal that succeeds. -/
theorem mapM_eq_some {f : α → Option β} : ∀ {xs : List α} {ys : List β},
    xs.mapM f = some ys ↔ List.Forall₂ (fun x y => f x = some y) xs ys
  | [], ys => by
    constructor
    · rintro ⟨⟩
      exact .nil
    · rintro ⟨⟩
      rfl
  | x :: xs, ys => by
    rw [List.mapM_cons]
    constructor
    · intro h
      obtain ⟨y, hy, h⟩ := Option.bind_eq_some_iff.mp h
      obtain ⟨zs, hzs, h⟩ := Option.bind_eq_some_iff.mp h
      cases h
      exact .cons hy (mapM_eq_some.mp hzs)
    · rintro (_ | ⟨hy, hys⟩)
      exact Option.bind_eq_some_iff.mpr
        ⟨_, hy, Option.bind_eq_some_iff.mpr ⟨_, mapM_eq_some.mpr hys, rfl⟩⟩

/-- A traversal yields what it should if each of its steps does. -/
theorem mapM_map_eq_some {γ : Type} {f : α → Option β} {g : β → γ} {h : α → γ} : ∀ {xs : List α},
    (xs.mapM f).map (List.map g) = some (xs.map h) ↔ ∀ x ∈ xs, (f x).map g = some (h x)
  | [] => by simp
  | x :: xs => by
    have ih : (xs.mapM f).map (List.map g) = some (xs.map h) ↔ ∀ x ∈ xs, (f x).map g = some (h x) := mapM_map_eq_some
    rw [List.mapM_cons, List.map_cons, List.forall_mem_cons, ← ih]
    rcases f x with _ | y
    · simp
    · rcases xs.mapM f with _ | ys <;> simp

/-! ### Entries under a key -/

section Under

variable {κ : Type} [DecidableEq κ]

def under (k : κ) (entries : List (κ × α)) : List α := (entries.filter fun entry => entry.1 = k).map Prod.snd

@[simp] theorem under_nil (k : κ) : under k ([] : List (κ × α)) = [] := rfl

@[simp] theorem under_cons (k : κ) (entry : κ × α) (entries : List (κ × α)) :
    under k (entry :: entries) = if entry.1 = k then entry.2 :: under k entries else under k entries := by
  rw [under, List.filter_cons]
  by_cases hk : entry.1 = k <;> simp [hk, under]

theorem map_under (f : α → β) (k : κ) (entries : List (κ × α)) :
    (under k entries).map f = under k (entries.map fun entry => (entry.1, f entry.2)) := by
  induction entries with
  | nil => rfl
  | cons entry entries ih =>
    rw [List.map_cons, under_cons, under_cons, ← ih]
    split <;> rfl

/-- Lists with the same keys are told apart by what is under one of them. -/
theorem eq_of_under : ∀ {entries entries' : List (κ × α)}, entries.map Prod.fst = entries'.map Prod.fst →
    (∀ k, under k entries = under k entries') → entries = entries'
  | [], [], _, _ => rfl
  | (k, a) :: entries, (k', a') :: entries', hkeys, hunder => by
    obtain ⟨rfl, hrests⟩ := List.cons.inj hkeys
    have hhead := hunder k
    rw [under_cons, under_cons, if_pos rfl, if_pos rfl] at hhead
    obtain ⟨rfl, hrest⟩ := List.cons.inj hhead
    refine congrArg _ (eq_of_under hrests fun j => ?_)
    by_cases hj : k = j
    · rw [← hj]
      exact hrest
    · have htail := hunder j
      rwa [under_cons, under_cons, if_neg hj, if_neg hj] at htail

end Under

end Lib
