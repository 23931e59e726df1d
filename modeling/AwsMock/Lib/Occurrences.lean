import Mathlib.Data.List.Basic

/-!
# Occurrences of a pattern

The occurrences of a pattern in a list that are found from left to right and do not overlap, how many
there are, and the list with all of them replaced. `search` finds the first one.
-/

namespace Lib

variable {α : Type} [DecidableEq α]

/-- What is left of a list at the first place where the pattern stands. -/
def search (p s : List α) : Option (List α) := s.tails.find? fun t => p.isPrefixOf t

/-- Replace from here on, after the elements to skip: where the pattern stands it is replaced, and the search goes on
    behind it. -/
def replaceFrom (p r : List α) : Nat → List α → List α
  | _, [] => []
  | skip + 1, _ :: s => replaceFrom p r skip s
  | 0, c :: s => if p.isPrefixOf (c :: s) then r ++ replaceFrom p r (p.length - 1) s else c :: replaceFrom p r 0 s

def replaceAll (p r s : List α) : List α := replaceFrom p r 0 s

/-- How many occurrences there are from here on. -/
def occurrencesFrom (p : List α) : Nat → List α → Nat
  | _, [] => 0
  | skip + 1, _ :: s => occurrencesFrom p skip s
  | 0, c :: s => if p.isPrefixOf (c :: s) then occurrencesFrom p (p.length - 1) s + 1 else occurrencesFrom p 0 s

def occurrences (p s : List α) : Nat := occurrencesFrom p 0 s

variable {p r s t : List α}

theorem search_nil (s : List α) : search [] s = some s := by
  cases s <;> rfl

theorem search_cons (p : List α) (c : α) (s : List α) :
    search p (c :: s) = if p.isPrefixOf (c :: s) then some (c :: s) else search p s := by
  rw [search, List.tails, List.find?_cons]
  cases p.isPrefixOf (c :: s) <;> rfl

theorem replaceFrom_skip (p r : List α) : ∀ (n : Nat) (s : List α), replaceFrom p r n s = replaceAll p r (s.drop n)
  | 0, _ => rfl
  | _ + 1, [] => rfl
  | n + 1, _ :: s => replaceFrom_skip p r n s

theorem occurrencesFrom_skip (p : List α) : ∀ (n : Nat) (s : List α), occurrencesFrom p n s = occurrences p (s.drop n)
  | 0, _ => rfl
  | _ + 1, [] => rfl
  | n + 1, _ :: s => occurrencesFrom_skip p n s

/-- The first occurrence, and what is found behind it. -/
structure Found (p s t before after : List α) : Prop where
  text : s = before ++ t
  pattern : t = p ++ after
  replaced : ∀ r, replaceAll p r s = before ++ r ++ replaceAll p r after
  counted : occurrences p s = occurrences p after + 1

theorem search_some (hp : p ≠ []) (h : search p s = some t) : ∃ before after, Found p s t before after := by
  induction s with
  | nil =>
    have hprefix := List.find?_some h
    obtain ⟨d, q, rfl⟩ := List.exists_cons_of_ne_nil hp
    rw [List.mem_singleton.mp (List.mem_of_find?_eq_some h)] at hprefix
    cases hprefix
  | cons c s ih =>
    rw [search_cons] at h
    split at h
    · next hprefix =>
      cases h
      obtain ⟨after, hafter⟩ := List.isPrefixOf_iff_prefix.mp hprefix
      have hdrop : s.drop (p.length - 1) = after := by
        rw [← List.drop_succ_cons (a := c), Nat.sub_add_cancel (List.length_pos_iff.mpr hp), ← hafter,
          List.drop_left]
      refine ⟨[], after, rfl, hafter.symm, fun r => ?_, ?_⟩
      · rw [replaceAll, replaceFrom, if_pos hprefix, replaceFrom_skip, hdrop, List.nil_append]
      · rw [occurrences, occurrencesFrom, if_pos hprefix, occurrencesFrom_skip, hdrop]
    · next hprefix =>
      obtain ⟨before, after, htext, hpattern, hreplaced, hcounted⟩ := ih h
      refine ⟨c :: before, after, by rw [htext, List.cons_append], hpattern, fun r => ?_, ?_⟩
      · rw [replaceAll, replaceFrom, if_neg hprefix, ← replaceAll, hreplaced, List.cons_append, List.cons_append]
      · rw [occurrences, occurrencesFrom, if_neg hprefix, ← occurrences, hcounted]

/-- Without an occurrence nothing is replaced. -/
theorem search_none (h : search p s = none) : (∀ r, replaceAll p r s = s) ∧ occurrences p s = 0 := by
  induction s with
  | nil => exact ⟨fun _ => rfl, rfl⟩
  | cons c s ih =>
    rw [search_cons] at h
    split at h
    · cases h
    · next hprefix =>
      obtain ⟨hreplaced, hcounted⟩ := ih h
      refine ⟨fun r => ?_, ?_⟩
      · rw [replaceAll, replaceFrom, if_neg hprefix, ← replaceAll, hreplaced]
      · rw [occurrences, occurrencesFrom, if_neg hprefix, ← occurrences, hcounted]

/-- Induction along the occurrences. -/
theorem occurrences_induction (hp : p ≠ []) {motive : List α → Prop}
    (none : ∀ s, search p s = none → motive s)
    (some : ∀ s t before after, search p s = some t → Found p s t before after → motive after → motive s)
    (s : List α) : motive s := by
  induction hn : s.length using Nat.strongRecOn generalizing s with
  | ind n ih =>
    cases h : search p s with
    | none => exact none s h
    | some t =>
      obtain ⟨before, after, hfound⟩ := search_some hp h
      have hshorter : after.length < n := by
        have hpos := List.length_pos_iff.mpr hp
        rw [← hn, hfound.text, hfound.pattern, List.length_append, List.length_append]
        omega
      exact some s t before after h hfound (ih _ hshorter after rfl)

/-- Each occurrence makes the difference of the two lengths. -/
theorem length_replaceAll (hp : p ≠ []) (r s : List α) :
    (replaceAll p r s).length + occurrences p s * p.length = s.length + occurrences p s * r.length := by
  induction s using occurrences_induction hp with
  | none s h =>
    obtain ⟨hreplaced, hcounted⟩ := search_none h
    rw [hreplaced, hcounted, Nat.zero_mul, Nat.zero_mul]
  | some s t before after h hfound ih =>
    rw [hfound.replaced, hfound.counted, hfound.text, hfound.pattern]
    simp only [List.length_append, Nat.succ_mul] at ih ⊢
    omega

/-- The elements come from the text and the replacement. -/
theorem mem_replaceAll (hp : p ≠ []) {c : α} (h : c ∈ replaceAll p r s) : c ∈ s ∨ c ∈ r := by
  induction s using occurrences_induction hp with
  | none s hs =>
    rw [(search_none hs).1 r] at h
    exact .inl h
  | some s t before after hs hfound ih =>
    rw [hfound.replaced, List.append_assoc, List.mem_append, List.mem_append] at h
    rw [hfound.text, hfound.pattern]
    rcases h with hbefore | hr | hafter
    · exact .inl (List.mem_append_left _ hbefore)
    · exact .inr hr
    · refine (ih hafter).imp_left fun hin => ?_
      exact List.mem_append_right _ (List.mem_append_right _ hin)

/-- The occurrences found do not overlap. -/
theorem occurrences_mul_le (hp : p ≠ []) (s : List α) : occurrences p s * p.length ≤ s.length := by
  induction s using occurrences_induction hp with
  | none s h =>
    rw [(search_none h).2, Nat.zero_mul]
    exact Nat.zero_le _
  | some s t before after h hfound ih =>
    rw [hfound.counted, hfound.text, hfound.pattern, List.length_append, List.length_append, Nat.succ_mul]
    omega

example : replaceAll [1, 1] [2] [1, 1, 1, 3, 1, 1] = [2, 1, 3, 2] := by decide

end Lib
