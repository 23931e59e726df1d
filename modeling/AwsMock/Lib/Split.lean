import AwsMock.Lib.Bytes

/-!
# Tokens

How many tokens `split` yields, and what joining them gives back.
-/

namespace Lib

/-- The tokens of a string with a delimiter between two of them. -/
def join (d : UInt8) : List Str → Str
  | [] => []
  | [t] => t
  | t :: u :: ts => t ++ d :: join d (u :: ts)

theorem join_cons {d : UInt8} {t : Str} {ts : List Str} (hne : ts ≠ []) :
    join d (t :: ts) = t ++ d :: join d ts := by
  obtain ⟨u, us, rfl⟩ := List.exists_cons_of_ne_nil hne
  rfl

theorem mem_join {d c : UInt8} : ∀ {ts : List Str}, c ∈ join d ts → c = d ∨ ∃ t ∈ ts, c ∈ t
  | [t], h => .inr ⟨t, List.mem_singleton_self t, h⟩
  | t :: u :: ts, h => by
    rcases List.mem_append.mp h with ht | hrest
    · exact .inr ⟨t, by simp, ht⟩
    · rcases List.mem_cons.mp hrest with rfl | hrest
      · exact .inl rfl
      · rcases mem_join hrest with hd | ⟨v, hv, hc⟩
        · exact .inl hd
        · exact .inr ⟨v, List.mem_cons_of_mem _ hv, hc⟩

theorem length_splitAux (d : UInt8) : ∀ (s acc : Str), (splitAux d acc s).length =
    s.count d + if s.getLast? = some d ∨ acc ++ s = [] then 0 else 1
  | [], acc => by
    rcases acc with _ | ⟨a, acc⟩ <;> simp [splitAux]
  | c :: s, acc => by
    have hlast : (c :: s).getLast? = some d ↔ s.getLast? = some d ∨ s = [] ∧ c = d := by
      rcases s with _ | ⟨b, s⟩ <;> simp
    simp only [splitAux, hlast]
    by_cases hc : c = d
    · subst hc
      rw [if_pos rfl, List.length_cons, length_splitAux c s []]
      simp
      omega
    · rw [if_neg hc, length_splitAux d s _]
      simp [hc]

/-- There is a token before each delimiter, and a last one unless nothing follows the last
    delimiter. -/
theorem length_split (d : UInt8) (s : Str) :
    (split d s).length = s.count d + if s.getLast? = some d ∨ s = [] then 0 else 1 := by
  have := length_splitAux d s []
  rwa [List.nil_append] at this

theorem split_ne_nil {d : UInt8} {s : Str} : split d s ≠ [] ↔ s ≠ [] := by
  rw [← List.length_pos_iff, length_split]
  constructor
  · rintro h rfl
    simp at h
  · intro hne
    by_cases hlast : s.getLast? = some d
    · have := List.count_pos_iff.mpr (List.mem_of_getLast? hlast)
      omega
    · simp [hlast, hne]

/-- There is a second token when something follows the first delimiter. -/
theorem two_le_length_split {d : UInt8} {s : Str} : 2 ≤ (split d s).length ↔ d ∈ s.dropLast := by
  rcases List.eq_nil_or_concat s with rfl | ⟨t, c, rfl⟩
  · simp
  · rw [length_split, List.concat_eq_append, List.dropLast_concat, List.count_append,
      ← List.count_pos_iff]
    by_cases hc : c = d
    · subst hc
      simp [Nat.succ_le_iff]
    · simp [hc, Nat.succ_le_iff]

/-- Tokens without the delimiter are found again, unless the last one is empty. -/
theorem split_join {d : UInt8} : ∀ {ts : List Str}, (∀ t ∈ ts, d ∉ t) → ts.getLast? ≠ some [] →
    split d (join d ts) = ts
  | [], _, _ => rfl
  | [t], htoken, hlast => split_last (htoken t (by simp)) fun (h : t = []) => hlast (by simp [h])
  | t :: u :: ts, htoken, hlast => by
    rw [join, split_append (htoken t (by simp)), split_join (fun t ht => htoken t (by simp_all))]
    simpa using hlast

theorem join_splitAux (d : UInt8) : ∀ (s acc : Str), join d (splitAux d acc s) =
    acc ++ if s.getLast? = some d then s.dropLast else s
  | [], acc => by
    rcases acc with _ | ⟨a, acc⟩ <;> simp [splitAux, join]
  | c :: s, acc => by
    rw [splitAux]
    by_cases hc : c = d
    · subst hc
      rw [if_pos rfl]
      rcases s with _ | ⟨b, s⟩
      · simp [splitAux, join]
      · have hne : splitAux c [] (b :: s) ≠ [] := split_ne_nil.mpr (List.cons_ne_nil b s)
        rw [join_cons hne, join_splitAux c (b :: s) []]
        simp only [List.getLast?_cons_cons, List.nil_append, List.dropLast_cons_of_ne_nil
          (List.cons_ne_nil b s)]
        split <;> rfl
    · rw [if_neg hc, join_splitAux d s]
      rcases s with _ | ⟨b, s⟩
      · simp [hc]
      · simp only [List.getLast?_cons_cons, List.append_assoc, List.dropLast_cons_of_ne_nil
          (List.cons_ne_nil b s)]
        split <;> rfl

theorem mem_of_mem_splitAux {d c : UInt8} : ∀ {s acc t : Str}, t ∈ splitAux d acc s → c ∈ t → c ∈ acc ++ s
  | [], acc, t, ht, hc => by
    rw [splitAux] at ht
    split at ht
    · cases ht
    · rw [List.mem_singleton.mp ht] at hc
      simpa using hc
  | b :: s, acc, t, ht, hc => by
    rw [splitAux] at ht
    split at ht
    · rcases List.mem_cons.mp ht with rfl | hrest
      · exact List.mem_append_left _ hc
      · have hs := mem_of_mem_splitAux hrest hc
        exact List.mem_append_right _ (List.mem_cons_of_mem _ hs)
    · have hs := mem_of_mem_splitAux ht hc
      simpa using hs

theorem notMem_of_mem_splitAux {d : UInt8} : ∀ {s acc t : Str}, d ∉ acc → t ∈ splitAux d acc s → d ∉ t
  | [], acc, t, hacc, ht => by
    rw [splitAux] at ht
    split at ht
    · cases ht
    · rwa [List.mem_singleton.mp ht]
  | b :: s, acc, t, hacc, ht => by
    rw [splitAux] at ht
    split at ht
    · rcases List.mem_cons.mp ht with rfl | hrest
      · exact hacc
      · exact notMem_of_mem_splitAux (List.not_mem_nil) hrest
    · next hb => exact notMem_of_mem_splitAux (by simp [hacc, Ne.symm hb]) ht

/-- No token has the delimiter. -/
theorem notMem_of_mem_split {d : UInt8} {s t : Str} (ht : t ∈ split d s) : d ∉ t :=
  notMem_of_mem_splitAux List.not_mem_nil ht

/-- A token has no character that the string lacks. -/
theorem mem_of_mem_split {d c : UInt8} {s t : Str} (ht : t ∈ split d s) (hc : c ∈ t) : c ∈ s :=
  mem_of_mem_splitAux ht hc

/-- Splitting and joining loses a delimiter at the end. -/
theorem join_split (d : UInt8) (s : Str) :
    join d (split d s) = if s.getLast? = some d then s.dropLast else s :=
  join_splitAux d s []

end Lib
