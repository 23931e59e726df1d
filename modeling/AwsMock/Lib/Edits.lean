import AwsMock.Lib.Naming

/-!
# Single edits of a map

What one operation does to a map whose values have names: nothing, a new value, another value of the same name, or a
deletion. Names that were unique stay so when the new ones are.
-/

namespace Lib.OrderedMap

variable {κ α ν μ : Type} [LinearOrder κ]

/-- One edit; the values that are put under a new name are in `new`. -/
inductive Edit (name : α → ν) (new : α → Prop) (m : OrderedMap κ α) : OrderedMap κ α → Prop
  | same : Edit name new m m
  | create (k : κ) (v : α) : new v → Edit name new m (m.insert k v)
  | replace (k : κ) (v v' : α) : m.get? k = some v → name v' = name v → Edit name new m (m.insert k v')
  | erase (p : κ → α → Bool) : Edit name new m (m.eraseIf p)

variable {name : α → ν} {new : α → Prop} {m m' : OrderedMap κ α}

/-- A part of the names stays unique when that of a new name is new. -/
theorem Edit.uniqueBy (h : Edit name new m m') (part : ν → μ) (hunique : UniqueBy (fun v => part (name v)) m)
    (hnew : ∀ v, new v → ∀ k v', m.get? k = some v' → part (name v') ≠ part (name v)) :
    UniqueBy (fun v => part (name v)) m' := by
  cases h with
  | same => exact hunique
  | create k v hv => exact hunique.insert (hnew v hv)
  | replace k v v' hv hname => exact hunique.replace hv (congrArg part hname)
  | erase p =>
    intro k k' v v' hv hv'
    rw [get?_eraseIf] at hv hv'
    exact hunique k k' v v' (Option.eq_some_of_filter_eq_some hv) (Option.eq_some_of_filter_eq_some hv')

/-- Every name was there before, or is a new one. -/
theorem Edit.name_mem (h : Edit name new m m') {k : κ} {v : α} (hv : m'.get? k = some v) :
    (∃ k' v', m.get? k' = some v' ∧ name v' = name v) ∨ new v := by
  cases h with
  | same => exact .inl ⟨k, v, hv, rfl⟩
  | create k' v' hnew =>
    rw [get?_insert] at hv
    split at hv
    · obtain rfl := Option.some.inj hv
      exact .inr hnew
    · exact .inl ⟨k, v, hv, rfl⟩
  | replace k' old v' hold hname =>
    rw [get?_insert] at hv
    split at hv
    · obtain rfl := Option.some.inj hv
      exact .inl ⟨k', old, hold, hname.symm⟩
    · exact .inl ⟨k, v, hv, rfl⟩
  | erase p =>
    rw [get?_eraseIf] at hv
    exact .inl ⟨k, v, Option.eq_some_of_filter_eq_some hv, rfl⟩

section Drawn

variable (part : ν → μ) (IdOf : Nat → μ → Prop) {n n' : Nat}

/-- A part of the names that is drawn stays unique when no two draws give the same. -/
theorem Edit.uniqueBy_drawn (h : Edit name new m m') (hinj : ∀ {i j id}, IdOf i id → IdOf j id → i = j)
    (hunique : UniqueBy (fun v => part (name v)) m)
    (hdrawn : ∀ k v, m.get? k = some v → ∃ i < n, IdOf i (part (name v)))
    (hnew : ∀ v, new v → ∃ i, n ≤ i ∧ i < n' ∧ IdOf i (part (name v))) : UniqueBy (fun v => part (name v)) m' := by
  refine h.uniqueBy part hunique fun v hv k v' hv' heq => ?_
  obtain ⟨i, hi, -, hid⟩ := hnew v hv
  obtain ⟨i', hi', hid'⟩ := hdrawn k v' hv'
  obtain rfl := hinj (heq ▸ hid') hid
  omega

theorem Edit.drawn (h : Edit name new m m') (hn : n ≤ n')
    (hdrawn : ∀ k v, m.get? k = some v → ∃ i < n, IdOf i (part (name v)))
    (hnew : ∀ v, new v → ∃ i, n ≤ i ∧ i < n' ∧ IdOf i (part (name v))) (k : κ) (v : α) (hv : m'.get? k = some v) :
    ∃ i < n', IdOf i (part (name v)) := by
  rcases h.name_mem hv with ⟨k', v', hv', hname⟩ | hnamed
  · obtain ⟨i, hi, hid⟩ := hdrawn k' v' hv'
    exact ⟨i, Nat.lt_of_lt_of_le hi hn, hname ▸ hid⟩
  · obtain ⟨i, -, hi, hid⟩ := hnew v hnamed
    exact ⟨i, hi, hid⟩

end Drawn

/-- What a search that finds nothing tells of every value. -/
theorem ne_of_not_found {p : α → Prop} [DecidablePred p] (h : (m.findIf fun _ v => decide (p v)).isSome = false)
    {k : κ} {v : α} (hv : m.get? k = some v) : ¬ p v :=
  of_decide_eq_false (findIf_none.mp (Option.isNone_iff_eq_none.mp (Option.isSome_eq_false_iff.mp h)) k v hv)

/-- Of the values that one name picks out there are not two. -/
theorem countP_values_le_one {p : α → Bool}
    (h : ∀ k k' v v', m.get? k = some v → m.get? k' = some v' → p v = true → p v' = true → k = k') :
    m.values.countP p ≤ 1 := by
  have hentries : ∀ {entries : List (κ × α)}, (entries.map Prod.fst).Nodup →
      (∀ e ∈ entries, ∀ e' ∈ entries, p e.2 = true → p e'.2 = true → e.1 = e'.1) →
      (entries.map Prod.snd).countP p ≤ 1 := by
    intro entries hnodup hsame
    induction entries with
    | nil => exact Nat.zero_le 1
    | cons first entries ih =>
      rw [List.map_cons, List.nodup_cons] at hnodup
      rw [List.map_cons, List.countP_cons]
      split
      · next hfirst =>
        have hrest : (entries.map Prod.snd).countP p = 0 := by
          refine List.countP_eq_zero.mpr fun v hv hpv => ?_
          obtain ⟨e, he, rfl⟩ := List.mem_map.mp hv
          have hkey := hsame first List.mem_cons_self e (List.mem_cons_of_mem _ he) hfirst hpv
          exact hnodup.1 (List.mem_map.mpr ⟨e, he, hkey.symm⟩)
        omega
      · exact ih hnodup.2 fun e he e' he' =>
          hsame e (List.mem_cons_of_mem _ he) e' (List.mem_cons_of_mem _ he')
  exact hentries m.keys_nodup fun e he e' he' =>
    h e.1 e'.1 e.2 e'.2 (get?_eq_some.mpr he) (get?_eq_some.mpr he')

end Lib.OrderedMap
