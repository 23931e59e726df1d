import AwsMock.Lib.OrderedMap

/-!
# Maps whose values have names

A map from ids to values in which no two values have one name, and the steps that keep it so.
-/

namespace Lib.OrderedMap

variable {κ α ν γ : Type} [LinearOrder κ]

/-- No two values have one name. -/
def UniqueBy (name : α → ν) (m : OrderedMap κ α) : Prop :=
  ∀ k k' v v', m.get? k = some v → m.get? k' = some v' → name v = name v' → k = k'

/-- Every value is still there, with the same content. -/
def KeptBy (content : α → γ) (m m' : OrderedMap κ α) : Prop :=
  ∀ k v, m.get? k = some v → ∃ v', m'.get? k = some v' ∧ content v' = content v

variable {name : α → ν} {content : α → γ} {m m' m'' : OrderedMap κ α} {k k' : κ} {v v' : α}

theorem uniqueBy_empty : UniqueBy name (∅ : OrderedMap κ α) := by
  intro k k' v v' hv
  cases hv

/-- Two ids of one name. -/
theorem not_uniqueBy (k k' : κ) {n : ν} (hne : k ≠ k') (hk : (m.get? k).map name = some n)
    (hk' : (m.get? k').map name = some n) : ¬ UniqueBy name m := by
  intro h
  obtain ⟨v, hv, hn⟩ := Option.map_eq_some_iff.mp hk
  obtain ⟨v', hv', hn'⟩ := Option.map_eq_some_iff.mp hk'
  exact hne (h k k' v v' hv hv' (hn.trans hn'.symm))

/-- A value with a name of its own. -/
theorem UniqueBy.insert (h : UniqueBy name m) (hnew : ∀ k' v', m.get? k' = some v' → name v' ≠ name v) :
    UniqueBy name (m.insert k v) := by
  intro k₁ k₂ v₁ v₂ h₁ h₂ hname
  rw [get?_insert] at h₁ h₂
  split at h₁ <;> split at h₂
  · next hk₁ hk₂ => rw [hk₁, hk₂]
  · cases h₁
    exact absurd hname.symm (hnew k₂ v₂ h₂)
  · cases h₂
    exact absurd hname (hnew k₁ v₁ h₁)
  · exact h k₁ k₂ v₁ v₂ h₁ h₂ hname

/-- A stored value is replaced by one of the same name. -/
theorem UniqueBy.replace (h : UniqueBy name m) (hv : m.get? k = some v) (hname : name v' = name v) :
    UniqueBy name (m.insert k v') := by
  have hback : ∀ {j : κ} {x : α}, (m.insert k v').get? j = some x → ∃ y, m.get? j = some y ∧ name y = name x := by
    intro j x hx
    rw [get?_insert] at hx
    split at hx
    · next hj =>
      cases hx
      exact ⟨v, hj ▸ hv, hname.symm⟩
    · exact ⟨x, hx, rfl⟩
  intro k₁ k₂ v₁ v₂ h₁ h₂ hsame
  obtain ⟨y₁, hy₁, hn₁⟩ := hback h₁
  obtain ⟨y₂, hy₂, hn₂⟩ := hback h₂
  exact h k₁ k₂ y₁ y₂ hy₁ hy₂ (hn₁.trans (hsame.trans hn₂.symm))

theorem KeptBy.refl (content : α → γ) (m : OrderedMap κ α) : KeptBy content m m := fun _ v hv => ⟨v, hv, rfl⟩

theorem KeptBy.trans (h : KeptBy content m m') (h' : KeptBy content m' m'') : KeptBy content m m'' := by
  intro k v hv
  obtain ⟨v', hv', hc⟩ := h k v hv
  obtain ⟨v'', hv'', hc'⟩ := h' k v' hv'
  exact ⟨v'', hv'', hc'.trans hc⟩

/-- A value under a new id. -/
theorem keptBy_insert (content : α → γ) (hk : m.get? k = none) (v : α) : KeptBy content m (m.insert k v) := by
  intro j x hx
  have hne : j ≠ k := by
    rintro rfl
    rw [hk] at hx
    cases hx
  exact ⟨x, by rw [get?_insert_of_ne _ _ hne, hx], rfl⟩

/-- A value with the same content. -/
theorem keptBy_replace (hv : m.get? k = some v) (hc : content v' = content v) : KeptBy content m (m.insert k v') := by
  intro j x hx
  by_cases hj : j = k
  · subst hj
    obtain rfl : v = x := Option.some.inj (hv.symm.trans hx)
    exact ⟨v', get?_insert_self .., hc⟩
  · exact ⟨x, by rw [get?_insert_of_ne _ _ hj, hx], rfl⟩

/-! ### Catalogues -/

/-- A map under ids that were drawn, in which no two values have one name. -/
structure Catalogue (name : α → ν) (drawn : κ → Prop) (m : OrderedMap κ α) : Prop where
  unique : UniqueBy name m
  keys : ∀ k v, m.get? k = some v → drawn k

variable {drawn drawn' : κ → Prop}

theorem catalogue_empty : Catalogue name drawn (∅ : OrderedMap κ α) where
  unique := uniqueBy_empty
  keys _ _ hv := by cases hv

/-- More ids are drawn. -/
theorem Catalogue.later (h : Catalogue name drawn m) (hdrawn : ∀ k, drawn k → drawn' k) :
    Catalogue name drawn' m where
  unique := h.unique
  keys k v hv := hdrawn k (h.keys k v hv)

/-- A value with a name of its own under an id that is drawn now. -/
theorem Catalogue.create (content : α → γ) (v : α) (h : Catalogue name drawn m) (hdrawn : ∀ k, drawn k → drawn' k) (hfresh : ¬ drawn k)
    (hk : drawn' k) (hnew : ∀ k' v', m.get? k' = some v' → name v' ≠ name v) :
    Catalogue name drawn' (m.insert k v) ∧ KeptBy content m (m.insert k v) := by
  have hnone : m.get? k = none := by
    cases hv : m.get? k with
    | none => rfl
    | some v' => exact absurd (h.keys k v' hv) hfresh
  refine ⟨⟨h.unique.insert hnew, fun j x hx => ?_⟩, keptBy_insert content hnone v⟩
  rw [get?_insert] at hx
  split at hx
  · next hj => exact hj ▸ hk
  · exact hdrawn j (h.keys j x hx)

/-- A stored value is replaced by one of the same content. -/
theorem Catalogue.rewrite (h : Catalogue name drawn m) (hdrawn : ∀ k, drawn k → drawn' k)
    (hv : m.get? k = some v) (hname : name v' = name v) : Catalogue name drawn' (m.insert k v') where
  unique := h.unique.replace hv hname
  keys j x hx := by
    rw [get?_insert] at hx
    split at hx
    · next hj => exact hj ▸ hdrawn k (h.keys k v hv)
    · exact hdrawn j (h.keys j x hx)

/-! ### The first value of a name -/

section First

variable [DecidableEq ν] {n n' : ν}

/-- The first value of a name. -/
def firstNamed (name : α → ν) (m : OrderedMap κ α) (n : ν) : Option (κ × α) := m.findIf fun _ v => name v = n

theorem firstNamed_some (h : firstNamed name m n = some (k, v)) : m.get? k = some v ∧ name v = n := by
  obtain ⟨hget, hname⟩ := findIf_some h
  exact ⟨hget, of_decide_eq_true hname⟩

/-- The value found is replaced by one of the same name. -/
theorem firstNamed_insert_self (h : firstNamed name m n = some (k, v)) (hname : name v' = n) :
    firstNamed name (m.insert k v') n = some (k, v') :=
  findIf_insert_front (decide_eq_true hname) fun _ _ hget hp => findIf_le h hget hp

/-- A value of another name in a place where none of this name was. -/
theorem firstNamed_insert_of_ne (hold : ∀ v, m.get? k = some v → name v ≠ n) (hname : name v' ≠ n) :
    firstNamed name (m.insert k v') n = firstNamed name m n := by
  refine findIf_congr fun j x hx => ?_
  have hx : name x = n := of_decide_eq_true hx
  rw [get?_insert]
  split
  · next hj =>
    subst hj
    refine iff_of_false ?_ ?_
    · intro hnew
      cases hnew
      exact hname hx
    · exact fun hget => hold x hget hx
  · rfl

/-- The value found is replaced, seen under another name. -/
theorem firstNamed_insert_other (h : firstNamed name m n = some (k, v)) (hname : name v' = n) (hne : n' ≠ n) :
    firstNamed name (m.insert k v') n' = firstNamed name m n' := by
  obtain ⟨hget, hold⟩ := firstNamed_some h
  refine firstNamed_insert_of_ne (fun x hx => ?_) fun hn => hne (hn.symm.trans hname)
  obtain rfl := Option.some_inj.mp (hget.symm.trans hx)
  exact fun hn => hne (hn.symm.trans hold)

/-- A stored value is replaced by one of the same name and content. -/
theorem firstNamed_rewrite (name : α → ν) (content : α → γ) (hget : m.get? k = some v) (hname : name v' = name v) (hc : content v' = content v) :
    (firstNamed name (m.insert k v') n).map (fun e => content e.2) = (firstNamed name m n).map fun e => content e.2 := by
  unfold firstNamed
  rw [findIf_insert_of_same hget (by simp only [hname]), Option.map_map]
  rcases hit : m.findIf fun _ x => decide (name x = n) with _ | ⟨j, x⟩
  · rfl
  · refine congrArg some ?_
    simp only [Function.comp_apply]
    split
    · next hj =>
      have hx := (findIf_some hit).1
      rw [hj, hget] at hx
      cases hx
      exact hc
    · rfl

/-- All values of a name are erased. -/
theorem firstNamed_eraseIf_self : firstNamed name (m.eraseIf fun _ v => decide (name v = n)) n = none := by
  refine findIf_none.mpr fun j x hx => ?_
  rw [get?_eraseIf] at hx
  simpa using (Option.filter_eq_some_iff.mp hx).2

theorem firstNamed_eraseIf_of_ne (hne : n' ≠ n) :
    firstNamed name (m.eraseIf fun _ v => decide (name v = n)) n' = firstNamed name m n' := by
  refine findIf_eraseIf_of_disjoint (m := m) (p := fun _ v => decide (name v = n'))
    (q := fun _ v => decide (name v = n)) fun _ v hv => ?_
  rw [of_decide_eq_true hv]
  exact decide_eq_false hne

end First

end Lib.OrderedMap
