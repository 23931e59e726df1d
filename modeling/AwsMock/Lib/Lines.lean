import AwsMock.Lib.Split

/-!
# Delimited texts

A text is taken apart at a delimiter that the pieces do not have, from the front, from the back, or line
by line.
-/

namespace Lib

theorem append_cons_inj {d : UInt8} : ∀ {a b s t : Str}, d ∉ a → d ∉ b →
    a ++ d :: s = b ++ d :: t → a = b ∧ s = t
  | [], [], _, _, _, _, h => ⟨rfl, (List.cons.inj h).2⟩
  | [], c :: b, _, _, _, hb, h => absurd (List.mem_cons.mpr (.inl (List.cons.inj h).1)) hb
  | c :: a, [], _, _, ha, _, h => absurd (List.mem_cons.mpr (.inl (List.cons.inj h).1.symm)) ha
  | c :: a, e :: b, s, t, ha, hb, h => by
    obtain ⟨hhead, htail⟩ := List.cons.inj h
    obtain ⟨hrest, hend⟩ := append_cons_inj (fun hm => ha (List.mem_cons_of_mem _ hm))
      (fun hm => hb (List.mem_cons_of_mem _ hm)) htail
    exact ⟨by rw [hhead, hrest], hend⟩

/-- From the back. -/
theorem append_cons_inj_last {d : UInt8} {a b s t : Str} (hs : d ∉ s) (ht : d ∉ t)
    (h : a ++ d :: s = b ++ d :: t) : a = b ∧ s = t := by
  have hreverse := congrArg List.reverse h
  simp only [List.reverse_append, List.reverse_cons, List.append_assoc, List.singleton_append] at hreverse
  obtain ⟨hend, hstart⟩ := append_cons_inj (by simpa using hs) (by simpa using ht) hreverse
  exact ⟨List.reverse_injective hstart, List.reverse_injective hend⟩

/-! ### Lines -/

/-- Lines, each with a delimiter behind it. -/
def unlines (d : UInt8) (ts : List Str) : Str := ts.flatMap (· ++ [d])

@[simp] theorem unlines_nil (d : UInt8) : unlines d [] = [] := rfl

@[simp] theorem unlines_cons (d : UInt8) (t : Str) (ts : List Str) :
    unlines d (t :: ts) = t ++ d :: unlines d ts := by
  simp [unlines]

theorem unlines_injective {d : UInt8} : ∀ {ts us : List Str}, (∀ t ∈ ts, d ∉ t) → (∀ u ∈ us, d ∉ u) →
    unlines d ts = unlines d us → ts = us
  | [], [], _, _, _ => rfl
  | [], u :: us, _, _, h => by simp at h
  | t :: ts, [], _, _, h => by simp at h
  | t :: ts, u :: us, hts, hus, h => by
    rw [unlines_cons, unlines_cons] at h
    obtain ⟨hhead, htail⟩ := append_cons_inj (hts t (by simp)) (hus u (by simp)) h
    rw [hhead, unlines_injective (fun v hv => hts v (by simp [hv])) (fun v hv => hus v (by simp [hv])) htail]

/-- Without the last delimiter, the lines are joined. -/
theorem dropLast_unlines (d : UInt8) : ∀ ts : List Str, (unlines d ts).dropLast = join d ts
  | [] => rfl
  | [t] => by simp [join]
  | t :: u :: ts => by
    have hne : unlines d (u :: ts) ≠ [] := by simp
    rw [join_cons (by simp), ← dropLast_unlines d (u :: ts), unlines_cons, List.dropLast_append_cons,
      List.dropLast_cons_of_ne_nil hne]

/-- Each line brings its delimiter. -/
theorem unlines_eq_nil {d : UInt8} {ts : List Str} (h : d ∉ unlines d ts) : unlines d ts = [] := by
  cases ts with
  | nil => rfl
  | cons t ts => simp at h

/-! ### Labelled lines

Each label yields a line that starts with its key, or no line. -/

section Labelled

variable {α : Type} {d e : UInt8} {key : α → Str} {f g : α → Option Str}

/-- The line of a label. -/
def labelled (e : UInt8) (key : α → Str) (f : α → Option Str) (a : α) : Option Str :=
  (f a).map fun value => key a ++ e :: value

theorem notMem_labelled {as : List α} (he : e ≠ d) (hkey : ∀ a ∈ as, ∀ v, f a = some v → d ∉ key a)
    (hvalue : ∀ a ∈ as, ∀ v, f a = some v → d ∉ v) :
    ∀ t ∈ as.filterMap (labelled e key f), d ∉ t := by
  intro t ht hd
  obtain ⟨a, ha, hline⟩ := List.mem_filterMap.mp ht
  obtain ⟨v, hv, rfl⟩ := Option.map_eq_some_iff.mp hline
  rcases List.mem_append.mp hd with hk | hrest
  · exact hkey a ha v hv hk
  · rcases List.mem_cons.mp hrest with rfl | hin
    · exact he rfl
    · exact hvalue a ha v hv hin

/-- What depends on the key only is read back from the lines. -/
theorem labelled_get {as : List α} (hkey : ∀ a ∈ as, ∀ v, f a = some v → e ∉ key a)
    (hkey' : ∀ a ∈ as, ∀ v, g a = some v → e ∉ key a)
    (hg : ∀ a ∈ as, ∀ b ∈ as, key a = key b → g a = g b)
    (h : as.filterMap (labelled e key f) = as.filterMap (labelled e key g)) {a : α} (ha : a ∈ as)
    {v : Str} (hv : f a = some v) : g a = some v := by
  have hline : key a ++ e :: v ∈ as.filterMap (labelled e key f) :=
    List.mem_filterMap.mpr ⟨a, ha, by rw [labelled, hv]; rfl⟩
  rw [h] at hline
  obtain ⟨b, hb, hlabel⟩ := List.mem_filterMap.mp hline
  obtain ⟨w, hw, heq⟩ := Option.map_eq_some_iff.mp hlabel
  obtain ⟨hkeys, hvalues⟩ := append_cons_inj (hkey' b hb w hw) (hkey a ha v hv) heq
  rw [hg a ha b hb hkeys.symm, hw, hvalues]

theorem length_labelled_le {as : List α} (himp : ∀ a ∈ as, (f a).isSome → (g a).isSome) :
    (as.filterMap (labelled e key f)).length ≤ (as.filterMap (labelled e key g)).length := by
  induction as with
  | nil => simp
  | cons a as ih =>
    have hrest := ih fun b hb => himp b (List.mem_cons_of_mem _ hb)
    have ha := himp a (List.mem_cons_self ..)
    rcases hf : f a with _ | v
    · rcases hg : g a with _ | w <;> simp [labelled, hf, hg] at hrest ⊢ <;> omega
    · obtain ⟨w, hg⟩ := Option.isSome_iff_exists.mp (ha (by rw [hf]; rfl))
      simpa [labelled, hf, hg] using hrest

/-- Where the one has a line at every label at which the other has one, the same lines come from the
    same values. -/
theorem labelled_eq_of_imp : ∀ {as : List α}, (∀ a ∈ as, (f a).isSome → (g a).isSome) →
    as.filterMap (labelled e key f) = as.filterMap (labelled e key g) → ∀ a ∈ as, f a = g a
  | [], _, _ => fun a ha => by cases ha
  | b :: as, himp, h => by
    have hrest : ∀ a ∈ as, (f a).isSome → (g a).isSome := fun a ha => himp a (List.mem_cons_of_mem _ ha)
    have hb := himp b (List.mem_cons_self ..)
    rcases hf : f b with _ | v
    · rcases hgb : g b with _ | w
      · simp only [labelled, List.filterMap_cons, hf, hgb, Option.map_none] at h
        intro a ha
        rcases List.mem_cons.mp ha with rfl | ha
        · rw [hf, hgb]
        · exact labelled_eq_of_imp hrest h a ha
      · exfalso
        have hle : (as.filterMap (labelled e key f)).length ≤ _ := length_labelled_le hrest
        have hlen := congrArg List.length h
        simp [labelled, hf, hgb] at hlen hle
        omega
    · obtain ⟨w, hgb⟩ := Option.isSome_iff_exists.mp (hb (by rw [hf]; rfl))
      simp only [labelled, List.filterMap_cons, hf, hgb, Option.map_some] at h
      obtain ⟨hhead, htail⟩ := List.cons.inj h
      have hvalue := (List.cons.inj (List.append_cancel_left hhead)).2
      intro a ha
      rcases List.mem_cons.mp ha with rfl | ha
      · rw [hf, hgb, hvalue]
      · exact labelled_eq_of_imp hrest htail a ha

end Labelled

end Lib
