import Mathlib.Data.List.Pairwise
import Mathlib.Data.List.Lex
import Mathlib.Data.List.Perm.Basic
import Mathlib.Order.Lattice

/-!
# Ordered maps

A map kept as the list of its entries in ascending key order: the order in which a `for` loop
visits the entries of a C++ `std::map`. The strict order of the keys is a field, so a map with a
repeated or misplaced key cannot be built. A loop that visits every entry once and assigns only
to the key it is visiting (`assignEach`) is a pointwise map (`assignEach_eq_mapVal`).
-/

namespace Lib

universe u v w

/-- Entries in strictly ascending key order. -/
structure OrderedMap (κ : Type u) (α : Type v) [LinearOrder κ] where
  entries : List (κ × α)
  sorted : entries.Pairwise fun a b => a.1 < b.1

namespace OrderedMap

variable {κ : Type u} {α : Type v} {β : Type w} [LinearOrder κ]

theorem entries_injective : Function.Injective (entries : OrderedMap κ α → List (κ × α))
  | ⟨_, _⟩, ⟨_, _⟩, rfl => rfl

instance [DecidableEq α] : DecidableEq (OrderedMap κ α) := fun a b =>
  decidable_of_iff (a.entries = b.entries) entries_injective.eq_iff

/-- The map without entries. -/
instance : EmptyCollection (OrderedMap κ α) := ⟨⟨[], .nil⟩⟩

instance : Inhabited (OrderedMap κ α) := ⟨∅⟩

/-- The value stored under `k`. -/
def get? (m : OrderedMap κ α) (k : κ) : Option α := (m.entries.find? (·.1 = k)).map Prod.snd

/-- The first entry, in key order, that satisfies `p`. -/
def findIf (m : OrderedMap κ α) (p : κ → α → Bool) : Option (κ × α) :=
  m.entries.find? fun e => p e.1 e.2

/-- The stored values in key order. -/
def values (m : OrderedMap κ α) : List α := m.entries.map Prod.snd

def size (m : OrderedMap κ α) : Nat := m.entries.length

/-- Put `v` at its place in an ascending list of entries, replacing the entry of an equal key. -/
def insertEntry (k : κ) (v : α) : List (κ × α) → List (κ × α)
  | [] => [(k, v)]
  | e :: es =>
    if k < e.1 then (k, v) :: e :: es
    else if e.1 < k then e :: insertEntry k v es
    else (k, v) :: es

theorem mem_insertEntry {k : κ} {v : α} {x : κ × α} : ∀ {es : List (κ × α)},
    x ∈ insertEntry k v es → x = (k, v) ∨ x ∈ es
  | [], h => by simpa [insertEntry] using h
  | e :: es, h => by
    unfold insertEntry at h
    split at h
    · simpa using h
    · split at h
      · rcases List.mem_cons.mp h with rfl | h
        · exact .inr (by simp)
        · rcases mem_insertEntry h with rfl | h
          · exact .inl rfl
          · exact .inr (by simp [h])
      · rcases List.mem_cons.mp h with rfl | h
        · exact .inl rfl
        · exact .inr (by simp [h])

theorem insertEntry_sorted (k : κ) (v : α) : ∀ {es : List (κ × α)},
    es.Pairwise (fun a b => a.1 < b.1) → (insertEntry k v es).Pairwise fun a b => a.1 < b.1
  | [], _ => by simp [insertEntry]
  | e :: es, h => by
    obtain ⟨he, hes⟩ := List.pairwise_cons.mp h
    unfold insertEntry
    split
    · next hlt =>
      refine List.pairwise_cons.mpr ⟨fun x hx => ?_, h⟩
      rcases List.mem_cons.mp hx with rfl | hx
      · exact hlt
      · exact hlt.trans (he x hx)
    · split
      · next hlt =>
        refine List.pairwise_cons.mpr ⟨fun x hx => ?_, insertEntry_sorted k v hes⟩
        rcases mem_insertEntry hx with rfl | hx
        · exact hlt
        · exact he x hx
      · next h1 h2 =>
        have hk : k = e.1 := le_antisymm (not_lt.mp h2) (not_lt.mp h1)
        exact List.pairwise_cons.mpr ⟨fun x hx => hk ▸ he x hx, hes⟩

/-- `map[k] = v`. -/
def insert (m : OrderedMap κ α) (k : κ) (v : α) : OrderedMap κ α :=
  ⟨insertEntry k v m.entries, insertEntry_sorted k v m.sorted⟩

/-- `erase_if(map, p)`. -/
def eraseIf (m : OrderedMap κ α) (p : κ → α → Bool) : OrderedMap κ α :=
  ⟨m.entries.filter fun e => !p e.1 e.2, m.sorted.filter _⟩

/-- Rewrite every value in place. -/
def mapVal (m : OrderedMap κ α) (f : κ → α → β) : OrderedMap κ β :=
  ⟨m.entries.map fun e => (e.1, f e.1 e.2), List.pairwise_map.mpr m.sorted⟩

/-- `for (auto e : map) if (c(e)) map[e.first] = f(e)`: the loop body reads a copy of the entry and
    assigns to the key it is visiting, so no entry is added or moved while the loop runs. -/
def assignEach (m : OrderedMap κ α) (c : κ → α → Bool) (f : κ → α → α) : OrderedMap κ α :=
  m.entries.foldl (fun s e => if c e.1 e.2 then s.insert e.1 (f e.1 e.2) else s) m

/-- Build a map by inserting a list of entries from left to right. -/
def ofList (es : List (κ × α)) : OrderedMap κ α := es.foldl (fun m e => m.insert e.1 e.2) ∅

/-! ### Lookup -/

theorem find?_key_eq_some {es : List (κ × α)} (hs : es.Pairwise fun a b => a.1 < b.1) {k : κ}
    {e : κ × α} : es.find? (·.1 = k) = some e ↔ e ∈ es ∧ e.1 = k := by
  constructor
  · intro h
    exact ⟨List.mem_of_find?_eq_some h, by simpa using List.find?_some h⟩
  · rintro ⟨he, rfl⟩
    induction es with
    | nil => simp at he
    | cons x xs ih =>
      obtain ⟨hx, hxs⟩ := List.pairwise_cons.mp hs
      rcases List.mem_cons.mp he with rfl | he'
      · simp
      · have hne : x.1 ≠ e.1 := (hx e he').ne
        rw [List.find?_cons_of_neg (by simpa using hne)]
        exact ih hxs he'

theorem get?_eq_some {m : OrderedMap κ α} {k : κ} {v : α} :
    m.get? k = some v ↔ (k, v) ∈ m.entries := by
  unfold get?
  constructor
  · intro h
    obtain ⟨e, he, rfl⟩ := Option.map_eq_some_iff.mp h
    obtain ⟨hm, rfl⟩ := (find?_key_eq_some m.sorted).mp he
    exact hm
  · intro h
    rw [(find?_key_eq_some m.sorted).mpr ⟨h, rfl⟩]
    rfl

theorem get?_eq_none {m : OrderedMap κ α} {k : κ} :
    m.get? k = none ↔ ∀ v, (k, v) ∉ m.entries := by
  rw [Option.eq_none_iff_forall_not_mem]
  exact forall_congr' fun v => not_congr get?_eq_some

@[simp] theorem get?_empty (k : κ) : (∅ : OrderedMap κ α).get? k = none := rfl

theorem entries_ext : ∀ {xs ys : List (κ × α)}, xs.Pairwise (fun a b => a.1 < b.1) →
    ys.Pairwise (fun a b => a.1 < b.1) → (∀ e, e ∈ xs ↔ e ∈ ys) → xs = ys := by
  intro xs ys hx hy h
  refine List.Perm.eq_of_pairwise (fun a b _ _ hab hba => absurd hab hba.asymm) hx hy ?_
  have nodup : ∀ {l : List (κ × α)}, l.Pairwise (fun a b => a.1 < b.1) → l.Nodup := fun hl =>
    hl.imp fun hlt heq => (heq ▸ hlt).false
  exact (List.perm_ext_iff_of_nodup (nodup hx) (nodup hy)).mpr h

/-- Two maps with the same lookups are equal. -/
theorem ext_get? {a b : OrderedMap κ α} (h : ∀ k, a.get? k = b.get? k) : a = b := by
  refine entries_injective (entries_ext a.sorted b.sorted fun ⟨k, v⟩ => ?_)
  rw [← get?_eq_some, ← get?_eq_some, h]

theorem mem_insertEntry_iff {k : κ} {v : α} {x : κ × α} : ∀ {es : List (κ × α)},
    es.Pairwise (fun a b => a.1 < b.1) →
    (x ∈ insertEntry k v es ↔ x = (k, v) ∨ x ∈ es ∧ x.1 ≠ k)
  | [], _ => by simp [insertEntry]
  | e :: es, h => by
    obtain ⟨he, hes⟩ := List.pairwise_cons.mp h
    have above : ∀ {a : κ}, a ≤ e.1 → ∀ y ∈ es, y.1 ≠ a := fun ha y hy =>
      (lt_of_le_of_lt ha (he y hy)).ne'
    unfold insertEntry
    split
    · next hlt =>
      have hne : ∀ y ∈ e :: es, y.1 ≠ k := fun y hy => by
        rcases List.mem_cons.mp hy with rfl | hy
        · exact hlt.ne'
        · exact above hlt.le y hy
      simp only [List.mem_cons] at hne ⊢
      exact or_congr_right ⟨fun hx => ⟨hx, hne x hx⟩, And.left⟩
    · split
      · next hlt =>
        rw [List.mem_cons, mem_insertEntry_iff hes, List.mem_cons]
        constructor
        · rintro (rfl | rfl | ⟨hx, hk⟩)
          · exact .inr ⟨.inl rfl, hlt.ne⟩
          · exact .inl rfl
          · exact .inr ⟨.inr hx, hk⟩
        · rintro (rfl | ⟨rfl | hx, hk⟩)
          · exact .inr (.inl rfl)
          · exact .inl rfl
          · exact .inr (.inr ⟨hx, hk⟩)
      · next h1 h2 =>
        have hk : k = e.1 := le_antisymm (not_lt.mp h2) (not_lt.mp h1)
        subst hk
        simp only [List.mem_cons]
        constructor
        · rintro (rfl | hx)
          · exact .inl rfl
          · exact .inr ⟨.inr hx, above le_rfl x hx⟩
        · rintro (rfl | ⟨rfl | hx, hk⟩)
          · exact .inl rfl
          · exact absurd rfl hk
          · exact .inr hx

theorem get?_insert (m : OrderedMap κ α) (k : κ) (v : α) (k' : κ) :
    (m.insert k v).get? k' = if k' = k then some v else m.get? k' := by
  refine Option.ext fun x => ?_
  rw [get?_eq_some]
  change (k', x) ∈ insertEntry k v m.entries ↔ _
  rw [mem_insertEntry_iff m.sorted]
  split
  · next h => subst h; simp [eq_comm]
  · next h => simp [h, get?_eq_some]

@[simp] theorem get?_insert_self (m : OrderedMap κ α) (k : κ) (v : α) :
    (m.insert k v).get? k = some v := by simp [get?_insert]

theorem get?_insert_of_ne (m : OrderedMap κ α) {k k' : κ} (v : α) (h : k' ≠ k) :
    (m.insert k v).get? k' = m.get? k' := by simp [get?_insert, h]

@[simp] theorem get?_eraseIf (m : OrderedMap κ α) (p : κ → α → Bool) (k : κ) :
    (m.eraseIf p).get? k = (m.get? k).filter fun v => !p k v := by
  refine Option.ext fun x => ?_
  rw [get?_eq_some, Option.filter_eq_some_iff, get?_eq_some]
  simp [eraseIf]

/-- Erasing one key. -/
theorem get?_eraseIf_key (m : OrderedMap κ α) (k k' : κ) [DecidablePred (· = k)] :
    (m.eraseIf fun key _ => key = k).get? k' = if k' = k then none else m.get? k' := by
  rw [get?_eraseIf]
  by_cases hk : k' = k
  · simp [hk]
  · simp only [hk, decide_false, Bool.not_false, if_false]
    cases m.get? k' <;> rfl

@[simp] theorem get?_mapVal (m : OrderedMap κ α) (f : κ → α → β) (k : κ) :
    (m.mapVal f).get? k = (m.get? k).map (f k) := by
  refine Option.ext fun x => ?_
  rw [get?_eq_some, Option.map_eq_some_iff]
  simp only [mapVal, List.mem_map, Prod.mk.injEq, Prod.exists]
  constructor
  · rintro ⟨k', v, hm, rfl, rfl⟩
    exact ⟨v, get?_eq_some.mpr hm, rfl⟩
  · rintro ⟨v, hv, rfl⟩
    exact ⟨k, v, get?_eq_some.mp hv, rfl, rfl⟩

@[simp] theorem entries_empty : (∅ : OrderedMap κ α).entries = [] := rfl

@[simp] theorem entries_mapVal (m : OrderedMap κ α) (f : κ → α → β) :
    (m.mapVal f).entries = m.entries.map fun e => (e.1, f e.1 e.2) := rfl

@[simp] theorem entries_eraseIf (m : OrderedMap κ α) (p : κ → α → Bool) :
    (m.eraseIf p).entries = m.entries.filter fun e => !p e.1 e.2 := rfl

/-- A key that is already bound keeps its value when the same value is assigned again. -/
theorem insert_get?_self {m : OrderedMap κ α} {k : κ} {v : α} (h : m.get? k = some v) :
    m.insert k v = m :=
  ext_get? fun k' => by
    rw [get?_insert]
    split
    · next hk => rw [hk, h]
    · rfl

theorem keys_nodup (m : OrderedMap κ α) : (m.entries.map Prod.fst).Nodup :=
  List.pairwise_map.mpr (m.sorted.imp ne_of_lt)

/-- Inserting a fresh key adds its entry and changes no other. -/
theorem entries_insert_perm {m : OrderedMap κ α} {k : κ} {v : α} (h : m.get? k = none) :
    (m.insert k v).entries.Perm ((k, v) :: m.entries) := by
  have hfresh := get?_eq_none.mp h
  have hne : ∀ e ∈ m.entries, e.1 ≠ k := fun e he hk => hfresh e.2 (hk ▸ he)
  have nodup : m.entries.Nodup := m.sorted.imp fun hlt heq => (heq ▸ hlt).false
  refine (List.perm_ext_iff_of_nodup ?_ (List.nodup_cons.mpr ⟨hfresh v, nodup⟩)).mpr fun x => ?_
  · exact (m.insert k v).sorted.imp fun hlt heq => (heq ▸ hlt).false
  · change x ∈ insertEntry k v m.entries ↔ _
    rw [mem_insertEntry_iff m.sorted, List.mem_cons]
    exact or_congr_right ⟨And.left, fun hx => ⟨hx, hne x hx⟩⟩

/-! ### First match -/

theorem findIf_some {m : OrderedMap κ α} {p : κ → α → Bool} {e : κ × α} (h : m.findIf p = some e) :
    m.get? e.1 = some e.2 ∧ p e.1 e.2 = true := by
  unfold findIf at h
  exact ⟨get?_eq_some.mpr (List.mem_of_find?_eq_some h), by simpa using List.find?_some h⟩

theorem findIf_none {m : OrderedMap κ α} {p : κ → α → Bool} :
    m.findIf p = none ↔ ∀ k v, m.get? k = some v → p k v = false := by
  unfold findIf
  rw [List.find?_eq_none]
  constructor
  · intro h k v hv
    simpa using h (k, v) (get?_eq_some.mp hv)
  · intro h e he
    simpa using h e.1 e.2 (get?_eq_some.mpr he)

/-- When exactly one entry satisfies the predicate, it is the one found. -/
theorem findIf_unique {m : OrderedMap κ α} {p : κ → α → Bool} {k : κ} {v : α}
    (hv : m.get? k = some v) (hp : p k v = true)
    (huniq : ∀ k' v', m.get? k' = some v' → p k' v' = true → k' = k) :
    m.findIf p = some (k, v) := by
  cases h : m.findIf p with
  | none => simp [findIf_none.mp h k v hv] at hp
  | some e =>
    obtain ⟨he, hpe⟩ := findIf_some h
    have hk := huniq e.1 e.2 he hpe
    rw [hk, hv] at he
    exact congrArg some (Prod.ext hk (Option.some.inj he).symm)

/-- Looking an entry up by its key alone. -/
theorem findIf_key {m : OrderedMap κ α} {k : κ} {v : α} [DecidablePred (· = k)]
    (h : m.get? k = some v) : (m.findIf fun key _ => key = k) = some (k, v) :=
  findIf_unique h (by simp) fun _ _ _ hk => by simpa using hk

theorem findIf_isSome {m : OrderedMap κ α} {p : κ → α → Bool} :
    (m.findIf p).isSome ↔ ∃ k v, m.get? k = some v ∧ p k v = true := by
  rw [Option.isSome_iff_ne_none, Ne, findIf_none]
  simp only [not_forall, Bool.not_eq_false, exists_prop]

/-- An entry that was just stored under its key gets another value. -/
@[simp] theorem insert_insert (m : OrderedMap κ α) (k : κ) (v v' : α) :
    (m.insert k v).insert k v' = m.insert k v' := by
  refine ext_get? fun k' => ?_
  by_cases hk : k' = k <;> simp [get?_insert, hk]

/-! ### Erasing -/

theorem eraseIf_insert_of_neg (m : OrderedMap κ α) {p : κ → α → Bool} {k : κ} {v : α}
    (h : p k v = false) : (m.insert k v).eraseIf p = (m.eraseIf p).insert k v := by
  refine ext_get? fun k' => ?_
  rw [get?_eraseIf, get?_insert, get?_insert, get?_eraseIf]
  split
  · next hk => simp [Option.filter, hk, h]
  · rfl

/-- An entry that takes the place of an erased one is erased itself. -/
theorem eraseIf_insert_of_pos {m : OrderedMap κ α} {p : κ → α → Bool} {k : κ} {v : α}
    (h : p k v = true) (hold : ∀ v', m.get? k = some v' → p k v' = true) :
    (m.insert k v).eraseIf p = m.eraseIf p := by
  refine ext_get? fun k' => ?_
  rw [get?_eraseIf, get?_insert, get?_eraseIf]
  split
  · next hk =>
    subst hk
    cases hv : m.get? k' with
    | none => simp [Option.filter, h]
    | some v' => simp [Option.filter, h, hold v' hv]
  · rfl

theorem eraseIf_comm (m : OrderedMap κ α) (p q : κ → α → Bool) :
    (m.eraseIf p).eraseIf q = (m.eraseIf q).eraseIf p := by
  refine ext_get? fun k => ?_
  simp only [get?_eraseIf, Option.filter_filter, Bool.and_comm]

/-- Erasing more at once. -/
theorem eraseIf_eraseIf_of_imp (m : OrderedMap κ α) {p q : κ → α → Bool}
    (h : ∀ k v, m.get? k = some v → p k v = true → q k v = true) :
    (m.eraseIf p).eraseIf q = m.eraseIf q := by
  refine ext_get? fun k => ?_
  rw [get?_eraseIf, get?_eraseIf, get?_eraseIf]
  cases hv : m.get? k with
  | none => rfl
  | some v =>
    have := h k v hv
    cases hp : p k v <;> cases hq : q k v <;> simp_all [Option.filter]

/-- The first match is still the first when it is not erased. -/
theorem findIf_eraseIf {m : OrderedMap κ α} {p q : κ → α → Bool}
    (h : ∀ e, m.findIf p = some e → q e.1 e.2 = false) : (m.eraseIf q).findIf p = m.findIf p := by
  unfold findIf at h ⊢
  rw [entries_eraseIf, List.find?_filter]
  generalize m.entries = es at h
  induction es with
  | nil => rfl
  | cons e es ih =>
    cases hp : p e.1 e.2 with
    | true =>
      have hq : q e.1 e.2 = false := h e (List.find?_cons_of_pos hp)
      rw [List.find?_cons_of_pos (by simp [hp, hq]), List.find?_cons_of_pos (by simpa using hp)]
    | false =>
      have hnot : ¬ p e.1 e.2 = true := by simp [hp]
      rw [List.find?_cons_of_neg (by simp [hp]), List.find?_cons_of_neg (by simpa using hnot)]
      exact ih fun x hx => h x (by rw [List.find?_cons_of_neg (by simpa using hnot)]; exact hx)

/-- What is found is not erased when the predicates exclude each other. -/
theorem findIf_eraseIf_of_disjoint {m : OrderedMap κ α} {p q : κ → α → Bool}
    (h : ∀ k v, p k v = true → q k v = false) : (m.eraseIf q).findIf p = m.findIf p :=
  findIf_eraseIf fun _ he => h _ _ (findIf_some he).2

/-! ### Rewriting every value -/

theorem eraseIf_mapVal (m : OrderedMap κ α) {f : κ → α → α} {p : κ → α → Bool}
    (h : ∀ k v, p k (f k v) = p k v) : (m.mapVal f).eraseIf p = (m.eraseIf p).mapVal f := by
  refine ext_get? fun k => ?_
  rw [get?_eraseIf, get?_mapVal, get?_mapVal, get?_eraseIf]
  cases m.get? k with
  | none => rfl
  | some v => cases hp : p k v <;> simp [Option.filter, h, hp]

/-- Rewriting only what is erased afterwards. -/
theorem eraseIf_mapVal_of_erased (m : OrderedMap κ α) {f : κ → α → α} {p : κ → α → Bool}
    (h : ∀ k v, m.get? k = some v → f k v = v ∨ p k v = true ∧ p k (f k v) = true) :
    (m.mapVal f).eraseIf p = m.eraseIf p := by
  refine ext_get? fun k => ?_
  rw [get?_eraseIf, get?_mapVal, get?_eraseIf]
  cases hv : m.get? k with
  | none => rfl
  | some v =>
    rcases h k v hv with hf | ⟨hp, hp'⟩
    · rw [Option.map_some, hf]
    · simp [Option.filter, hp, hp']

theorem mapVal_insert (m : OrderedMap κ α) (f : α → β) (k : κ) (v : α) :
    (m.insert k v).mapVal (fun _ => f) = (m.mapVal fun _ => f).insert k (f v) := by
  refine ext_get? fun k' => ?_
  simp only [get?_mapVal, get?_insert]
  split <;> rfl

theorem mapVal_eraseIf (m : OrderedMap κ α) {f : α → β} {p : κ → α → Bool} {q : κ → β → Bool}
    (h : ∀ k v, q k (f v) = p k v) :
    (m.eraseIf p).mapVal (fun _ => f) = (m.mapVal fun _ => f).eraseIf q := by
  refine ext_get? fun k => ?_
  rw [get?_mapVal, get?_eraseIf, get?_eraseIf, get?_mapVal]
  cases m.get? k with
  | none => rfl
  | some v => cases hp : p k v <;> simp [Option.filter, h, hp]

/-- A predicate that only reads what `f` keeps finds the same entry. -/
theorem findIf_mapVal (m : OrderedMap κ α) {f : α → β} {p : κ → α → Bool} {q : κ → β → Bool}
    (h : ∀ k v, q k (f v) = p k v) :
    (m.mapVal fun _ => f).findIf q = (m.findIf p).map fun e => (e.1, f e.2) := by
  unfold findIf
  rw [entries_mapVal, List.find?_map]
  exact congrArg (fun p => (m.entries.find? p).map _) (funext fun e => h e.1 e.2)

/-- Maps whose values have the same image under `f`, searched by what `f` keeps. -/
theorem findIf_of_mapVal_eq {m m' : OrderedMap κ α} {f : α → β} {p : κ → α → Bool} {q : κ → β → Bool}
    (h : (m.mapVal fun _ => f) = m'.mapVal fun _ => f) (hq : ∀ k v, q k (f v) = p k v) :
    (m.findIf p).map (fun e => (e.1, f e.2)) = (m'.findIf p).map fun e => (e.1, f e.2) := by
  rw [← findIf_mapVal m hq, ← findIf_mapVal m' hq, h]

/-- A value with the same image takes the place of another. -/
theorem mapVal_insert_of_eq {m : OrderedMap κ α} {f : α → β} {k : κ} {v v' : α} (hget : m.get? k = some v)
    (hf : f v' = f v) : ((m.insert k v').mapVal fun _ => f) = m.mapVal fun _ => f := by
  refine ext_get? fun k' => ?_
  rw [mapVal_insert, get?_insert, get?_mapVal]
  split
  · next hk => rw [hk, hget, hf, Option.map_some]
  · rfl

/-- Assigning to a bound key rewrites its entry. -/
theorem insert_eq_mapVal {m : OrderedMap κ α} {k : κ} {v : α} (hv : m.get? k = some v) (v' : α) :
    m.insert k v' = m.mapVal fun key old => if key = k then v' else old := by
  refine ext_get? fun key => ?_
  rw [get?_insert, get?_mapVal]
  by_cases hk : key = k
  · simp [hk, hv]
  · simp [hk]

/-- A predicate that does not tell the new value from the old one finds the same entry. -/
theorem findIf_insert_of_same {m : OrderedMap κ α} {p : κ → α → Bool} {k : κ} {v v' : α}
    (hv : m.get? k = some v) (hp : p k v' = p k v) :
    (m.insert k v').findIf p = (m.findIf p).map fun e => if e.1 = k then (k, v') else e := by
  unfold findIf
  rw [insert_eq_mapVal hv, entries_mapVal, List.find?_map]
  have hsame : ∀ e ∈ m.entries, p e.1 (if e.1 = k then v' else e.2) = p e.1 e.2 := by
    intro e he
    split
    · next hk =>
      have hval : m.get? e.1 = some e.2 := get?_eq_some.mpr he
      rw [hk, hv, Option.some.injEq] at hval
      rw [hk, hp, hval]
    · rfl
  have hfind : m.entries.find? ((fun e => p e.1 e.2) ∘ fun e => (e.1, if e.1 = k then v' else e.2)) =
      m.entries.find? fun e => p e.1 e.2 := by
    generalize m.entries = es at hsame
    induction es with
    | nil => rfl
    | cons e es ih =>
      rw [List.find?_cons, List.find?_cons, Function.comp_apply, hsame e (by simp),
        ih fun x hx => hsame x (by simp [hx])]
  rw [hfind]
  refine congrArg (fun f => Option.map f _) (funext fun e => ?_)
  by_cases hk : e.1 = k
  · simp [hk]
  · simp [hk]

/-- No match comes before the one found. -/
theorem findIf_le {m : OrderedMap κ α} {p : κ → α → Bool} {e : κ × α} {k : κ} {v : α}
    (h : m.findIf p = some e) (hget : m.get? k = some v) (hp : p k v = true) : e.1 ≤ k := by
  obtain ⟨-, before, after, hsplit, hbefore⟩ := List.find?_eq_some_iff_append.mp h
  have hsorted := m.sorted
  have hmem := get?_eq_some.mp hget
  rw [hsplit] at hsorted hmem
  rcases List.mem_append.mp hmem with hmem | hmem
  · simpa [hp] using hbefore _ hmem
  · rcases List.mem_cons.mp hmem with rfl | hmem
    · exact le_rfl
    · exact ((List.pairwise_cons.mp (List.pairwise_append.mp hsorted).2.1).1 _ hmem).le

/-- What is found is the match with the smallest key. -/
theorem findIf_eq_some {m : OrderedMap κ α} {p : κ → α → Bool} {k : κ} {v : α} :
    m.findIf p = some (k, v) ↔ m.get? k = some v ∧ p k v = true ∧
      ∀ k' v', m.get? k' = some v' → p k' v' = true → k ≤ k' := by
  constructor
  · intro h
    exact ⟨(findIf_some h).1, (findIf_some h).2, fun k' v' hget hp => findIf_le h hget hp⟩
  · rintro ⟨hget, hp, hfirst⟩
    obtain ⟨⟨k', v'⟩, h⟩ := Option.isSome_iff_exists.mp (findIf_isSome.mpr ⟨k, v, hget, hp⟩)
    obtain ⟨hget', hp'⟩ := findIf_some h
    obtain rfl := le_antisymm (hfirst k' v' hget' hp') (findIf_le h hget hp)
    rw [hget, Option.some.injEq] at hget'
    rw [h, hget']

/-- A match in front of all others. -/
theorem findIf_insert_front {m : OrderedMap κ α} {p : κ → α → Bool} {k : κ} {v : α} (hp : p k v = true)
    (hk : ∀ k' v', m.get? k' = some v' → p k' v' = true → k ≤ k') :
    (m.insert k v).findIf p = some (k, v) := by
  refine findIf_eq_some.mpr ⟨get?_insert_self _ _ _, hp, fun k' v' hget hp' => ?_⟩
  by_cases hkey : k' = k
  · rw [hkey]
  · rw [get?_insert_of_ne _ _ hkey] at hget
    exact hk k' v' hget hp'

/-- An entry behind the first match. -/
theorem findIf_insert_behind {m : OrderedMap κ α} {p : κ → α → Bool} {e : κ × α} {k : κ} {v : α}
    (h : m.findIf p = some e) (hk : e.1 < k) : (m.insert k v).findIf p = some e := by
  obtain ⟨hget, hp, hfirst⟩ := findIf_eq_some.mp h
  refine findIf_eq_some.mpr ⟨?_, hp, fun k' v' hget' hp' => ?_⟩
  · rw [get?_insert_of_ne _ _ hk.ne]
    exact hget
  · by_cases hkey : k' = k
    · rw [hkey]
      exact hk.le
    · rw [get?_insert_of_ne _ _ hkey] at hget'
      exact hfirst k' v' hget' hp'

/-- Only the matches count. -/
theorem findIf_congr {m m' : OrderedMap κ α} {p : κ → α → Bool}
    (hget : ∀ k v, p k v = true → (m.get? k = some v ↔ m'.get? k = some v)) : m.findIf p = m'.findIf p := by
  refine Option.ext fun e => ?_
  obtain ⟨k', v'⟩ := e
  rw [findIf_eq_some, findIf_eq_some]
  constructor
  · rintro ⟨hk, hp', hfirst⟩
    exact ⟨(hget k' v' hp').mp hk, hp', fun k'' v'' h hp'' => hfirst k'' v'' ((hget k'' v'' hp'').mpr h) hp''⟩
  · rintro ⟨hk, hp', hfirst⟩
    exact ⟨(hget k' v' hp').mpr hk, hp', fun k'' v'' h hp'' => hfirst k'' v'' ((hget k'' v'' hp'').mp h) hp''⟩

/-- A new entry that is no match. -/
theorem findIf_insert_of_not {m : OrderedMap κ α} {p : κ → α → Bool} {k : κ} {v : α}
    (hfresh : m.get? k = none) (hp : p k v = false) : (m.insert k v).findIf p = m.findIf p := by
  refine findIf_congr fun k' v' hp' => ?_
  by_cases hkey : k' = k
  · subst hkey
    rw [get?_insert_self, hfresh]
    refine iff_of_false (fun hv => ?_) nofun
    rw [Option.some.injEq] at hv
    rw [hv, hp'] at hp
    cases hp
  · rw [get?_insert_of_ne _ _ hkey]

/-- A key that never matches. -/
theorem findIf_insert_of_key {m : OrderedMap κ α} {p : κ → α → Bool} {k : κ} (v : α)
    (hp : ∀ w, p k w = false) : (m.insert k v).findIf p = m.findIf p := by
  refine findIf_congr fun k' v' hp' => ?_
  by_cases hkey : k' = k
  · subst hkey
    simp [hp] at hp'
  · rw [get?_insert_of_ne _ _ hkey]

/-! ### Values -/

theorem mem_values {m : OrderedMap κ α} {v : α} : v ∈ m.values ↔ ∃ k, m.get? k = some v := by
  unfold values
  rw [List.mem_map]
  constructor
  · rintro ⟨e, he, rfl⟩
    exact ⟨e.1, get?_eq_some.mpr he⟩
  · rintro ⟨k, hk⟩
    exact ⟨(k, v), get?_eq_some.mp hk, rfl⟩

theorem values_insert_perm {m : OrderedMap κ α} {k : κ} (v : α) (h : m.get? k = none) :
    (m.insert k v).values.Perm (v :: m.values) :=
  (entries_insert_perm h).map Prod.snd

/-- The entry of a key stands among the others, and so does the one that replaces it. -/
theorem values_replace_perm {m : OrderedMap κ α} {k : κ} {v : α} (hv : m.get? k = some v) :
    ∃ rest, m.values.Perm (v :: rest) ∧ ∀ v', (m.insert k v').values.Perm (v' :: rest) := by
  let others := m.eraseIf fun key _ => key = k
  have hnone : others.get? k = none := by
    rw [get?_eraseIf, hv]
    simp [Option.filter]
  have hinsert : ∀ v', m.insert k v' = others.insert k v' := by
    intro v'
    refine ext_get? fun k' => ?_
    rw [get?_insert, get?_insert, get?_eraseIf]
    split
    · rfl
    · next hk => cases m.get? k' <;> simp [Option.filter, hk]
  refine ⟨others.values, ?_, fun v' => hinsert v' ▸ values_insert_perm v' hnone⟩
  have hself := values_insert_perm v hnone
  rwa [← hinsert v, insert_get?_self hv] at hself

theorem map_values_insert_of_same {m : OrderedMap κ α} {f : α → β} {k : κ} {v v' : α} (hv : m.get? k = some v)
    (hf : f v' = f v) : (m.insert k v').values.map f = m.values.map f := by
  have hentries := congrArg entries (mapVal_insert_of_eq hv hf)
  simpa [values, Function.comp_def] using congrArg (List.map Prod.snd) hentries

theorem map_values_eraseIf {m : OrderedMap κ α} {f : α → β} {p : α → Bool} {q : β → Bool}
    (h : ∀ v ∈ m.values, q (f v) = p v) :
    (m.eraseIf fun _ v => p v).values.map f = (m.values.map f).filter fun b => !q b := by
  rw [values, values, entries_eraseIf, List.map_map, List.map_map, List.filter_map]
  refine congrArg (List.map _) (List.filter_congr fun e he => ?_)
  rw [Function.comp_apply, Function.comp_apply, h _ (List.mem_map_of_mem he)]

theorem findIf_values_isSome {m : OrderedMap κ α} {f : α → β} {p : α → Bool} {q : β → Bool}
    (h : ∀ v ∈ m.values, q (f v) = p v) : (m.findIf fun _ v => p v).isSome = (m.values.map f).any q := by
  rw [Bool.eq_iff_iff, findIf_isSome, List.any_eq_true]
  constructor
  · rintro ⟨k, v, hv, hp⟩
    have hmem := mem_values.mpr ⟨k, hv⟩
    exact ⟨f v, List.mem_map_of_mem hmem, (h v hmem).trans hp⟩
  · rintro ⟨b, hb, hq⟩
    obtain ⟨v, hmem, rfl⟩ := List.mem_map.mp hb
    obtain ⟨k, hv⟩ := mem_values.mp hmem
    exact ⟨k, v, hv, (h v hmem).symm.trans hq⟩

/-! ### Loops over the entries -/

theorem foldl_assign_get? (c : κ → α → Bool) (f : κ → α → α) : ∀ (es : List (κ × α)),
    es.Pairwise (fun a b => a.1 < b.1) → ∀ (s : OrderedMap κ α),
    (∀ e ∈ es, s.get? e.1 = some e.2) → ∀ k,
    (es.foldl (fun s e => if c e.1 e.2 then s.insert e.1 (f e.1 e.2) else s) s).get? k =
      if k ∈ es.map Prod.fst then (s.get? k).map fun v => if c k v then f k v else v
      else s.get? k
  | [], _, s, _, k => by simp
  | e :: es, hs, s, hmem, k => by
    obtain ⟨he, hes⟩ := List.pairwise_cons.mp hs
    have hfirst : s.get? e.1 = some e.2 := hmem e (by simp)
    have hother : ∀ x ∈ es, x.1 ≠ e.1 := fun x hx => (he x hx).ne'
    -- the entries still to be visited are not touched by this iteration
    have hrest : ∀ x ∈ es,
        (if c e.1 e.2 then s.insert e.1 (f e.1 e.2) else s).get? x.1 = some x.2 := by
      intro x hx
      have hx' := hmem x (by simp [hx])
      split
      · rw [get?_insert_of_ne s _ (hother x hx), hx']
      · exact hx'
    rw [List.foldl_cons, foldl_assign_get? c f es hes _ hrest]
    by_cases hk : k = e.1
    · subst hk
      have hno : e.1 ∉ es.map Prod.fst := by
        rintro h
        obtain ⟨x, hx, hxe⟩ := List.mem_map.mp h
        exact hother x hx hxe
      have hin : e.1 ∈ (e :: es).map Prod.fst := by simp
      rw [if_neg hno, if_pos hin, hfirst, Option.map_some]
      split
      · rw [get?_insert_self]
      · exact hfirst
    · have hsame : (if c e.1 e.2 then s.insert e.1 (f e.1 e.2) else s).get? k = s.get? k := by
        split
        · exact get?_insert_of_ne s _ hk
        · rfl
      rw [hsame]
      simp only [List.map_cons, List.mem_cons, hk, false_or]

/-- Assigning to each visited key while iterating is the same as rewriting every value in place. -/
theorem assignEach_eq_mapVal (m : OrderedMap κ α) (c : κ → α → Bool) (f : κ → α → α) :
    m.assignEach c f = m.mapVal fun k v => if c k v then f k v else v := by
  refine ext_get? fun k => ?_
  unfold assignEach
  rw [foldl_assign_get? c f m.entries m.sorted m (fun e he => get?_eq_some.mpr he) k, get?_mapVal]
  split
  · rfl
  · next h =>
    cases hv : m.get? k with
    | none => rfl
    | some v => exact absurd (List.mem_map.mpr ⟨_, get?_eq_some.mp hv, rfl⟩) h

@[simp] theorem get?_assignEach (m : OrderedMap κ α) (c : κ → α → Bool) (f : κ → α → α) (k : κ) :
    (m.assignEach c f).get? k = (m.get? k).map fun v => if c k v then f k v else v := by
  rw [assignEach_eq_mapVal, get?_mapVal]

/-- Assigning to the keys of some of the map's entries rewrites those entries in place. -/
theorem foldl_insert_eq_mapVal (m : OrderedMap κ α) {es : List (κ × α)} (h : es.Sublist m.entries)
    (f : κ → α → α) [DecidablePred (· ∈ es.map Prod.fst)] :
    es.foldl (fun s e => s.insert e.1 (f e.1 e.2)) m =
      m.mapVal fun k v => if k ∈ es.map Prod.fst then f k v else v := by
  refine ext_get? fun k => ?_
  have := foldl_assign_get? (fun _ _ => true) f es (m.sorted.sublist h) m
    (fun e he => get?_eq_some.mpr (h.subset he)) k
  simp only [if_true] at this
  rw [this, get?_mapVal]
  by_cases hk : k ∈ es.map Prod.fst
  · simp only [hk, if_true]
  · simp only [hk, if_false, Option.map_id']

/-! ### Maps of lists -/

theorem get?_foldl_insert : ∀ (es : List (κ × α)) (m : OrderedMap κ α) {k : κ} {v : α},
    (es.foldl (fun m e => m.insert e.1 e.2) m).get? k = some v → (k, v) ∈ es ∨ m.get? k = some v
  | [], _, _, _, h => .inr h
  | e :: es, m, k, v, h => by
    rcases get?_foldl_insert es _ h with hmem | hget
    · exact .inl (List.mem_cons_of_mem _ hmem)
    · rw [get?_insert] at hget
      split at hget
      · next hk => exact .inl (by cases hget; simp [hk])
      · exact .inr hget

theorem mem_of_get?_ofList {es : List (κ × α)} {k : κ} {v : α} (h : (ofList es).get? k = some v) :
    (k, v) ∈ es := by
  rcases get?_foldl_insert es _ h with hmem | hget
  · exact hmem
  · cases hget

theorem get?_foldl_insert_of_notMem : ∀ (es : List (κ × α)) (m : OrderedMap κ α) {k : κ},
    k ∉ es.map Prod.fst → (es.foldl (fun m e => m.insert e.1 e.2) m).get? k = m.get? k
  | [], _, _, _ => rfl
  | e :: es, m, k, hk => by
    rw [List.map_cons, List.mem_cons, not_or] at hk
    rw [List.foldl_cons, get?_foldl_insert_of_notMem es _ hk.2, get?_insert_of_ne m _ hk.1]

theorem get?_foldl_insert_of_nodup : ∀ {es : List (κ × α)} (m : OrderedMap κ α) {k : κ} {v : α},
    (es.map Prod.fst).Nodup → (k, v) ∈ es →
      (es.foldl (fun m e => m.insert e.1 e.2) m).get? k = some v
  | e :: es, m, k, v, hnodup, hmem => by
    rw [List.map_cons, List.nodup_cons] at hnodup
    rw [List.foldl_cons]
    rcases List.mem_cons.mp hmem with rfl | hmem
    · rw [get?_foldl_insert_of_notMem es _ hnodup.1, get?_insert_self]
    · exact get?_foldl_insert_of_nodup _ hnodup.2 hmem

theorem foldl_insert_perm : ∀ {es : List (κ × α)} {m : OrderedMap κ α}, (es.map Prod.fst).Nodup →
    (∀ e ∈ es, m.get? e.1 = none) →
    (es.foldl (fun m e => m.insert e.1 e.2) m).entries.Perm (es ++ m.entries)
  | [], m, _, _ => .refl _
  | e :: es, m, hnodup, hfresh => by
    rw [List.map_cons, List.nodup_cons] at hnodup
    have hrest : ∀ x ∈ es, (m.insert e.1 e.2).get? x.1 = none := by
      intro x hx
      have hne : x.1 ≠ e.1 := fun heq => hnodup.1 (heq ▸ List.mem_map_of_mem hx)
      rw [get?_insert_of_ne m _ hne, hfresh x (by simp [hx])]
    rw [List.foldl_cons]
    refine (foldl_insert_perm hnodup.2 hrest).trans ?_
    exact ((entries_insert_perm (hfresh e (by simp))).append_left es).trans List.perm_middle

theorem ofList_entries_perm {es : List (κ × α)} (hnodup : (es.map Prod.fst).Nodup) :
    (ofList es).entries.Perm es := by
  have hperm := foldl_insert_perm (m := ∅) hnodup fun _ _ => rfl
  rwa [show (∅ : OrderedMap κ α).entries = [] from rfl, List.append_nil] at hperm

/-- A list without a key twice is its map. -/
theorem get?_ofList {es : List (κ × α)} {k : κ} {v : α} (hnodup : (es.map Prod.fst).Nodup)
    (hmem : (k, v) ∈ es) : (ofList es).get? k = some v :=
  get?_foldl_insert_of_nodup _ hnodup hmem

/-- A map is the map of its entries. -/
theorem ofList_entries (m : OrderedMap κ α) : ofList m.entries = m := by
  refine ext_get? fun k => ?_
  cases hget : m.get? k with
  | some v => exact get?_ofList m.keys_nodup (get?_eq_some.mp hget)
  | none =>
    cases hlist : (ofList m.entries).get? k with
    | none => rfl
    | some v =>
      have hsome : m.get? k = some v := get?_eq_some.mpr (mem_of_get?_ofList hlist)
      rw [hget] at hsome
      cases hsome

end OrderedMap

end Lib
