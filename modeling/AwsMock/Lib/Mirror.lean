import AwsMock.Lib.Collection

/-!
# A map and a collection of the same records

A program keeps its records either in a map, under ids of its own, or in a collection of documents. `Mirrors` holds
of the two when they have the same records up to what `erase` takes away, such as the ids; the calls of both that
correspond to each other keep it and give the same.
-/

namespace Lib

/-- The object ids that a map and a collection draw, a new one for every call. -/
structure ObjectIds where
  map : Nat → Str
  collection : Nat → Str
  map_inj : ∀ {n m}, map n = map m → n = m
  collection_inj : ∀ {n m}, collection n = collection m → n = m

/-- What is counted with a letter can be read off behind another letter. -/
theorem replicate_suffix_inj {α : Type} [DecidableEq α] {a b : α} (hne : a ≠ b) {xs ys : List α} {n m : Nat}
    (h : xs ++ a :: List.replicate n b = ys ++ a :: List.replicate m b) : n = m := by
  have hlength : ∀ (xs : List α) (n : Nat),
      ((xs ++ a :: List.replicate n b).reverse.takeWhile (· = b)).length = n := by
    intro xs n
    rw [List.reverse_append, List.reverse_cons, List.reverse_replicate, List.append_assoc, List.singleton_append,
      List.takeWhile_append_of_pos fun x hx => decide_eq_true (List.eq_of_mem_replicate hx),
      List.takeWhile_cons_of_neg (by simpa using hne), List.append_nil, List.length_replicate]
  rw [← hlength xs n, h, hlength]

/-- An id of one of the first `n` calls. -/
def Drawn (next : Nat → Str) (n : Nat) (oid : Str) : Prop := ∃ i < n, oid = next i

theorem Drawn.mono {next : Nat → Str} {n n' : Nat} {oid : Str} (h : Drawn next n oid) (hn : n ≤ n') :
    Drawn next n' oid := by
  obtain ⟨i, hi, hoid⟩ := h
  exact ⟨i, by omega, hoid⟩

theorem drawn_last (next : Nat → Str) (n : Nat) : Drawn next (n + 1) (next n) := ⟨n, by omega, rfl⟩

theorem not_drawn {next : Nat → Str} (hinj : ∀ {n m}, next n = next m → n = m) (n : Nat) : ¬ Drawn next n (next n) := by
  rintro ⟨i, hi, heq⟩
  obtain rfl := hinj heq
  omega

variable {α : Type} (K : Keeping α) (erase : α → α) (ids : ObjectIds)

/-- After `n` calls the map and the collection have the same records. -/
structure Mirrors (n : Nat) (m : OrderedMap Str α) (coll : Collection) : Prop where
  holds : K.Holds (Drawn ids.collection n) coll (m.values.map erase)
  keys : ∀ k v, m.get? k = some v → Drawn ids.map n k

namespace Mirrors

open Collection

variable {K erase ids} {n : Nat} {m : OrderedMap Str α} {coll : Collection} {query : Query} {p q : α → Bool}
  {read : Document → Option α} {k : Str} {v v' : α} {fields : Document}

theorem nil : Mirrors K erase ids 0 ∅ [] := ⟨.nil, by intro k v h; cases h⟩

theorem mono {n' : Nat} (h : Mirrors K erase ids n m coll) (hn : n ≤ n') : Mirrors K erase ids n' m coll :=
  ⟨h.holds.mono fun _ hoid => hoid.mono hn, fun k v hv => (h.keys k v hv).mono hn⟩

theorem fresh (h : Mirrors K erase ids n m coll) : m.get? (ids.map n) = none := by
  rw [OrderedMap.get?_eq_none]
  exact fun v hv => not_drawn ids.map_inj n (h.keys _ v (OrderedMap.get?_eq_some.mpr hv))

theorem findById_insertOne (h : Mirrors K erase ids n m coll) (fields : Document) :
    (coll.insertOne (ids.collection n) fields).findById (ids.collection n) =
      some ((idName, .oid (ids.collection n)) :: fields) :=
  h.holds.findById_insertOne fields (not_drawn ids.collection_inj n)

theorem insertOne (h : Mirrors K erase ids n m coll) (hv : K.keeps (erase v))
    (hwrite : K.write (erase v) = some fields) :
    Mirrors K erase ids (n + 1) (m.insert (ids.map n) v) (coll.insertOne (ids.collection n) fields) where
  holds := by
    have hinsert := (h.mono (Nat.le_succ n)).holds.insertOne (drawn_last ids.collection n) hv hwrite
    exact hinsert.perm ((OrderedMap.values_insert_perm v h.fresh).map erase).symm
  keys := by
    intro key value hget
    rw [OrderedMap.get?_insert] at hget
    split at hget
    · next hkey => exact hkey ▸ drawn_last ids.map n
    · exact (h.keys key value hget).mono (Nat.le_succ n)

/-- A record that only changes in what is taken away. -/
theorem touch (h : Mirrors K erase ids n m coll) (hv : m.get? k = some v) (herase : erase v' = erase v) :
    Mirrors K erase ids n (m.insert k v') coll where
  holds := by
    rw [OrderedMap.map_values_insert_of_same hv herase]
    exact h.holds
  keys := by
    intro key value hget
    rw [OrderedMap.get?_insert] at hget
    split at hget
    · next hkey => exact hkey ▸ h.keys k v hv
    · exact h.keys key value hget

theorem deleteMany (h : Mirrors K erase ids n m coll) (hq : K.Selects query q)
    (hp : ∀ v ∈ m.values, q (erase v) = p v) :
    Mirrors K erase ids n (m.eraseIf fun _ v => p v) (coll.deleteMany query) where
  holds := by
    rw [OrderedMap.map_values_eraseIf hp]
    exact h.holds.deleteMany hq
  keys := by
    intro key value hget
    rw [OrderedMap.get?_eraseIf] at hget
    exact h.keys key value (Option.eq_some_of_filter_eq_some hget)

theorem countDocuments (h : Mirrors K erase ids n m coll) (hq : K.Selects query q)
    (hp : ∀ v ∈ m.values, q (erase v) = p v) :
    coll.countDocuments query = m.values.countP p := by
  rw [h.holds.countDocuments hq, List.countP_map]
  exact List.countP_congr fun v hv => by rw [Function.comp_apply, hp v hv]

/-- A record is found in the map when documents are counted. -/
theorem findIf_isSome (h : Mirrors K erase ids n m coll) (hq : K.Selects query q)
    (hp : ∀ v ∈ m.values, q (erase v) = p v) :
    (m.findIf fun _ v => p v).isSome = decide (coll.countDocuments query > 0) := by
  rw [Bool.eq_iff_iff, decide_eq_true_iff, OrderedMap.findIf_values_isSome hp, h.holds.countDocuments hq,
    List.any_eq_true, gt_iff_lt, List.countP_pos_iff]

theorem find (h : Mirrors K erase ids n m coll) (hq : K.Selects query q) (hp : ∀ v ∈ m.values, q (erase v) = p v)
    (hread : K.Reads read erase) :
    ∃ vs, (coll.find query).mapM read = some vs ∧ (vs.map erase).Perm ((m.values.filter p).map erase) := by
  obtain ⟨vs, hvs, hperm⟩ := h.holds.find hq hread
  refine ⟨vs, hvs, ?_⟩
  have hfilter : m.values.filter (q ∘ erase) = m.values.filter p := List.filter_congr hp
  rwa [List.filter_map, hfilter] at hperm

/-- Both find a record, or none. -/
theorem findOne (h : Mirrors K erase ids n m coll) (hq : K.Selects query q) (hp : ∀ v ∈ m.values, q (erase v) = p v) :
    ((m.findIf fun _ v => p v) = none ∧ coll.findOne query = none) ∨
      ∃ k v doc a, (m.findIf fun _ v => p v) = some (k, v) ∧ coll.findOne query = some doc ∧
        K.Keeps (Drawn ids.collection n) doc a ∧ q a = true := by
  rcases h.holds.findOne hq with ⟨hnone, hall⟩ | ⟨doc, a, hfound, hkeeps, hmem, ha⟩
  · refine .inl ⟨OrderedMap.findIf_none.mpr fun k v hv => ?_, hnone⟩
    have hmem := OrderedMap.mem_values.mpr ⟨k, hv⟩
    rw [← hp v hmem]
    exact hall _ (List.mem_map_of_mem hmem)
  · obtain ⟨v, hv, rfl⟩ := List.mem_map.mp hmem
    obtain ⟨k, hk⟩ := OrderedMap.mem_values.mp hv
    have hsome : (m.findIf fun _ v => p v).isSome = true := OrderedMap.findIf_isSome.mpr ⟨k, v, hk, hp v hv ▸ ha⟩
    obtain ⟨⟨k', v'⟩, hfind⟩ := Option.isSome_iff_exists.mp hsome
    exact .inr ⟨k', v', doc, _, hfind, hfound, hkeeps, ha⟩

/-- The record found is replaced in both, when both find the same one. -/
theorem replaceOne {doc : Document} {w : α} (h : Mirrors K erase ids n m coll) (hread : K.Reads read erase)
    (hv : m.get? k = some v) (hfound : coll.findOne query = some doc) (hdoc : read doc = some w)
    (hsame : erase w = erase v) (hv' : K.keeps (erase v')) (hwrite : K.write (erase v') = some fields) :
    Mirrors K erase ids n (m.insert k v') (coll.replaceOne query fields) where
  holds := by
    obtain ⟨a, rest, hkeeps, hperm, hholds⟩ := h.holds.replaceOne hfound hv' hwrite
    obtain ⟨others, hothers, hinsert⟩ := OrderedMap.values_replace_perm hv
    have ha : a = erase v := by
      obtain ⟨b, hb, rfl⟩ := hread.keeps hkeeps
      rw [hdoc, Option.some.injEq] at hb
      rw [← hb, hsame]
    have hrest : (others.map erase).Perm rest := by
      have hboth := (hothers.map erase).symm.trans hperm
      rw [List.map_cons, ha] at hboth
      exact hboth.cons_inv
    exact hholds.perm ((hrest.symm.cons _).trans ((hinsert v').map erase).symm)
  keys := by
    intro key value hget
    rw [OrderedMap.get?_insert] at hget
    split at hget
    · next hkey => exact hkey ▸ h.keys k v hv
    · exact h.keys key value hget

end Mirrors

/-! ### What is found first, and all of it -/

section Records

variable {α : Type} {K : Keeping α} {plain : α → α} {ids : ObjectIds} {n : Nat} {m : OrderedMap Str α}
  {coll : Collection} {query : Query} {q p : α → Bool} {read : Document → Option α}

/-- What is found first in the map is what is found first in the collection, or there is nothing in either. -/
def SameFirst (plain : α → α) (read : Document → Option α) (found : Option (Str × α)) (doc : Option Document) : Prop :=
  found.map (fun it => plain it.2) = (doc.bind read).map plain

/-- The documents are read as the records of the map. -/
def SameContents (plain : α → α) (read : Document → Option α) (m : OrderedMap Str α) (coll : Collection) : Prop :=
  ∃ records, coll.mapM read = some records ∧ (records.map plain).Perm (m.values.map plain)

/-- A document that is replaced by one that the query selects is found again. -/
theorem findOne_replaced {doc fields : Document} (h : Mirrors K plain ids n m coll) (hq : K.Selects query q)
    (hp : ∀ v ∈ m.values, q (plain v) = p v) (hdoc : coll.findOne query = some doc)
    (hmeets : ∀ oid, query.meets ((Collection.idName, .oid oid) :: fields) = true) :
    ∃ oid, (coll.replaceOne query fields).findOne query = some ((Collection.idName, .oid oid) :: fields) := by
  obtain ⟨oid, hdocument⟩ : ∃ oid, doc.take 1 ++ fields = (Collection.idName, .oid oid) :: fields := by
    rcases h.findOne hq hp with ⟨-, hnone⟩ | ⟨_, _, doc', a, -, hdoc', hkeeps, -⟩
    · rw [hdoc] at hnone
      cases hnone
    · rw [hdoc, Option.some.injEq] at hdoc'
      obtain ⟨-, oid, _, -, -, heq⟩ := hkeeps
      exact ⟨oid, by rw [hdoc', heq]; rfl⟩
  have hagain : query.meets (doc.take 1 ++ fields) = true := by
    rw [hdocument]
    exact hmeets oid
  exact ⟨oid, hdocument ▸ Collection.findOne_replaceOne hagain hdoc⟩

/-- Where the map has no record, the collection has none either. -/
theorem sameFirst_none (h : Mirrors K plain ids n m coll) (hq : K.Selects query q)
    (hp : ∀ v ∈ m.values, q (plain v) = p v) (hfind : (m.findIf fun _ v => p v) = none) :
    SameFirst plain read (m.findIf fun _ v => p v) (coll.findOne query) := by
  rcases h.findOne hq hp with ⟨-, hnone⟩ | ⟨_, _, _, _, hsome, -⟩
  · rw [hfind, hnone]
    rfl
  · rw [hfind] at hsome
    cases hsome

/-- Where every name is the name of one record, the stores find the same one. -/
theorem sameFirst_of_unique
    (h : Mirrors K plain ids n m coll) (hq : K.Selects query q) (hp : ∀ v ∈ m.values, q (plain v) = p v)
    (hread : K.Reads read plain)
    (hunique : ∀ k k' v v', m.get? k = some v → m.get? k' = some v' → p v = true → p v' = true → k = k') :
    SameFirst plain read (m.findIf fun _ v => p v) (coll.findOne query) := by
  rcases hfind : m.findIf fun _ v => p v with _ | ⟨k, v⟩
  · exact hfind ▸ sameFirst_none h hq hp hfind
  obtain ⟨hget, hv⟩ := OrderedMap.findIf_some hfind
  rcases h.holds.findOne hq with ⟨-, hnone⟩ | ⟨doc, a, hdoc, hkeeps, hmem, ha⟩
  · have hmem := OrderedMap.mem_values.mpr ⟨k, hget⟩
    have hfalse := hnone _ (List.mem_map_of_mem hmem)
    rw [hp v hmem, hv] at hfalse
    cases hfalse
  · obtain ⟨v', hv', rfl⟩ := List.mem_map.mp hmem
    obtain ⟨k', hget'⟩ := OrderedMap.mem_values.mp hv'
    obtain rfl := hunique k k' v v' hget hget' hv ((hp v' hv').symm.trans ha)
    obtain rfl := Option.some.inj (hget.symm.trans hget')
    obtain ⟨record, hrecord, hplain⟩ := hread.keeps hkeeps
    rw [hdoc, SameFirst, Option.map_some, Option.bind_some, hrecord, Option.map_some, hplain]

/-- The records of a collection that is alike. -/
theorem SameContents.perm {used : Str → Prop} {records : List α} (h : SameContents plain read m coll) (hread : K.Reads read plain)
    (hholds : K.Holds used coll records) : records.Perm (m.values.map plain) := by
  obtain ⟨vs, hvs, hperm⟩ := h
  obtain ⟨ws, hws, hperm'⟩ := hholds.find (K.selects_all) hread
  rw [Collection.find, show coll.filter (Query.meets []) = coll from List.filter_true _, hvs, Option.some.injEq] at hws
  rw [List.filter_true, ← hws] at hperm'
  exact hperm'.symm.trans hperm

theorem sameContents_of_mirrors (h : Mirrors K plain ids n m coll) (hread : K.Reads read plain) : SameContents plain read m coll := by
  obtain ⟨vs, hvs, hperm⟩ := h.find (p := fun _ => true) (K.selects_all) (fun _ _ => rfl) hread
  rw [List.filter_true] at hperm
  rw [Collection.find, show coll.filter (Query.meets []) = coll from List.filter_true _] at hvs
  exact ⟨vs, hvs, hperm⟩

/-- When both replace a record by the same one and are alike afterwards, it was the same record. -/
theorem sameFirst_of_replaced {k : Str} {v old : α} {fields : Document} (h : Mirrors K plain ids n m coll)
    (hq : K.Selects query q) (hp : ∀ v ∈ m.values, q (plain v) = p v) (hread : K.Reads read plain)
    (hfind : (m.findIf fun _ v => p v) = some (k, old)) (hv : K.keeps (plain v))
    (hwrite : K.write (plain v) = some fields)
    (hcontents : SameContents plain read (m.insert k v) (coll.replaceOne query fields)) :
    SameFirst plain read (m.findIf fun _ v => p v) (coll.findOne query) := by
  rcases h.findOne hq hp with ⟨hnone, -⟩ | ⟨_, _, doc, _, -, hdoc, -⟩
  · rw [hfind] at hnone
    cases hnone
  obtain ⟨a, rest, hkeeps, hperm, hholds⟩ := h.holds.replaceOne hdoc hv hwrite
  obtain ⟨first, hfirst, rfl⟩ := hread.keeps hkeeps
  obtain ⟨others, hothers, hinsert⟩ := OrderedMap.values_replace_perm (OrderedMap.findIf_some hfind).1
  -- what is left when the records found are taken away is the same, so these are the same too
  have hrest : rest.Perm (others.map plain) :=
    ((hcontents.perm hread hholds).trans ((hinsert v).map plain)).cons_inv
  have hsame : [plain first].Perm [plain old] := by
    refine (List.perm_append_right_iff rest).mp ?_
    exact hperm.symm.trans ((hothers.map plain).trans (hrest.symm.cons (plain old)))
  rw [hfind, hdoc, SameFirst, Option.map_some, Option.bind_some, hfirst, Option.map_some,
    List.singleton_perm_singleton.mp hsame]

end Records

end Lib
