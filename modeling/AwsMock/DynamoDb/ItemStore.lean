import AwsMock.DynamoDb.Service

/-!
# The items of the in-memory store

What a store is to hold is a map from primary keys to attributes for each table. The search of `ItemExists`
compares the names of the attributes only, `UpdateItem` writes the first item of the table and `DeleteItem`
erases all of them: a request does what it is for exactly in the states where that is no difference.
-/

namespace AwsMock.DynamoDb

open Lib

variable {rt : Runtime} {db : DynamoDbMemoryDb} {w : World}

/-! ### Contents -/

/-- Attributes without their time points. -/
def valuesOf (attributes : OrderedMap Str AttributeValue) : OrderedMap Str Value :=
  attributes.mapVal fun _ value => value.toValue

/-- The attributes that the key schema names. -/
def primaryKey (schema : OrderedMap Str Str) (attributes : OrderedMap Str Value) : OrderedMap Str Value :=
  attributes.eraseIf fun name _ => (schema.get? name).isNone

/-- The key schema of a table. -/
def schemaOf (db : DynamoDbMemoryDb) (region tableName : Str) : Option (OrderedMap Str Str) :=
  (db.findTable region tableName).map fun it => it.2.keySchemas

/-- The attributes put under each primary key of each table and not deleted since. -/
abbrev Contents := Str → Str → OrderedMap Str Value → Option (OrderedMap Str Value)

def Contents.set (c : Contents) (region tableName : Str) (key : OrderedMap Str Value)
    (attributes : Option (OrderedMap Str Value)) : Contents := fun region' tableName' key' =>
  if region' = region ∧ tableName' = tableName ∧ key' = key then attributes else c region' tableName' key'

/-- The table and the primary key of a request. -/
def ItemRequest.region : ItemRequest → Str
  | .putItem request => request.region
  | .deleteItem request => request.region

def ItemRequest.tableName : ItemRequest → Str
  | .putItem request => request.tableName
  | .deleteItem request => request.tableName

def ItemRequest.key (schema : OrderedMap Str Str) : ItemRequest → OrderedMap Str Value
  | .putItem request => primaryKey schema request.attributes
  | .deleteItem request => request.key

/-- What is left under the key. -/
def ItemRequest.attributes : ItemRequest → Option (OrderedMap Str Value)
  | .putItem request => some request.attributes
  | .deleteItem _ => none

/-- The contents after a request; one to a missing table changes nothing. -/
def Contents.after (c : Contents) (db : DynamoDbMemoryDb) (request : ItemRequest) : Contents :=
  match schemaOf db request.region request.tableName with
  | none => c
  | some schema => c.set request.region request.tableName (request.key schema) request.attributes

/-- An item of a table has this primary key. -/
structure StoredUnder (db : DynamoDbMemoryDb) (region tableName : Str) (key : OrderedMap Str Value) (oid : Str)
    (item : Item) : Prop where
  stored : db.items.get? oid = some item
  inRegion : item.region = region
  inTable : item.tableName = tableName
  hasKey : (schemaOf db region tableName).map (primaryKey · (valuesOf item.attributes)) = some key

/-- The store holds exactly one item for each primary key with contents, and no other item. -/
structure Represents (db : DynamoDbMemoryDb) (c : Contents) : Prop where
  sound : ∀ oid item, db.items.get? oid = some item → ∃ schema, schemaOf db item.region item.tableName = some schema ∧
    c item.region item.tableName (primaryKey schema (valuesOf item.attributes)) = some (valuesOf item.attributes)
  complete : ∀ region tableName schema, schemaOf db region tableName = some schema → ∀ key attributes,
    c region tableName key = some attributes → ∃ oid item, StoredUnder db region tableName key oid item
  unique : ∀ region tableName key oid oid' item item', StoredUnder db region tableName key oid item →
    StoredUnder db region tableName key oid' item' → oid = oid'

/-- The items under other keys, with their object ids. -/
def SameOthers (db db' : DynamoDbMemoryDb) (request : ItemRequest) : Prop :=
  ∀ oid item, db.items.get? oid = some item →
    (∀ schema, schemaOf db request.region request.tableName = some schema →
      ¬ StoredUnder db request.region request.tableName (request.key schema) oid item) →
    db'.items.get? oid = some item

/-- A request deletes a key that is stored. -/
def Deletes (db : DynamoDbMemoryDb) : ItemRequest → Prop
  | .putItem _ => False
  | .deleteItem request => ∃ oid item, StoredUnder db request.region request.tableName request.key oid item

/-- The store represents its contents through all requests, which leave other keys alone, and every
    deletion of a stored key succeeds. -/
def Keeps (rt : Runtime) : List ItemRequest → World → Contents → Prop
  | [], w, c => Represents w.db c
  | request :: requests, w, c => Represents w.db c ∧ ∃ x w', serve rt request w = some (x, w') ∧
    SameOthers w.db w'.db request ∧ (Deletes w.db request → x = .ok ()) ∧
      Keeps rt requests w' (c.after w.db request)

/-! ### The condition -/

/-- The names of attributes in order. -/
def names {α : Type} (attributes : OrderedMap Str α) : List Str := attributes.entries.map Prod.fst

/-- An item of the table has attributes of the same names; in an empty region, a table of that name has
    any item. -/
def Matched (db : DynamoDbMemoryDb) (region tableName : Str) (attributeNames : List Str) : Prop :=
  ∃ oid item, db.items.get? oid = some item ∧ item.tableName = tableName ∧
    (region ≠ [] → item.region = region ∧ names item.attributes = attributeNames)

/-- A request that the store can tell from requests for other keys, to a table with this key schema. -/
def Fits (db : DynamoDbMemoryDb) (schema : OrderedMap Str Str) : ItemRequest → Prop
  | .putItem request =>
    Matched db request.region request.tableName (names request.attributes) ∧
      (∃ oid item, db.findItem request.region request.tableName = some (oid, item) ∧
        primaryKey schema (valuesOf item.attributes) = primaryKey schema request.attributes) ∨
    ¬ Matched db request.region request.tableName (names request.attributes) ∧
      ∀ oid item, ¬ StoredUnder db request.region request.tableName (primaryKey schema request.attributes) oid item
  | .deleteItem request =>
    Matched db request.region request.tableName [] ∧
      (∀ oid item, db.items.get? oid = some item → item.region = request.region →
        item.tableName = request.tableName → primaryKey schema (valuesOf item.attributes) = request.key) ∨
    ¬ Matched db request.region request.tableName [] ∧
      ∀ oid item, ¬ StoredUnder db request.region request.tableName request.key oid item

/-- Every request fits the store that it comes to. -/
def AllFit (rt : Runtime) : List ItemRequest → World → Prop
  | [], _ => True
  | request :: requests, w =>
    (∀ schema, schemaOf w.db request.region request.tableName = some schema → Fits w.db schema request) ∧
      ∀ x w', serve rt request w = some (x, w') → AllFit rt requests w'

/-! ### What a request does -/

theorem keyCompare_iff {α : Type} {lhs rhs : OrderedMap Str α} :
    keyCompare lhs rhs = true ↔ names lhs = names rhs := by
  unfold keyCompare names OrderedMap.size
  rw [decide_eq_true_iff]
  generalize lhs.entries = es
  generalize rhs.entries = fs
  induction es generalizing fs with
  | nil => cases fs <;> simp
  | cons e es ih =>
    cases fs with
    | nil => simp
    | cons f fs =>
      have := ih fs
      simp only [List.length_cons, List.zip_cons_cons, List.all_cons, List.map_cons, List.cons.injEq,
        Nat.add_right_cancel_iff, Bool.and_eq_true, decide_eq_true_eq] at this ⊢
      rw [← this]
      tauto

theorem findTable_some {region name : Str} {it : Str × Table} (h : db.findTable region name = some it) :
    it.2.region = region ∧ it.2.name = name := of_decide_eq_true (OrderedMap.findIf_some h).2

theorem matchesItem_iff {item : Item} {oid : Str} {table : Table}
    (htable : db.findTable item.region item.tableName = some (oid, table)) :
    db.matchesItem item table = true ↔ Matched db item.region item.tableName (names item.attributes) := by
  obtain ⟨hregion, hname⟩ := findTable_some htable
  unfold DynamoDbMemoryDb.matchesItem Matched
  split
  · next hne =>
    rw [OrderedMap.findIf_isSome]
    refine exists₂_congr fun oid' item' => and_congr_right fun _ => ?_
    rw [decide_eq_true_iff, keyCompare_iff, hregion, hname]
    constructor
    · rintro ⟨h₁, h₂, h₃⟩
      exact ⟨h₂, fun _ => ⟨h₁, h₃.symm⟩⟩
    · rintro ⟨h₂, h⟩
      exact ⟨(h hne).1, h₂, (h hne).2.symm⟩
  · next he =>
    rw [OrderedMap.findIf_isSome]
    refine exists₂_congr fun oid' item' => and_congr_right fun _ => ?_
    rw [decide_eq_true_iff]
    exact ⟨fun h => ⟨h, fun hne => absurd hne he⟩, And.left⟩

/-- Two stores have the same tables, up to the object ids in their records. -/
def SameTables (db db' : DynamoDbMemoryDb) : Prop :=
  ∀ region tableName, schemaOf db' region tableName = schemaOf db region tableName

/-- Reading a table writes the object id of its record. -/
theorem getTableByRegionName_sameTables {region name oid : Str} {table : Table}
    (h : db.findTable region name = some (oid, table)) :
    SameTables db { db with tables := db.tables.insert oid { table with oid := oid } } := by
  intro region' name'
  have hget : db.tables.get? oid = some table := (OrderedMap.findIf_some h).1
  have hfound := @OrderedMap.findIf_insert_of_same _ _ _ db.tables
    (fun _ t => t.region = region' ∧ t.name = name') oid table { table with oid := oid } hget rfl
  simp only [schemaOf, DynamoDbMemoryDb.findTable]
  rw [hfound, Option.map_map]
  rcases hfind : db.tables.findIf fun _ t => t.region = region' ∧ t.name = name' with _ | ⟨key, t⟩
  · rfl
  · simp only [Option.map_some, Function.comp_apply, Option.some.injEq]
    split
    · next hkey =>
      have hgett := (OrderedMap.findIf_some hfind).1
      rw [hkey, hget] at hgett
      rw [Option.some.inj hgett]
    · rfl

theorem valuesOf_stamp (readings : Readings) (attributes : OrderedMap Str Value) :
    valuesOf (attributes.mapVal readings.stamp) = attributes := by
  refine OrderedMap.ext_get? fun name => ?_
  rw [valuesOf, OrderedMap.get?_mapVal, OrderedMap.get?_mapVal]
  cases attributes.get? name <;> rfl

theorem names_mapVal {α β : Type} (attributes : OrderedMap Str α) (f : Str → α → β) :
    names (attributes.mapVal f) = names attributes := by
  rw [names, names, OrderedMap.entries_mapVal, List.map_map]
  rfl

/-- A table that is found exists. -/
theorem tableExists_of_findTable {region name : Str} {it : Str × Table}
    (h : db.findTable region name = some it) : db.tableExists region name = true := by
  unfold DynamoDbMemoryDb.tableExists
  split
  · rw [h]
    rfl
  · have hget := (OrderedMap.findIf_some h).1
    exact OrderedMap.findIf_isSome.mpr ⟨it.1, it.2, hget, by simp [(findTable_some h).2]⟩

theorem itemExists_missing {item : Item} (h : db.findTable item.region item.tableName = none) :
    ∃ e, db.itemExists item = (.error e, db) := by
  unfold DynamoDbMemoryDb.itemExists DynamoDbMemoryDb.getTableByRegionName
  rw [h]
  exact ⟨_, rfl⟩

/-- The table is read, then the items are searched. -/
theorem itemExists_found {item : Item} {oid : Str} {table : Table}
    (h : db.findTable item.region item.tableName = some (oid, table)) :
    ∃ db', db.itemExists item = (.ok (decide (db.matchesItem item table = true)), db') ∧
      db'.items = db.items ∧ SameTables db db' := by
  unfold DynamoDbMemoryDb.itemExists DynamoDbMemoryDb.getTableByRegionName
  rw [h]
  refine ⟨{ db with tables := db.tables.insert oid { table with oid := oid } }, ?_, rfl,
    getTableByRegionName_sameTables h⟩
  simp [DynamoDbMemoryDb.fetchTable, DynamoDbMemoryDb.matchesItem]

/-- A request to a missing table changes nothing. -/
theorem serve_missing {request : ItemRequest}
    (h : schemaOf w.db request.region request.tableName = none) :
    ∃ e w', serve rt request w = some (.error e, w') ∧ w'.db = w.db ∧ w.calls ≤ w'.calls := by
  rw [schemaOf, Option.map_eq_none_iff] at h
  cases request with
  | putItem request =>
    obtain ⟨e, he⟩ := @itemExists_missing w.db (Mapper.mapPut (rt.clock w.calls) request) h
    unfold serve ItemRequest.prog putItem
    rw [Prog.run_perform_bind]
    simp only [exec, memoryCall, Option.map_some, Option.bind_some]
    rcases hexists : w.db.tableExists request.region request.tableName with _ | _
    · exact ⟨_, _, rfl, rfl, Nat.le_succ _⟩
    · refine ⟨.serviceException (str "DynamoDb put item failed, error: " ++ message e),
        ⟨w.db, w.calls + 2⟩, ?_, rfl, Nat.le_add_right _ _⟩
      simp [Prog.run_bind, createOrUpdateItem, exec, memoryCall, he, Except.mapError]
  | deleteItem request =>
    obtain ⟨e, he⟩ := @itemExists_missing w.db (Mapper.mapDelete (rt.clock w.calls) request) h
    refine ⟨e, ⟨w.db, w.calls + 1⟩, ?_, rfl, Nat.le_succ _⟩
    simp [serve, ItemRequest.prog, deleteItem, Prog.run_bind, exec, memoryCall, he]

section

variable {request : PutItemRequest} {schema : OrderedMap Str Str}

/-- A new item is found under its object id, which is written to it. -/
theorem createItem_eq (db : DynamoDbMemoryDb) (oid : Str) (item : Item) :
    db.createItem oid item =
      (.ok { item with oid := oid }, { db with items := db.items.insert oid { item with oid := oid } }) := by
  unfold DynamoDbMemoryDb.createItem DynamoDbMemoryDb.getItemById
  rw [OrderedMap.findIf_key (OrderedMap.get?_insert_self db.items oid item)]
  simp only [OrderedMap.insert_insert]

/-- A put to a table. -/
theorem serve_put (hschema : schemaOf w.db request.region request.tableName = some schema) :
    ∃ db', db'.items = w.db.items ∧ SameTables w.db db' ∧
      (Matched w.db request.region request.tableName (names request.attributes) →
        serve rt (.putItem request) w = (db'.updateItem (Mapper.mapPut (rt.clock w.calls) request)).map
          fun r => (.ok (), ⟨r.2, w.calls + 3⟩)) ∧
      (¬ Matched w.db request.region request.tableName (names request.attributes) →
        serve rt (.putItem request) w = some (.ok (),
          ⟨(db'.createItem (rt.uuid (w.calls + 2)) (Mapper.mapPut (rt.clock w.calls) request)).2, w.calls + 3⟩)) := by
  obtain ⟨⟨tableOid, table⟩, htable, -⟩ := Option.map_eq_some_iff.mp hschema
  obtain ⟨db', hexists, hitems, hsame⟩ := @itemExists_found w.db (Mapper.mapPut (rt.clock w.calls) request)
    tableOid table htable
  have hmatches : w.db.matchesItem (Mapper.mapPut (rt.clock w.calls) request) table = true ↔
      Matched w.db request.region request.tableName (names request.attributes) := by
    rw [matchesItem_iff htable, Mapper.mapPut, names_mapVal]
  refine ⟨db', hitems, hsame, fun hmatched => ?_, fun hmatched => ?_⟩
  · rw [← hmatches] at hmatched
    rcases hupdate : db'.updateItem (Mapper.mapPut (rt.clock w.calls) request) with _ | r
    all_goals simp [serve, ItemRequest.prog, putItem, createOrUpdateItem, Prog.run_bind, exec, memoryCall,
      tableExists_of_findTable htable, hexists, hmatched, hupdate, Except.mapError]
  · rw [← hmatches] at hmatched
    simp [serve, ItemRequest.prog, putItem, createOrUpdateItem, Prog.run_bind, exec, memoryCall,
      tableExists_of_findTable htable, hexists, hmatched, createItem_eq, Except.mapError]

end

/-- A deletion from a table. -/
theorem serve_delete {request : DeleteItemRequest} {schema : OrderedMap Str Str}
    (hschema : schemaOf w.db request.region request.tableName = some schema) :
    ∃ db', db'.items = w.db.items ∧ SameTables w.db db' ∧
      (Matched w.db request.region request.tableName [] →
        serve rt (.deleteItem request) w =
          some (.ok (), ⟨db'.deleteItem request.region request.tableName [], w.calls + 2⟩)) ∧
      (¬ Matched w.db request.region request.tableName [] →
        serve rt (.deleteItem request) w =
          some (.error (tableExistsAlready request.region request.tableName), ⟨db', w.calls + 1⟩)) := by
  obtain ⟨⟨tableOid, table⟩, htable, -⟩ := Option.map_eq_some_iff.mp hschema
  obtain ⟨db', hexists, hitems, hsame⟩ := @itemExists_found w.db (Mapper.mapDelete (rt.clock w.calls) request)
    tableOid table htable
  have hmatches : w.db.matchesItem (Mapper.mapDelete (rt.clock w.calls) request) table = true ↔
      Matched w.db request.region request.tableName [] := by
    rw [matchesItem_iff htable]
    rfl
  refine ⟨db', hitems, hsame, fun hmatched => ?_, fun hmatched => ?_⟩
  all_goals
    rw [← hmatches] at hmatched
    simp [serve, ItemRequest.prog, deleteItem, Prog.run_bind, exec, memoryCall, hexists, hmatched]

/-! ### Writing and erasing items -/

section

variable {c : Contents} {db' : DynamoDbMemoryDb} {region tableName : Str} {schema : OrderedMap Str Str}
  {key : OrderedMap Str Value}

theorem Contents.set_self (c : Contents) (region tableName : Str) (key : OrderedMap Str Value)
    (attributes : Option (OrderedMap Str Value)) :
    c.set region tableName key attributes region tableName key = attributes := if_pos ⟨rfl, rfl, rfl⟩

/-- An item that is stored in both stores has the same key in both. -/
theorem StoredUnder.of_same {oid : Str} {item : Item} (h : StoredUnder db region tableName key oid item)
    (hsame : SameTables db db') (hget : db'.items.get? oid = some item) :
    StoredUnder db' region tableName key oid item :=
  ⟨hget, h.inRegion, h.inTable, by rw [hsame]; exact h.hasKey⟩

theorem SameTables.symm (h : SameTables db db') : SameTables db' db := fun region tableName => (h region tableName).symm

/-- Every stored item is stored under its key. -/
theorem Represents.storedUnder (h : Represents db c) {oid : Str} {item : Item}
    (hget : db.items.get? oid = some item) : ∃ schema, schemaOf db item.region item.tableName = some schema ∧
      StoredUnder db item.region item.tableName (primaryKey schema (valuesOf item.attributes)) oid item ∧
      c item.region item.tableName (primaryKey schema (valuesOf item.attributes)) = some (valuesOf item.attributes) := by
  obtain ⟨schema, hschema, hc⟩ := h.sound oid item hget
  exact ⟨schema, hschema, ⟨hget, rfl, rfl, by rw [hschema]; rfl⟩, hc⟩

theorem storedUnder_iff (hschema : schemaOf db region tableName = some schema) {oid : Str} {item : Item} :
    StoredUnder db region tableName key oid item ↔ db.items.get? oid = some item ∧ item.region = region ∧
      item.tableName = tableName ∧ primaryKey schema (valuesOf item.attributes) = key := by
  constructor
  · rintro ⟨h₁, h₂, h₃, h₄⟩
    rw [hschema] at h₄
    exact ⟨h₁, h₂, h₃, Option.some.inj h₄⟩
  · rintro ⟨h₁, h₂, h₃, h₄⟩
    exact ⟨h₁, h₂, h₃, by rw [hschema, ← h₄]; rfl⟩

/-- An item is written at an object id: the place is free or holds the item of this key, and no other
    item has this key. -/
theorem represents_insert_iff (hrep : Represents db c) (hsame : SameTables db db') {oid : Str} {item : Item}
    (hitems : db'.items = db.items.insert oid item) (hregion : item.region = region)
    (htable : item.tableName = tableName) (hschema : schemaOf db region tableName = some schema)
    (hkey : primaryKey schema (valuesOf item.attributes) = key) :
    Represents db' (c.set region tableName key (some (valuesOf item.attributes))) ↔
      (∀ oid' old, StoredUnder db region tableName key oid' old → oid' = oid) ∧
        ∀ old, db.items.get? oid = some old → StoredUnder db region tableName key oid old := by
  have hwritten : StoredUnder db' region tableName key oid item :=
    (storedUnder_iff (by rw [hsame]; exact hschema)).mpr
      ⟨by rw [hitems, OrderedMap.get?_insert_self], hregion, htable, hkey⟩
  have hget : ∀ oid', oid' ≠ oid → db'.items.get? oid' = db.items.get? oid' := fun oid' hne => by
    rw [hitems, OrderedMap.get?_insert_of_ne _ _ hne]
  have hother : ∀ {region' tableName' key' oid' item'}, StoredUnder db' region' tableName' key' oid' item' →
      oid' ≠ oid → StoredUnder db region' tableName' key' oid' item' := fun h hne =>
    h.of_same hsame.symm ((hget _ hne).symm.trans h.stored)
  have hmine : ∀ {region' tableName' key' item'}, StoredUnder db' region' tableName' key' oid item' →
      region' = region ∧ tableName' = tableName ∧ key' = key := by
    intro region' tableName' key' item' h
    obtain rfl : item' = item := Option.some.inj (h.stored.symm.trans hwritten.stored)
    obtain rfl := h.inRegion.symm.trans hregion
    obtain rfl := h.inTable.symm.trans htable
    exact ⟨rfl, rfl, Option.some.inj (h.hasKey.symm.trans hwritten.hasKey)⟩
  constructor
  · intro h
    refine ⟨fun oid' old hold => ?_, fun old hold => ?_⟩
    · by_contra hne
      exact hne (h.unique _ _ _ _ _ _ _ (hold.of_same hsame ((hget _ hne).trans hold.stored)) hwritten)
    · obtain ⟨schema', hschema', hunder, hc⟩ := hrep.storedUnder hold
      by_cases heq : old.region = region ∧ old.tableName = tableName ∧
          primaryKey schema' (valuesOf old.attributes) = key
      · obtain ⟨h₁, h₂, h₃⟩ := heq
        rwa [h₁, h₂, h₃] at hunder
      · -- the contents of the old key are nowhere else
        obtain ⟨oid', item', hunder'⟩ := h.complete old.region old.tableName schema' (by rw [hsame]; exact hschema')
          (primaryKey schema' (valuesOf old.attributes)) _ (by rw [Contents.set, if_neg heq]; exact hc)
        by_cases hne : oid' = oid
        · subst hne
          exact absurd (hmine hunder') heq
        · exact absurd (hrep.unique _ _ _ _ _ _ _ (hother hunder' hne) hunder) hne
  · rintro ⟨hslot, hold⟩
    refine ⟨fun oid' item' hget' => ?_, fun region' tableName' schema' hschema' key' attributes hc => ?_,
      fun region' tableName' key' oid₁ oid₂ item₁ item₂ h₁ h₂ => ?_⟩
    · by_cases hne : oid' = oid
      · subst hne
        obtain rfl : item' = item := Option.some.inj (hget'.symm.trans hwritten.stored)
        refine ⟨schema, by rw [hsame, hregion, htable]; exact hschema, ?_⟩
        rw [hregion, htable, hkey]
        exact Contents.set_self ..
      · obtain ⟨schema', hschema', hunder, hc⟩ := hrep.storedUnder ((hget _ hne).symm.trans hget')
        refine ⟨schema', by rw [hsame]; exact hschema', ?_⟩
        rw [Contents.set, if_neg, hc]
        rintro ⟨h₁, h₂, h₃⟩
        rw [h₁, h₂, h₃] at hunder
        exact hne (hslot _ _ hunder)
    · rw [Contents.set] at hc
      split at hc
      · next heq =>
        obtain ⟨rfl, rfl, rfl⟩ := heq
        exact ⟨oid, item, hwritten⟩
      · next hneq =>
        obtain ⟨oid', item', hunder⟩ := hrep.complete region' tableName' schema' (by rw [← hsame]; exact hschema')
          key' attributes hc
        refine ⟨oid', item', hunder.of_same hsame ((hget _ fun hne => ?_).trans hunder.stored)⟩
        subst hne
        have hunder' := hold item' hunder.stored
        obtain rfl := hunder.inRegion.symm.trans hunder'.inRegion
        obtain rfl := hunder.inTable.symm.trans hunder'.inTable
        exact hneq ⟨rfl, rfl, Option.some.inj (hunder.hasKey.symm.trans hunder'.hasKey)⟩
    · by_cases hne₁ : oid₁ = oid <;> by_cases hne₂ : oid₂ = oid
      · rw [hne₁, hne₂]
      · subst hne₁
        obtain ⟨rfl, rfl, rfl⟩ := hmine h₁
        exact (hslot _ _ (hother h₂ hne₂)).symm
      · subst hne₂
        obtain ⟨rfl, rfl, rfl⟩ := hmine h₂
        exact hslot _ _ (hother h₁ hne₁)
      · exact hrep.unique _ _ _ _ _ _ _ (hother h₁ hne₁) (hother h₂ hne₂)

/-- The items of a table are erased: this deletes one key when no item has another. -/
theorem represents_erase_iff (hrep : Represents db c) (hsame : SameTables db db')
    (hitems : db'.items = db.items.eraseIf fun _ item => item.region = region ∧ item.tableName = tableName)
    (hschema : schemaOf db region tableName = some schema) :
    Represents db' (c.set region tableName key none) ↔
      ∀ oid item, db.items.get? oid = some item → item.region = region → item.tableName = tableName →
        primaryKey schema (valuesOf item.attributes) = key := by
  have hget : ∀ oid item, db'.items.get? oid = some item ↔
      db.items.get? oid = some item ∧ ¬ (item.region = region ∧ item.tableName = tableName) := by
    intro oid item
    rw [hitems, OrderedMap.get?_eraseIf, Option.filter_eq_some_iff, Bool.not_eq_true', decide_eq_false_iff_not]
  have hunder : ∀ {region' tableName' key' oid item}, StoredUnder db' region' tableName' key' oid item →
      StoredUnder db region' tableName' key' oid item ∧ ¬ (region' = region ∧ tableName' = tableName) := by
    intro region' tableName' key' oid item h
    obtain ⟨hstored, hne⟩ := (hget oid item).mp h.stored
    refine ⟨h.of_same hsame.symm hstored, ?_⟩
    rwa [← h.inRegion, ← h.inTable]
  constructor
  · intro h oid item hstored hregion htable
    obtain ⟨schema', hschema', -, hc⟩ := hrep.storedUnder hstored
    rw [hregion, htable] at hschema' hc
    obtain rfl := Option.some.inj (hschema.symm.trans hschema')
    by_contra hne
    obtain ⟨oid', item', hunder'⟩ := h.complete region tableName schema (by rw [hsame]; exact hschema) _ _
      (by rw [Contents.set, if_neg fun heq => hne heq.2.2]; exact hc)
    exact (hunder hunder').2 ⟨rfl, rfl⟩
  · intro hall
    refine ⟨fun oid item hstored => ?_, fun region' tableName' schema' hschema' key' attributes hc => ?_,
      fun region' tableName' key' oid₁ oid₂ item₁ item₂ h₁ h₂ => ?_⟩
    · obtain ⟨hstored, hne⟩ := (hget oid item).mp hstored
      obtain ⟨schema', hschema', -, hc⟩ := hrep.storedUnder hstored
      refine ⟨schema', by rw [hsame]; exact hschema', ?_⟩
      rw [Contents.set, if_neg fun heq => hne ⟨heq.1, heq.2.1⟩]
      exact hc
    · rw [Contents.set] at hc
      split at hc
      · cases hc
      · next hneq =>
        obtain ⟨oid, item, hstored⟩ := hrep.complete region' tableName' schema' (by rw [← hsame]; exact hschema')
          key' attributes hc
        refine ⟨oid, item, hstored.of_same hsame ((hget oid item).mpr ⟨hstored.stored, ?_⟩)⟩
        rw [hstored.inRegion, hstored.inTable]
        rintro ⟨rfl, rfl⟩
        have hkey := hall oid item hstored.stored hstored.inRegion hstored.inTable
        obtain ⟨-, -, -, hkey'⟩ := (storedUnder_iff hschema).mp hstored
        exact hneq ⟨rfl, rfl, hkey'.symm.trans hkey⟩
    · exact hrep.unique _ _ _ _ _ _ _ (hunder h₁).1 (hunder h₂).1

/-- Nothing is written: right for a key that is not stored. -/
theorem represents_same_iff (hrep : Represents db c) (hsame : SameTables db db') (hitems : db'.items = db.items)
    (hschema : schemaOf db region tableName = some schema) :
    Represents db' (c.set region tableName key none) ↔
      ∀ oid item, ¬ StoredUnder db region tableName key oid item := by
  have hunder : ∀ {region' tableName' key' oid item}, StoredUnder db' region' tableName' key' oid item ↔
      StoredUnder db region' tableName' key' oid item := fun {_ _ _ oid item} =>
    ⟨fun h => h.of_same hsame.symm (hitems ▸ h.stored), fun h => h.of_same hsame (hitems ▸ h.stored)⟩
  constructor
  · intro h oid item hstored
    obtain ⟨schema', hschema', hc⟩ := h.sound oid item (hitems ▸ hstored.stored)
    rw [hstored.inRegion, hstored.inTable, hsame, hschema] at hschema'
    obtain rfl := Option.some.inj hschema'
    rw [hstored.inRegion, hstored.inTable, ((storedUnder_iff hschema).mp hstored).2.2.2, Contents.set_self] at hc
    cases hc
  · intro hnone
    refine ⟨fun oid item hstored => ?_, fun region' tableName' schema' hschema' key' attributes hc => ?_,
      fun region' tableName' key' oid₁ oid₂ item₁ item₂ h₁ h₂ => ?_⟩
    · obtain ⟨schema', hschema', hstored', hc⟩ := hrep.storedUnder (hitems ▸ hstored)
      refine ⟨schema', by rw [hsame]; exact hschema', ?_⟩
      rw [Contents.set, if_neg, hc]
      rintro ⟨h₁, h₂, h₃⟩
      rw [h₁, h₂, h₃] at hstored'
      exact hnone oid item hstored'
    · rw [Contents.set] at hc
      split at hc
      · cases hc
      · obtain ⟨oid, item, hstored⟩ := hrep.complete region' tableName' schema' (by rw [← hsame]; exact hschema')
          key' attributes hc
        exact ⟨oid, item, hunder.mpr hstored⟩
    · exact hrep.unique _ _ _ _ _ _ _ (hunder.mp h₁) (hunder.mp h₂)

end

/-! ### One request -/

/-- Every object id was drawn by an earlier call. -/
def Drawn (rt : Runtime) (w : World) : Prop :=
  ∀ oid item, w.db.items.get? oid = some item → ∃ n < w.calls, oid = rt.uuid n

/-- What one request is to do, from a store that represents its contents. -/
def Serves (rt : Runtime) (request : ItemRequest) (w : World) (c : Contents) : Prop :=
  ∃ x w', serve rt request w = some (x, w') ∧ Represents w'.db (c.after w.db request) ∧
    SameOthers w.db w'.db request ∧ (Deletes w.db request → x = .ok ())

theorem after_some {c : Contents} {request : ItemRequest} {schema : OrderedMap Str Str}
    (h : schemaOf db request.region request.tableName = some schema) :
    c.after db request = c.set request.region request.tableName (request.key schema) request.attributes := by
  rw [Contents.after, h]

theorem after_none {c : Contents} {request : ItemRequest}
    (h : schemaOf db request.region request.tableName = none) : c.after db request = c := by
  rw [Contents.after, h]

theorem findItem_some {region tableName : Str} {it : Str × Item} (h : db.findItem region tableName = some it) :
    db.items.get? it.1 = some it.2 ∧ it.2.region = region ∧ it.2.tableName = tableName :=
  ⟨(OrderedMap.findIf_some h).1, of_decide_eq_true (OrderedMap.findIf_some h).2⟩

theorem serves_missing {c : Contents} {request : ItemRequest} (hrep : Represents w.db c)
    (h : schemaOf w.db request.region request.tableName = none) : Serves rt request w c := by
  obtain ⟨e, w', hserve, hdb, -⟩ := @serve_missing rt w request h
  refine ⟨_, w', hserve, by rwa [after_none h, hdb], fun oid item hget _ => by rwa [hdb], fun hdel => ?_⟩
  cases request with
  | putItem request => exact hdel.elim
  | deleteItem request =>
    obtain ⟨oid, item, hstored⟩ := hdel
    have hkey := hstored.hasKey
    rw [show schemaOf w.db request.region request.tableName = none from h] at hkey
    cases hkey

section

variable {c : Contents} {request : PutItemRequest} {schema : OrderedMap Str Str}

/-- A put that writes its item at an object id. -/
theorem serves_insert_iff {db' : DynamoDbMemoryDb} {n : Nat} {oid : Str} {item : Item} (hrep : Represents w.db c)
    (hschema : schemaOf w.db request.region request.tableName = some schema)
    (hserve : serve rt (.putItem request) w = some (.ok (), ⟨db', n⟩)) (hsame : SameTables w.db db')
    (hitems : db'.items = w.db.items.insert oid item) (hregion : item.region = request.region)
    (htable : item.tableName = request.tableName) (hvalues : valuesOf item.attributes = request.attributes) :
    Serves rt (.putItem request) w c ↔
      (∀ oid' old, StoredUnder w.db request.region request.tableName (primaryKey schema request.attributes) oid' old →
        oid' = oid) ∧
      ∀ old, w.db.items.get? oid = some old →
        StoredUnder w.db request.region request.tableName (primaryKey schema request.attributes) oid old := by
  have hiff := represents_insert_iff hrep hsame hitems hregion htable hschema (congrArg (primaryKey schema) hvalues)
  have hafter : c.after w.db (.putItem request) = c.set request.region request.tableName
      (primaryKey schema request.attributes) (some (valuesOf item.attributes)) := by
    rw [hvalues]
    exact @after_some w.db c (.putItem request) schema hschema
  constructor
  · rintro ⟨x, w', h, hrep', -⟩
    rw [hserve] at h
    cases h
    exact hiff.mp (hafter ▸ hrep')
  · intro h
    refine ⟨_, _, hserve, hafter ▸ hiff.mpr h, fun oid' old hget hother => ?_, fun _ => rfl⟩
    rw [hitems, OrderedMap.get?_insert_of_ne, hget]
    rintro rfl
    exact hother schema hschema (h.2 old hget)

theorem serves_put_iff (hrep : Represents w.db c) (hdrawn : Drawn rt w)
    (hschema : schemaOf w.db request.region request.tableName = some schema) :
    Serves rt (.putItem request) w c ↔ Fits w.db schema (.putItem request) := by
  obtain ⟨db', hitems, hsame, hmatch, hnomatch⟩ := @serve_put rt w request schema hschema
  by_cases hmatched : Matched w.db request.region request.tableName (names request.attributes)
  · have hserve := hmatch hmatched
    have hfind : db'.findItem request.region request.tableName = w.db.findItem request.region request.tableName := by
      rw [DynamoDbMemoryDb.findItem, hitems, DynamoDbMemoryDb.findItem]
    have hupdate : db'.updateItem (Mapper.mapPut (rt.clock w.calls) request) =
        (w.db.findItem request.region request.tableName).map fun it =>
          (Mapper.mapPut (rt.clock w.calls) request,
            { db' with items := db'.items.insert it.1 (Mapper.mapPut (rt.clock w.calls) request) }) :=
      congrArg (Option.map _) hfind
    simp only [Fits, hmatched, true_and, not_true_eq_false, false_and, or_false]
    rw [hupdate] at hserve
    rcases hitem : w.db.findItem request.region request.tableName with _ | ⟨oid, old⟩
    · -- the update is undefined
      rw [hitem] at hserve
      refine iff_of_false ?_ ?_
      · rintro ⟨x, w', h, -⟩
        rw [hserve] at h
        cases h
      · rintro ⟨oid, old, h, -⟩
        cases h
    · rw [hitem] at hserve
      obtain ⟨hold, hregion, htable⟩ := findItem_some hitem
      rw [serves_insert_iff hrep hschema hserve hsame (by rw [hitems]) rfl rfl (valuesOf_stamp _ _)]
      constructor
      · rintro ⟨-, h⟩
        exact ⟨oid, old, rfl, ((storedUnder_iff hschema).mp (h old hold)).2.2.2⟩
      · rintro ⟨_, _, hit, hkey⟩
        cases hit
        have hunder := (storedUnder_iff hschema).mpr ⟨hold, hregion, htable, hkey⟩
        refine ⟨fun oid' old' hold' => hrep.unique _ _ _ _ _ _ _ hold' hunder, fun old' hold' => ?_⟩
        obtain rfl := Option.some.inj (hold.symm.trans hold')
        exact hunder
  · have hserve := hnomatch hmatched
    have hfresh : w.db.items.get? (rt.uuid (w.calls + 2)) = none := by
      rcases hget : w.db.items.get? (rt.uuid (w.calls + 2)) with _ | old
      · rfl
      · obtain ⟨n, hn, hoid⟩ := hdrawn _ _ hget
        have := rt.uuid_inj hoid
        omega
    simp only [Fits, hmatched, false_and, false_or, not_false_eq_true, true_and]
    rw [createItem_eq] at hserve
    rw [serves_insert_iff hrep hschema hserve hsame (by rw [hitems]) rfl rfl (valuesOf_stamp _ _)]
    constructor
    · rintro ⟨h, -⟩ oid' old hold
      have hget := hold.stored
      rw [h oid' old hold, hfresh] at hget
      cases hget
    · intro h
      refine ⟨fun oid' old hold => absurd hold (h oid' old), fun old hold => ?_⟩
      rw [hfresh] at hold
      cases hold

end

theorem serves_delete_iff {c : Contents} {request : DeleteItemRequest} {schema : OrderedMap Str Str}
    (hrep : Represents w.db c) (hschema : schemaOf w.db request.region request.tableName = some schema) :
    Serves rt (.deleteItem request) w c ↔ Fits w.db schema (.deleteItem request) := by
  obtain ⟨db', hitems, hsame, hmatch, hnomatch⟩ := @serve_delete rt w request schema hschema
  have hafter : c.after w.db (.deleteItem request) = c.set request.region request.tableName request.key none :=
    @after_some w.db c (.deleteItem request) schema hschema
  by_cases hmatched : Matched w.db request.region request.tableName []
  · have hserve := hmatch hmatched
    have hiff := @represents_erase_iff w.db c (db'.deleteItem request.region request.tableName []) _ _ schema
      request.key hrep hsame (by rw [DynamoDbMemoryDb.deleteItem, hitems]) hschema
    simp only [Fits, hmatched, true_and, not_true_eq_false, false_and, or_false]
    rw [← hiff, ← hafter]
    constructor
    · rintro ⟨x, w', h, hrep', -⟩
      rw [hserve] at h
      cases h
      exact hrep'
    · intro h
      refine ⟨_, _, hserve, h, fun oid item hget hother => ?_, fun _ => rfl⟩
      rw [DynamoDbMemoryDb.deleteItem, hitems, OrderedMap.get?_eraseIf, hget, Option.filter_eq_some_iff]
      refine ⟨rfl, ?_⟩
      rw [Bool.not_eq_true', decide_eq_false_iff_not]
      rintro ⟨hregion, htable⟩
      rw [hafter] at h
      exact hother schema hschema ((storedUnder_iff hschema).mpr
        ⟨hget, hregion, htable, hiff.mp h oid item hget hregion htable⟩)
  · have hserve := hnomatch hmatched
    have hiff := @represents_same_iff w.db c db' _ _ schema request.key hrep hsame hitems hschema
    simp only [Fits, hmatched, false_and, false_or, not_false_eq_true, true_and]
    rw [← hiff, ← hafter]
    constructor
    · rintro ⟨x, w', h, hrep', -⟩
      rw [hserve] at h
      cases h
      exact hrep'
    · intro h
      refine ⟨_, _, hserve, h, fun oid item hget _ => by rwa [hitems], ?_⟩
      rintro ⟨oid, item, hstored⟩
      rw [hafter] at h
      exact absurd hstored (hiff.mp h oid item)

/-- A request does what it is for exactly when it fits. -/
theorem serves_iff {c : Contents} {request : ItemRequest} (hrep : Represents w.db c) (hdrawn : Drawn rt w) :
    Serves rt request w c ↔
      ∀ schema, schemaOf w.db request.region request.tableName = some schema → Fits w.db schema request := by
  rcases hschema : schemaOf w.db request.region request.tableName with _ | schema
  · exact iff_of_true (serves_missing hrep hschema) fun _ h => by cases h
  · have hiff : Serves rt request w c ↔ Fits w.db schema request := by
      cases request with
      | putItem request => exact serves_put_iff hrep hdrawn hschema
      | deleteItem request => exact serves_delete_iff hrep hschema
    rw [hiff]
    exact ⟨fun h _ hsome => by cases hsome; exact h, fun h => h schema rfl⟩

/-! ### Every run -/

/-- Reading a table leaves the items alone. -/
theorem fetchTable_items (db : DynamoDbMemoryDb) (missing : Error) (it : Option (Str × Table)) :
    (db.fetchTable missing it).2.items = db.items := by
  cases it <;> rfl

theorem itemExists_items (db : DynamoDbMemoryDb) (item : Item) : (db.itemExists item).2.items = db.items := by
  rcases h : db.findTable item.region item.tableName with _ | ⟨oid, table⟩
  · obtain ⟨e, he⟩ := itemExists_missing h
    rw [he]
  · obtain ⟨db', hexists, hitems, -⟩ := itemExists_found h
    rw [hexists, hitems]

/-- A call adds items under the object id that it draws, or writes one that is stored. -/
theorem drawn_exec : ∀ (call : DynamoDbCall) (w : World) (r : call.Reply × World), Drawn rt w →
    exec rt call w = some r → Drawn rt r.2 := by
  intro call w r hdrawn hr
  obtain ⟨⟨reply, db⟩, hcall, rfl⟩ := Option.map_eq_some_iff.mp hr
  have hlater : ∀ {oid : Str}, (∃ n < w.calls, oid = rt.uuid n) → ∃ n < w.calls + 1, oid = rt.uuid n :=
    fun ⟨n, hn, hoid⟩ => ⟨n, Nat.lt_succ_of_lt hn, hoid⟩
  have hsame : db.items = w.db.items → Drawn rt ⟨db, w.calls + 1⟩ := fun hitems oid item hget =>
    hlater (hdrawn oid item (by rw [← hitems]; exact hget))
  have herase : ∀ p, db.items = w.db.items.eraseIf p → Drawn rt ⟨db, w.calls + 1⟩ := fun p hitems oid item hget => by
    simp only [hitems, OrderedMap.get?_eraseIf, Option.filter_eq_some_iff] at hget
    exact hlater (hdrawn oid item hget.1)
  have hinsert : ∀ oid item, db.items = w.db.items.insert oid item → (∃ n < w.calls + 1, oid = rt.uuid n) →
      Drawn rt ⟨db, w.calls + 1⟩ := fun oid item hitems hoid oid' item' hget => by
    simp only [hitems, OrderedMap.get?_insert] at hget
    split at hget
    · next heq => rw [heq]; exact hoid
    · exact hlater (hdrawn oid' item' hget)
  cases call with
  | createTable table =>
    obtain rfl : _ = db := congrArg Prod.snd (Option.some.inj hcall)
    exact hsame (fetchTable_items ..)
  | tableExists | listTables | deleteTable | listItems => cases hcall; exact hsame rfl
  | itemExists item =>
    obtain rfl : _ = db := congrArg Prod.snd (Option.some.inj hcall)
    exact hsame (itemExists_items w.db item)
  | updateTable table =>
    obtain ⟨r, hr, hdb⟩ := Option.map_eq_some_iff.mp hcall
    obtain ⟨it, -, rfl⟩ := Option.map_eq_some_iff.mp hr
    cases hdb
    exact hsame rfl
  | createItem item =>
    have hdb := congrArg (fun r => r.2.items) (Option.some.inj hcall)
    rw [createItem_eq] at hdb
    exact hinsert _ _ hdb.symm ⟨w.calls, Nat.lt_succ_self _, rfl⟩
  | updateItem item =>
    obtain ⟨r, hr, hdb⟩ := Option.map_eq_some_iff.mp hcall
    obtain ⟨it, hit, rfl⟩ := Option.map_eq_some_iff.mp hr
    cases hdb
    exact hinsert _ _ rfl (hlater (hdrawn _ _ (findItem_some hit).1))
  | deleteItem region tableName key | deleteItems region tableName =>
    cases hcall
    exact herase (fun _ item => item.region = region ∧ item.tableName = tableName) rfl

theorem drawn_serve {request : ItemRequest} {x : Except Error Unit} {w' : World} (hdrawn : Drawn rt w)
    (h : serve rt request w = some (x, w')) : Drawn rt w' :=
  Prog.run_invariant drawn_exec hdrawn h

theorem keeps_iff {requests : List ItemRequest} {c : Contents} (hrep : Represents w.db c) (hdrawn : Drawn rt w) :
    Keeps rt requests w c ↔ AllFit rt requests w := by
  induction requests generalizing w c with
  | nil => exact iff_of_true hrep trivial
  | cons request requests ih =>
    constructor
    · rintro ⟨-, x, w', hserve, hothers, hdel, hrest⟩
      have hrep' : Represents w'.db (c.after w.db request) := by
        cases requests with
        | nil => exact hrest
        | cons => exact hrest.1
      refine ⟨(serves_iff hrep hdrawn).mp ⟨x, w', hserve, hrep', hothers, hdel⟩, fun x₂ w₂ hserve₂ => ?_⟩
      rw [hserve] at hserve₂
      cases hserve₂
      exact (ih hrep' (drawn_serve hdrawn hserve)).mp hrest
    · rintro ⟨hfits, hrest⟩
      obtain ⟨x, w', hserve, hrep', hothers, hdel⟩ := (serves_iff hrep hdrawn).mpr hfits
      exact ⟨hrep, x, w', hserve, hothers, hdel,
        (ih hrep' (drawn_serve hdrawn hserve)).mpr (hrest x w' hserve)⟩

/-- Nothing has been put. -/
def Contents.empty : Contents := fun _ _ _ => none

/-- From any tables and no items: the store holds one item for each key put and not deleted, through all
    requests, exactly when every request fits the store that it comes to. -/
theorem item_store (tables : OrderedMap Str Table) (calls : Nat) (requests : List ItemRequest) :
    Keeps rt requests ⟨⟨tables, ∅⟩, calls⟩ Contents.empty ↔ AllFit rt requests ⟨⟨tables, ∅⟩, calls⟩ := by
  refine keeps_iff ⟨fun oid item h => ?_, fun _ _ _ _ _ _ h => ?_, fun _ _ _ _ _ _ _ h => ?_⟩ fun oid item h => ?_
  · cases h
  · cases h
  · cases h.stored
  · cases h

/-! ### Two requests -/

/-- Draws that are counted, and a clock that stands still. -/
def Runtime.counting : Runtime where
  uuid n := List.replicate n (byte 'u')
  clock _ := { created := 0, modified := 0, values := fun _ => (0, 0) }
  uuid_inj := @replicate_u_inj

/-- A table with the key `id`. -/
def sampleTable : Table :=
  { region := str "eu", name := str "t", keySchemas := .ofList [(str "id", str "HASH")], created := 0, modified := 0 }

def sampleWorld : World := ⟨⟨.ofList [(str "x", sampleTable)], ∅⟩, 0⟩

def sampleKey (id : Str) : OrderedMap Str Value := .ofList [(str "id", { type := str "S", stringValue := id })]

def samplePut (id : Str) : ItemRequest :=
  .putItem { region := str "eu", tableName := str "t", attributes := sampleKey id }

def sampleDelete (id : Str) : ItemRequest :=
  .deleteItem { region := str "eu", tableName := str "t", key := sampleKey id }

/-- What holds of two requests, by evaluation. -/
theorem of_two_requests {r₁ r₂ : ItemRequest} {p : World → Except Error Unit → World → Bool}
    (h : ((serve .counting r₁ sampleWorld).all fun x => (serve .counting r₂ x.2).all fun y => p x.2 y.1 y.2) = true)
    {x₁ x₂ : Except Error Unit} {w₁ w₂ : World} (h₁ : serve .counting r₁ sampleWorld = some (x₁, w₁))
    (h₂ : serve .counting r₂ w₁ = some (x₂, w₂)) : p w₁ x₂ w₂ = true := by
  rw [h₁, Option.all_some, h₂, Option.all_some] at h
  exact h

/-- The second key put takes the place of the first one, and the deletion of a stored key fails. -/
theorem item_store_loses :
    ¬ Keeps .counting [samplePut (str "1"), samplePut (str "2")] sampleWorld Contents.empty ∧
      ¬ Keeps .counting [samplePut (str "1"), sampleDelete (str "1")] sampleWorld Contents.empty := by
  have hschema : schemaOf sampleWorld.db (str "eu") (str "t") = some sampleTable.keySchemas := by decide +kernel
  have hkey : (samplePut (str "1")).key sampleTable.keySchemas = sampleKey (str "1") := by decide +kernel
  have hfirst : Contents.empty.after sampleWorld.db (samplePut (str "1")) (str "eu") (str "t") (sampleKey (str "1")) =
      some (sampleKey (str "1")) := by
    rw [@after_some _ _ (samplePut (str "1")) _ hschema, hkey]
    exact Contents.set_self ..
  constructor
  · rintro ⟨-, x₁, w₁, h₁, -, -, -, x₂, w₂, h₂, -, -, hrep⟩
    have hp := @of_two_requests _ _ (fun w₁ _ w₂ =>
      decide (schemaOf w₁.db (str "eu") (str "t") = some sampleTable.keySchemas) &&
        decide (schemaOf w₂.db (str "eu") (str "t") = some sampleTable.keySchemas) &&
        w₂.db.items.values.all fun item =>
          decide (primaryKey sampleTable.keySchemas (valuesOf item.attributes) ≠ sampleKey (str "1")))
      (by decide +kernel) _ _ _ _ h₁ h₂
    simp only [Bool.and_eq_true, decide_eq_true_eq, List.all_eq_true] at hp
    obtain ⟨⟨hschema₁, hschema₂⟩, hnone⟩ := hp
    have hkey₂ : (samplePut (str "2")).key sampleTable.keySchemas ≠ sampleKey (str "1") := by decide +kernel
    obtain ⟨oid, item, hstored⟩ := hrep.complete _ _ _ hschema₂ (sampleKey (str "1")) (sampleKey (str "1")) (by
      rw [@after_some w₁.db _ (samplePut (str "2")) _ hschema₁, Contents.set, if_neg fun h => hkey₂ h.2.2.symm]
      exact hfirst)
    exact hnone item (List.mem_map.mpr ⟨(oid, item), OrderedMap.get?_eq_some.mp hstored.stored, rfl⟩)
      ((storedUnder_iff hschema₂).mp hstored).2.2.2
  · rintro ⟨-, x₁, w₁, h₁, -, -, hrep, x₂, w₂, h₂, -, hdel, -⟩
    have hp := @of_two_requests _ _ (fun w₁ x₂ _ =>
      decide (schemaOf w₁.db (str "eu") (str "t") = some sampleTable.keySchemas) && ! x₂.isOk)
      (by decide +kernel) _ _ _ _ h₁ h₂
    simp only [Bool.and_eq_true, decide_eq_true_eq] at hp
    obtain ⟨hschema₁, hfails⟩ := hp
    obtain ⟨oid, item, hstored⟩ := hrep.complete _ _ _ hschema₁ _ _ hfirst
    rw [hdel ⟨oid, item, hstored⟩] at hfails
    cases hfails

end AwsMock.DynamoDb
