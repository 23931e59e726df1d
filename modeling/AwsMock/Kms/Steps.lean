import AwsMock.Kms.Service
import AwsMock.Lib.Naming

/-!
# What a call does to the keys

The key of an id is seen by its state and, where the store keeps it as it is, by its date.
-/

namespace AwsMock.Kms

open Lib OrderedMap

namespace KMSDatabase

def inMemory : KMSDatabase → Bool
  | memory _ => true
  | mongo _ => false

/-- Whether there is a record under an object id. -/
def has (db : KMSDatabase) (oid : Str) : Bool :=
  match db with
  | memory keys => (keys.get? oid).isSome
  | mongo documents => (documents.get? oid).isSome

/-- A state and a date as they are seen. -/
def view (db : KMSDatabase) (keyState : Str) (date : TimePoint) : Str × Option TimePoint :=
  (keyState, if db.inMemory then some date else none)

/-- What is seen of the key of an id. -/
def entry (db : KMSDatabase) (keyId : Str) : Option (Str × Option TimePoint) :=
  match db with
  | memory keys => (findKey keys keyId).map fun it => (it.2.keyState, some it.2.scheduledDeletion)
  | mongo documents => (findOne documents (str "keyId") keyId).map fun it => (it.2.keyState, none)

variable {keys : OrderedMap Str Key} {documents : OrderedMap Str KeyDocument} {keyId oid : Str} {key : Key}

theorem findKey_eq (keys : OrderedMap Str Key) (keyId : Str) : findKey keys keyId = firstNamed Key.keyId keys keyId := rfl

/-- A filter for the id of the key. -/
theorem findOne_keyId (documents : OrderedMap Str KeyDocument) (keyId : Str) :
    findOne documents (str "keyId") keyId = firstNamed KeyDocument.keyId documents keyId := by
  unfold findOne firstNamed
  refine congrArg documents.findIf (funext fun oid => funext fun document => ?_)
  have hstring : document.string (str "keyId") = some document.keyId := rfl
  simp only [hstring, Option.some.injEq]

/-- No document has a field `name`. -/
theorem findOne_name (documents : OrderedMap Str KeyDocument) (value : Str) :
    findOne documents (str "name") value = none := by
  refine findIf_none.mpr fun oid document _ => ?_
  have hstring : document.string (str "name") = none := rfl
  simp only [hstring, reduceCtorEq, decide_false]

theorem entry_memory (keys : OrderedMap Str Key) (keyId : Str) : (memory keys).entry keyId =
    (firstNamed Key.keyId keys keyId).map fun it => (it.2.keyState, some it.2.scheduledDeletion) := rfl

theorem entry_mongo (documents : OrderedMap Str KeyDocument) (keyId : Str) : (mongo documents).entry keyId =
    (firstNamed KeyDocument.keyId documents keyId).map fun it => (it.2.keyState, none) := by
  rw [entry, findOne_keyId]

/-! ### The calls of the store -/

theorem keyExists_eq (db : KMSDatabase) (keyId : Str) : db.keyExists keyId = (db.entry keyId).isSome := by
  cases db <;> simp [keyExists, entry]

/-- The object id that a record is given when it is read. -/
theorem entry_fetchKey {now : TimePoint} {it : Option (Str × Key)}
    (hit : ∀ e, it = some e → keys.get? e.1 = some e.2) (keyId : Str) :
    (fetchKey keys now it).2.entry keyId = (memory keys).entry keyId := by
  rcases it with _ | ⟨oid, key⟩
  · rfl
  · exact firstNamed_rewrite Key.keyId (fun key => (key.keyState, some key.scheduledDeletion)) (hit _ rfl) rfl rfl

theorem has_fetchKey {now : TimePoint} {it : Option (Str × Key)}
    (hit : ∀ e, it = some e → keys.get? e.1 = some e.2) (oid : Str) :
    (fetchKey keys now it).2.has oid = (memory keys).has oid := by
  rcases it with _ | ⟨oid', key⟩
  · rfl
  · simp only [fetchKey, has, get?_insert]
    split
    · next hoid => simp [hoid, hit _ rfl]
    · rfl

/-- A record under an object id that is new. -/
theorem entry_createKey_of_ne {db : KMSDatabase} (hoid : db.has oid = false) (hne : keyId ≠ key.keyId) :
    (db.createKey oid key).2.entry keyId = db.entry keyId := by
  cases db with
  | memory keys =>
    have hnone : keys.get? oid = none := by simpa [has] using hoid
    refine congrArg (Option.map _) (firstNamed_insert_of_ne (fun v hv => ?_) hne.symm)
    rw [hnone] at hv
    cases hv
  | mongo documents =>
    have hnone : documents.get? oid = none := by simpa [has] using hoid
    simp only [createKey, entry_mongo]
    refine congrArg (Option.map _) (firstNamed_insert_of_ne (fun v hv => ?_) hne.symm)
    rw [hnone] at hv
    cases hv

theorem has_createKey_of_ne {oid' : Str} (db : KMSDatabase) (key : Key) (hne : oid ≠ oid') :
    (db.createKey oid' key).2.has oid = db.has oid := by
  cases db <;> simp only [createKey, has, get?_insert_of_ne _ _ hne]

/-- What an update leaves of a key that is there. -/
theorem entry_updateKey_self {db : KMSDatabase} (h : db.entry key.keyId ≠ none) :
    (db.updateKey key).2.entry key.keyId = some (db.view key.keyState key.scheduledDeletion) := by
  cases db with
  | memory keys =>
    rcases hit : firstNamed Key.keyId keys key.keyId with _ | ⟨oid, old⟩
    · simp [entry_memory, hit] at h
    · simp only [updateKey, findKey_eq, hit, entry_memory]
      rw [firstNamed_insert_self hit rfl]
      rfl
  | mongo documents =>
    rcases hit : firstNamed KeyDocument.keyId documents key.keyId with _ | ⟨oid, old⟩
    · simp [entry_mongo, hit] at h
    · simp only [updateKey, findOne_keyId, hit, entry_mongo]
      rw [firstNamed_insert_self hit rfl]
      rfl

theorem entry_updateKey_of_ne (db : KMSDatabase) (hne : keyId ≠ key.keyId) :
    (db.updateKey key).2.entry keyId = db.entry keyId := by
  cases db with
  | memory keys =>
    rcases hit : firstNamed Key.keyId keys key.keyId with _ | ⟨oid, old⟩
    · simp only [updateKey, findKey_eq, hit]
    · simp only [updateKey, findKey_eq, hit, entry_memory]
      rw [firstNamed_insert_other hit rfl hne]
  | mongo documents =>
    rcases hit : firstNamed KeyDocument.keyId documents key.keyId with _ | ⟨oid, old⟩
    · simp only [updateKey, findOne_keyId, hit]
    · simp only [updateKey, findOne_keyId, hit, entry_mongo]
      rw [firstNamed_insert_other hit rfl hne]

/-- An update does not bring back a key. -/
theorem entry_updateKey_none {db : KMSDatabase} (h : db.entry keyId = none) :
    (db.updateKey key).2.entry keyId = none := by
  rcases eq_or_ne keyId key.keyId with rfl | hne
  · cases db with
    | memory keys =>
      have hnone : firstNamed Key.keyId keys key.keyId = none := by simpa [entry_memory] using h
      simpa only [updateKey, findKey_eq, hnone] using h
    | mongo documents =>
      have hnone : firstNamed KeyDocument.keyId documents key.keyId = none := by simpa [entry_mongo] using h
      simpa only [updateKey, findOne_keyId, hnone] using h
  · rw [entry_updateKey_of_ne db hne, h]

theorem has_updateKey (db : KMSDatabase) (key : Key) (oid : Str) : (db.updateKey key).2.has oid = db.has oid := by
  cases db with
  | memory keys =>
    rcases hit : findKey keys key.keyId with _ | ⟨oid', old⟩
    · simp only [updateKey, hit]
    · simp only [updateKey, hit, has, get?_insert]
      split
      · next hoid => simp [hoid, (findIf_some hit).1]
      · rfl
  | mongo documents =>
    rcases hit : findOne documents (str "keyId") key.keyId with _ | ⟨oid', old⟩
    · simp only [updateKey, hit]
    · simp only [updateKey, hit, has, get?_insert]
      split
      · next hoid => simp [hoid, (findIf_some hit).1]
      · rfl

/-- On MongoDB nothing is deleted. -/
theorem deleteKey_mongo (documents : OrderedMap Str KeyDocument) (key : Key) :
    (mongo documents).deleteKey key = mongo documents := by
  simp only [deleteKey, findOne_name]

theorem entry_deleteKey_self (keys : OrderedMap Str Key) (key : Key) :
    ((memory keys).deleteKey key).entry key.keyId = none := by
  simp only [deleteKey, entry_memory]
  exact Option.map_eq_none_iff.mpr firstNamed_eraseIf_self

theorem entry_deleteKey_of_ne (db : KMSDatabase) (hne : keyId ≠ key.keyId) :
    (db.deleteKey key).entry keyId = db.entry keyId := by
  cases db with
  | memory keys =>
    simp only [deleteKey, entry_memory]
    rw [firstNamed_eraseIf_of_ne hne]
  | mongo documents => rw [deleteKey_mongo]

theorem has_deleteKey (db : KMSDatabase) (key : Key) (h : (db.deleteKey key).has oid = true) : db.has oid = true := by
  cases db with
  | memory keys =>
    obtain ⟨old, hold⟩ := Option.isSome_iff_exists.mp h
    rw [get?_eraseIf] at hold
    exact Option.isSome_iff_exists.mpr ⟨old, (Option.filter_eq_some_iff.mp hold).1⟩
  | mongo documents => rwa [deleteKey_mongo] at h

/-- What is read by id has this id, or the key is missing and the record is empty. -/
theorem getKeyByKeyId_keyId {db : KMSDatabase} {now : TimePoint} {r : Key × KMSDatabase}
    (h : db.getKeyByKeyId keyId now = some r) : r.1.keyId = keyId ∨ r.1.keyId = [] ∧ db.entry keyId = none := by
  cases db with
  | memory keys =>
    cases h
    rcases hit : firstNamed Key.keyId keys keyId with _ | ⟨oid, key⟩
    · exact .inr ⟨by rw [findKey_eq, hit]; rfl, by rw [entry_memory, hit]; rfl⟩
    · refine .inl ?_
      rw [findKey_eq, hit]
      exact (firstNamed_some hit).2
  | mongo documents =>
    obtain ⟨⟨oid, document⟩, hit, rfl⟩ := Option.map_eq_some_iff.mp h
    rw [findOne_keyId] at hit
    exact .inl (firstNamed_some hit).2

/-- What a listing of the in-memory store shows of a key. -/
theorem listKeys_listed {keys : OrderedMap Str Key} {date : TimePoint} {state : Str} (now : TimePoint)
    (h : (memory keys).entry keyId = some (state, some date)) : ∃ key ∈ (memory keys).listKeys now,
      key.keyId = keyId ∧ key.keyState = state ∧ key.scheduledDeletion = date := by
  obtain ⟨⟨oid, key⟩, hit, hview⟩ := Option.map_eq_some_iff.mp h
  obtain ⟨hget, hname⟩ := firstNamed_some hit
  cases hview
  exact ⟨key, List.mem_map.mpr ⟨(oid, key), get?_eq_some.mp hget, rfl⟩, hname, rfl, rfl⟩

end KMSDatabase

open KMSDatabase

/-! ### All calls -/

/-- The calls that leave the keys as they are seen. -/
def KmsCall.Reads : KmsCall → Prop
  | .createKey _ | .updateKey _ | .deleteKey _ => False
  | _ => True

variable {rt : Runtime} {w : World} {c : KmsCall} {r : c.Reply × World}

theorem exec_cases (h : exec rt c w = some r) :
    c.apply rt w.calls w.db = some (r.1, r.2.db) ∧ r.2.calls = w.calls + 1 := by
  obtain ⟨x, hx, rfl⟩ := Option.map_eq_some_iff.mp h
  exact ⟨hx, rfl⟩

/-- What a read by an id leaves in the store. -/
theorem getKeyByKeyId_same {db : KMSDatabase} {keyId : Str} {now : TimePoint} {r : Key × KMSDatabase}
    (h : db.getKeyByKeyId keyId now = some r) :
    r.2.inMemory = db.inMemory ∧ (∀ keyId, r.2.entry keyId = db.entry keyId) ∧ ∀ oid, r.2.has oid = db.has oid := by
  cases db with
  | memory keys =>
    cases h
    have hit : ∀ e, findKey keys keyId = some e → keys.get? e.1 = some e.2 := fun e he => (findIf_some he).1
    refine ⟨?_, entry_fetchKey hit, has_fetchKey hit⟩
    cases findKey keys keyId <;> rfl
  | mongo documents =>
    obtain ⟨it, -, rfl⟩ := Option.map_eq_some_iff.mp h
    exact ⟨rfl, fun _ => rfl, fun _ => rfl⟩

theorem getKeyById_same {db : KMSDatabase} {oid : Str} {now : TimePoint} {r : Key × KMSDatabase}
    (h : db.getKeyById oid now = some r) :
    r.2.inMemory = db.inMemory ∧ (∀ keyId, r.2.entry keyId = db.entry keyId) ∧ ∀ oid, r.2.has oid = db.has oid := by
  cases db with
  | memory keys =>
    cases h
    have hit : ∀ e, (keys.findIf fun key _ => decide (key = oid)) = some e → keys.get? e.1 = some e.2 :=
      fun e he => (findIf_some he).1
    refine ⟨?_, entry_fetchKey hit, has_fetchKey hit⟩
    cases keys.findIf fun key _ => decide (key = oid) <;> rfl
  | mongo documents =>
    obtain ⟨it, -, rfl⟩ := Option.map_eq_some_iff.mp h
    exact ⟨rfl, fun _ => rfl, fun _ => rfl⟩

/-- A call that only reads. -/
theorem exec_reads (hc : c.Reads) (h : exec rt c w = some r) :
    r.2.db.inMemory = w.db.inMemory ∧ (∀ keyId, r.2.db.entry keyId = w.db.entry keyId) ∧
      ∀ oid, r.2.db.has oid = w.db.has oid := by
  obtain ⟨happly, -⟩ := exec_cases h
  cases c with
  | createKey | updateKey | deleteKey => exact hc.elim
  | getKeyById oid => exact getKeyById_same happly
  | getKeyByKeyId keyId => exact getKeyByKeyId_same happly
  | _ =>
    obtain ⟨-, hdb⟩ := Prod.mk.inj (Option.some.inj happly)
    rw [← hdb]
    exact ⟨rfl, fun _ => rfl, fun _ => rfl⟩

theorem exec_createKey {key : Key} {r : Key × World} (h : exec rt (.createKey key) w = some r) :
    r.2.db = (w.db.createKey (rt.uuid w.calls) key).2 :=
  (congrArg Prod.snd (Option.some.inj (exec_cases h).1)).symm

theorem exec_updateKey {key : Key} {r : Key × World} (h : exec rt (.updateKey key) w = some r) :
    r.2.db = (w.db.updateKey key).2 :=
  (congrArg Prod.snd (Option.some.inj (exec_cases h).1)).symm

theorem exec_deleteKey {key : Key} {r : Unit × World} (h : exec rt (.deleteKey key) w = some r) :
    r.2.db = w.db.deleteKey key :=
  (congrArg Prod.snd (Option.some.inj (exec_cases h).1)).symm

theorem exec_inMemory (h : exec rt c w = some r) : r.2.db.inMemory = w.db.inMemory := by
  cases c with
  | createKey key =>
    rw [exec_createKey h]
    cases w.db <;> rfl
  | updateKey key =>
    rw [exec_updateKey h]
    cases w.db with
    | memory keys => cases hit : findKey keys key.keyId <;> simp [updateKey, hit, inMemory]
    | mongo documents => cases hit : findOne documents (str "keyId") key.keyId <;> simp [updateKey, hit, inMemory]
  | deleteKey key =>
    rw [exec_deleteKey h]
    cases w.db with
    | memory keys => rfl
    | mongo documents => rw [deleteKey_mongo]
  | _ => exact (exec_reads (by trivial) h).1

/-- Object ids are drawn. -/
theorem exec_has (h : exec rt c w = some r) {oid : Str} (hhas : r.2.db.has oid = true) :
    w.db.has oid = true ∨ oid = rt.uuid w.calls := by
  cases c with
  | createKey key =>
    rw [exec_createKey h] at hhas
    refine or_iff_not_imp_right.mpr fun hne => ?_
    rwa [has_createKey_of_ne w.db key hne] at hhas
  | updateKey key =>
    rw [exec_updateKey h, has_updateKey] at hhas
    exact .inl hhas
  | deleteKey key =>
    rw [exec_deleteKey h] at hhas
    exact .inl (has_deleteKey w.db key hhas)
  | _ => exact .inl ((exec_reads (by trivial) h).2.2 oid ▸ hhas)

end AwsMock.Kms
