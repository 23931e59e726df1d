import AwsMock.S3.MemoryDb

/-!
# Which records an object method changes

The database layer passes an object or a list of keys on to `UpdateObject`, `DeleteObject` and
`DeleteObjects`. Its MongoDB branch compares the region in the first two; the in-memory store compares
it in none of them.
-/

namespace AwsMock.S3

open Lib

/-- The three methods, with what their caller has in hand: `DeleteObjects` is not given the region of
    the request. -/
inductive ObjectChange where
  | updateObject (object : Object)
  | deleteObject (object : Object)
  | deleteObjects (region bucket : Str) (keys : List Str)

namespace ObjectChange

/-- The store after the method; `none` where the end iterator is dereferenced. -/
def run (db : S3MemoryDb) : ObjectChange → Option S3MemoryDb
  | updateObject object => (db.updateObject object).map Prod.snd
  | deleteObject object => some (db.deleteObject object.bucket object.key)
  | deleteObjects _ bucket keys => some (db.deleteObjects bucket keys)

/-- The records the caller means. -/
def Targets : ObjectChange → Object → Prop
  | updateObject object, o | deleteObject object, o => o.isAt object.region object.bucket object.key
  | deleteObjects region bucket keys, o => ∃ key ∈ keys, o.isAt region bucket key

/-- The method is defined, and what it changes, adds or removes is a record the caller means. -/
def Isolated (db : S3MemoryDb) (change : ObjectChange) : Prop :=
  ∃ db', change.run db = some db' ∧ db'.buckets = db.buckets ∧
    ∀ oid, db'.objects.get? oid ≠ db.objects.get? oid →
      ∃ o, db.objects.get? oid = some o ∧ change.Targets o

/-- No record of another region has the bucket and key. -/
def OwnRegion (db : S3MemoryDb) (region bucket key : Str) : Prop :=
  ∀ oid o, db.objects.get? oid = some o → o.isKeyed bucket key → o.region = region

/-- An update needs only the first record of the bucket and key to be of the region. -/
def Confined (db : S3MemoryDb) : ObjectChange → Prop
  | updateObject object =>
    ∃ oid o, db.objects.findIf (fun _ o => o.isKeyed object.bucket object.key) = some (oid, o) ∧
      o.region = object.region
  | deleteObject object => OwnRegion db object.region object.bucket object.key
  | deleteObjects region bucket keys => ∀ key ∈ keys, OwnRegion db region bucket key

end ObjectChange

namespace Object

variable {region bucket key : Str} {o : Object}

theorem isAt_iff : o.isAt region bucket key ↔ o.region = region ∧ o.isKeyed bucket key := by
  simp [isAt, isKeyed]

end Object

namespace S3MemoryDb

/-- The loop of `DeleteObjects` removes what any of its passes removes. -/
theorem get?_deleteObjects (bucket : Str) (oid : Str) : ∀ (keys : List Str) (db : S3MemoryDb),
    (db.deleteObjects bucket keys).objects.get? oid =
      (db.objects.get? oid).filter fun o => !keys.any fun key => o.isKeyed bucket key
  | [], db => by cases h : db.objects.get? oid <;> simp [deleteObjects, Option.filter, h]
  | key :: keys, db => by
      have hrest := get?_deleteObjects bucket oid keys (db.deleteObject bucket key)
      have hhead : (db.deleteObjects bucket (key :: keys)).objects =
          ((db.deleteObject bucket key).deleteObjects bucket keys).objects := rfl
      rw [hhead, hrest, deleteObject, OrderedMap.get?_eraseIf]
      cases db.objects.get? oid with
      | none => rfl
      | some o => cases o.isKeyed bucket key <;> simp

theorem get?_deleteObject (db : S3MemoryDb) (bucket key oid : Str) :
    (db.deleteObject bucket key).objects.get? oid =
      (db.objects.get? oid).filter fun o => !o.isKeyed bucket key := by
  simp [deleteObject]

end S3MemoryDb

namespace ObjectChange

variable (db : S3MemoryDb)

/-- A removal by a test leaves all records but the targets alone exactly when only targets pass it. -/
theorem isolated_of_filter {change : ObjectChange} (db' : S3MemoryDb) {removed : Object → Bool}
    (hrun : change.run db = some db') (hbuckets : db'.buckets = db.buckets)
    (hget : ∀ oid, db'.objects.get? oid = (db.objects.get? oid).filter fun o => !removed o) :
    Isolated db change ↔ ∀ oid o, db.objects.get? oid = some o → removed o → change.Targets o := by
  constructor
  · rintro ⟨db'', hrun', -, honly⟩ oid o ho hremoved
    obtain rfl : db' = db'' := Option.some.inj (hrun.symm.trans hrun')
    have hgone : db'.objects.get? oid ≠ db.objects.get? oid := by simp [hget, ho, hremoved]
    obtain ⟨o', ho', htarget⟩ := honly oid hgone
    obtain rfl : o = o' := Option.some.inj (ho.symm.trans ho')
    exact htarget
  · intro htargets
    refine ⟨db', hrun, hbuckets, fun oid hchanged => ?_⟩
    rw [hget oid] at hchanged
    rcases ho : db.objects.get? oid with _ | o
    · simp [ho] at hchanged
    · refine ⟨o, rfl, htargets oid o ho ?_⟩
      by_contra hkept
      simp [ho, hkept] at hchanged

theorem isolated_updateObject (object : Object) :
    Isolated db (updateObject object) ↔ Confined db (updateObject object) := by
  have hrun : (updateObject object).run db =
      (db.objects.findIf fun _ o => o.isKeyed object.bucket object.key).map fun it =>
        { db with objects := db.objects.insert it.1 object } := by
    simp only [run, S3MemoryDb.updateObject, Option.map_map]
    rfl
  rcases hfound : db.objects.findIf (fun _ o => o.isKeyed object.bucket object.key) with
    _ | ⟨oid, o⟩
  · simp [Isolated, Confined, hrun, hfound]
  · obtain ⟨ho, hkeyed⟩ := OrderedMap.findIf_some hfound
    have hput : (updateObject object).run db = some { db with objects := db.objects.insert oid object } := by
      rw [hrun, hfound]
      rfl
    constructor
    · rintro ⟨db', hrun', -, honly⟩
      obtain rfl : { db with objects := db.objects.insert oid object } = db' :=
        Option.some.inj (hput.symm.trans hrun')
      refine ⟨oid, o, hfound, ?_⟩
      by_contra hregion
      -- A record of another region differs from what is written over it.
      have hchanged : (db.objects.insert oid object).get? oid ≠ db.objects.get? oid := by
        rw [OrderedMap.get?_insert_self, ho]
        rintro ⟨⟩
        exact hregion rfl
      obtain ⟨o', ho', htarget⟩ := honly oid hchanged
      obtain rfl : o = o' := Option.some.inj (ho.symm.trans ho')
      exact hregion (Object.isAt_iff.mp htarget).1
    · rintro ⟨oid', o', hfound', hregion⟩
      obtain ⟨rfl, rfl⟩ : oid = oid' ∧ o = o' := by simpa [hfound] using hfound'
      refine ⟨_, hput, rfl, fun k hchanged => ?_⟩
      rcases eq_or_ne k oid with rfl | hk
      · exact ⟨o, ho, Object.isAt_iff.mpr ⟨hregion, hkeyed⟩⟩
      · exact absurd (OrderedMap.get?_insert_of_ne _ _ hk) hchanged

/-- The deletions are isolated where no other region has the bucket and key, an update where the first
    record it finds is of its region. -/
theorem object_changes_isolated (db : S3MemoryDb) (change : ObjectChange) :
    Isolated db change ↔ Confined db change := by
  cases change with
  | updateObject object => exact isolated_updateObject db object
  | deleteObject object =>
    rw [isolated_of_filter db (db.deleteObject object.bucket object.key) rfl rfl
      (db.get?_deleteObject object.bucket object.key)]
    simp only [Confined, OwnRegion, Targets, Object.isAt_iff]
    exact ⟨fun h oid o ho hkeyed => (h oid o ho hkeyed).1, fun h oid o ho hkeyed => ⟨h oid o ho hkeyed, hkeyed⟩⟩
  | deleteObjects region bucket keys =>
    rw [isolated_of_filter db (db.deleteObjects bucket keys) rfl rfl
      fun oid => S3MemoryDb.get?_deleteObjects bucket oid keys db]
    simp only [Confined, OwnRegion, Targets, Object.isAt_iff, List.any_eq_true]
    constructor
    · rintro h key hkey oid o ho hkeyed
      obtain ⟨-, -, hregion, -⟩ := h oid o ho ⟨key, hkey, hkeyed⟩
      exact hregion
    · rintro h oid o ho ⟨key, hkey, hkeyed⟩
      exact ⟨key, hkey, h key hkey oid o ho hkeyed, hkeyed⟩

/-- Two regions with a bucket `b` that has an object `k`: deleting the one of the first region removes
    both. -/
theorem object_of_other_region_deleted :
    ¬ Isolated
      { objects := ((∅ : OrderedMap Str Object).insert (str "1")
          { region := str "eu", bucket := str "b", key := str "k", created := 0, modified := 0 }).insert
          (str "2")
          { region := str "us", bucket := str "b", key := str "k", created := 0, modified := 0 } }
      (.deleteObject
        { region := str "eu", bucket := str "b", key := str "k", created := 0, modified := 0 }) := by
  rintro ⟨db', hrun, -, honly⟩
  obtain rfl := Option.some.inj hrun
  obtain ⟨o, ho, htarget⟩ := honly (str "2") (by decide +kernel)
  obtain rfl := Option.some.inj ho
  exact absurd (Object.isAt_iff.mp htarget).1 (by decide +kernel)

end ObjectChange

end AwsMock.S3
