import AwsMock.Core.Poco
import AwsMock.Lambda.Entity

/-!
# The in-memory lambda store

`LambdaMemoryDb`. A lookup by ARN writes the ARN over the object id of the record.
-/

namespace AwsMock.Lambda

open Lib

structure LambdaMemoryDb where
  lambdas : OrderedMap Str Lambda := ∅

namespace LambdaMemoryDb

variable (db : LambdaMemoryDb)

/-- The first record that satisfies `p`. -/
def findLambda (p : Lambda → Bool) : Option (Str × Lambda) := db.lambdas.findIf fun _ lambda => p lambda

/-- Write the object id into a record that was found. -/
def withOid (key oid : Str) (lambda : Lambda) : LambdaMemoryDb :=
  { lambdas := db.lambdas.insert key { lambda with oid := oid } }

def lambdaExists (function : Str) : Bool := (db.findLambda fun lambda => lambda.function = function).isSome

def lambdaExistsByArn (arn : Str) : Bool := (db.findLambda fun lambda => lambda.arn = arn).isSome

def listLambdas (region : Str) : List Lambda :=
  if region = [] then db.lambdas.values else db.lambdas.values.filter (·.region = region)

def getLambdaById (oid : Str) : Except Error Lambda × LambdaMemoryDb :=
  match db.lambdas.get? oid with
  | none => (.error (.pocoException (str "Get lambda by ID failed, arn: " ++ oid)), db)
  | some lambda => (.ok { lambda with oid := oid }, db.withOid oid oid lambda)

def getLambdaByArn (arn : Str) : Except Error Lambda × LambdaMemoryDb :=
  match db.findLambda fun lambda => lambda.arn = arn with
  | none => (.error (.pocoException (str "Get lambda by ARN failed, arn: " ++ arn)), db)
  | some (key, lambda) => (.ok { lambda with oid := arn }, db.withOid key arn lambda)

/-- The record that `UpdateLambda` replaces. -/
def findUpdated (lambda : Lambda) : Option (Str × Lambda) :=
  db.findLambda fun stored => stored.region = lambda.region ∧ stored.function = lambda.function

def updateLambda (lambda : Lambda) : Except Error Lambda × LambdaMemoryDb :=
  match db.findUpdated lambda with
  | none => (.error (.pocoException (str "Update lambda failed, region: " ++ lambda.region ++
      str " function: " ++ lambda.function)), db)
  | some (key, _) => (.ok lambda, { lambdas := db.lambdas.insert key lambda })

def setInstanceStatus (containerId : Str) (status : LambdaInstanceStatus) : LambdaMemoryDb :=
  { lambdas := db.lambdas.mapVal fun _ lambda => { lambda with
      instances := lambda.instances.map fun inst =>
        if inst.containerId = containerId then { inst with status := status } else inst } }

def deleteLambda (functionName : Str) : LambdaMemoryDb :=
  { lambdas := db.lambdas.eraseIf fun _ lambda => lambda.function = functionName }

end LambdaMemoryDb

/-! ### The instances of the store -/

/-- The instances of the store. -/
def LambdaMemoryDb.instances (db : LambdaMemoryDb) : List Instance :=
  db.lambdas.values.flatMap Lambda.instances

variable {db : LambdaMemoryDb} {inst : Instance}

theorem mem_instances : inst ∈ db.instances ↔ ∃ key lambda, db.lambdas.get? key = some lambda ∧
    inst ∈ lambda.instances := by
  simp only [LambdaMemoryDb.instances, OrderedMap.values, List.mem_flatMap, List.mem_map]
  constructor
  · rintro ⟨_, ⟨⟨key, lambda⟩, hentry, rfl⟩, hinst⟩
    exact ⟨key, lambda, OrderedMap.get?_eq_some.mpr hentry, hinst⟩
  · rintro ⟨key, lambda, hget, hinst⟩
    exact ⟨lambda, ⟨(key, lambda), OrderedMap.get?_eq_some.mp hget, rfl⟩, hinst⟩

/-- What a record that is written brings in. -/
theorem mem_instances_insert {key : Str} {lambda : Lambda}
    (h : inst ∈ LambdaMemoryDb.instances ⟨db.lambdas.insert key lambda⟩) :
    inst ∈ lambda.instances ∨ inst ∈ db.instances := by
  obtain ⟨key', lambda', hget, hinst⟩ := mem_instances.mp h
  rw [OrderedMap.get?_insert] at hget
  split at hget
  · cases hget
    exact .inl hinst
  · exact .inr (mem_instances.mpr ⟨key', lambda', hget, hinst⟩)

/-- What a record that is written leaves or replaces. -/
theorem mem_instances_of_insert {key : Str} {old lambda : Lambda} (hkey : db.lambdas.get? key = some old)
    (h : inst ∈ db.instances) : inst ∈ LambdaMemoryDb.instances ⟨db.lambdas.insert key lambda⟩ ∨
      inst ∈ old.instances := by
  obtain ⟨key', lambda', hget, hinst⟩ := mem_instances.mp h
  rcases eq_or_ne key' key with rfl | hne
  · rw [hkey] at hget
    cases hget
    exact .inr hinst
  · exact .inl (mem_instances.mpr ⟨key', lambda', by rw [OrderedMap.get?_insert_of_ne _ _ hne, hget], hinst⟩)

theorem mem_instances_inserted {key : Str} {lambda : Lambda} (h : inst ∈ lambda.instances) :
    inst ∈ LambdaMemoryDb.instances ⟨db.lambdas.insert key lambda⟩ :=
  mem_instances.mpr ⟨key, lambda, OrderedMap.get?_insert_self .., h⟩

/-- The object id that a lookup writes is no matter to the instances. -/
theorem mem_instances_withOid {key oid : Str} {lambda : Lambda} (hkey : db.lambdas.get? key = some lambda) :
    inst ∈ (db.withOid key oid lambda).instances ↔ inst ∈ db.instances := by
  constructor
  · intro h
    rcases mem_instances_insert h with h | h
    · exact mem_instances.mpr ⟨key, lambda, hkey, h⟩
    · exact h
  · intro h
    rcases mem_instances_of_insert hkey h with h | h
    · exact h
    · exact mem_instances_inserted h

theorem findLambda_eq_some {p : Lambda → Bool} {found : Str × Lambda} (h : db.findLambda p = some found) :
    db.lambdas.get? found.1 = some found.2 ∧ p found.2 = true :=
  ⟨OrderedMap.get?_eq_some.mpr (List.mem_of_find?_eq_some h), by simpa using List.find?_some h⟩

theorem mem_instances_getLambdaByArn (arn : Str) :
    inst ∈ (db.getLambdaByArn arn).2.instances ↔ inst ∈ db.instances := by
  unfold LambdaMemoryDb.getLambdaByArn
  split
  · rfl
  · next h => exact mem_instances_withOid (findLambda_eq_some h).1

theorem mem_instances_getLambdaById (oid : Str) :
    inst ∈ (db.getLambdaById oid).2.instances ↔ inst ∈ db.instances := by
  unfold LambdaMemoryDb.getLambdaById
  split
  · rfl
  · next h => exact mem_instances_withOid h

theorem mem_setInstanceStatus {containerId : Str} {status : LambdaInstanceStatus}
    (h : inst ∈ (db.setInstanceStatus containerId status).instances) : ∃ old ∈ db.instances,
      inst = if old.containerId = containerId then { old with status := status } else old := by
  obtain ⟨key, lambda, hget, hinst⟩ := mem_instances.mp h
  simp only [LambdaMemoryDb.setInstanceStatus, OrderedMap.get?_mapVal, Option.map_eq_some_iff] at hget
  obtain ⟨lambda, hget, rfl⟩ := hget
  obtain ⟨old, hold, rfl⟩ := List.mem_map.mp hinst
  exact ⟨old, mem_instances.mpr ⟨key, lambda, hget, hold⟩, rfl⟩

theorem mem_setInstanceStatus_of {containerId : Str} {status : LambdaInstanceStatus} (h : inst ∈ db.instances) :
    (if inst.containerId = containerId then { inst with status := status } else inst) ∈
      (db.setInstanceStatus containerId status).instances := by
  obtain ⟨key, lambda, hget, hinst⟩ := mem_instances.mp h
  have hget' : (db.setInstanceStatus containerId status).lambdas.get? key = some { lambda with
      instances := lambda.instances.map fun inst =>
        if inst.containerId = containerId then { inst with status := status } else inst } := by
    simp only [LambdaMemoryDb.setInstanceStatus, OrderedMap.get?_mapVal, hget, Option.map_some]
  exact mem_instances.mpr ⟨key, _, hget', List.mem_map.mpr ⟨inst, hinst, rfl⟩⟩

theorem findUpdated_get? {lambda : Lambda} {found : Str × Lambda} (h : db.findUpdated lambda = some found) :
    db.lambdas.get? found.1 = some found.2 := (findLambda_eq_some h).1

/-- What an update brings in. -/
theorem mem_instances_updateLambda {lambda : Lambda} (h : inst ∈ (db.updateLambda lambda).2.instances) :
    inst ∈ lambda.instances ∨ inst ∈ db.instances := by
  unfold LambdaMemoryDb.updateLambda at h
  split at h
  · exact .inr h
  · exact mem_instances_insert h

/-- What an update leaves or replaces. -/
theorem mem_instances_of_updateLambda {lambda : Lambda} (h : inst ∈ db.instances) :
    inst ∈ (db.updateLambda lambda).2.instances ∨ ∃ found, db.findUpdated lambda = some found ∧
      inst ∈ found.2.instances ∧ ∀ new ∈ lambda.instances, new ∈ (db.updateLambda lambda).2.instances := by
  unfold LambdaMemoryDb.updateLambda
  split
  · exact .inl h
  · next key old hfound =>
    rcases mem_instances_of_insert (findUpdated_get? hfound) h with h | h
    · exact .inl h
    · exact .inr ⟨_, hfound, h, fun new hnew => mem_instances_inserted hnew⟩

end AwsMock.Lambda
