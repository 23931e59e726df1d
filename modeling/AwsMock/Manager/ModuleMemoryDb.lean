import AwsMock.Core.Poco
import AwsMock.Lib.OrderedMap

/-!
# The in-memory module store

`ModuleMemoryDb`, which records for each module whether it is active and whether it runs.
-/

namespace AwsMock.Manager

open Lib

inductive ModuleState where
  | stopped
  | starting
  | running
  | suspended
  | unknown
  deriving DecidableEq

inductive ModuleStatus where
  | inactive
  | active
  | unknown
  deriving DecidableEq

structure Module where
  oid : Str := []
  name : Str
  state : ModuleState
  status : ModuleStatus
  deriving DecidableEq

structure ModuleMemoryDb where
  modules : OrderedMap Str Module := ∅

namespace ModuleMemoryDb

variable (db : ModuleMemoryDb)

/-- The first record of a name. -/
def findModule (name : Str) : Option (Str × Module) := db.modules.findIf fun _ m => m.name = name

def moduleExists (name : Str) : Bool := (db.findModule name).isSome

def isActive (name : Str) : Bool := (db.modules.findIf fun _ m => m.name = name ∧ m.status = .active).isSome

def getModuleById (oid : Str) : Except Error Module × ModuleMemoryDb :=
  match db.modules.get? oid with
  | none => (.error (.pocoException (str "Get module by ID failed, oid: " ++ oid)), db)
  | some m => (.ok { m with oid := oid }, { modules := db.modules.insert oid { m with oid := oid } })

def getModuleByName (name : Str) : Except Error Module × ModuleMemoryDb :=
  match db.findModule name with
  | none => (.error (.pocoException (str "Get module by name failed, oid: " ++ name)), db)
  | some (key, m) => (.ok { m with oid := key }, { modules := db.modules.insert key { m with oid := key } })

/-- `oid` is the UUID that is drawn. -/
def createModule (oid : Str) (m : Module) : Except Error Module × ModuleMemoryDb :=
  getModuleById { modules := db.modules.insert oid m } oid

def listModules : List Module := db.modules.values

def setState (name : Str) (state : ModuleState) : Except Error Module × ModuleMemoryDb :=
  match db.findModule name with
  | none => (.error (.pocoException (str "Set state failed, module: " ++ name)), db)
  | some (key, m) => (.ok { m with state := state }, { modules := db.modules.insert key { m with state := state } })

def setStatus (name : Str) (status : ModuleStatus) : Except Error Unit × ModuleMemoryDb :=
  match db.findModule name with
  | none => (.error (.pocoException (str "Set status failed, module: " ++ name)), db)
  | some (key, m) => (.ok (), { modules := db.modules.insert key { m with status := status } })

/-- The state that is recorded for a module. -/
def recorded (name : Str) : Option ModuleState := (db.findModule name).map (·.2.state)

variable {db : ModuleMemoryDb} {name key : Str} {m m' : Module} {state : ModuleState}

/-! ### What the operations change -/

theorem findModule_some (h : db.findModule name = some (key, m)) : db.modules.get? key = some m ∧ m.name = name :=
  ⟨(OrderedMap.findIf_some h).1, of_decide_eq_true (OrderedMap.findIf_some h).2⟩

theorem recorded_isSome : (db.recorded name).isSome = db.moduleExists name := Option.isSome_map

/-- A record is replaced by one of the same name. -/
theorem findModule_insert (h : db.modules.get? key = some m) (hname : m'.name = m.name) (name : Str) :
    findModule { modules := db.modules.insert key m' } name =
      (db.findModule name).map fun e => if e.1 = key then (key, m') else e := by
  rw [findModule, OrderedMap.findIf_insert_of_same (p := fun _ m => decide (m.name = name)) h (by simp [hname])]
  refine congrArg (fun f => Option.map f _) (funext fun e => ?_)
  by_cases hk : e.1 = key
  · simp [hk]
  · simp [hk]

theorem moduleExists_insert (h : db.modules.get? key = some m) (hname : m'.name = m.name) (name : Str) :
    moduleExists { modules := db.modules.insert key m' } name = db.moduleExists name := by
  rw [moduleExists, findModule_insert h hname, Option.isSome_map, moduleExists]

theorem isActive_insert (h : db.modules.get? key = some m) (hname : m'.name = m.name) (hstatus : m'.status = m.status)
    (name : Str) : isActive { modules := db.modules.insert key m' } name = db.isActive name := by
  rw [isActive, OrderedMap.findIf_insert_of_same (p := fun _ m => decide (m.name = name ∧ m.status = .active)) h
    (by simp [hname, hstatus]), Option.isSome_map, isActive]

theorem recorded_insert (h : db.findModule name = some (key, m)) (hname : m'.name = m.name) (other : Str) :
    recorded { modules := db.modules.insert key m' } other =
      if other = name then some m'.state else db.recorded other := by
  obtain ⟨hget, hm⟩ := findModule_some h
  rw [recorded, findModule_insert hget hname, Option.map_map]
  split
  · next heq =>
    subst heq
    simp [h]
  · next hne =>
    rw [recorded]
    rcases hfind : db.findModule other with _ | e
    · rfl
    obtain ⟨hget', hm'⟩ := findModule_some hfind
    have hkey : e.1 ≠ key := by
      rintro heq
      rw [heq, hget] at hget'
      exact hne (by rw [← hm', ← Option.some.inj hget', hm])
    simp [hkey]

/-- A record is replaced by one of the same name and status. -/
theorem replaced (m' : Module) (h : db.findModule name = some (key, m)) (hname : m'.name = m.name)
    (hstatus : m'.status = m.status) (other : Str) :
    recorded { modules := db.modules.insert key m' } other =
      (if other = name then some m'.state else db.recorded other) ∧
    isActive { modules := db.modules.insert key m' } other = db.isActive other ∧
    moduleExists { modules := db.modules.insert key m' } other = db.moduleExists other :=
  have hget := (findModule_some h).1
  ⟨recorded_insert h hname other, isActive_insert hget hname hstatus other, moduleExists_insert hget hname other⟩

theorem getModuleByName_ok (h : db.findModule name = some (key, m)) :
    (db.getModuleByName name).1 = .ok { m with oid := key } ∧ ∀ other,
      (db.getModuleByName name).2.recorded other = db.recorded other ∧
      (db.getModuleByName name).2.isActive other = db.isActive other ∧
      (db.getModuleByName name).2.moduleExists other = db.moduleExists other := by
  have hafter : db.getModuleByName name =
      (.ok { m with oid := key }, { modules := db.modules.insert key { m with oid := key } }) := by
    rw [getModuleByName, h]
  rw [hafter]
  refine ⟨rfl, fun other => ?_⟩
  have hother := replaced { m with oid := key } h rfl rfl other
  refine ⟨hother.1.trans ?_, hother.2⟩
  split
  · next heq => simp [recorded, heq, h]
  · rfl

theorem setState_ok (h : db.moduleExists name = true) (state : ModuleState) :
    (∃ m, (db.setState name state).1 = .ok m) ∧ ∀ other,
      (db.setState name state).2.recorded other = (if other = name then some state else db.recorded other) ∧
      (db.setState name state).2.isActive other = db.isActive other ∧
      (db.setState name state).2.moduleExists other = db.moduleExists other := by
  obtain ⟨⟨key, m⟩, hfind⟩ := Option.isSome_iff_exists.mp h
  have hafter : db.setState name state =
      (.ok { m with state := state }, { modules := db.modules.insert key { m with state := state } }) := by
    rw [setState, hfind]
  rw [hafter]
  exact ⟨⟨_, rfl⟩, fun other => replaced { m with state := state } hfind rfl rfl other⟩

/-! ### A new store -/

/-- The store holds a stopped and active record for each of some names, under the UUID drawn for it, and no other. -/
structure Holds (db : ModuleMemoryDb) (oid : Str → Str) (names : List Str) : Prop where
  mem : ∀ {key m}, db.modules.get? key = some m →
    m.name ∈ names ∧ key = oid m.name ∧ m.state = .stopped ∧ m.status = .active
  has : ∀ name ∈ names, ∃ m, db.modules.get? (oid name) = some m

variable {oid : Str → Str} {names : List Str}

namespace Holds

theorem empty (oid : Str → Str) : Holds {} oid [] where
  mem h := by cases h
  has _ h := by cases h

theorem findModule (h : Holds db oid names) (hname : name ∈ names) (hinj : ∀ a ∈ names, oid a = oid name → a = name) :
    ∃ m, db.findModule name = some (oid name, m) ∧ m.name = name ∧ m.state = .stopped ∧ m.status = .active := by
  obtain ⟨m, hget⟩ := h.has name hname
  obtain ⟨hmem, hkey, hstate, hstatus⟩ := h.mem hget
  have hm : m.name = name := hinj _ hmem hkey.symm
  refine ⟨m, OrderedMap.findIf_unique hget (by simp [hm]) fun key' m' hget' hp => ?_, hm, hstate, hstatus⟩
  rw [(h.mem hget').2.1, of_decide_eq_true hp]

theorem findModule_eq_none (h : Holds db oid names) (hname : name ∉ names) : db.findModule name = none := by
  refine OrderedMap.findIf_none.mpr fun key m hget => ?_
  refine decide_eq_false fun hm => hname ?_
  rw [← hm]
  exact (h.mem hget).1

theorem insert_same (h : Holds db oid names) (hget : db.modules.get? key = some m) (hname : m'.name = m.name)
    (hstate : m'.state = .stopped) (hstatus : m'.status = .active) :
    Holds { modules := db.modules.insert key m' } oid names where
  mem hget' := by
    rw [OrderedMap.get?_insert] at hget'
    split at hget'
    · next heq =>
      cases hget'
      obtain ⟨hmem, hkey, -, -⟩ := h.mem hget
      exact ⟨hname ▸ hmem, by rw [hname, heq, ← hkey], hstate, hstatus⟩
    · exact h.mem hget'
  has other hother := by
    obtain ⟨m'', hget''⟩ := h.has other hother
    rw [OrderedMap.get?_insert]
    split
    · exact ⟨_, rfl⟩
    · exact ⟨m'', hget''⟩

end Holds

end ModuleMemoryDb

end AwsMock.Manager
