import AwsMock.Lib.Bytes
import AwsMock.Lib.OrderedMap

/-!
# BSON documents

The elements of a document in the order they were appended. A name is a C string: one with a NUL cannot
be appended. An element is looked up by the first of its name, and reading it as another type throws.
-/

namespace Lib

inductive Bson where
  | null
  | string (s : Str)
  | int32 (n : Int)
  | int64 (n : Int)
  | bool (b : Bool)
  | date (millis : Int)
  | oid (text : Str)
  | document (elements : List (Str × Bson))
  | array (items : List Bson)

namespace Bson

/-- `view[name]`. -/
def element (name : Str) : List (Str × Bson) → Option Bson
  | [] => none
  | (key, value) :: rest => if key = name then some value else element name rest

/-- Under a name that is not repeated its value is found. -/
theorem element_of_mem {name : Str} {value : Bson} : ∀ {doc : List (Str × Bson)}, (doc.map Prod.fst).Nodup →
    (name, value) ∈ doc → element name doc = some value
  | (key, v) :: doc, hnodup, hmem => by
    rw [List.map_cons, List.nodup_cons] at hnodup
    rw [element]
    rcases List.mem_cons.mp hmem with heq | hmem
    · obtain ⟨rfl, rfl⟩ := Prod.mk.inj heq
      rw [if_pos rfl]
    · have hne : key ≠ name := by
        rintro rfl
        exact hnodup.1 (List.mem_map.mpr ⟨_, hmem, rfl⟩)
      rw [if_neg hne, element_of_mem hnodup.2 hmem]

/-- The `i`-th element is found, when no name is repeated. -/
theorem element_of_getElem? {name : Str} {value : Bson} {doc : List (Str × Bson)} (hnodup : (doc.map Prod.fst).Nodup)
    (i : Nat) (hi : doc[i]? = some (name, value)) : element name doc = some value :=
  element_of_mem hnodup (List.mem_of_getElem? hi)

/-- The accessors: `none` is the exception of an element that is missing or of another type. -/
def getString : Option Bson → Option Str
  | some (.string s) => some s
  | _ => none

def getInt32 : Option Bson → Option Int
  | some (.int32 n) => some n
  | _ => none

def getInt64 : Option Bson → Option Int
  | some (.int64 n) => some n
  | _ => none

def getBool : Option Bson → Option Bool
  | some (.bool b) => some b
  | _ => none

def getDate : Option Bson → Option Int
  | some (.date millis) => some millis
  | _ => none

def getOid : Option Bson → Option Str
  | some (.oid text) => some text
  | _ => none

def getDocument : Option Bson → Option (List (Str × Bson))
  | some (.document elements) => some elements
  | _ => none

def getArray : Option Bson → Option (List Bson)
  | some (.array items) => some items
  | _ => none

/-- `element[name]`: nothing when the element is no document. -/
def memberOf (name : Str) (item : Bson) : Option Bson := (getDocument (some item)).bind (element name)

/-! ### Dates -/

/-- `b_date` of a time point, which counts nanoseconds. -/
def dateOf (time : Int) : Int := time.tdiv 1000000

/-- The time point of a `b_date`. -/
def timeOf (millis : Int) : Int := millis * 1000000

/-- A time in whole milliseconds comes back. -/
theorem timeOf_dateOf_iff (time : Int) : timeOf (dateOf time) = time ↔ 1000000 ∣ time := by
  unfold timeOf dateOf
  constructor
  · intro h
    exact ⟨time.tdiv 1000000, h.symm.trans (Int.mul_comm ..)⟩
  · rintro ⟨n, rfl⟩
    rw [Int.mul_tdiv_cancel_left _ (by decide), Int.mul_comm]

/-! ### Maps of strings -/

/-- A document with one string for each entry of a map. -/
def ofMap (m : OrderedMap Str Str) : Option (List (Str × Bson)) :=
  if ∀ e ∈ m.entries, 0 ∉ e.1 then some (m.entries.map fun e => (e.1, .string e.2)) else none

/-- `emplace`: an entry that is there stays. -/
def emplace (m : OrderedMap Str Str) (key value : Str) : OrderedMap Str Str :=
  if (m.get? key).isSome then m else m.insert key value

/-- The entries of a document, each looked up by its name, emplaced into a map. -/
def intoMap (elements : List (Str × Bson)) (m : OrderedMap Str Str) : Option (OrderedMap Str Str) :=
  elements.foldlM (fun m e => (getString (element e.1 elements)).map (emplace m e.1)) m

/-- The entries of the document under a name, emplaced into a map; without the element the map stays. -/
def readMap (name : Str) (doc : List (Str × Bson)) (m : OrderedMap Str Str) : Option (OrderedMap Str Str) :=
  match element name doc with
  | some mapElement => do intoMap (← getDocument (some mapElement)) m
  | none => some m

theorem element_map {key value : Str} {es : List (Str × Str)} (hnodup : (es.map Prod.fst).Nodup)
    (hmem : (key, value) ∈ es) : element key (es.map fun e => (e.1, .string e.2)) = some (.string value) := by
  refine element_of_mem ?_ (List.mem_map.mpr ⟨_, hmem, rfl⟩)
  rwa [List.map_map]

/-- Entries that are emplaced one after the other: the map keeps what it has and gets the rest. -/
theorem get?_foldl_emplace (key : Str) : ∀ (es : List (Str × Str)) (m : OrderedMap Str Str),
    (es.foldl (fun m e => emplace m e.1 e.2) m).get? key =
      (m.get? key).or ((es.find? fun e => e.1 = key).map Prod.snd)
  | [], m => by simp
  | e :: es, m => by
      rw [List.foldl_cons, get?_foldl_emplace key es, emplace]
      by_cases he : e.1 = key
      · subst he
        cases hold : m.get? e.1 <;> simp [hold]
      · split
        · simp [he]
        · simp [he, OrderedMap.get?_insert_of_ne _ _ (Ne.symm he)]

/-- Reading the document of a map into another map. -/
theorem intoMap_ofMap {m : OrderedMap Str Str} {elements : List (Str × Bson)} (h : ofMap m = some elements)
    (m₀ : OrderedMap Str Str) :
    ∃ m', intoMap elements m₀ = some m' ∧ ∀ key, m'.get? key = (m₀.get? key).or (m.get? key) := by
  unfold ofMap at h
  split at h
  · obtain rfl := Option.some.inj h
    have hstep : ∀ (es : List (Str × Str)) (acc : OrderedMap Str Str), (∀ e ∈ es, e ∈ m.entries) →
        (es.map fun e => (e.1, Bson.string e.2)).foldlM (fun acc e =>
          (getString (element e.1 (m.entries.map fun e => (e.1, .string e.2)))).map (emplace acc e.1)) acc =
        some (es.foldl (fun acc e => emplace acc e.1 e.2) acc) := by
      intro es
      induction es with
      | nil => intro acc _; rfl
      | cons e es ih =>
        intro acc hmem
        rw [List.map_cons, List.foldlM_cons, element_map m.keys_nodup (hmem e (List.mem_cons_self ..))]
        exact ih _ fun x hx => hmem x (List.mem_cons_of_mem _ hx)
    refine ⟨_, hstep m.entries m₀ fun _ => id, fun key => ?_⟩
    rw [get?_foldl_emplace]
    unfold OrderedMap.get?
    congr!
  · cases h

/-- A map that is read back into nothing, or into itself. -/
theorem intoMap_self {m m₀ : OrderedMap Str Str} {elements : List (Str × Bson)} (h : ofMap m = some elements)
    (hm₀ : m₀ = ∅ ∨ m₀ = m) : intoMap elements m₀ = some m := by
  obtain ⟨m', hread, hget⟩ := intoMap_ofMap h m₀
  have hsame : m' = m := by
    refine OrderedMap.ext_get? fun key => ?_
    rw [hget]
    rcases hm₀ with rfl | rfl
    · simp
    · cases m₀.get? key <;> rfl
  rw [hread, hsame]

/-- The map can be written exactly when no name has a NUL. -/
theorem ofMap_isSome_iff {m : OrderedMap Str Str} : (∃ doc, ofMap m = some doc) ↔ ∀ e ∈ m.entries, 0 ∉ e.1 := by
  unfold ofMap
  split
  · next h => exact ⟨fun _ => h, fun _ => ⟨_, rfl⟩⟩
  · next h => exact ⟨by simp, fun hnul => absurd hnul h⟩

/-! ### Lists -/

/-- The elements of the array under a name, each read and appended to a list; without the element the list
    stays. -/
def readArray {α : Type} (read : Bson → Option α) (name : Str) (doc : List (Str × Bson)) (items : List α) :
    Option (List α) :=
  match element name doc with
  | some arrayElement => do
    let read ← (← getArray (some arrayElement)).mapM read
    return items ++ read
  | none => some items

theorem mapM_map {α β : Type} {write : α → Bson} {read : Bson → Option β} {f : α → β} :
    ∀ {items : List α}, (∀ a ∈ items, read (write a) = some (f a)) →
      (items.map write).mapM read = some (items.map f)
  | [], _ => rfl
  | a :: items, h => by
    rw [List.map_cons, List.mapM_cons, h a (List.mem_cons_self ..),
      mapM_map fun b hb => h b (List.mem_cons_of_mem _ hb)]
    rfl

/-- What is read of an array, when this is known for each element. -/
theorem readArray_map {α β : Type} {write : α → Bson} {read : Bson → Option β} {f : α → β} {name : Str}
    {doc : List (Str × Bson)} {items : List α} (helement : element name doc = some (.array (items.map write)))
    (h : ∀ a ∈ items, read (write a) = some (f a)) (before : List β) :
    readArray read name doc before = some (before ++ items.map f) := by
  have hitems : (items.map write).mapM read = some (items.map f) := mapM_map h
  simp [readArray, helement, getArray, hitems]

/-- An array whose elements are read as they were written. -/
theorem readArray_map_self {α : Type} {write : α → Bson} {read : Bson → Option α} {name : Str}
    {doc : List (Str × Bson)} {items : List α} (helement : element name doc = some (.array (items.map write)))
    (h : ∀ a ∈ items, read (write a) = some a) (before : List α) :
    readArray read name doc before = some (before ++ items) := by
  simpa using readArray_map (f := id) helement h before

end Bson

end Lib
