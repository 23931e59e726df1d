import AwsMock.Lib.Bytes
import AwsMock.Lib.OrderedMap

/-!
# JSON values

What a JSON parser returns. The members of an object are listed in the order in which the parser's
object enumerates its names (ascending, without repetition).
-/

namespace Lib

inductive Json where
  | null
  | bool (b : Bool)
  | int (n : Int)
  | str (s : Str)
  | arr (items : List Json)
  | obj (members : List (Str × Json))

namespace Json

/-- The member of an object under a name. -/
def member (name : Str) : List (Str × Json) → Option Json
  | [] => none
  | (key, value) :: members => if key = name then some value else member name members

@[simp] theorem member_nil (name : Str) : member name [] = none := rfl

@[simp] theorem member_cons (name key : Str) (value : Json) (members : List (Str × Json)) :
    member name ((key, value) :: members) = if key = name then some value else member name members :=
  rfl

/-- The members of an object whose names are set one after the other. -/
def ofSets (sets : List (Str × Json)) : List (Str × Json) := (OrderedMap.ofList sets).entries

/-- Under a name that is not repeated its value is found. -/
theorem member_of_mem {name : Str} {value : Json} : ∀ {members : List (Str × Json)},
    (members.map Prod.fst).Nodup → (name, value) ∈ members → member name members = some value
  | (key, v) :: members, hnodup, hmem => by
    rw [List.map_cons, List.nodup_cons] at hnodup
    rw [member_cons]
    rcases List.mem_cons.mp hmem with heq | hmem
    · obtain ⟨rfl, rfl⟩ := Prod.mk.inj heq
      rw [if_pos rfl]
    · have hne : key ≠ name := by
        rintro rfl
        exact hnodup.1 (List.mem_map.mpr ⟨_, hmem, rfl⟩)
      rw [if_neg hne]
      exact member_of_mem hnodup.2 hmem

theorem member_eq_none {name : Str} : ∀ {members : List (Str × Json)}, name ∉ members.map Prod.fst →
    member name members = none
  | [], _ => rfl
  | (key, v) :: members, h => by
    rw [List.map_cons, List.mem_cons, not_or] at h
    rw [member_cons, if_neg (Ne.symm h.1), member_eq_none h.2]

/-- What is set is found, when no name is set twice. -/
theorem member_ofSets_of_mem {name : Str} {value : Json} {sets : List (Str × Json)}
    (hnodup : (sets.map Prod.fst).Nodup) (hmem : (name, value) ∈ sets) :
    member name (ofSets sets) = some value :=
  member_of_mem (OrderedMap.keys_nodup _) ((OrderedMap.ofList_entries_perm hnodup).mem_iff.mpr hmem)

theorem member_ofSets_eq_none {name : Str} {sets : List (Str × Json)} (hnodup : (sets.map Prod.fst).Nodup)
    (h : name ∉ sets.map Prod.fst) : member name (ofSets sets) = none :=
  member_eq_none fun hmem => h (((OrderedMap.ofList_entries_perm hnodup).map Prod.fst).mem_iff.mp hmem)

/-- What is set `i`-th is found, when no name is set twice. -/
theorem member_ofSets {name : Str} {value : Json} {sets : List (Str × Json)} (hnodup : (sets.map Prod.fst).Nodup)
    (i : Nat) (hi : sets[i]? = some (name, value)) : member name (ofSets sets) = some value :=
  member_ofSets_of_mem hnodup (List.mem_of_getElem? hi)

/-- `getObject`: the members of an object under a name. -/
def objectMember (name : Str) (members : List (Str × Json)) : Option (List (Str × Json)) :=
  match member name members with
  | some (.obj inner) => some inner
  | _ => none

end Json

end Lib
