import Mathlib.Data.List.Nodup
import Mathlib.Data.List.Perm.Basic
import Mathlib.Data.List.Range

/-!
# Serial orders

Members of a system that commit one after another. The order in which they have committed explains the state: each
member leads from the state that the ones before it have left to the next.
-/

namespace Lib

variable {ι σ α β : Type}

/-- The members of a list lead from one state to another. -/
inductive Serial (R : ι → σ → σ → Prop) : List ι → σ → σ → Prop
  | nil (s : σ) : Serial R [] s s
  | concat {order : List ι} {i : ι} {s t u : σ} : Serial R order s t → R i t u → Serial R (order ++ [i]) s u

namespace Serial

variable {R R' : ι → σ → σ → Prop} {order : List ι} {s t : σ}

theorem mono (h : Serial R order s t) (hR : ∀ i ∈ order, ∀ s t, R i s t → R' i s t) : Serial R' order s t := by
  induction h with
  | nil s => exact .nil s
  | concat _ hi ih =>
    refine .concat (ih fun i hmem => hR i (List.mem_append_left _ hmem)) (hR _ ?_ _ _ hi)
    exact List.mem_append_right _ (List.mem_singleton_self _)

/-- Members that act by a function. -/
theorem foldl (h : Serial R order s t) {act : σ → ι → σ} (hact : ∀ i ∈ order, ∀ s t, R i s t → act s i = t) :
    order.foldl act s = t := by
  induction h with
  | nil s => rfl
  | concat _ hi ih =>
    rw [List.foldl_append, ih fun i hmem => hact i (List.mem_append_left _ hmem)]
    exact hact _ (List.mem_append_right _ (List.mem_singleton_self _)) _ _ hi

end Serial

/-- The order lists the members that have committed, once each, and explains the state. -/
structure Committed (R : ι → σ → σ → Prop) (done : ι → Prop) (order : List ι) (s t : σ) : Prop where
  nodup : order.Nodup
  mem : ∀ i, i ∈ order ↔ done i
  serial : Serial R order s t

namespace Committed

variable {R R' : ι → σ → σ → Prop} {done done' : ι → Prop} {order : List ι} {s t u : σ}

theorem initial (h : ∀ i, ¬ done i) (s : σ) : Committed R done [] s s where
  nodup := .nil
  mem i := iff_of_false List.not_mem_nil (h i)
  serial := .nil s

/-- No member commits, and those that have keep what they did. -/
theorem stay (h : Committed R done order s t) (hdone : ∀ i, done' i ↔ done i)
    (hR : ∀ i, done i → ∀ s t, R i s t → R' i s t) : Committed R' done' order s t where
  nodup := h.nodup
  mem i := (h.mem i).trans (hdone i).symm
  serial := h.serial.mono fun i hmem => hR i ((h.mem i).mp hmem)

/-- One more member commits. -/
theorem commit (h : Committed R done order s t) {j : ι} (hj : ¬ done j) (hdone : ∀ i, done' i ↔ done i ∨ i = j)
    (hR : ∀ i, done i → ∀ s t, R i s t → R' i s t) (hstep : R' j t u) : Committed R' done' (order ++ [j]) s u where
  nodup := by
    refine List.nodup_append.mpr ⟨h.nodup, List.nodup_singleton j, fun i hi i' hi' => ?_⟩
    rintro rfl
    obtain rfl := List.mem_singleton.mp hi'
    exact hj ((h.mem i).mp hi)
  mem i := by rw [List.mem_append, List.mem_singleton, h.mem, hdone]
  serial := .concat (h.serial.mono fun i hmem => hR i ((h.mem i).mp hmem)) hstep

end Committed

/-- What a list shows, place by place. -/
theorem filterMap_eq_places (f : α → Option β) (xs : List α) :
    xs.filterMap f = (List.range xs.length).filterMap fun i => xs[i]?.bind f := by
  induction xs using List.reverseRecOn with
  | nil => rfl
  | append_singleton xs x ih =>
    have hfront : ∀ i ∈ List.range xs.length, (xs ++ [x])[i]?.bind f = xs[i]?.bind f := by
      intro i hi
      rw [List.getElem?_append_left (List.mem_range.mp hi)]
    rw [List.filterMap_append, List.length_append, List.length_singleton, List.range_succ, List.filterMap_append,
      List.filterMap_congr hfront, ih]
    simp [List.filterMap_cons]

/-- What a list shows, taken in another order of the places that show something. -/
theorem filterMap_places_perm {xs : List α} {f : α → Option β} {order : List Nat} (hnodup : order.Nodup)
    (hmem : ∀ i, i ∈ order ↔ (xs[i]?.bind f).isSome = true) :
    (order.filterMap fun i => xs[i]?.bind f).Perm (xs.filterMap f) := by
  have horder : order.Perm ((List.range xs.length).filter fun i => (xs[i]?.bind f).isSome) := by
    refine (List.perm_ext_iff_of_nodup hnodup (List.nodup_range.filter _)).mpr fun i => ?_
    rw [hmem, List.mem_filter, List.mem_range]
    refine (and_iff_right_of_imp fun h => ?_).symm
    obtain ⟨b, hb⟩ := Option.isSome_iff_exists.mp h
    obtain ⟨x, hx, -⟩ := Option.bind_eq_some_iff.mp hb
    exact (List.getElem?_eq_some_iff.mp hx).1
  refine (horder.filterMap _).trans (.of_eq ?_)
  rw [filterMap_eq_places f xs, List.filterMap_filter]
  refine List.filterMap_congr fun i _ => ?_
  rcases xs[i]?.bind f with _ | b <;> rfl

end Lib
