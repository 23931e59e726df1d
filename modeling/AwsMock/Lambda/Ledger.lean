import AwsMock.Lambda.Service

/-!
# The books of the lambda store

What the tasks do to the records, without the calls: a record is read, an instance is made or stopped, and
the record is written back from what was read. The ledger says what each task has read and what it has
done that the records do not show yet. `Accounted` holds as long as nothing is written from a stale
record.
-/

namespace AwsMock.Lambda

open Lib

/-- The part of a record that the tasks must not lose. -/
structure View where
  region : Str
  function : Str
  arn : Str
  tags : OrderedMap Str Str
  ids : List Str
  containers : List Str

def Lambda.view (lambda : Lambda) : View where
  region := lambda.region
  function := lambda.function
  arn := lambda.arn
  tags := lambda.tags
  ids := lambda.instances.map Instance.id
  containers := lambda.instances.map Instance.containerId

/-- The same function. -/
def View.Same (v v' : View) : Prop := v.region = v'.region ∧ v.function = v'.function

/-! ### Tasks -/

/-- The function whose tags a task changes. -/
def Task.tagArn : Task → Option Str
  | .createTag request => some request.arn
  | .deleteTags request => some request.arn
  | _ => none

/-- What a task makes of the tags that it has read. -/
def Task.change : Task → OrderedMap Str Str → OrderedMap Str Str
  | .createTag request, tags => emplaceTags tags request.tags
  | .deleteTags request, tags => eraseTags tags request.tags
  | _, tags => tags

/-- The tags with those of a request over them. -/
def setTags (tags added : OrderedMap Str Str) : OrderedMap Str Str :=
  added.entries.foldl (fun tags tag => tags.insert tag.1 tag.2) tags

/-- What a task is asked to make of the tags of a function. -/
def Task.retag (task : Task) (arn : Str) (tags : OrderedMap Str Str) : OrderedMap Str Str :=
  match task with
  | .createTag request => if request.arn = arn then setTags tags request.tags else tags
  | .deleteTags request => if request.arn = arn then eraseTags tags request.tags else tags
  | _ => tags

/-- The function that a task deletes. -/
def Task.deletes : Task → Option Str
  | .deleteFunction request => some request.functionName
  | _ => none

theorem Task.retag_of_ne {task : Task} {arn : Str} (h : task.tagArn ≠ some arn) (tags : OrderedMap Str Str) :
    task.retag arn tags = tags := by
  cases task with
  | createTag request => exact if_neg fun heq => h (congrArg some heq)
  | deleteTags request => exact if_neg fun heq => h (congrArg some heq)
  | _ => rfl

theorem Task.tagArn_of_deletes {task : Task} {f : Str} (h : task.deletes = some f) : task.tagArn = none := by
  cases task <;> first | rfl | cases h

/-- New tags are set. -/
theorem emplaceTags_eq {added : OrderedMap Str Str} {tags : OrderedMap Str Str}
    (h : ∀ tag ∈ added.entries, ∀ value, tags.get? tag.1 = some value → value = tag.2) :
    emplaceTags tags added = setTags tags added := by
  unfold emplaceTags setTags
  have hsorted := added.sorted
  generalize added.entries = es at h hsorted
  induction es generalizing tags with
  | nil => rfl
  | cons tag es ih =>
    obtain ⟨hfirst, hsorted⟩ := List.pairwise_cons.mp hsorted
    have hset : (if (tags.get? tag.1).isSome then tags else tags.insert tag.1 tag.2) = tags.insert tag.1 tag.2 := by
      split
      · next hsome =>
        obtain ⟨value, hvalue⟩ := Option.isSome_iff_exists.mp hsome
        cases h tag List.mem_cons_self value hvalue
        exact (OrderedMap.insert_get?_self hvalue).symm
      · rfl
    simp only [List.foldl_cons, hset]
    refine ih (fun other hother value hvalue => ?_) hsorted
    rw [OrderedMap.get?_insert_of_ne _ _ (hfirst other hother).ne'] at hvalue
    exact h other (List.mem_cons_of_mem _ hother) value hvalue

/-- On the tags of its function a task does what it is asked to. -/
theorem Task.change_eq {task : Task} {arn : Str} {tags : OrderedMap Str Str} (harn : ∀ a, task.tagArn = some a → arn = a)
    (hnew : ∀ request, task = .createTag request → ∀ tag ∈ request.tags.entries, ∀ value,
      tags.get? tag.1 = some value → value = tag.2) : task.change tags = task.retag arn tags := by
  cases task with
  | createTag request => exact (emplaceTags_eq (hnew request rfl)).trans (if_pos (harn _ rfl).symm).symm
  | deleteTags request => exact (if_pos (harn _ rfl).symm).symm
  | _ => rfl

/-! ### The ledger -/

/-- What a task has read, and what it has done that is not stored yet: the container that it has made for a
    function, and those that it has stopped. -/
structure Phase where
  read : List View := []
  made : Option (Str × Str) := none
  stopping : List Str := []
  done : Bool := false
  failed : Bool := false

structure Ledger where
  stored : Str → Option View
  created : List (Str × Str) := []
  stopped : List Str := []
  phase : Nat → Phase := fun _ => {}

/-- The record that a task writes for one that it has read. -/
structure Derives (task : Task) (q : Phase) (r w : View) : Prop where
  region : w.region = r.region
  function : w.function = r.function
  arn : w.arn = r.arn
  tags : w.tags = task.change r.tags
  once : task.tagArn.isSome → q.done = false
  containers : w.containers.Sublist (r.containers ++ q.made.toList.map Prod.snd)
  made : ∀ f c, q.made = some (f, c) → f = r.function ∧ c ∈ w.containers
  kept : (task = .worker → r.ids.Nodup) → ∀ c ∈ r.containers, c ∉ w.containers → c ∈ q.stopping
  dropped : r.containers.Nodup → ∀ c ∈ q.stopping, c ∈ r.containers ∧ c ∉ w.containers

/-- The records of a store are told apart by their functions, their ARNs and their containers. -/
structure Separate (stored : Str → Option View) : Prop where
  function : ∀ key key' v v', stored key = some v → stored key' = some v' → v.Same v' → key = key'
  arn : ∀ key key' v v', stored key = some v → stored key' = some v' → v.arn = v'.arn → key = key'
  distinct : ∀ key v, stored key = some v → v.containers.Nodup
  apart : ∀ key key' v v' c, stored key = some v → stored key' = some v' → c ∈ v.containers →
    c ∈ v'.containers → key = key'

/-- The containers of the first records and those that were created later. -/
def Born (first : Str → Option View) (s : Ledger) (f c : Str) : Prop :=
  (f, c) ∈ s.created ∨ ∃ key v, first key = some v ∧ v.function = f ∧ c ∈ v.containers

/-- The tags of a function after the tasks of a list, one after the other. -/
def retagAll (task : Nat → Option Task) (arn : Str) (order : List Nat) (tags : OrderedMap Str Str) :
    OrderedMap Str Str :=
  order.foldl (fun tags i => ((task i).map fun t => t.retag arn tags).getD tags) tags

/-- Everything that was done is stored or noted as being under way. -/
structure Accounted (first : Str → Option View) (task : Nat → Option Task) (s : Ledger) : Prop where
  names : ∀ key v, s.stored key = some v → ∃ v₀, first key = some v₀ ∧ v.Same v₀ ∧ v.arn = v₀.arn
  known : ∀ i, ∀ r ∈ (s.phase i).read, ∃ key v₀, first key = some v₀ ∧ r.Same v₀ ∧ r.arn = v₀.arn
  arns : ∀ i t arn, task i = some t → t.tagArn = some arn → ∀ r ∈ (s.phase i).read, r.arn = arn
  distinct : ∀ key v, s.stored key = some v → v.containers.Nodup
  apart : ∀ key key' v v' c, s.stored key = some v → s.stored key' = some v' → c ∈ v.containers →
    c ∈ v'.containers → key = key'
  distinctRead : ∀ i, ∀ r ∈ (s.phase i).read, r.containers.Nodup
  apartRead : ∀ i, ∀ r ∈ (s.phase i).read, ∀ key v c, s.stored key = some v → c ∈ r.containers →
    c ∈ v.containers → r.Same v
  madeNew : ∀ i f c, (s.phase i).made = some (f, c) → (f, c) ∈ s.created ∧ c ∉ s.stopped ∧
    (∀ key v, s.stored key = some v → c ∉ v.containers) ∧ (∀ j, ∀ r ∈ (s.phase j).read, c ∉ r.containers) ∧
      ∀ j f', (s.phase j).made = some (f', c) → j = i
  stopping : ∀ i, ∀ c ∈ (s.phase i).stopping, c ∈ s.stopped
  recorded : ∀ f c, Born first s f c → c ∈ s.stopped ∨
    (∃ key v, s.stored key = some v ∧ v.function = f ∧ c ∈ v.containers) ∨
    (∃ i, (s.phase i).made = some (f, c)) ∨ ∃ i t, task i = some t ∧ t.deletes = some f ∧ (s.phase i).done = true
  removed : ∀ c ∈ s.stopped, ∀ key v, s.stored key = some v → c ∈ v.containers → ∃ i, c ∈ (s.phase i).stopping
  tags : ∃ order : List Nat, order.Nodup ∧
    (∀ i, i ∈ order ↔ ∃ t, task i = some t ∧ t.tagArn.isSome ∧ (s.phase i).done = true) ∧
    ∀ key v, s.stored key = some v → ∃ v₀, first key = some v₀ ∧ v.tags = retagAll task v.arn order v₀.tags

variable {first : Str → Option View} {task : Nat → Option Task} {s : Ledger} {i : Nat}

theorem accounted_first (h : Separate first) : Accounted first task { stored := first } where
  names key v hv := ⟨v, hv, ⟨rfl, rfl⟩, rfl⟩
  known _ _ hr := by cases hr
  arns _ _ _ _ _ _ hr := by cases hr
  distinct := h.distinct
  apart := h.apart
  distinctRead _ _ hr := by cases hr
  apartRead _ _ hr := by cases hr
  madeNew _ _ _ h := by cases h
  stopping _ _ hc := by cases hc
  recorded f c hborn := by
    rcases hborn with hc | ⟨key, v, hv, hf, hc⟩
    · cases hc
    · exact .inr (.inl ⟨key, v, hv, hf, hc⟩)
  removed _ hc := by cases hc
  tags := by
    refine ⟨[], List.nodup_nil, fun i => ?_, fun key v hv => ⟨v, hv, rfl⟩⟩
    constructor
    · intro hi
      cases hi
    · rintro ⟨t, -, -, hdone⟩
      cases hdone

/-! ### What a task does -/

def Ledger.setPhase (s : Ledger) (i : Nat) (q : Phase) : Ledger := { s with phase := Function.update s.phase i q }

theorem setPhase_self (q : Phase) : (s.setPhase i q).phase i = q := Function.update_self ..

theorem setPhase_of_ne {j : Nat} (q : Phase) (h : j ≠ i) : (s.setPhase i q).phase j = s.phase j :=
  Function.update_of_ne h ..

/-- A part of the phases that an entry leaves as it is. -/
theorem setPhase_same {γ : Type} {φ : Phase → γ} {q : Phase} (h : φ q = φ (s.phase i)) (j : Nat) :
    φ ((s.setPhase i q).phase j) = φ (s.phase j) := by
  rcases eq_or_ne j i with rfl | hj
  · rw [setPhase_self, h]
  · rw [setPhase_of_ne q hj]

/-- A task reads records that are stored. -/
theorem Accounted.reads (h : Accounted first task s) {read : List View} (hread : ∀ r ∈ read, ∃ key, s.stored key = some r)
    (harn : ∀ t arn, task i = some t → t.tagArn = some arn → ∀ r ∈ read, r.arn = arn) :
    Accounted first task (s.setPhase i { s.phase i with read := read }) := by
  have hmade := @setPhase_same s i _ Phase.made { s.phase i with read := read } rfl
  have hstopping := @setPhase_same s i _ Phase.stopping { s.phase i with read := read } rfl
  have hdone := @setPhase_same s i _ Phase.done { s.phase i with read := read } rfl
  have hall : ∀ {p : Nat → View → Prop}, (∀ j, ∀ r ∈ (s.phase j).read, p j r) → (∀ r ∈ read, p i r) →
      ∀ j, ∀ r ∈ ((s.setPhase i { s.phase i with read := read }).phase j).read, p j r := by
    intro p hold hnew j r hr
    rcases eq_or_ne j i with rfl | hj
    · rw [setPhase_self] at hr
      exact hnew r hr
    · rw [setPhase_of_ne _ hj] at hr
      exact hold j r hr
  refine {
    names := h.names
    known := hall h.known fun r hr => ?_
    arns := fun j t arn ht hta => ?_
    distinct := h.distinct
    apart := h.apart
    distinctRead := hall h.distinctRead fun r hr => ?_
    apartRead := hall h.apartRead fun r hr => ?_
    madeNew := fun j f c hj => ?_
    stopping := fun j c hc => h.stopping j c (hstopping j ▸ hc)
    recorded := fun f c hborn => ?_
    removed := fun c hc key v hv hin => ?_
    tags := ?_ }
  · obtain ⟨key, hkey⟩ := hread r hr
    obtain ⟨v₀, hv₀, hsame, harn⟩ := h.names key r hkey
    exact ⟨key, v₀, hv₀, hsame, harn⟩
  · rcases eq_or_ne j i with rfl | hj
    · rw [setPhase_self]
      exact harn t arn ht hta
    · rw [setPhase_of_ne _ hj]
      exact h.arns j t arn ht hta
  · obtain ⟨key, hkey⟩ := hread r hr
    exact h.distinct key r hkey
  · obtain ⟨key', hkey'⟩ := hread r hr
    intro key v c hv hc hcv
    cases h.apart key key' v r c hv hkey' hcv hc
    cases Option.some_inj.mp (hkey'.symm.trans hv)
    exact ⟨rfl, rfl⟩
  · rw [hmade j] at hj
    obtain ⟨hcreated, hstopped, hnew, hunread, hunique⟩ := h.madeNew j f c hj
    refine ⟨hcreated, hstopped, hnew, hall hunread fun r hr => ?_, fun l f' hl => hunique l f' (hmade l ▸ hl)⟩
    obtain ⟨key, hkey⟩ := hread r hr
    exact hnew key r hkey
  · rcases h.recorded f c hborn with hc | hc | ⟨j, hj⟩ | ⟨j, t, ht, hf, hj⟩
    · exact .inl hc
    · exact .inr (.inl hc)
    · exact .inr (.inr (.inl ⟨j, (hmade j).trans hj⟩))
    · exact .inr (.inr (.inr ⟨j, t, ht, hf, (hdone j).trans hj⟩))
  · obtain ⟨j, hj⟩ := h.removed c hc key v hv hin
    exact ⟨j, (hstopping j).symm ▸ hj⟩
  · obtain ⟨order, hnodup, horder, htags⟩ := h.tags
    refine ⟨order, hnodup, fun j => ?_, htags⟩
    rw [hdone j]
    exact horder j

/-- A task fails to write. -/
theorem Accounted.fails (h : Accounted first task s) :
    Accounted first task (s.setPhase i { s.phase i with failed := true }) := by
  have hread := @setPhase_same s i _ Phase.read { s.phase i with failed := true } rfl
  have hmade := @setPhase_same s i _ Phase.made { s.phase i with failed := true } rfl
  have hstopping := @setPhase_same s i _ Phase.stopping { s.phase i with failed := true } rfl
  have hdone := @setPhase_same s i _ Phase.done { s.phase i with failed := true } rfl
  refine ⟨h.names, ?_, ?_, h.distinct, h.apart, ?_, ?_, ?_, ?_, ?_, ?_, ?_⟩ <;>
    simp only [hread, hmade, hstopping, hdone]
  · exact h.known
  · exact h.arns
  · exact h.distinctRead
  · exact h.apartRead
  · exact h.madeNew
  · exact h.stopping
  · exact h.recorded
  · exact h.removed
  · exact h.tags

/-- A task stops a container that it has read. -/
theorem Accounted.stops (h : Accounted first task s) {r : View} {c : Str} (hr : r ∈ (s.phase i).read)
    (hc : c ∈ r.containers) : Accounted first task
      { s.setPhase i { s.phase i with stopping := (s.phase i).stopping ++ [c] } with stopped := s.stopped ++ [c] } := by
  have hread := @setPhase_same s i _ Phase.read { s.phase i with stopping := (s.phase i).stopping ++ [c] } rfl
  have hmade := @setPhase_same s i _ Phase.made { s.phase i with stopping := (s.phase i).stopping ++ [c] } rfl
  have hdone := @setPhase_same s i _ Phase.done { s.phase i with stopping := (s.phase i).stopping ++ [c] } rfl
  refine {
    names := h.names
    known := fun j r hr => h.known j r (hread j ▸ hr)
    arns := fun j t arn ht hta r hr => h.arns j t arn ht hta r (hread j ▸ hr)
    distinct := h.distinct
    apart := h.apart
    distinctRead := fun j r hr => h.distinctRead j r (hread j ▸ hr)
    apartRead := fun j r hr => h.apartRead j r (hread j ▸ hr)
    madeNew := fun j f c' hj => ?_
    stopping := fun j c' hc' => ?_
    recorded := fun f c' hborn => ?_
    removed := fun c' hc' key v hv hin => ?_
    tags := ?_ }
  · rw [hmade j] at hj
    obtain ⟨hcreated, hstopped, hnew, hunread, hunique⟩ := h.madeNew j f c' hj
    refine ⟨hcreated, fun hin => ?_, hnew, fun l r hr => hunread l r (hread l ▸ hr), fun l f' hl => hunique l f' (hmade l ▸ hl)⟩
    rcases List.mem_append.mp hin with hin | hin
    · exact hstopped hin
    · cases List.mem_singleton.mp hin
      exact hunread i r hr hc
  · rcases eq_or_ne j i with rfl | hj
    · rw [setPhase_self] at hc'
      exact (List.mem_append.mp hc').elim (fun hold => List.mem_append_left _ (h.stopping j c' hold))
        (List.mem_append_right _)
    · rw [setPhase_of_ne _ hj] at hc'
      exact List.mem_append_left _ (h.stopping j c' hc')
  · rcases h.recorded f c' hborn with hc' | hc' | ⟨j, hj⟩ | ⟨j, t, ht, hf, hj⟩
    · exact .inl (List.mem_append_left _ hc')
    · exact .inr (.inl hc')
    · exact .inr (.inr (.inl ⟨j, (hmade j).trans hj⟩))
    · exact .inr (.inr (.inr ⟨j, t, ht, hf, (hdone j).trans hj⟩))
  · rcases List.mem_append.mp hc' with hc' | hc'
    · obtain ⟨j, hj⟩ := h.removed c' hc' key v hv hin
      rcases eq_or_ne j i with rfl | hji
      · exact ⟨j, by rw [setPhase_self]; exact List.mem_append_left _ hj⟩
      · exact ⟨j, by rwa [setPhase_of_ne _ hji]⟩
    · exact ⟨i, by rw [setPhase_self]; exact List.mem_append_right _ hc'⟩
  · obtain ⟨order, hnodup, horder, htags⟩ := h.tags
    refine ⟨order, hnodup, fun j => ?_, htags⟩
    rw [hdone j]
    exact horder j

/-- A container id that nothing has. -/
structure Unseen (s : Ledger) (c : Str) : Prop where
  created : ∀ f, (f, c) ∉ s.created
  stopped : c ∉ s.stopped
  stored : ∀ key v, s.stored key = some v → c ∉ v.containers
  read : ∀ i, ∀ r ∈ (s.phase i).read, c ∉ r.containers

/-- A task makes a container. -/
theorem Accounted.makes (h : Accounted first task s) {f c : Str} (hc : Unseen s c)
    (hnone : (s.phase i).made = none) : Accounted first task
      { s.setPhase i { s.phase i with made := some (f, c) } with created := s.created ++ [(f, c)] } := by
  have hread := @setPhase_same s i _ Phase.read { s.phase i with made := some (f, c) } rfl
  have hstopping := @setPhase_same s i _ Phase.stopping { s.phase i with made := some (f, c) } rfl
  have hdone := @setPhase_same s i _ Phase.done { s.phase i with made := some (f, c) } rfl
  have hmade : ∀ j p, ((s.setPhase i { s.phase i with made := some (f, c) }).phase j).made = some p →
      j = i ∧ p = (f, c) ∨ (s.phase j).made = some p := by
    intro j p hj
    rcases eq_or_ne j i with rfl | hji
    · rw [setPhase_self] at hj
      exact .inl ⟨rfl, (Option.some_inj.mp hj).symm⟩
    · rw [setPhase_of_ne _ hji] at hj
      exact .inr hj
  refine {
    names := h.names
    known := fun j r hr => h.known j r (hread j ▸ hr)
    arns := fun j t arn ht hta r hr => h.arns j t arn ht hta r (hread j ▸ hr)
    distinct := h.distinct
    apart := h.apart
    distinctRead := fun j r hr => h.distinctRead j r (hread j ▸ hr)
    apartRead := fun j r hr => h.apartRead j r (hread j ▸ hr)
    madeNew := fun j f' c' hj => ?_
    stopping := fun j c' hc' => h.stopping j c' (hstopping j ▸ hc')
    recorded := fun f' c' hborn => ?_
    removed := fun c' hc' key v hv hin => ?_
    tags := ?_ }
  · rcases hmade j _ hj with ⟨rfl, heq⟩ | hold
    · cases heq
      refine ⟨List.mem_append_right _ (List.mem_singleton.mpr rfl), hc.stopped, hc.stored,
        fun l r hr => hc.read l r (hread l ▸ hr), fun l f'' hl => ?_⟩
      rcases hmade l _ hl with ⟨rfl, -⟩ | hold
      · rfl
      · exact absurd (h.madeNew l f'' c hold).1 (hc.created f'')
    · obtain ⟨hcreated, hstopped, hnew, hunread, hunique⟩ := h.madeNew j f' c' hold
      refine ⟨List.mem_append_left _ hcreated, hstopped, hnew, fun l r hr => hunread l r (hread l ▸ hr), fun l f'' hl => ?_⟩
      rcases hmade l _ hl with ⟨-, heq⟩ | hold'
      · cases heq
        exact absurd hcreated (hc.created f')
      · exact hunique l f'' hold'
  · have hold : Born first s f' c' ∨ (f', c') = (f, c) := by
      rcases hborn with hin | hfirst
      · exact (List.mem_append.mp hin).imp .inl List.mem_singleton.mp
      · exact .inl (.inr hfirst)
    rcases hold with hold | heq
    · rcases h.recorded f' c' hold with hc' | hc' | ⟨j, hj⟩ | ⟨j, t, ht, hf, hj⟩
      · exact .inl hc'
      · exact .inr (.inl hc')
      · refine .inr (.inr (.inl ⟨j, ?_⟩))
        have hji : j ≠ i := by
          rintro rfl
          rw [hnone] at hj
          cases hj
        rwa [setPhase_of_ne _ hji]
      · exact .inr (.inr (.inr ⟨j, t, ht, hf, (hdone j).trans hj⟩))
    · cases heq
      exact .inr (.inr (.inl ⟨i, by rw [setPhase_self]⟩))
  · obtain ⟨j, hj⟩ := h.removed c' hc' key v hv hin
    exact ⟨j, (hstopping j).symm ▸ hj⟩
  · obtain ⟨order, hnodup, horder, htags⟩ := h.tags
    refine ⟨order, hnodup, fun j => ?_, htags⟩
    rw [hdone j]
    exact horder j

/-- A task deletes a function. -/
theorem Accounted.deletes (h : Accounted first task s) {f : Str} {t : Task} (ht : task i = some t)
    (hdeletes : t.deletes = some f) : Accounted first task { s.setPhase i { s.phase i with done := true } with
      stored := fun key => (s.stored key).filter fun v => v.function ≠ f } := by
  have hread := @setPhase_same s i _ Phase.read { s.phase i with done := true } rfl
  have hmade := @setPhase_same s i _ Phase.made { s.phase i with done := true } rfl
  have hstopping := @setPhase_same s i _ Phase.stopping { s.phase i with done := true } rfl
  have hdone : ∀ j, (s.phase j).done = true → ((s.setPhase i { s.phase i with done := true }).phase j).done = true := by
    intro j hj
    rcases eq_or_ne j i with rfl | hji
    · rw [setPhase_self]
    · rwa [setPhase_of_ne _ hji]
  have hstored : ∀ key v, (s.stored key).filter (fun v => v.function ≠ f) = some v → s.stored key = some v :=
    fun key v hv => (Option.filter_eq_some_iff.mp hv).1
  refine {
    names := fun key v hv => h.names key v (hstored key v hv)
    known := fun j r hr => h.known j r (hread j ▸ hr)
    arns := fun j t arn ht hta r hr => h.arns j t arn ht hta r (hread j ▸ hr)
    distinct := fun key v hv => h.distinct key v (hstored key v hv)
    apart := fun key key' v v' c hv hv' => h.apart key key' v v' c (hstored key v hv) (hstored key' v' hv')
    distinctRead := fun j r hr => h.distinctRead j r (hread j ▸ hr)
    apartRead := fun j r hr key v c hv => h.apartRead j r (hread j ▸ hr) key v c (hstored key v hv)
    madeNew := fun j f' c hj => ?_
    stopping := fun j c hc => h.stopping j c (hstopping j ▸ hc)
    recorded := fun f' c hborn => ?_
    removed := fun c hc key v hv hin => ?_
    tags := ?_ }
  · obtain ⟨hcreated, hstopped, hnew, hunread, hunique⟩ := h.madeNew j f' c (hmade j ▸ hj)
    exact ⟨hcreated, hstopped, fun key v hv => hnew key v (hstored key v hv), fun l r hr => hunread l r (hread l ▸ hr),
      fun l f'' hl => hunique l f'' (hmade l ▸ hl)⟩
  · rcases h.recorded f' c hborn with hc | ⟨key, v, hv, rfl, hc⟩ | ⟨j, hj⟩ | ⟨j, t', ht', hf, hj⟩
    · exact .inl hc
    · by_cases hf : v.function = f
      · exact .inr (.inr (.inr ⟨i, t, ht, hf ▸ hdeletes, by rw [setPhase_self]⟩))
      · exact .inr (.inl ⟨key, v, Option.filter_eq_some_iff.mpr ⟨hv, decide_eq_true hf⟩, rfl, hc⟩)
    · exact .inr (.inr (.inl ⟨j, (hmade j).trans hj⟩))
    · exact .inr (.inr (.inr ⟨j, t', ht', hf, hdone j hj⟩))
  · obtain ⟨j, hj⟩ := h.removed c hc key v (hstored key v hv) hin
    exact ⟨j, (hstopping j).symm ▸ hj⟩
  · obtain ⟨order, hnodup, horder, htags⟩ := h.tags
    refine ⟨order, hnodup, fun j => ?_, fun key v hv => htags key v (hstored key v hv)⟩
    rw [horder j]
    refine exists_congr fun t' => and_congr_right fun ht' => and_congr_right fun htag => ?_
    rcases eq_or_ne j i with rfl | hji
    · rw [ht] at ht'
      cases ht'
      rw [Task.tagArn_of_deletes hdeletes] at htag
      cases htag
    · rw [setPhase_of_ne _ hji]

/-- A record that was read bears the ARN of the record that is stored. -/
theorem Accounted.arn_eq (hfirst : Separate first) (h : Accounted first task s) {r v : View} {key : Str}
    (hr : r ∈ (s.phase i).read) (hkey : s.stored key = some v) (hsame : r.Same v) : r.arn = v.arn := by
  obtain ⟨key₁, v₁, hv₁, hsame₁, harn₁⟩ := h.known i r hr
  obtain ⟨v₀, hv₀, hsame₀, harn₀⟩ := h.names key v hkey
  have hsame' : v₁.Same v₀ :=
    ⟨hsame₁.1.symm.trans (hsame.1.trans hsame₀.1), hsame₁.2.symm.trans (hsame.2.trans hsame₀.2)⟩
  cases hfirst.function key₁ key v₁ v₀ hv₁ hv₀ hsame'
  cases Option.some_inj.mp (hv₁.symm.trans hv₀)
  exact harn₁.trans harn₀.symm

theorem Accounted.key_of_arn (hfirst : Separate first) (h : Accounted first task s) {v v' : View} {key key' : Str}
    (hkey : s.stored key = some v) (hkey' : s.stored key' = some v') (harn : v.arn = v'.arn) : key = key' := by
  obtain ⟨v₀, hv₀, -, harn₀⟩ := h.names key v hkey
  obtain ⟨v₀', hv₀', -, harn₀'⟩ := h.names key' v' hkey'
  exact hfirst.arn key key' v₀ v₀' hv₀ hv₀' (harn₀.symm.trans (harn.trans harn₀'))

/-- One more task at the end of an order. -/
theorem retagAll_concat {arn : Str} {order : List Nat} {tags : OrderedMap Str Str} {t : Task} (ht : task i = some t) :
    retagAll task arn (order ++ [i]) tags = t.retag arn (retagAll task arn order tags) := by
  simp only [retagAll, List.foldl_append, List.foldl_cons, List.foldl_nil, ht, Option.map_some, Option.getD_some]

/-- The entry for a record that is written. -/
def Ledger.write (s : Ledger) (i : Nat) (key : Str) (w : View) : Ledger :=
  { s.setPhase i { s.phase i with made := none, stopping := [], done := true } with
    stored := Function.update s.stored key (some w) }

section Write

variable {t : Task} {key : Str} {r v w : View}

/-- A record after the write. -/
theorem stored_write {key' : Str} {v' : View} (h : (s.write i key w).stored key' = some v') :
    key' = key ∧ v' = w ∨ key' ≠ key ∧ s.stored key' = some v' := by
  simp only [Ledger.write, Function.update_apply] at h
  split at h
  · next heq =>
    cases h
    exact .inl ⟨heq, rfl⟩
  · next hne => exact .inr ⟨hne, h⟩

theorem stored_write_self : (s.write i key w).stored key = some w := Function.update_self ..

theorem stored_write_of_ne {key' : Str} (h : key' ≠ key) : (s.write i key w).stored key' = s.stored key' :=
  Function.update_of_ne h ..

/-- The tags after a write. -/
theorem Accounted.tags_write (hfirst : Separate first) (h : Accounted first task s) (ht : task i = some t)
    (hkey : s.stored key = some v) (harn : w.arn = v.arn) (hargs : ∀ a, t.tagArn = some a → v.arn = a)
    (hdone : t.tagArn.isSome → (s.phase i).done = false) (htags : w.tags = t.change v.tags)
    (hnew : ∀ request, t = .createTag request → ∀ tag ∈ request.tags.entries, ∀ value,
      v.tags.get? tag.1 = some value → value = tag.2) :
    ∃ order : List Nat, order.Nodup ∧
      (∀ j, j ∈ order ↔ ∃ t, task j = some t ∧ t.tagArn.isSome ∧ ((s.write i key w).phase j).done = true) ∧
      ∀ key' v', (s.write i key w).stored key' = some v' → ∃ v₀, first key' = some v₀ ∧
        v'.tags = retagAll task v'.arn order v₀.tags := by
  obtain ⟨order, hnodup, horder, hall⟩ := h.tags
  have hphase : ∀ j, j ≠ i → (s.write i key w).phase j = s.phase j := fun j hj => setPhase_of_ne _ hj
  rcases htag : t.tagArn with _ | a
  · refine ⟨order, hnodup, fun j => ?_, fun key' v' hv' => ?_⟩
    · rw [horder j]
      refine exists_congr fun t' => and_congr_right fun ht' => and_congr_right fun hsome => ?_
      rcases eq_or_ne j i with rfl | hji
      · rw [ht] at ht'
        cases ht'
        rw [htag] at hsome
        cases hsome
      · rw [hphase j hji]
    · rcases stored_write hv' with ⟨rfl, rfl⟩ | ⟨-, hv'⟩
      · obtain ⟨v₀, hv₀, heq⟩ := hall _ v hkey
        refine ⟨v₀, hv₀, ?_⟩
        rw [htags, harn, ← heq]
        cases t <;> first | rfl | cases htag
      · exact hall key' v' hv'
  · have hnot : i ∉ order := by
      intro hi
      obtain ⟨t', ht', -, hdone'⟩ := (horder i).mp hi
      rw [hdone (by rw [htag]; rfl)] at hdone'
      cases hdone'
    refine ⟨order ++ [i], ?_, fun j => ?_, fun key' v' hv' => ?_⟩
    · refine List.nodup_append.mpr ⟨hnodup, by simp, fun j hj l hl heq => ?_⟩
      cases List.mem_singleton.mp hl
      exact hnot (heq ▸ hj)
    · rw [List.mem_append, List.mem_singleton, horder j]
      rcases eq_or_ne j i with rfl | hji
      · refine iff_of_true (.inr rfl) ⟨t, ht, by rw [htag]; rfl, ?_⟩
        exact congrArg Phase.done (setPhase_self ..)
      · rw [hphase j hji]
        exact or_iff_left hji
    · rcases stored_write hv' with ⟨rfl, rfl⟩ | ⟨hne, hv'⟩
      · obtain ⟨v₀, hv₀, heq⟩ := hall _ v hkey
        refine ⟨v₀, hv₀, ?_⟩
        rw [retagAll_concat ht, harn, ← heq, htags]
        exact Task.change_eq hargs hnew
      · obtain ⟨v₀, hv₀, heq⟩ := hall key' v' hv'
        refine ⟨v₀, hv₀, ?_⟩
        rw [retagAll_concat ht, ← heq]
        refine (Task.retag_of_ne ?_ _).symm
        intro ha
        exact hne (h.key_of_arn hfirst hv' hkey ((Option.some_inj.mp (htag.symm.trans ha)).symm.trans (hargs a htag).symm))

/-- A task writes a record back that nobody has changed since. -/
theorem Accounted.writes (hfirst : Separate first) (h : Accounted first task s) (ht : task i = some t)
    (hr : r ∈ (s.phase i).read) (hderives : Derives t (s.phase i) r w) (hkey : s.stored key = some v)
    (hsame : w.Same v) (hcontainers : r.containers = v.containers) (htags : r.tags = v.tags)
    (hids : t = .worker → r.ids.Nodup)
    (hnew : ∀ request, t = .createTag request → ∀ tag ∈ request.tags.entries, ∀ value,
      v.tags.get? tag.1 = some value → value = tag.2) : Accounted first task (s.write i key w) := by
  have hrv : r.Same v := ⟨hderives.region.symm.trans hsame.1, hderives.function.symm.trans hsame.2⟩
  have harn : w.arn = v.arn := hderives.arn.trans (h.arn_eq hfirst hr hkey hrv)
  have hdistinct := h.distinctRead i r hr
  have hread : ∀ j, ((s.write i key w).phase j).read = (s.phase j).read := setPhase_same rfl
  have hphase : ∀ j, j ≠ i → (s.write i key w).phase j = s.phase j := fun j hj => setPhase_of_ne _ hj
  have hmade : ∀ j p, ((s.write i key w).phase j).made = some p → j ≠ i ∧ (s.phase j).made = some p := by
    intro j p hj
    rcases eq_or_ne j i with rfl | hji
    · have hnone : ((s.write j key w).phase j).made = none := congrArg Phase.made (setPhase_self ..)
      rw [hnone] at hj
      cases hj
    · rw [hphase j hji] at hj
      exact ⟨hji, hj⟩
  -- a container of the new record was in the old one, or the task has made it
  have hfrom : ∀ c ∈ w.containers, c ∈ v.containers ∨ ∃ f, (s.phase i).made = some (f, c) := by
    intro c hc
    rcases List.mem_append.mp (hderives.containers.subset hc) with hc | hc
    · exact .inl (hcontainers ▸ hc)
    · obtain ⟨⟨f, c⟩, hp, rfl⟩ := List.mem_map.mp hc
      exact .inr ⟨f, Option.mem_toList.mp hp⟩
  refine {
    names := fun key' v' hv' => ?_
    known := fun j r hr => h.known j r (hread j ▸ hr)
    arns := fun j t arn ht hta r hr => h.arns j t arn ht hta r (hread j ▸ hr)
    distinct := fun key' v' hv' => ?_
    apart := fun key₁ key₂ v₁ v₂ c h₁ h₂ hc₁ hc₂ => ?_
    distinctRead := fun j r hr => h.distinctRead j r (hread j ▸ hr)
    apartRead := fun j r' hr' key' v' c hv' hc hc' => ?_
    madeNew := fun j f c hj => ?_
    stopping := fun j c hc => ?_
    recorded := fun f c hborn => ?_
    removed := fun c hc key' v' hv' hin => ?_
    tags := h.tags_write hfirst ht hkey harn (fun a ha => ?_) hderives.once (htags ▸ hderives.tags) hnew }
  · rcases stored_write hv' with ⟨rfl, rfl⟩ | ⟨-, hv'⟩
    · obtain ⟨v₀, hv₀, hsame₀, harn₀⟩ := h.names _ v hkey
      exact ⟨v₀, hv₀, ⟨hsame.1.trans hsame₀.1, hsame.2.trans hsame₀.2⟩, harn.trans harn₀⟩
    · exact h.names key' v' hv'
  · rcases stored_write hv' with ⟨rfl, rfl⟩ | ⟨-, hv'⟩
    · refine hderives.containers.nodup (List.nodup_append.mpr ⟨hdistinct, ?_, fun c hc d hd heq => ?_⟩)
      · cases (s.phase i).made <;> simp
      · obtain ⟨⟨f, d⟩, hp, rfl⟩ := List.mem_map.mp hd
        have hcd : c = d := heq
        exact (h.madeNew i f d (Option.mem_toList.mp hp)).2.2.2.1 i r hr (hcd ▸ hc)
    · exact h.distinct key' v' hv'
  · rcases stored_write h₁ with ⟨rfl, rfl⟩ | ⟨hne₁, hold₁⟩
    · rcases stored_write h₂ with ⟨rfl, rfl⟩ | ⟨hne₂, hold₂⟩
      · rfl
      · rcases hfrom c hc₁ with hold | ⟨f, hmade⟩
        · exact h.apart _ _ _ _ c hkey hold₂ hold hc₂
        · exact absurd hc₂ ((h.madeNew i f c hmade).2.2.1 _ _ hold₂)
    · rcases stored_write h₂ with ⟨rfl, rfl⟩ | ⟨hne₂, hold₂⟩
      · rcases hfrom c hc₂ with hold | ⟨f, hmade⟩
        · exact h.apart _ _ _ _ c hold₁ hkey hc₁ hold
        · exact absurd hc₁ ((h.madeNew i f c hmade).2.2.1 _ _ hold₁)
      · exact h.apart _ _ _ _ c hold₁ hold₂ hc₁ hc₂
  · rw [hread j] at hr'
    rcases stored_write hv' with ⟨rfl, rfl⟩ | ⟨-, hv'⟩
    · rcases hfrom c hc' with hold | ⟨f, hmade⟩
      · have hrsame := h.apartRead j r' hr' _ v c hkey hc hold
        exact ⟨hrsame.1.trans hsame.1.symm, hrsame.2.trans hsame.2.symm⟩
      · exact absurd hc ((h.madeNew i f c hmade).2.2.2.1 j r' hr')
    · exact h.apartRead j r' hr' key' v' c hv' hc hc'
  · obtain ⟨hji, hj⟩ := hmade j _ hj
    obtain ⟨hcreated, hstopped, hnew', hunread, hunique⟩ := h.madeNew j f c hj
    refine ⟨hcreated, hstopped, fun key' v' hv' hc => ?_, fun l r hr => hunread l r (hread l ▸ hr),
      fun l f' hl => hunique l f' (hmade l _ hl).2⟩
    rcases stored_write hv' with ⟨rfl, rfl⟩ | ⟨-, hv'⟩
    · rcases hfrom c hc with hold | ⟨f', hmade'⟩
      · exact hnew' _ v hkey hold
      · exact hji (hunique i f' hmade').symm
    · exact hnew' key' v' hv' hc
  · rcases eq_or_ne j i with rfl | hji
    · have hnil : ((s.write j key w).phase j).stopping = [] := congrArg Phase.stopping (setPhase_self ..)
      rw [hnil] at hc
      cases hc
    · rw [hphase j hji] at hc
      exact h.stopping j c hc
  · rcases h.recorded f c hborn with hc | ⟨key', v', hv', rfl, hc⟩ | ⟨j, hj⟩ | ⟨j, t', ht', hf, hj⟩
    · exact .inl hc
    · rcases eq_or_ne key' key with rfl | hne
      · cases Option.some_inj.mp (hkey.symm.trans hv')
        by_cases hin : c ∈ w.containers
        · exact .inr (.inl ⟨_, w, stored_write_self, hsame.2, hin⟩)
        · exact .inl (h.stopping i c (hderives.kept hids c (hcontainers ▸ hc) hin))
      · exact .inr (.inl ⟨key', v', by rwa [stored_write_of_ne hne], rfl, hc⟩)
    · rcases eq_or_ne j i with rfl | hji
      · obtain ⟨hf, hin⟩ := hderives.made f c hj
        exact .inr (.inl ⟨key, w, stored_write_self, hderives.function.trans hf.symm, hin⟩)
      · exact .inr (.inr (.inl ⟨j, by rwa [hphase j hji]⟩))
    · refine .inr (.inr (.inr ⟨j, t', ht', hf, ?_⟩))
      rcases eq_or_ne j i with rfl | hji
      · exact congrArg Phase.done (setPhase_self ..)
      · rwa [hphase j hji]
  · -- what this task has stopped is not in the new record, and in no other
    have hgone : ∀ c ∈ (s.phase i).stopping, c ∉ w.containers ∧ c ∈ v.containers := fun c hc =>
      ⟨(hderives.dropped hdistinct c hc).2, hcontainers ▸ (hderives.dropped hdistinct c hc).1⟩
    rcases stored_write hv' with ⟨rfl, rfl⟩ | ⟨hne, hv'⟩
    · rcases hfrom c hin with hold | ⟨f, hmade'⟩
      · obtain ⟨j, hj⟩ := h.removed c hc _ v hkey hold
        refine ⟨j, ?_⟩
        rw [hphase j fun hji => (hgone c (hji ▸ hj)).1 hin]
        exact hj
      · exact absurd hc (h.madeNew i f c hmade').2.1
    · obtain ⟨j, hj⟩ := h.removed c hc key' v' hv' hin
      refine ⟨j, ?_⟩
      rw [hphase j fun hji => hne (h.apart _ _ _ _ c hv' hkey hin (hgone c (hji ▸ hj)).2)]
      exact hj
  · have hra := h.arns i t a ht ha r hr
    exact harn.symm.trans (hderives.arn.trans hra)

end Write

end AwsMock.Lambda
