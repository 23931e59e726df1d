import AwsMock.Ftp.Receiving

/-!
# What is stored of what a client sends

For each connection, what its file holds and what the handlers on the strand, or still to be posted, will write are what
the file held first and what has arrived, in this order; and there is one thing that goes on with it.
-/

namespace AwsMock.Ftp

open Lib

/-- The data that a handler writes. -/
def ReceiveTask.data : ReceiveTask → Str
  | write data _ => data
  | store data => data
  | finish => []

/-- A handler that writes data and does nothing else. -/
def ReceiveTask.Plain : ReceiveTask → Prop
  | write _ fetchMore => fetchMore = false
  | store _ => True
  | finish => False

/-- How far a transfer is, with the handlers that are left to run for it. -/
inductive Phase : Receiving → List ReceiveTask → Prop
  | reading {t : Receiving} (tasks : List ReceiveTask) (hplain : ∀ p ∈ tasks, p.Plain) (hreads : t.reads = 1)
      (hclosed : t.closed = false) (h : t.initial ++ t.arrived = t.written ++ tasks.flatMap ReceiveTask.data) :
      Phase t tasks
  | fetching {t : Receiving} (tasks : List ReceiveTask) (data : Str) (hplain : ∀ p ∈ tasks, p.Plain)
      (hreads : t.reads = 0) (hclosed : t.closed = false)
      (h : t.initial ++ t.arrived = t.written ++ tasks.flatMap ReceiveTask.data ++ data) :
      Phase t (tasks ++ [.write data true])
  | ending {t : Receiving} (tasks : List ReceiveTask) (hplain : ∀ p ∈ tasks, p.Plain) (hreads : t.reads = 0)
      (hclosed : t.closed = false) (h : t.initial ++ t.arrived = t.written ++ tasks.flatMap ReceiveTask.data) :
      Phase t (tasks ++ [.finish])
  | done {t : Receiving} (hreads : t.reads = 0) (hclosed : t.closed = true) (h : t.initial ++ t.arrived = t.written) :
      Phase t []

variable {t : Receiving} {tasks : List ReceiveTask}

/-! ### One transfer -/

theorem Phase.written_arrived (h : Phase t tasks) : t.written <+: t.initial ++ t.arrived := by
  cases h with
  | reading tasks hplain hreads hclosed h =>
    rw [h]
    exact List.prefix_append _ _
  | fetching tasks data hplain hreads hclosed h =>
    rw [h, List.append_assoc]
    exact List.prefix_append _ _
  | ending tasks hplain hreads hclosed h =>
    rw [h]
    exact List.prefix_append _ _
  | done hreads hclosed h =>
    exact h ▸ List.prefix_rfl

/-- A read completes. -/
theorem Phase.received (h : Phase t tasks) (hreads : t.reads ≠ 0) {data : Str} {error : Bool}
    (hdata : ¬ (error = false ∧ data.length ≠ chunkSize)) :
    Phase { t with arrived := t.arrived ++ data, reads := t.reads - 1, posting := t.posting ++ receivePosts data error }
      (tasks ++ receivePosts data error) := by
  cases h with
  | reading tasks hplain hone hclosed h =>
    have hzero : t.reads - 1 = 0 := by rw [hone]
    rcases error with _ | _
    · have hne : data ≠ [] := by
        rintro rfl
        exact hdata ⟨rfl, by decide⟩
      simp only [receivePosts, Bool.false_eq_true, if_false, if_neg hne]
      exact .fetching tasks data hplain hzero hclosed (by simp [← h])
    · by_cases hne : data = []
      · simp only [receivePosts, if_true, if_pos hne, List.nil_append]
        exact .ending tasks hplain hzero hclosed (by simp [← h, hne])
      · simp only [receivePosts, if_true, if_neg hne]
        rw [← List.append_assoc tasks]
        have hplain' : ∀ p ∈ tasks ++ [.write data false], p.Plain := by
          intro p hp
          rcases List.mem_append.mp hp with hp | hp
          · exact hplain p hp
          · rw [List.mem_singleton.mp hp]
            rfl
        have hall : t.initial ++ (t.arrived ++ data) =
            t.written ++ (tasks ++ [ReceiveTask.write data false]).flatMap ReceiveTask.data := by
          simp [ReceiveTask.data, ← List.append_assoc, h]
        exact .ending _ hplain' hzero hclosed hall
  | fetching tasks data hplain hzero => exact absurd hzero hreads
  | ending tasks hplain hzero => exact absurd hzero hreads
  | done hzero => exact absurd hzero hreads

theorem Phase.open_of_reads (h : Phase t tasks) (hreads : t.reads ≠ 0) : t.closed = false := by
  cases h with
  | reading tasks hplain hone hclosed => exact hclosed
  | fetching tasks data hplain hzero => exact absurd hzero hreads
  | ending tasks hplain hzero => exact absurd hzero hreads
  | done hzero => exact absurd hzero hreads

/-- What is on the strand before it closes the file only writes. -/
theorem Phase.open (h : Phase t tasks) (hne : tasks ≠ []) : t.closed = false := by
  cases h with
  | reading tasks hplain hreads hclosed => exact hclosed
  | fetching tasks data hplain hreads hclosed => exact hclosed
  | ending tasks hplain hreads hclosed => exact hclosed
  | done => exact absurd rfl hne

/-- With nothing left to do, the file is closed. -/
theorem Phase.closed_of_rest (h : Phase t []) (hreads : t.reads = 0) : t.closed = true := by
  generalize htasks : ([] : List ReceiveTask) = tasks at h
  cases h with
  | reading tasks hplain hone => rw [hreads] at hone; cases hone
  | fetching tasks data => simp at htasks
  | ending tasks => simp at htasks
  | done hzero hclosed => exact hclosed

/-- The phase of a transfer does not depend on where its handlers are. -/
theorem Phase.posted {posts : List ReceiveTask} (h : Phase t tasks) : Phase { t with posting := posts } tasks := by
  cases h with
  | reading tasks hplain hreads hclosed h => exact .reading tasks hplain hreads hclosed h
  | fetching tasks data hplain hreads hclosed h => exact .fetching tasks data hplain hreads hclosed h
  | ending tasks hplain hreads hclosed h => exact .ending tasks hplain hreads hclosed h
  | done hreads hclosed h => exact .done hreads hclosed h

/-- The handler of a write starts the next read, if it is to, and has the data still to write. -/
theorem Phase.write {data : Str} {fetchMore : Bool} (h : Phase t (.write data fetchMore :: tasks)) :
    Phase { t with reads := if fetchMore then t.reads + 1 else t.reads } (.store data :: tasks) := by
  generalize htasks : ReceiveTask.write data fetchMore :: tasks = all at h
  have hstore : (ReceiveTask.store data).Plain := trivial
  cases h with
  | reading tasks' hplain hreads hclosed h =>
    subst htasks
    obtain ⟨rfl, hrest⟩ := List.forall_mem_cons.mp hplain
    exact .reading _ (List.forall_mem_cons.mpr ⟨hstore, hrest⟩) hreads hclosed h
  | fetching tasks' data' hplain hreads hclosed h =>
    rcases tasks' with _ | ⟨p, tasks'⟩
    · cases htasks
      exact .reading _ (List.forall_mem_cons.mpr ⟨hstore, by simp⟩) (by simp [hreads]) hclosed
        (by simpa [ReceiveTask.data] using h)
    · cases htasks
      obtain ⟨rfl, hrest⟩ := List.forall_mem_cons.mp hplain
      exact .fetching (.store data :: tasks') data' (List.forall_mem_cons.mpr ⟨hstore, hrest⟩) hreads hclosed h
  | ending tasks' hplain hreads hclosed h =>
    rcases tasks' with _ | ⟨p, tasks'⟩
    · cases htasks
    · cases htasks
      obtain ⟨rfl, hrest⟩ := List.forall_mem_cons.mp hplain
      exact .ending (.store data :: tasks') (List.forall_mem_cons.mpr ⟨hstore, hrest⟩) hreads hclosed h
  | done => cases htasks

theorem Phase.store {data : Str} (h : Phase t (.store data :: tasks)) :
    Phase { t with written := t.written ++ data } tasks := by
  generalize htasks : ReceiveTask.store data :: tasks = all at h
  cases h with
  | reading tasks' hplain hreads hclosed h =>
    subst htasks
    exact .reading _ (List.forall_mem_cons.mp hplain).2 hreads hclosed (by simpa [ReceiveTask.data] using h)
  | fetching tasks' data' hplain hreads hclosed h =>
    rcases tasks' with _ | ⟨p, tasks'⟩
    · cases htasks
    · cases htasks
      exact .fetching tasks' data' (List.forall_mem_cons.mp hplain).2 hreads hclosed
        (by simpa [ReceiveTask.data] using h)
  | ending tasks' hplain hreads hclosed h =>
    rcases tasks' with _ | ⟨p, tasks'⟩
    · cases htasks
    · cases htasks
      exact .ending tasks' (List.forall_mem_cons.mp hplain).2 hreads hclosed (by simpa [ReceiveTask.data] using h)
  | done => cases htasks

/-- The file is closed when all has been written. -/
theorem Phase.finish (h : Phase t (.finish :: tasks)) :
    tasks = [] ∧ t.initial ++ t.arrived = t.written ∧ Phase { t with closed := true } [] := by
  generalize htasks : ReceiveTask.finish :: tasks = all at h
  cases h with
  | reading tasks' hplain hreads hclosed h =>
    subst htasks
    exact (List.forall_mem_cons.mp hplain).1.elim
  | fetching tasks' data' hplain hreads hclosed h =>
    rcases tasks' with _ | ⟨p, tasks'⟩
    · cases htasks
    · cases htasks
      exact (List.forall_mem_cons.mp hplain).1.elim
  | ending tasks' hplain hreads hclosed h =>
    rcases tasks' with _ | ⟨p, tasks'⟩
    · cases htasks
      have hall : t.initial ++ t.arrived = t.written := by simpa using h
      exact ⟨rfl, hall, .done hreads rfl hall⟩
    · cases htasks
      exact (List.forall_mem_cons.mp hplain).1.elim
  | done => cases htasks

namespace ReceiveChannel

variable {c d : ReceiveChannel} {i : Nat}

/-- The handlers that are left to run for the `i`-th connection. -/
def tasksOf (i : Nat) (strand : List (Nat × ReceiveTask)) : List ReceiveTask :=
  strand.filterMap fun e => if e.1 = i then some e.2 else none

@[simp] theorem tasksOf_nil (i : Nat) : tasksOf i [] = [] := rfl

@[simp] theorem tasksOf_append (i : Nat) (strand strand' : List (Nat × ReceiveTask)) :
    tasksOf i (strand ++ strand') = tasksOf i strand ++ tasksOf i strand' := List.filterMap_append

@[simp] theorem tasksOf_self (i : Nat) (task : ReceiveTask) (strand : List (Nat × ReceiveTask)) :
    tasksOf i ((i, task) :: strand) = task :: tasksOf i strand := by
  simp [tasksOf]

theorem tasksOf_of_ne {i j : Nat} (h : j ≠ i) (task : ReceiveTask) (strand : List (Nat × ReceiveTask)) :
    tasksOf i ((j, task) :: strand) = tasksOf i strand := by
  simp [tasksOf, h]

/-- Every transfer is in one of its phases, and the objects stored are the files that are closed. -/
structure Receives (c : ReceiveChannel) : Prop where
  phase : ∀ i t, c.uploads[i]? = some t → Phase t (tasksOf i c.strand ++ t.posting)
  stored : ∀ i content, (i, content) ∈ c.stored ↔
    ∃ t, c.uploads[i]? = some t ∧ t.closed = true ∧ content = t.initial ++ t.arrived
  known : ∀ i, c.uploads.length ≤ i → tasksOf i c.strand = []
  once : (c.stored.map Prod.fst).Nodup
  answered : c.said.count .closingDataConnection = c.stored.length

theorem getElem?_set_cases {ts : List Receiving} {i j : Nat} {t t' : Receiving} (h : (ts.set i t')[j]? = some t) :
    i = j ∧ t = t' ∨ i ≠ j ∧ ts[j]? = some t := by
  rcases eq_or_ne i j with rfl | hij
  · rw [List.getElem?_set] at h
    simp only [if_true] at h
    split at h
    · cases h
      exact .inl ⟨rfl, rfl⟩
    · cases h
  · rw [List.getElem?_set_ne hij] at h
    exact .inr ⟨hij, h⟩

theorem ne_of_known {t t' : Receiving} {j : Nat} (ht : c.uploads[i]? = some t) (hj : (c.uploads.set i t').length ≤ j) :
    i ≠ j := by
  obtain ⟨hi, -⟩ := List.getElem?_eq_some_iff.mp ht
  rw [List.length_set] at hj
  omega

/-- An event of a connection whose file stays open, or was closed before. -/
theorem Receives.update {t t' : Receiving} {strand : List (Nat × ReceiveTask)} (h : c.Receives)
    (ht : c.uploads[i]? = some t) (hd : d = { c with uploads := c.uploads.set i t', strand := strand })
    (hphase : Phase t' (tasksOf i strand ++ t'.posting))
    (hothers : ∀ j, i ≠ j → tasksOf j strand = tasksOf j c.strand) (hclosed : t.closed = false)
    (hclosed' : t'.closed = false) : d.Receives := by
  subst hd
  refine ⟨fun j u hu => ?_, fun j content => ?_, fun j hj => ?_, h.once, h.answered⟩
  · rcases getElem?_set_cases hu with ⟨rfl, rfl⟩ | ⟨hij, hu⟩
    · exact hphase
    · simpa [hothers j hij] using h.phase j u hu
  · rw [h.stored]
    constructor
    · rintro ⟨u, hu, hopen, rfl⟩
      rcases eq_or_ne i j with rfl | hij
      · rw [ht] at hu
        cases hu
        rw [hclosed] at hopen
        cases hopen
      · exact ⟨u, by rw [List.getElem?_set_ne hij]; exact hu, hopen, rfl⟩
    · rintro ⟨u, hu, hopen, rfl⟩
      rcases getElem?_set_cases hu with ⟨rfl, rfl⟩ | ⟨hij, hu⟩
      · rw [hclosed'] at hopen
        cases hopen
      · exact ⟨u, hu, hopen, rfl⟩
  · exact (hothers j (ne_of_known ht hj)).trans (h.known j (by simpa using hj))

/-- A new transfer has nothing on the strand yet. -/
theorem Receives.accepted (h : c.Receives) (initial : Str) :
    Receives { c with uploads := c.uploads ++ [{ initial := initial, written := initial }] } := by
  have hnew : ∀ i t, (c.uploads ++ [{ initial := initial, written := initial }])[i]? = some t →
      c.uploads[i]? = some t ∨ i = c.uploads.length ∧ t = { initial := initial, written := initial } := by
    intro i t ht
    rcases Nat.lt_trichotomy i c.uploads.length with hlt | rfl | hgt
    · exact .inl (by rwa [List.getElem?_append_left hlt] at ht)
    · rw [List.getElem?_concat_length, Option.some.injEq] at ht
      exact .inr ⟨rfl, ht.symm⟩
    · rw [List.getElem?_append_right hgt.le, List.getElem?_eq_none (by simp; omega)] at ht
      cases ht
  refine ⟨fun i t ht => ?_, fun i content => ?_, fun i hi => h.known i ?_, h.once, h.answered⟩
  · rcases hnew i t ht with ht | ⟨rfl, rfl⟩
    · exact h.phase i t ht
    · rw [h.known _ le_rfl]
      exact .reading [] (by simp) rfl rfl (by simp)
  · rw [h.stored]
    constructor
    · rintro ⟨t, ht, hclosed, rfl⟩
      obtain ⟨hi, -⟩ := List.getElem?_eq_some_iff.mp ht
      exact ⟨t, by rw [List.getElem?_append_left hi]; exact ht, hclosed, rfl⟩
    · rintro ⟨t, ht, hclosed, rfl⟩
      rcases hnew i t ht with ht | ⟨rfl, rfl⟩
      · exact ⟨t, ht, hclosed, rfl⟩
      · cases hclosed
  · simp only [List.length_append, List.length_cons, List.length_nil] at hi
    omega

theorem Receives.receive {data : Str} {error : Bool} (h : c.Receives) (hc : c.receive i data error = some d) :
    d.Receives := by
  unfold ReceiveChannel.receive at hc
  split at hc
  · cases hc
  · next t ht =>
    split at hc
    · cases hc
    · next hreads =>
      split at hc
      · cases hc
      · next hdata =>
        have hphase := h.phase i t ht
        have hopen := hphase.open_of_reads hreads
        refine h.update ht (Option.some.inj hc).symm ?_ (fun _ _ => rfl) hopen hopen
        rw [← List.append_assoc]
        exact hphase.received hreads hdata

theorem Receives.post (h : c.Receives) (hc : step (.post i) c = some d) : d.Receives := by
  simp only [step] at hc
  split at hc
  · cases hc
  · next t ht =>
    split at hc
    · cases hc
    · next task posts hposting =>
      have hphase := h.phase i t ht
      have hopen := hphase.open (by simp [hposting])
      refine h.update ht (Option.some.inj hc).symm ?_ (fun j hij => by simp [tasksOf_of_ne hij]) hopen hopen
      rw [hposting] at hphase
      have hmoved : Phase { t with posting := posts } (tasksOf i c.strand ++ task :: posts) := hphase.posted
      simpa using hmoved

theorem Receives.runStrand (h : c.Receives) (hc : c.runStrand = some d) : d.Receives := by
  unfold ReceiveChannel.runStrand at hc
  split at hc
  · cases hc
  · next i task tasks hstrand =>
    split at hc
    · cases hc
    · next t ht =>
      have hphase := h.phase i t ht
      rw [hstrand, tasksOf_self, List.cons_append] at hphase
      have hopen := hphase.open (List.cons_ne_nil _ _)
      have hothers : ∀ j, i ≠ j → tasksOf j tasks = tasksOf j c.strand := fun j hij => by
        rw [hstrand, tasksOf_of_ne hij]
      cases task with
      | write data fetchMore =>
        refine h.update ht (Option.some.inj hc).symm ?_ (fun j hij => ?_) hopen hopen
        · rw [tasksOf_self, List.cons_append]
          exact hphase.write
        · rw [tasksOf_of_ne hij, hothers j hij]
      | store data =>
        dsimp only at hc
        rw [if_neg (by simp [hopen])] at hc
        exact h.update ht (Option.some.inj hc).symm hphase.store hothers hopen hopen
      | finish =>
        obtain ⟨hnil, hall, hdone⟩ := hphase.finish
        cases hc
        refine ⟨fun j u hu => ?_, fun j content => ?_, fun j hj => ?_, ?_, ?_⟩
        · rcases getElem?_set_cases hu with ⟨rfl, rfl⟩ | ⟨hij, hu⟩
          · rw [hnil]
            exact hdone
          · rw [hothers j hij]
            exact h.phase j u hu
        · rw [List.mem_append, List.mem_singleton, h.stored]
          constructor
          · rintro (⟨u, hu, hclosed, rfl⟩ | hnew)
            · rcases eq_or_ne i j with rfl | hij
              · rw [ht] at hu
                cases hu
                rw [hopen] at hclosed
                cases hclosed
              · exact ⟨u, by rw [List.getElem?_set_ne hij]; exact hu, hclosed, rfl⟩
            · obtain ⟨rfl, rfl⟩ := Prod.mk.inj hnew
              obtain ⟨hi, -⟩ := List.getElem?_eq_some_iff.mp ht
              exact ⟨{ t with closed := true }, by rw [List.getElem?_set_self hi], rfl, hall.symm⟩
          · rintro ⟨u, hu, hclosed, rfl⟩
            rcases getElem?_set_cases hu with ⟨rfl, rfl⟩ | ⟨hij, hu⟩
            · exact .inr (by rw [← hall])
            · exact .inl ⟨u, hu, hclosed, rfl⟩
        · exact (hothers j (ne_of_known ht hj)).trans (h.known j (by simpa using hj))
        · rw [List.map_append, List.nodup_append]
          refine ⟨h.once, by simp, ?_⟩
          rintro j hj _ hi rfl
          obtain ⟨⟨_, content⟩, hmem, rfl⟩ := List.mem_map.mp hj
          obtain ⟨u, hu, hclosed, -⟩ := (h.stored _ _).mp hmem
          simp only [List.map_cons, List.map_nil, List.mem_singleton] at hi
          rw [hi, ht] at hu
          cases hu
          rw [hopen] at hclosed
          cases hclosed
        · rw [List.count_append, h.answered, List.length_append]
          rfl

theorem Receives.step {e : ReceiveEvent} (h : c.Receives) (hc : ReceiveChannel.step e c = some d) : d.Receives := by
  cases e with
  | accepted initial =>
    cases hc
    exact h.accepted initial
  | refused =>
    cases hc
    exact ⟨h.phase, h.stored, h.known, h.once, by simp [h.answered]⟩
  | received i data error => exact h.receive hc
  | post i => exact h.post hc
  | strand => exact h.runStrand hc

theorem Receives.steps {es : List ReceiveEvent} (h : c.Receives)
    (hrun : Lib.steps ReceiveChannel.step es c = some d) : d.Receives :=
  steps_inv (fun hc hreceives => hreceives.step hc) hrun h

/-- No read is outstanding and no handler is left to run. -/
structure AtRest (c : ReceiveChannel) : Prop where
  reads : ∀ t ∈ c.uploads, t.reads = 0 ∧ t.posting = []
  strand : c.strand = []

/-- A file that was appended to, and whose client went away. -/
def appended : ReceiveChannel where
  uploads := [{ initial := str "ab", arrived := str "c", written := str "abc", reads := 0, closed := true }]
  said := [.closingDataConnection]
  stored := [(0, str "abc")]

end ReceiveChannel

end AwsMock.Ftp
