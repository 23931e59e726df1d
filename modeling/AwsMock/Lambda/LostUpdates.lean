import AwsMock.Lambda.Compliance
import AwsMock.Lambda.ExclusiveInstance
import AwsMock.Lib.Pool

/-!
# Updates of the lambda records

Creators, passes of the worker, invocations, changes of the tags and deletions side by side, in every order
of their calls. All of them read a record, work, and write the whole record back.
-/

namespace AwsMock.Lambda

open Lib

/-! ### What is kept -/

/-- The task at `i` has ended without an exception. -/
def Completed (y : LambdaPool) (i : Nat) : Prop := ∃ t, y.1[i]? = some t ∧ t.prog.outcome = some (.ok ())

/-- When all threads have ended: a container that was there or was created, and was not stopped, is recorded
    unless its function was deleted; a container that was stopped is not recorded; and the tags are those
    that the completed requests make of the first ones in some order. -/
structure Kept (tasks : List Task) (db : LambdaMemoryDb) (y : LambdaPool) : Prop where
  recorded : ∀ f c, ((f, c) ∈ y.2.created ∨ ∃ key v, db.view key = some v ∧ v.function = f ∧ c ∈ v.containers) →
    c ∉ y.2.stopped → (∃ key v, y.2.db.view key = some v ∧ v.function = f ∧ c ∈ v.containers) ∨
      ∃ i task, tasks[i]? = some task ∧ task.deletes = some f ∧ Completed y i
  removed : ∀ c ∈ y.2.stopped, ∀ key v, y.2.db.view key = some v → c ∉ v.containers
  tags : ∃ order : List Nat, order.Nodup ∧
    (∀ i, i ∈ order ↔ ∃ task, tasks[i]? = some task ∧ task.tagArn.isSome ∧ Completed y i) ∧
    ∀ key v, y.2.db.view key = some v → ∃ v₀, db.view key = some v₀ ∧
      v.tags = retagAll (fun i => tasks[i]?) v.arn order v₀.tags

/-- The worker is about to be broken off, and the process with it. -/
def BreaksOff (i : Nat) (x : LambdaPool) : Prop :=
  ∃ t, x.1[i]? = some t ∧ t.label = .worker ∧ t.prog.next = some .terminate

/-! ### Timely steps -/

/-- The step of the `i`-th thread, if it writes a record, finds it as the thread has read it. A worker finds the
    record, whose instances have different ids; a request that creates tags changes none; and a container that
    is created has a new id. -/
structure Timely (rt : Runtime) (i : Nat) (x : LambdaPool) : Prop where
  fresh : ∀ t lambda, x.1[i]? = some t → t.prog.next = some (.updateLambda lambda) →
    ∀ r ∈ x.2.read i, r.view.Same lambda.view → ∀ found, x.2.db.findUpdated lambda = some found →
      r.view.containers = found.2.view.containers ∧ r.tags = found.2.tags
  found : ∀ t lambda, x.1[i]? = some t → t.prog.next = some (.updateLambda lambda) → t.label = .worker →
    (x.2.db.findUpdated lambda).isSome ∧ ∀ r ∈ x.2.read i, r.view.ids.Nodup
  tags : ∀ t lambda request, x.1[i]? = some t → t.prog.next = some (.updateLambda lambda) →
    t.label = .createTag request → ∀ found, x.2.db.findUpdated lambda = some found →
      ∀ tag ∈ request.tags.entries, ∀ value, found.2.tags.get? tag.1 = some value → value = tag.2
  container : ∀ t name instanceName tag environment port, x.1[i]? = some t →
    t.prog.next = some (.createContainer name instanceName tag environment port) →
      (∀ f, (f, rt.containerId x.2.calls) ∉ x.2.created) ∧ rt.containerId x.2.calls ∉ x.2.stopped ∧
      (∀ key v, x.2.db.view key = some v → rt.containerId x.2.calls ∉ v.containers) ∧
      ∀ j, ∀ r ∈ x.2.read j, rt.containerId x.2.calls ∉ r.view.containers

/-! ### The pool and its books -/

variable {rt : Runtime} {accountId : Str} {tasks : List Task} {db : LambdaMemoryDb} {x y : LambdaPool} {i : Nat}
  {phase : Nat → Phase}

/-- The calls that neither read nor change what is kept. -/
def Neutral : LambdaCall → Prop
  | .listLambdas _ | .getLambdaById _ | .getLambdaByArn _ | .updateLambda _ | .deleteLambda _
  | .createContainer .. | .stopContainer _ => False
  | _ => True

theorem neutral_executor (containerId host : Str) (port : Int) (payload : Str) :
    (detached (lambdaExecutor containerId host port payload)).Only Neutral := by
  refine only_detached ?_ trivial
  refine Prog.only_bind (Prog.only_perform trivial) fun _ => Prog.only_bind (Prog.only_perform trivial) fun _ => ?_
  refine Prog.only_bind (only_tryCall (Prog.only_perform trivial)) fun response => ?_
  exact Prog.only_bind (Prog.only_when fun _ => Prog.only_perform trivial) fun _ => Prog.only_perform trivial

/-- The books of a pool. -/
def ledger (x : LambdaPool) (phase : Nat → Phase) : Ledger := ⟨x.2.db.view, x.2.created, x.2.stopped, phase⟩

/-- Each thread is a task at a point of its protocol or an executor, and the books are right. -/
structure Sound (tasks : List Task) (db : LambdaMemoryDb) (x : LambdaPool) (phase : Nat → Phase) : Prop where
  complies : ∀ (j : Nat) (t : LambdaThread), x.1[j]? = some t →
    t.prog.Complies (keeping t.label) (End t.label) (phase j)
  read : ∀ j, (phase j).read = (x.2.read j).map Lambda.view
  unborn : ∀ j, x.1.length ≤ j → phase j = {}
  task : ∀ (j : Nat) (t : LambdaThread), x.1[j]? = some t →
    tasks[j]? = some t.label ∨ t.label ≠ .worker ∧ t.prog.Only Neutral
  thread : ∀ (j : Nat) (task : Task), tasks[j]? = some task → ∃ t, x.1[j]? = some t ∧ t.label = task
  worker : ∀ j : Nat, tasks[j]? = some .worker → (phase j).failed = false
  accounted : Accounted db.view (fun j => tasks[j]?) (ledger x phase)

theorem sound_begin (accountId : Str) (tasks : List Task) (hdb : Separate db.view) :
    Sound tasks db (begin accountId tasks db) fun _ => {} where
  complies j t ht := by
    obtain ⟨task, -, rfl⟩ := List.mem_map.mp (List.mem_of_getElem? ht)
    exact complies_task task
  read _ := rfl
  unborn _ _ := rfl
  task j t ht := by
    simp only [begin, List.getElem?_map, Option.map_eq_some_iff] at ht
    obtain ⟨task, htask, rfl⟩ := ht
    exact .inl htask
  thread j task htask := ⟨task.thread accountId, by simp [begin, htask], rfl⟩
  worker _ _ := rfl
  accounted := accounted_first hdb

theorem toOption_eq_some {α : Type} {a : α} : ∀ {x : Except Error α}, x.toOption = some a → x = .ok a
  | .ok _, rfl => rfl

/-- A call that reads nothing. -/
theorem Sound.read_same (hx : Sound tasks db x phase) {q : Phase} (hq : q.read = (phase i).read) (j : Nat) :
    (Function.update phase i q j).read = (x.2.read j).map Lambda.view := by
  rcases eq_or_ne j i with rfl | hne
  · rw [Function.update_self, hq, hx.read j]
  · rw [Function.update_of_ne hne, hx.read j]

theorem exec_neutral {c : LambdaCall} {r : c.Reply} {w w' : World} {started : List LambdaThread} (hc : Neutral c)
    (h : exec rt accountId i c w = some (.goes r w' started)) (task : Task) (q : Phase) :
    w'.db.view = w.db.view ∧ w'.created = w.created ∧ w'.stopped = w.stopped ∧ w'.read = w.read ∧
      (keeping task).next q c r = q := by
  cases c with
  | setInstanceStatus containerId status =>
    cases h
    exact ⟨view_setInstanceStatus containerId status, rfl, rfl, rfl, rfl⟩
  | lock =>
    simp only [exec] at h
    split at h <;> cases h
    exact ⟨rfl, rfl, rfl, rfl, rfl⟩
  | listLambdas _ | getLambdaById _ | getLambdaByArn _ | updateLambda _ | deleteLambda _ | stopContainer _
  | createContainer _ _ _ _ _ => exact hc.elim
  | terminate => cases h
  | _ =>
    cases h
    exact ⟨rfl, rfl, rfl, rfl, rfl⟩

/-! ### One turn -/

/-- The `i`-th thread makes a call. -/
structure Goes (rt : Runtime) (accountId : Str) (i : Nat) (x y : LambdaPool) (label : Task) (c : LambdaCall)
    (k : c.Reply → LambdaProg Unit) (r : c.Reply) (started : List LambdaThread) : Prop where
  before : x.1[i]? = some ⟨label, .call c k⟩
  exec : exec rt accountId i c x.2 = some (.goes r y.2 started)
  after : y.1 = x.1.set i ⟨label, k r⟩ ++ started

namespace Goes

variable {label : Task} {c : LambdaCall} {k : c.Reply → LambdaProg Unit} {r : c.Reply}
  {started : List LambdaThread} (h : Goes rt accountId i x y label c k r started) (hx : Sound tasks db x phase)

include h hx

/-- The books go on with the call. -/
theorem sound {q : Phase} (hq : (keeping label).next (phase i) c r = q)
    (hread : ∀ j, (Function.update phase i q j).read = (y.2.read j).map Lambda.view)
    (hworker : tasks[i]? = some .worker → q.failed = false)
    (haccounted : Accounted db.view (fun j => tasks[j]?) (ledger y (Function.update phase i q))) :
    Sound tasks db y (Function.update phase i q) := by
  have hi : i < x.1.length := (List.getElem?_eq_some_iff.mp h.before).1
  have hstarted : ∀ t ∈ started, t.prog.Complies (keeping t.label) (End t.label) {} ∧ t.label ≠ .worker ∧
      t.prog.Only Neutral := by
    intro t ht
    rcases exec_started h.exec with rfl | ⟨containerId, host, port, payload, -, rfl⟩
    · cases ht
    · cases List.mem_singleton.mp ht
      exact ⟨@complies_task accountId _, (nomatch ·), neutral_executor containerId host port payload⟩
  refine {
    complies := fun j t ht => ?_
    read := hread
    unborn := fun j hj => ?_
    task := fun j t ht => ?_
    thread := fun j task htask => ?_
    worker := fun j hj => ?_
    accounted := haccounted }
  · rw [h.after] at ht
    rcases Thread.getElem?_moved ht with ⟨rfl, rfl⟩ | ⟨hne, hold⟩ | ⟨hnew, hj⟩
    · rw [Function.update_self, ← hq]
      exact (hx.complies j _ h.before).2 r
    · rw [Function.update_of_ne hne]
      exact hx.complies j t hold
    · rw [Function.update_of_ne (hi.trans_le hj).ne', hx.unborn j hj]
      exact (hstarted t hnew).1
  · rw [h.after, List.length_append, List.length_set] at hj
    have hj := (Nat.le_add_right ..).trans hj
    rw [Function.update_of_ne (hi.trans_le hj).ne']
    exact hx.unborn j hj
  · rw [h.after] at ht
    rcases Thread.getElem?_moved ht with ⟨rfl, rfl⟩ | ⟨hne, hold⟩ | ⟨hnew, hj⟩
    · exact (hx.task j _ h.before).imp id fun ⟨hlabel, honly⟩ => ⟨hlabel, honly.2 r⟩
    · exact hx.task j t hold
    · exact .inr (hstarted t hnew).2
  · obtain ⟨t, ht, hlabel⟩ := hx.thread j task htask
    rw [h.after]
    rcases eq_or_ne j i with rfl | hne
    · rw [h.before] at ht
      cases ht
      exact ⟨_, Thread.getElem?_moved_self h.before, hlabel⟩
    · exact ⟨t, Thread.getElem?_moved_of_ne ht hne, hlabel⟩
  · rcases eq_or_ne j i with rfl | hne
    · rw [Function.update_self]
      exact hworker hj
    · rw [Function.update_of_ne hne]
      exact hx.worker j hj

theorem sound_neutral (hc : Neutral c) : Sound tasks db y phase := by
  obtain ⟨hview, hcreated, hstopped, hread, hnext⟩ := exec_neutral hc h.exec label (phase i)
  have hself : Function.update phase i (phase i) = phase := Function.update_eq_self i phase
  refine hself ▸ h.sound hx hnext ?_ (hx.worker i) ?_
  · rw [hself, hread]
    exact hx.read
  · rw [hself, ledger, hview, hcreated, hstopped]
    exact hx.accounted

theorem law : (keeping label).law (phase i) c := (hx.complies i _ h.before).1

/-- Only tasks read and change what is kept. -/
theorem task_eq (hc : ¬ Neutral c) : tasks[i]? = some label :=
  (hx.task i _ h.before).resolve_right fun ⟨_, honly⟩ => hc honly.1

/-- The thread has read records. -/
theorem sound_reads {lambdas : List Lambda} (hc : ¬ Neutral c)
    (hnext : (keeping label).next (phase i) c r = { phase i with read := lambdas.map Lambda.view })
    (hread : y.2.read = Function.update x.2.read i lambdas) (hview : y.2.db.view = x.2.db.view)
    (hcreated : y.2.created = x.2.created) (hstopped : y.2.stopped = x.2.stopped)
    (hstored : ∀ lambda ∈ lambdas, ∃ key, x.2.db.view key = some lambda.view)
    (harn : ∀ arn, label.tagArn = some arn → ∀ lambda ∈ lambdas, lambda.arn = arn) :
    ∃ phase, Sound tasks db y phase := by
  refine ⟨_, h.sound hx hnext (fun j => ?_) (hx.worker i) ?_⟩
  · rw [hread]
    rcases eq_or_ne j i with rfl | hne
    · rw [Function.update_self, Function.update_self]
    · rw [Function.update_of_ne hne, Function.update_of_ne hne]
      exact hx.read j
  · rw [ledger, hview, hcreated, hstopped]
    refine hx.accounted.reads (fun r hr => ?_) fun t arn ht hta r hr => ?_
    · obtain ⟨lambda, hlambda, rfl⟩ := List.mem_map.mp hr
      exact hstored lambda hlambda
    · obtain ⟨lambda, hlambda, rfl⟩ := List.mem_map.mp hr
      cases (h.task_eq hx hc).symm.trans ht
      exact harn arn hta lambda hlambda

omit h in
theorem sound_updateLambda {lambda : Lambda} {k : Except Error Lambda → LambdaProg Unit} {r : Except Error Lambda}
    (h : Goes rt accountId i x y label (.updateLambda lambda) k r started) (hdb : Separate db.view)
    (htimely : Timely rt i x) : ∃ phase, Sound tasks db y phase := by
  have hexec := h.exec
  obtain ⟨_, hr, hderives⟩ := h.law hx
  have hmem := hr
  rw [hx.read i] at hmem
  obtain ⟨read, hread, rfl⟩ := List.mem_map.mp hmem
  have htask := h.task_eq hx (fun hc => hc)
  rcases hfound : x.2.db.findUpdated lambda with _ | found
  · obtain ⟨e, hupdate⟩ := updateLambda_of_none hfound
    simp only [Lambda.exec, hupdate, Option.some.injEq, Turn.goes.injEq] at hexec
    obtain ⟨rfl, hy, -⟩ := hexec
    refine ⟨_, h.sound hx rfl (hy ▸ hx.read_same rfl) (fun hworker => ?_) ?_⟩
    · have hsome := (htimely.found _ lambda h.before rfl (Option.some_inj.mp (htask.symm.trans hworker))).1
      rw [hfound] at hsome
      cases hsome
    · rw [ledger, ← hy]
      exact hx.accounted.fails
  · obtain ⟨hupdate, hkey, hsame⟩ := updateLambda_of_found hfound
    simp only [Lambda.exec, hupdate, Option.some.injEq, Turn.goes.injEq] at hexec
    obtain ⟨rfl, hy, -⟩ := hexec
    obtain ⟨hcontainers, htags⟩ := htimely.fresh _ lambda h.before rfl read hread
      ⟨hderives.region.symm, hderives.function.symm⟩ found hfound
    refine ⟨_, h.sound hx rfl (hy ▸ hx.read_same rfl) (hx.worker i) ?_⟩
    rw [ledger, ← hy]
    change Accounted _ _ ⟨LambdaMemoryDb.view ⟨x.2.db.lambdas.insert found.1 lambda⟩, _, _, _⟩
    rw [view_insert]
    refine hx.accounted.writes hdb htask hr hderives hkey hsame hcontainers htags (fun hworker => ?_) ?_
    · exact (htimely.found _ lambda h.before rfl hworker).2 read hread
    · exact fun request hrequest => htimely.tags _ lambda request h.before rfl hrequest found hfound

theorem sound_step (hdb : Separate db.view) (htimely : Timely rt i x) : ∃ phase, Sound tasks db y phase := by
  have hexec := h.exec
  have hlaw := h.law hx
  obtain ⟨ts, w⟩ := y
  cases c with
  | listLambdas region =>
    cases hexec
    refine h.sound_reads hx (fun hc => hc) rfl rfl rfl rfl rfl (fun lambda hlambda => mem_listLambdas hlambda) ?_
    rw [show label.tagArn = none from hlaw]
    exact fun _ harn => (nomatch harn)
  | getLambdaById oid =>
    cases hexec
    refine h.sound_reads hx (fun hc => hc) rfl rfl (view_getLambdaById oid) rfl rfl (fun lambda hlambda => ?_) ?_
    · exact getLambdaById_eq_ok (toOption_eq_some (Option.mem_toList.mp hlambda))
    · rw [show label.tagArn = none from hlaw]
      exact fun _ harn => (nomatch harn)
  | getLambdaByArn arn =>
    cases hexec
    refine h.sound_reads hx (fun hc => hc) rfl rfl (view_getLambdaByArn arn) rfl rfl (fun lambda hlambda => ?_)
      fun a ha lambda hlambda => ?_
    · exact (getLambdaByArn_eq_ok (toOption_eq_some (Option.mem_toList.mp hlambda))).1
    · exact (getLambdaByArn_eq_ok (toOption_eq_some (Option.mem_toList.mp hlambda))).2.trans (hlaw a ha)
  | updateLambda lambda => exact sound_updateLambda hx h hdb htimely
  | deleteLambda f =>
    cases hexec
    refine ⟨_, h.sound hx rfl (hx.read_same rfl) (hx.worker i) ?_⟩
    have haccounted := hx.accounted.deletes (h.task_eq hx fun hc => hc) hlaw
    rwa [ledger, view_deleteLambda]
  | createContainer name instanceName tag environment port =>
    cases hexec
    obtain ⟨hcreated, hstopped, hstored, hread⟩ := htimely.container _ name instanceName tag environment port h.before rfl
    refine ⟨_, h.sound hx rfl (hx.read_same rfl) (hx.worker i) (hx.accounted.makes ⟨hcreated, hstopped, hstored, ?_⟩ hlaw)⟩
    intro j r hr
    rw [show ((ledger x phase).phase j).read = _ from hx.read j] at hr
    obtain ⟨lambda, hlambda, rfl⟩ := List.mem_map.mp hr
    exact hread j lambda hlambda
  | stopContainer id =>
    cases hexec
    obtain ⟨r, hr, hid⟩ := hlaw
    exact ⟨_, h.sound hx rfl (hx.read_same rfl) (hx.worker i) (hx.accounted.stops hr hid)⟩
  | _ => exact ⟨phase, h.sound_neutral hx trivial⟩

end Goes

theorem Sound.step (hdb : Separate db.view) (htimely : Timely rt i x) (h : turn rt accountId i x = some y)
    (hx : Sound tasks db x phase) : ∃ phase, Sound tasks db y phase := by
  rcases Thread.turn_cases h with rfl | ⟨label, c, k, r, started, hi, hexec, hy⟩
  · exact ⟨phase, hx⟩
  · exact Goes.sound_step ⟨hi, hexec, hy⟩ hx hdb htimely

/-! ### Every run -/

/-- The worker goes on to the next function. -/
theorem Sound.not_breaksOff (hx : Sound tasks db x phase) (i : Nat) : ¬ BreaksOff i x := by
  rintro ⟨⟨label, prog⟩, hi, rfl, hnext⟩
  cases prog with
  | ret a => cases hnext
  | throw e => cases hnext
  | call c k =>
    cases hnext
    have htask := (hx.task i _ hi).resolve_right fun ⟨hne, _⟩ => hne rfl
    have hfailed := (hx.complies i _ hi).1 rfl
    rw [hx.worker i htask] at hfailed
    cases hfailed

/-- A thread that has ended is at the end of its protocol. -/
theorem Sound.ended (hx : Sound tasks db x phase) (hend : ∀ t ∈ x.1, t.prog.next = none) {j : Nat} {t : LambdaThread}
    (ht : x.1[j]? = some t) : ∃ a, t.prog.outcome = some a ∧ End t.label a (phase j) := by
  have hcomplies := hx.complies j t ht
  have hnone := hend t (List.mem_of_getElem? ht)
  obtain ⟨label, prog⟩ := t
  cases prog with
  | ret a => exact ⟨.ok a, rfl, hcomplies⟩
  | throw e => exact ⟨.error e, rfl, hcomplies⟩
  | call c k => cases hnone

/-- At the end nothing is under way. -/
theorem Sound.kept (hx : Sound tasks db x phase) (hend : ∀ t ∈ x.1, t.prog.next = none) : Kept tasks db x := by
  have hidle : ∀ j, (phase j).Idle := by
    intro j
    rcases hj : x.1[j]? with _ | t
    · rw [hx.unborn j (List.getElem?_eq_none_iff.mp hj)]
      exact ⟨rfl, rfl⟩
    · obtain ⟨a, -, hend⟩ := hx.ended hend hj
      exact hend.1
  have hcompleted : ∀ (j : Nat) (task : Task), tasks[j]? = some task → (task.tagArn.isSome ∨ task.deletes.isSome) →
      ((phase j).done = true ↔ Completed x j) := by
    intro j task htask hkind
    obtain ⟨t, ht, rfl⟩ := hx.thread j task htask
    obtain ⟨a, houtcome, hat⟩ := hx.ended hend ht
    rw [hat.2 hkind]
    constructor
    · rintro rfl
      exact ⟨t, ht, houtcome⟩
    · rintro ⟨t', ht', hok⟩
      cases ht.symm.trans ht'
      exact Option.some_inj.mp (houtcome.symm.trans hok)
  refine {
    recorded := fun f c hborn hstopped => ?_
    removed := fun c hc key v hv hin => ?_
    tags := ?_ }
  · rcases hx.accounted.recorded f c hborn with hc | hc | ⟨j, hj⟩ | ⟨j, task, htask, hf, hdone⟩
    · exact absurd hc hstopped
    · exact .inl hc
    · have hnone := (hidle j).1
      rw [show (phase j).made = some (f, c) from hj] at hnone
      cases hnone
    · exact .inr ⟨j, task, htask, hf, (hcompleted j task htask (.inr (by rw [hf]; rfl))).mp hdone⟩
  · obtain ⟨j, hj⟩ := hx.accounted.removed c hc key v hv hin
    have hnil := (hidle j).2
    rw [show (ledger x phase).phase j = phase j from rfl, hnil] at hj
    cases hj
  · obtain ⟨order, hnodup, horder, htags⟩ := hx.accounted.tags
    refine ⟨order, hnodup, fun j => (horder j).trans ?_, htags⟩
    refine exists_congr fun task => and_congr_right fun htask => and_congr_right fun htag => ?_
    exact hcompleted j task htask (.inl htag)

/-- In every order of the calls of any such tasks: as long as every step is timely, the worker reaches every
    function, and once all have ended nothing is lost. -/
theorem lambda_updates_kept (rt : Runtime) (accountId : Str) (tasks : List Task) (db : LambdaMemoryDb) (sched : List Nat)
    (hdb : Separate db.view) (htimely : Along (turn rt accountId) (Timely rt) sched (begin accountId tasks db)) :
    Along (turn rt accountId) (fun i x => ¬ BreaksOff i x) sched (begin accountId tasks db) ∧
    ∀ y, steps (turn rt accountId) sched (begin accountId tasks db) = some y → (∀ t ∈ y.1, t.prog.next = none) →
      Kept tasks db y := by
  have hbegin : ∃ phase, Sound tasks db (begin accountId tasks db) phase := ⟨_, sound_begin accountId tasks hdb⟩
  constructor
  · exact along_of_along (I := fun x => ∃ phase, Sound tasks db x phase)
      (fun htimely h ⟨_, hx⟩ => hx.step hdb htimely h) (fun _ ⟨_, hx⟩ => hx.not_breaksOff _) htimely hbegin
  · intro y hrun hend
    obtain ⟨phase, hy⟩ := steps_along (I := fun x => ∃ phase, Sound tasks db x phase)
      (fun htimely h ⟨_, hx⟩ => hx.step hdb htimely h) htimely hrun hbegin
    exact hy.kept hend

/-! ### Sample runs -/

/-- What is enough for a timely update. -/
def TimelyUpdate (label : Task) (read : List Lambda) : Option (Str × Lambda) → Prop
  | none => label.isWorker = false
  | some found => ∀ r ∈ read, (r.instances.map Instance.containerId, r.tags) =
      (found.2.instances.map Instance.containerId, found.2.tags) ∧ (r.instances.map Instance.id).Nodup ∧
        (found.2.tags = ∅ ∨ label.isWorker = true)

instance (label : Task) (read : List Lambda) : ∀ found, Decidable (TimelyUpdate label read found)
  | none => inferInstanceAs (Decidable (label.isWorker = false))
  | some _ => inferInstanceAs (Decidable (∀ r ∈ read, _ ∧ _ ∧ (_ ∨ _)))

/-- Whether a step updates a record in time, or neither updates a record nor creates a container. -/
def checkTimely (i : Nat) (x : LambdaPool) : Bool :=
  match x.1[i]? with
  | none => true
  | some t => match t.prog.next with
    | some (.updateLambda lambda) => decide (x.2.read i ≠ [] ∧
        TimelyUpdate t.label (x.2.read i) (x.2.db.findUpdated lambda))
    | some (.createContainer ..) => false
    | _ => true

theorem timely_of_check (h : checkTimely i x = true) : Timely rt i x := by
  unfold checkTimely at h
  refine ⟨fun t lambda ht hnext r hr _ found hfound => ?_, fun t lambda ht hnext hworker => ?_,
    fun t lambda request ht hnext hlabel found hfound tag _ value hvalue => ?_,
    fun t name instanceName tag environment port ht hnext => ?_⟩
  all_goals simp only [ht, hnext, decide_eq_true_eq] at h
  · rw [hfound] at h
    obtain ⟨heq, -⟩ := h.2 r hr
    exact Prod.mk.inj heq
  · rcases hfound : x.2.db.findUpdated lambda with _ | found
    · rw [hfound, hworker] at h
      cases h.2
    · rw [hfound] at h
      exact ⟨rfl, fun r hr => (h.2 r hr).2.1⟩
  · rw [hfound, hlabel] at h
    obtain ⟨r, hr⟩ := List.exists_mem_of_ne_nil _ h.1
    rcases (h.2 r hr).2.2 with hempty | hworker
    · rw [hempty] at hvalue
      cases hvalue
    · cases hworker
  · cases h

def LambdaCall.terminates : LambdaCall → Bool
  | .terminate => true
  | _ => false

instance (i : Nat) (x : LambdaPool) : Decidable (BreaksOff i x) :=
  decidable_of_iff ((x.1[i]?.any fun t => t.label.isWorker && t.prog.next.any LambdaCall.terminates) = true) <| by
    simp only [BreaksOff, Option.any_eq_true, Bool.and_eq_true]
    refine exists_congr fun t => and_congr_right fun _ => and_congr ?_ ?_
    · cases t.label <;> simp [Task.isWorker]
    · constructor
      · rintro ⟨c, hc, hterminates⟩
        cases c <;> first | exact hc | cases hterminates
      · exact fun h => ⟨_, h, rfl⟩

/-- One function with the expired instance `c`. -/
def sampleStore : LambdaMemoryDb := { lambdas := .ofList [(str "o", sampleLambda)] }

theorem separate_sampleStore : Separate sampleStore.view := by
  have hkey : ∀ key v, sampleStore.view key = some v → key = str "o" ∧ v = sampleLambda.view := by
    intro key v hv
    obtain ⟨lambda, hget, rfl⟩ := Option.map_eq_some_iff.mp hv
    cases List.mem_singleton.mp (OrderedMap.mem_of_get?_ofList hget)
    exact ⟨rfl, rfl⟩
  refine ⟨fun key key' v v' hv hv' _ => ?_, fun key key' v v' hv hv' _ => ?_, fun key v hv => ?_,
    fun key key' v v' c hv hv' _ _ => ?_⟩
  · exact (hkey key v hv).1.trans (hkey key' v' hv').1.symm
  · exact (hkey key v hv).1.trans (hkey key' v' hv').1.symm
  · rw [(hkey key v hv).2]
    decide
  · exact (hkey key v hv).1.trans (hkey key' v' hv').1.symm

def sampleTags : CreateTagRequest := { arn := sampleLambda.arn, tags := .ofList [(str "k", str "v")] }

/-- The tags are created, then the worker removes the instance. -/
theorem lambda_updates_kept_in_turn :
    Along (turn .answering []) (fun i x => ¬ BreaksOff i x) [0, 0, 0, 1, 1, 1, 1, 1]
      (begin [] [.createTag sampleTags, .worker] sampleStore) ∧
    ∀ y, steps (turn .answering []) [0, 0, 0, 1, 1, 1, 1, 1] (begin [] [.createTag sampleTags, .worker] sampleStore) =
      some y → (∀ t ∈ y.1, t.prog.next = none) → Kept [.createTag sampleTags, .worker] sampleStore y :=
  lambda_updates_kept .answering [] [.createTag sampleTags, .worker] sampleStore [0, 0, 0, 1, 1, 1, 1, 1]
    separate_sampleStore (along_of_along (I := fun _ => True) (C := fun i x => checkTimely i x = true)
      (fun _ _ _ => trivial) (fun h _ => timely_of_check h) (by decide +kernel) trivial)

/-- Without deletions the containers that were created and not stopped are those of stored instances. -/
theorem Kept.created_stored (h : Kept tasks db y) (htasks : ∀ task ∈ tasks, task.deletes = none) :
    ∀ p ∈ y.2.created, p.2 ∉ y.2.stopped → p.2 ∈ y.2.db.instances.map Instance.containerId := by
  rintro ⟨f, c⟩ hp hc
  rcases h.recorded f c (.inl hp) hc with ⟨key, v, hv, -, hin⟩ | ⟨j, task, hj, hf, -⟩
  · obtain ⟨lambda, hget, rfl⟩ := Option.map_eq_some_iff.mp hv
    obtain ⟨inst, hinst, rfl⟩ := List.mem_map.mp hin
    exact List.mem_map_of_mem (mem_instances.mpr ⟨key, lambda, hget, hinst⟩)
  · rw [htasks task (List.mem_of_getElem? hj)] at hf
    cases hf

/-- The container that a creator makes while the tags are being created is lost. A function that is deleted
    after the worker has read it makes the worker's update throw, and the process ends. -/
theorem lambda_updates_lost :
    (¬ ∀ y, steps (turn .answering []) [1, 1, 0, 0, 0, 0, 0, 0, 0, 0, 0, 0, 1]
        (begin [] [.creator [] (str "o") (str "b"), .createTag sampleTags] sampleStore) = some y →
      (∀ t ∈ y.1, t.prog.next = none) →
        Kept [.creator [] (str "o") (str "b"), .createTag sampleTags] sampleStore y) ∧
    ¬ Along (turn .answering []) (fun i x => ¬ BreaksOff i x) [0, 0, 0, 1, 1, 1, 1, 1, 1, 0, 0]
      (begin [] [.worker, .deleteFunction ⟨str "f"⟩] sampleStore) := by
  refine ⟨fun h => ?_, by decide +kernel⟩
  have hkept := h _ (Option.some_get (by decide +kernel)).symm (by decide +kernel)
  exact absurd (hkept.created_stored (by decide)) (by decide +kernel)

end AwsMock.Lambda
