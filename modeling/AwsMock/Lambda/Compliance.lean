import AwsMock.Lambda.Ledger
import AwsMock.Lib.Protocol
import Mathlib.Data.List.Nodup

/-!
# What the lambda programs write

Every task writes back only what it derives from a record that it has read before.
-/

namespace AwsMock.Lambda

open Lib

/-! ### The views of the store -/

def LambdaMemoryDb.view (db : LambdaMemoryDb) (key : Str) : Option View := (db.lambdas.get? key).map Lambda.view

variable {accountId : Str} {db : LambdaMemoryDb}

theorem view_insert (key : Str) (lambda : Lambda) :
    LambdaMemoryDb.view ⟨db.lambdas.insert key lambda⟩ = Function.update db.view key (some lambda.view) := by
  funext key'
  simp only [LambdaMemoryDb.view, OrderedMap.get?_insert, Function.update_apply]
  split <;> rfl

theorem view_withOid {key oid : Str} {lambda : Lambda} (h : db.lambdas.get? key = some lambda) :
    (db.withOid key oid lambda).view = db.view := by
  rw [LambdaMemoryDb.withOid, view_insert]
  refine Function.update_eq_self_iff.mpr ?_
  rw [LambdaMemoryDb.view, h]
  rfl

theorem view_getLambdaById (oid : Str) : (db.getLambdaById oid).2.view = db.view := by
  unfold LambdaMemoryDb.getLambdaById
  split
  · rfl
  · next h => exact view_withOid h

theorem view_getLambdaByArn (arn : Str) : (db.getLambdaByArn arn).2.view = db.view := by
  unfold LambdaMemoryDb.getLambdaByArn
  split
  · rfl
  · next h => exact view_withOid (findLambda_eq_some h).1

/-- What a lookup returns is stored. -/
theorem getLambdaById_eq_ok {oid : Str} {lambda : Lambda} (h : (db.getLambdaById oid).1 = .ok lambda) :
    ∃ key, db.view key = some lambda.view := by
  unfold LambdaMemoryDb.getLambdaById at h
  split at h
  · cases h
  · next hget =>
    cases h
    exact ⟨oid, by rw [LambdaMemoryDb.view, hget]; rfl⟩

theorem getLambdaByArn_eq_ok {arn : Str} {lambda : Lambda} (h : (db.getLambdaByArn arn).1 = .ok lambda) :
    (∃ key, db.view key = some lambda.view) ∧ lambda.arn = arn := by
  unfold LambdaMemoryDb.getLambdaByArn at h
  split at h
  · cases h
  · next key found hfound =>
    cases h
    obtain ⟨hget, harn⟩ := findLambda_eq_some hfound
    exact ⟨⟨key, by rw [LambdaMemoryDb.view, hget]; rfl⟩, of_decide_eq_true harn⟩

theorem mem_listLambdas {region : Str} {lambda : Lambda} (h : lambda ∈ db.listLambdas region) :
    ∃ key, db.view key = some lambda.view := by
  have hvalues : lambda ∈ db.lambdas.values := by
    unfold LambdaMemoryDb.listLambdas at h
    split at h
    · exact h
    · exact List.mem_of_mem_filter h
  obtain ⟨⟨key, _⟩, hentry, rfl⟩ := List.mem_map.mp hvalues
  exact ⟨key, by rw [LambdaMemoryDb.view, OrderedMap.get?_eq_some.mpr hentry]; rfl⟩

theorem view_setInstanceStatus (containerId : Str) (status : LambdaInstanceStatus) :
    (db.setInstanceStatus containerId status).view = db.view := by
  funext key
  simp only [LambdaMemoryDb.view, LambdaMemoryDb.setInstanceStatus, OrderedMap.get?_mapVal, Option.map_map]
  cases db.lambdas.get? key with
  | none => rfl
  | some lambda =>
    simp only [Option.map_some, Function.comp_apply, Lambda.view, List.map_map, Option.some.injEq, View.mk.injEq,
      true_and]
    constructor <;> refine List.map_congr_left fun inst _ => ?_ <;> simp only [Function.comp_apply] <;> split <;> rfl

theorem view_deleteLambda (f : Str) :
    (db.deleteLambda f).view = fun key => (db.view key).filter fun v => v.function ≠ f := by
  funext key
  simp only [LambdaMemoryDb.view, LambdaMemoryDb.deleteLambda, OrderedMap.get?_eraseIf]
  cases db.lambdas.get? key with
  | none => rfl
  | some lambda =>
    by_cases hf : lambda.function = f <;> simp [Option.filter, Lambda.view, hf]

/-- An update that finds its record replaces it. -/
theorem updateLambda_of_found {lambda : Lambda} {found : Str × Lambda} (h : db.findUpdated lambda = some found) :
    db.updateLambda lambda = (.ok lambda, ⟨db.lambdas.insert found.1 lambda⟩) ∧
      db.view found.1 = some found.2.view ∧ lambda.view.Same found.2.view := by
  obtain ⟨hget, hsame⟩ := findLambda_eq_some h
  have hsame := of_decide_eq_true hsame
  refine ⟨?_, by rw [LambdaMemoryDb.view, hget]; rfl, ⟨hsame.1.symm, hsame.2.symm⟩⟩
  rw [LambdaMemoryDb.updateLambda, h]

theorem updateLambda_of_none {lambda : Lambda} (h : db.findUpdated lambda = none) :
    ∃ e, db.updateLambda lambda = (.error e, db) := by
  unfold LambdaMemoryDb.updateLambda
  rw [h]
  exact ⟨_, rfl⟩

/-! ### What each task does -/

/-- A task writes only what it derives from a record that it has read, stops only containers of such a
    record, and makes one container at a time. -/
def keeping (task : Task) : Prog.Protocol LambdaCall LambdaCall.Reply Phase where
  law q
    | .updateLambda lambda => ∃ r ∈ q.read, Derives task q r lambda.view
    | .createContainer .. => q.made = none
    | .stopContainer id => ∃ r ∈ q.read, id ∈ r.containers
    | .getLambdaByArn arn => ∀ a, task.tagArn = some a → arn = a
    | .getLambdaById _ | .listLambdas _ => task.tagArn = none
    | .deleteLambda f => task.deletes = some f
    | .terminate => task = .worker → q.failed = true
    | _ => True
  next q
    | .listLambdas _, lambdas => { q with read := lambdas.map Lambda.view }
    | .getLambdaById _, lambda | .getLambdaByArn _, lambda =>
      { q with read := lambda.toOption.toList.map Lambda.view }
    | .updateLambda _, .ok _ => { q with made := none, stopping := [], done := true }
    | .updateLambda _, .error _ => { q with failed := true }
    | .createContainer f .., c => { q with made := some (f, c) }
    | .stopContainer id, _ => { q with stopping := q.stopping ++ [id] }
    | .deleteLambda _, _ => { q with done := true }
    | .terminate, _ => {}
    | _, _ => q

/-- Nothing is under way. -/
def Phase.Idle (q : Phase) : Prop := q.made = none ∧ q.stopping = []

/-- The end of a task. -/
def End (task : Task) (x : Except Error Unit) (q : Phase) : Prop :=
  q.Idle ∧ ((task.tagArn.isSome ∨ task.deletes.isSome) → (q.done = true ↔ x = .ok ()))

/-- A task whose end says nothing about tags or deletions. -/
theorem end_of_idle {task : Task} (htag : task.tagArn = none) (hdeletes : task.deletes = none)
    {x : Except Error Unit} {q : Phase} (h : q.Idle) : End task x q := by
  refine ⟨h, ?_⟩
  rintro (hsome | hsome)
  · rw [htag] at hsome
    cases hsome
  · rw [hdeletes] at hsome
    cases hsome

/-- A record that is written back with nothing but its tags changed. -/
theorem derives_retagged {task : Task} {q : Phase} {r w : View} (hq : q.Idle) (hdone : task.tagArn.isSome → q.done = false)
    (h : w = { r with tags := task.change r.tags }) : Derives task q r w := by
  subst h
  exact {
    region := rfl
    function := rfl
    arn := rfl
    tags := rfl
    once := hdone
    containers := List.sublist_append_left ..
    made := fun f c hmade => by
      rw [hq.1] at hmade
      cases hmade
    kept := fun _ c hc hnot => absurd hc hnot
    dropped := fun _ c hc => by
      rw [hq.2] at hc
      cases hc }

section Programs

variable {task : Task} {q : Phase} {α β : Type}

/-- A lookup and the rest of the program. -/
theorem complies_tryCall {Q : Except Error β → Phase → Prop} {p : LambdaProg (Except Error α)} {f : α → LambdaProg β}
    (hp : p.Complies (keeping task) (fun x => Prog.afterComplies (keeping task) Q f (x.bind id)) q) :
    (tryCall p >>= f).Complies (keeping task) Q q := by
  refine Prog.complies_bind (Prog.complies_bind (hp.mono fun x q h => ?_))
  rcases x with e | (e | a) <;> exact h

/-- The tag requests. -/
theorem complies_changeTags {arn : Str} {change : OrderedMap Str Str → OrderedMap Str Str} (htag : task.tagArn = some arn)
    (hchange : task.change = change) : (changeTags arn change).Complies (keeping task) (End task) {} := by
  have hidle : ({} : Phase).Idle := ⟨rfl, rfl⟩
  refine ⟨trivial, fun found => ?_⟩
  cases found with
  | false => exact ⟨hidle, fun _ => by simp [keeping]⟩
  | true =>
    refine complies_tryCall ⟨fun a ha => (Option.some_inj.mp (htag.symm.trans ha)), fun x => ?_⟩
    cases x with
    | error e => exact ⟨hidle, fun _ => by simp [keeping]⟩
    | ok lambda =>
      refine complies_tryCall ⟨⟨lambda.view, List.mem_singleton.mpr rfl, derives_retagged hidle (fun _ => rfl) ?_⟩, fun x => ?_⟩
      · rw [hchange]
        rfl
      · cases x with
        | error e => exact ⟨hidle, fun _ => by simp [keeping]⟩
        | ok _ => exact ⟨⟨rfl, rfl⟩, fun _ => by simp [keeping]⟩

theorem complies_deleteFunction (request : DeleteFunctionRequest) :
    (deleteFunction request).Complies (keeping (.deleteFunction request)) (End (.deleteFunction request)) {} := by
  have hidle : ({} : Phase).Idle := ⟨rfl, rfl⟩
  refine ⟨trivial, fun found => ?_⟩
  cases found with
  | false => exact ⟨hidle, fun _ => by simp [keeping]⟩
  | true =>
    have hdelete : (call (.deleteLambda request.functionName)).Complies (keeping (.deleteFunction request))
        (End (.deleteFunction request)) {} := ⟨rfl, fun _ => ⟨hidle, fun _ => by simp [keeping]⟩⟩
    have himage : (do
        if ← call (.imageExists request.functionName (str "latest")) then
          let image ← call (.getImageByName request.functionName (str "latest"))
          call (.deleteImage image)
        call (.deleteLambda request.functionName) : LambdaProg Unit).Complies (keeping (.deleteFunction request))
          (End (.deleteFunction request)) {} := by
      refine ⟨trivial, fun found => ?_⟩
      cases found with
      | false => exact hdelete
      | true => exact ⟨trivial, fun image => ⟨trivial, fun _ => hdelete⟩⟩
    refine ⟨trivial, fun found => ?_⟩
    cases found with
    | false => exact himage
    | true => exact ⟨trivial, fun container => ⟨trivial, fun _ => himage⟩⟩

/-- A thread of its own. -/
theorem complies_detached {Q : Except Error Unit → Phase → Prop} {p : LambdaProg Unit}
    (hp : p.Complies (keeping task) (fun x q => (x = .ok () → Q (.ok ()) q) ∧
      ((∃ e, x = .error e) → task = .worker → q.failed = true)) q) (hQ : Q (.ok ()) {}) :
    (detached p).Complies (keeping task) Q q := by
  refine Prog.complies_bind (Prog.complies_attempt (hp.mono fun x q h => ?_))
  cases x with
  | ok u => exact h.1 rfl
  | error e => exact ⟨h.2 ⟨e, rfl⟩, fun _ => hQ⟩

theorem Task.change_of_none (h : task.tagArn = none) (tags : OrderedMap Str Str) : task.change tags = tags := by
  cases task <;> first | rfl | cases h

/-! #### The creator -/

/-- The record of a creator that has one container to store, or none. -/
def Creates (task : Task) (lambda l : Lambda) (q : Phase) : Prop :=
  q.read = [lambda.view] ∧ q.stopping = [] ∧ Derives task q lambda.view l.view

theorem complies_ensureImage {lambda : Lambda} (functionCode dockerTag : Str) :
    (ensureImage lambda functionCode dockerTag).Complies (keeping task)
      (fun x q' => ∃ l, x = .ok l ∧ l.view = lambda.view ∧ q' = q) q := by
  refine ⟨trivial, fun found => ?_⟩
  cases found with
  | true => exact ⟨lambda, rfl, rfl, rfl⟩
  | false => exact ⟨trivial, fun image => ⟨_, rfl, rfl, rfl⟩⟩

theorem complies_ensureContainer (htag : task.tagArn = none) {lambda l : Lambda} (hl : l.view = lambda.view)
    (hq : q.Idle) (hread : q.read = [lambda.view]) (instanceId dockerTag : Str) :
    (ensureContainer instanceId l dockerTag).Complies (keeping task)
      (fun x q' => ∃ l', x = .ok l' ∧ Creates task lambda l' q') q := by
  have hchange := Task.change_of_none htag
  refine ⟨trivial, fun found => ?_⟩
  cases found with
  | true =>
    refine ⟨l, rfl, hread, hq.2, derives_retagged hq (fun h => ?_) ?_⟩
    · rw [htag] at h
      cases h
    · rw [hl, hchange]
  | false =>
    refine ⟨trivial, fun created => ⟨trivial, fun port => ⟨hq.1, fun c => ⟨_, rfl, hread, hq.2, ?_⟩⟩⟩⟩
    rw [← hl]
    exact {
      region := rfl
      function := rfl
      arn := rfl
      tags := (hchange _).symm
      once := fun h => by
        rw [htag] at h
        cases h
      containers := by simp [Lambda.view, keeping]
      made := fun f c' h => by
        cases h
        exact ⟨rfl, by simp [Lambda.view]⟩
      kept := fun _ c' hc hnot => absurd (by simpa [Lambda.view] using Or.inl (List.mem_map.mp hc)) hnot
      dropped := fun _ c' hc => by
        have hstopping : c' ∈ q.stopping := hc
        rw [hq.2] at hstopping
        cases hstopping }

theorem complies_createInstance (htag : task.tagArn = none) {lambda : Lambda} (hq : q.Idle)
    (hread : q.read = [lambda.view]) (instanceId functionCode : Str) :
    (createInstance instanceId lambda functionCode).Complies (keeping task)
      (fun x q' => ∃ l, x = .ok l ∧ Creates task lambda l q') q := by
  refine Prog.complies_bind ((complies_ensureImage functionCode _).mono ?_)
  rintro _ _ ⟨l, rfl, hl, rfl⟩
  refine Prog.complies_bind ((complies_ensureContainer htag hl hq hread instanceId _).mono ?_)
  rintro _ q' ⟨l', rfl, hcreates⟩
  refine Prog.complies_perform_bind trivial fun container => ?_
  split
  · exact ⟨trivial, fun _ => ⟨l', rfl, hcreates⟩⟩
  · exact ⟨_, rfl, hcreates⟩

theorem complies_lambdaCreator (htag : task.tagArn = none) (hworker : task ≠ .worker) (hq : q.Idle)
    (functionCode functionId instanceId : Str) :
    (detached (lambdaCreator functionCode functionId instanceId)).Complies (keeping task)
      (fun x q => x = .ok () ∧ q.Idle) q := by
  refine complies_detached (complies_tryCall ⟨htag, fun x => ?_⟩) ⟨rfl, rfl, rfl⟩
  cases x with
  | error e => exact ⟨fun h => (nomatch h), fun _ h => absurd h hworker⟩
  | ok lambda =>
    refine Prog.complies_bind ((@complies_createInstance task { q with read := [lambda.view] } htag lambda hq rfl
      instanceId functionCode).mono ?_)
    rintro _ q' ⟨l, rfl, hread, -, hderives⟩
    refine ⟨trivial, fun now => complies_tryCall ⟨⟨lambda.view, ?_, hderives⟩, fun x => ?_⟩⟩
    · exact hread ▸ List.mem_singleton.mpr rfl
    · cases x with
      | error e => exact ⟨fun h => (nomatch h), fun _ h => absurd h hworker⟩
      | ok _ => exact ⟨fun _ => ⟨rfl, rfl, rfl⟩, fun ⟨_, h⟩ => (nomatch h)⟩

/-! #### Invocations and executors -/

/-- The end of an invocation writes the record back as it was read. -/
theorem complies_dispatched (htag : task.tagArn = none) {lambda : Lambda} (hq : q.Idle)
    (hread : q.read = [lambda.view]) (output : Str) :
    (do let now ← call .now
        let _ ← tryCall (call (.updateLambda { lambda with lastInvocation := now, state := .active }))
        return output : LambdaProg Str).Complies (keeping task) (fun _ q => q.Idle) q := by
  refine Prog.complies_perform_bind trivial fun now => complies_tryCall ⟨⟨lambda.view,
    hread ▸ List.mem_singleton.mpr rfl, derives_retagged hq (fun h => ?_) ?_⟩, fun x => ?_⟩
  · rw [htag] at h
    cases h
  · rw [Task.change_of_none htag]
    rfl
  · cases x with
    | error e => exact hq
    | ok _ => exact ⟨rfl, rfl⟩

theorem complies_dispatch (htag : task.tagArn = none) {lambda : Lambda} (hq : q.Idle)
    (hread : q.read = [lambda.view]) (request : InvokeRequest) (instanceId : Str) :
    (dispatch request lambda instanceId).Complies (keeping task) (fun _ q => q.Idle) q := by
  unfold dispatch
  split
  · refine Prog.complies_bind ⟨trivial, fun _ => complies_tryCall ⟨trivial, fun x => ?_⟩⟩
    cases x with
    | error e => exact hq
    | ok response => exact complies_dispatched htag hq hread _
  · exact Prog.complies_bind ⟨trivial, fun _ => complies_dispatched htag hq hread []⟩

theorem complies_invokeLocked (htag : task.tagArn = none) (hworker : task ≠ .worker) (hq : q.Idle)
    (request : InvokeRequest) : (invokeLocked accountId request).Complies (keeping task) (fun _ q => q.Idle) q := by
  have harn : ∀ a, task.tagArn = some a → createLambdaArn request.region accountId request.functionName = a := by
    intro a ha
    rw [htag] at ha
    cases ha
  refine complies_tryCall ⟨harn, fun x => ?_⟩
  cases x with
  | error e => exact hq
  | ok lambda =>
    change Prog.Complies _ _ (if findIdleInstance lambda = [] then _ else _) _
    split
    · refine Prog.complies_perform_bind trivial fun instanceId => Prog.complies_bind
        ((@complies_lambdaCreator task { q with read := [lambda.view] } htag hworker hq _ _ instanceId).mono ?_)
      rintro _ q' ⟨rfl, hq'⟩
      refine complies_tryCall ⟨harn, fun x => ?_⟩
      cases x with
      | error e => exact hq'
      | ok lambda => exact @complies_dispatch task { q' with read := [lambda.view] } htag lambda hq' rfl request instanceId
    · exact @complies_dispatch task { q with read := [lambda.view] } htag lambda hq rfl request _

theorem complies_invoke (request : InvokeRequest) :
    ((Task.invoke request).prog accountId).Complies (keeping (.invoke request)) (End (.invoke request)) {} := by
  refine Prog.complies_bind (Prog.complies_perform_bind trivial fun _ => Prog.complies_bind (Prog.complies_attempt ?_))
  refine (complies_invokeLocked rfl (fun h => by cases h) ⟨rfl, rfl⟩ request).mono fun x q hq => ?_
  refine ⟨trivial, fun _ => Prog.complies_ofExcept ?_⟩
  cases x <;> exact end_of_idle rfl rfl hq

theorem complies_executor (hq : q.Idle) (htag : task.tagArn = none) (hdeletes : task.deletes = none)
    (hworker : task ≠ .worker) (containerId host : Str) (port : Int) (payload : Str) :
    (detached (lambdaExecutor containerId host port payload)).Complies (keeping task) (End task) q := by
  refine complies_detached ⟨trivial, fun _ => ⟨trivial, fun _ => complies_tryCall ⟨trivial, fun x => ?_⟩⟩⟩
    (end_of_idle htag hdeletes ⟨rfl, rfl⟩)
  cases x with
  | error e => exact ⟨fun h => (nomatch h), fun _ h => absurd h hworker⟩
  | ok response =>
    have hend : (Except.ok () = (Except.ok () : Except Error Unit) → End task (.ok ()) q) ∧
        ((∃ e, (Except.ok () : Except Error Unit) = .error e) → task = .worker → q.failed = true) :=
      ⟨fun _ => end_of_idle htag hdeletes hq, fun ⟨_, h⟩ => (nomatch h)⟩
    rcases response with ⟨_ | _, body⟩
    · exact ⟨trivial, fun _ => ⟨trivial, fun _ => hend⟩⟩
    · exact ⟨trivial, fun _ => hend⟩

/-! #### The worker -/

theorem foldl_removeInstance (lambda : Lambda) : ∀ removed : List Instance, removed.foldl Lambda.removeInstance lambda =
    { lambda with instances := lambda.instances.filter fun inst => ∀ gone ∈ removed, inst.id ≠ gone.id }
  | [] => by simp
  | gone :: removed => by
    rw [List.foldl_cons, foldl_removeInstance _ removed]
    simp only [Lambda.removeInstance, List.filter_filter, List.forall_mem_cons, Bool.decide_and, Bool.and_comm]

/-- The record of a worker lacks the instances whose containers it has stopped. -/
theorem derives_removed {lambda : Lambda} (expired : Int) (hmade : q.made = none)
    (hstopping : q.stopping = (expiredInstances expired lambda).map Instance.containerId) :
    Derives .worker q lambda.view ((expiredInstances expired lambda).foldl Lambda.removeInstance lambda).view := by
  rw [foldl_removeInstance]
  have hmem : ∀ inst, inst ∈ expiredInstances expired lambda → inst ∈ lambda.instances :=
    fun inst h => List.mem_of_mem_filter h
  exact {
    region := rfl
    function := rfl
    arn := rfl
    tags := rfl
    once := fun h => by cases h
    containers := by
      rw [hmade]
      exact (List.filter_sublist.map _).trans (List.sublist_append_left ..)
    made := fun f c h => by
      rw [hmade] at h
      cases h
    kept := fun hids c hc hnot => by
      obtain ⟨inst, hinst, rfl⟩ := List.mem_map.mp hc
      by_contra hstop
      refine hnot (List.mem_map.mpr ⟨inst, List.mem_filter.mpr ⟨hinst, decide_eq_true fun gone hgone hid => ?_⟩, rfl⟩)
      cases List.inj_on_of_nodup_map (hids rfl) hinst (hmem gone hgone) hid
      exact hstop (hstopping ▸ List.mem_map.mpr ⟨inst, hgone, rfl⟩)
    dropped := fun hnodup c hc => by
      rw [hstopping] at hc
      obtain ⟨gone, hgone, rfl⟩ := List.mem_map.mp hc
      refine ⟨List.mem_map.mpr ⟨gone, hmem gone hgone, rfl⟩, fun hin => ?_⟩
      obtain ⟨inst, hinst, heq⟩ := List.mem_map.mp hin
      obtain ⟨hold, hkept⟩ := List.mem_filter.mp hinst
      cases List.inj_on_of_nodup_map hnodup hold (hmem gone hgone) heq
      exact of_decide_eq_true hkept gone hgone rfl }

theorem complies_stops : ∀ {insts : List Instance} {q : Phase}, (∀ inst ∈ insts, ∃ r ∈ q.read, inst.containerId ∈ r.containers) →
    (Prog.forEach insts fun inst => call (.stopContainer inst.containerId)).Complies (keeping task)
      (fun x q' => x = .ok () ∧ q' = { q with stopping := q.stopping ++ insts.map Instance.containerId }) q
  | [], q, _ => ⟨rfl, by simp⟩
  | inst :: insts, q, h => by
    refine Prog.complies_perform_bind (h inst List.mem_cons_self) fun _ => ?_
    refine (@complies_stops insts { q with stopping := q.stopping ++ [inst.containerId] } fun inst' hinst' =>
      h inst' (List.mem_cons_of_mem _ hinst')).mono ?_
    rintro _ _ ⟨rfl, rfl⟩
    exact ⟨rfl, by simp⟩

theorem complies_removeExpired (expired : Int) {lambda : Lambda} (hq : q.Idle) (hread : lambda.view ∈ q.read) :
    (removeExpired expired lambda).Complies (keeping .worker)
      (fun x q' => (x = .ok () → q'.Idle ∧ q'.read = q.read) ∧ ((∃ e, x = .error e) → q'.failed = true)) q := by
  refine Prog.complies_bind ((complies_stops fun inst hinst => ⟨lambda.view, hread,
    List.mem_map.mpr ⟨inst, List.mem_of_mem_filter hinst, rfl⟩⟩).mono ?_)
  rintro _ _ ⟨rfl, rfl⟩
  refine complies_tryCall ⟨⟨lambda.view, hread, derives_removed expired hq.1 ?_⟩, fun x => ?_⟩
  · rw [hq.2]
    rfl
  · cases x with
    | error e => exact ⟨fun h => (nomatch h), fun _ => rfl⟩
    | ok _ => exact ⟨fun _ => ⟨⟨rfl, rfl⟩, rfl⟩, fun ⟨_, h⟩ => (nomatch h)⟩

theorem complies_worker : (Task.worker.prog accountId).Complies (keeping .worker) (End .worker) {} := by
  have hend : ∀ q : Phase, q.Idle → (Except.ok () = (Except.ok () : Except Error Unit) → End .worker (.ok ()) q) ∧
      ((∃ e, (Except.ok () : Except Error Unit) = .error e) → Task.worker = .worker → q.failed = true) :=
    fun q hq => ⟨fun _ => end_of_idle rfl rfl hq, fun ⟨_, h⟩ => (nomatch h)⟩
  refine complies_detached (Prog.complies_perform_bind rfl fun lambdaList => ?_) (end_of_idle rfl rfl ⟨rfl, rfl⟩)
  split
  · exact hend _ ⟨rfl, rfl⟩
  · refine Prog.complies_perform_bind trivial fun now => Prog.complies_bind
      (Prog.complies_forEach (J := fun q => q.Idle ∧ q.read = lambdaList.map Lambda.view) ?_ ⟨⟨rfl, rfl⟩, rfl⟩ ?_)
    · exact fun q hq => ⟨trivial, fun _ => hend q hq.1⟩
    · rintro lambda hlambda q ⟨hq, hread⟩
      unfold Prog.when
      split
      · refine (complies_removeExpired _ hq (hread ▸ List.mem_map_of_mem hlambda)).mono fun x q' h => ?_
        cases x with
        | error e => exact ⟨fun h => (nomatch h), fun _ _ => h.2 ⟨e, rfl⟩⟩
        | ok u => exact ⟨(h.1 rfl).1, (h.1 rfl).2.trans hread⟩
      · exact ⟨hq, hread⟩

theorem complies_task (task : Task) : (task.prog accountId).Complies (keeping task) (End task) {} := by
  cases task with
  | invoke request => exact complies_invoke request
  | createTag request => exact complies_changeTags rfl rfl
  | deleteTags request => exact complies_changeTags rfl rfl
  | deleteFunction request => exact complies_deleteFunction request
  | creator functionCode functionId instanceId =>
    refine (complies_lambdaCreator rfl (fun h => by cases h) ⟨rfl, rfl⟩ functionCode functionId instanceId).mono ?_
    exact fun x q h => end_of_idle rfl rfl h.2
  | worker => exact complies_worker
  | executor containerId host port payload =>
    exact complies_executor ⟨rfl, rfl⟩ rfl rfl (fun h => by cases h) containerId host port payload

end Programs

end AwsMock.Lambda
