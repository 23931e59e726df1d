import AwsMock.Lambda.Service
import AwsMock.Lib.Protocol

/-!
# One invocation at a time

Any number of invocations, the executors that they start and passes of the worker, in every order of their
calls. The store marks an instance as running only when its executor gets to it, and every update writes
the whole record that was read before.
-/

namespace AwsMock.Lambda

open Lib

/-! ### Invocations -/

/-- The containers that listen at the port of a function. -/
def Lambda.listening (lambda : Lambda) : List Str :=
  (lambda.instances.filter (·.hostPort = lambda.hostPort)).map Instance.containerId

/-- The containers that a call sends an invocation to. -/
def targets : LambdaCall → List Str
  | .start containerId .. => [containerId]
  | .sendSync lambda _ | .receiveSync lambda => lambda.listening
  | _ => []

/-- The container of an executor. -/
def Task.container : Task → Option Str
  | .executor containerId .. => some containerId
  | _ => none

def Task.isWorker : Task → Bool
  | .worker => true
  | _ => false

/-- The containers that an invocation of the thread is pending or running on: from the choice of the
    instance to the start of the executor, from there to the executor's end, and while a request that
    waits for its output is under way. -/
def sentTo (t : LambdaThread) : List Str :=
  match t.prog.next, t.label.container with
  | none, _ => []
  | some _, some containerId => [containerId]
  | some c, none => targets c

/-- `SetInstanceStatus(containerId, InstanceRunning)`. -/
def marks : LambdaCall → Bool
  | .setInstanceStatus _ .instanceRunning => true
  | _ => false

/-- Whether the thread is an executor that has set the running status. -/
def marked (t : LambdaThread) : Bool := t.label.container.isSome && !t.prog.next.any marks

/-- No container has two invocations. -/
def Exclusive (ts : List LambdaThread) : Prop := ts.Pairwise fun t u => ∀ c ∈ sentTo t, c ∉ sentTo u

instance (ts : List LambdaThread) : Decidable (Exclusive ts) :=
  inferInstanceAs (Decidable (ts.Pairwise fun t u => ∀ c ∈ sentTo t, c ∉ sentTo u))

/-- The containers of the record that an update replaces. -/
def replaced (db : LambdaMemoryDb) (lambda : Lambda) : List Str :=
  ((db.findUpdated lambda).map fun found => found.2.instances.map Instance.containerId).getD []

/-- No container among `cs` has an invocation. -/
def Unused (ts : List LambdaThread) (cs : List Str) : Prop := ∀ c ∈ cs, ∀ t ∈ ts, c ∉ sentTo t

instance (ts : List LambdaThread) (cs : List Str) : Decidable (Unused ts cs) :=
  inferInstanceAs (Decidable (∀ c ∈ cs, ∀ t ∈ ts, c ∉ sentTo t))

/-- The call that the `i`-th thread makes next. -/
def nextCall (i : Nat) (x : LambdaPool) : Option LambdaCall := x.1[i]?.bind fun t => t.prog.next

/-- The containers that a call stops or removes from the store. -/
def taken (db : LambdaMemoryDb) : LambdaCall → List Str
  | .stopContainer id => [id]
  | .updateLambda lambda => (replaced db lambda).filter (· ∉ lambda.instances.map Instance.containerId)
  | _ => []

/-- Neither is an instance that is in use stopped, nor removed by the worker. -/
def Spares (i : Nat) (x : LambdaPool) : Prop :=
  (x.1[i]?.any fun t => t.label.isWorker) → ∀ c ∈ nextCall i x, Unused x.1 (taken x.2.db c)

instance (i : Nat) (x : LambdaPool) : Decidable (Spares i x) := inferInstanceAs (Decidable (_ → _))

/-! ### Careful steps -/

/-- The store has an instance of the container that is not idle, or an invocation is on its way to the
    container that the store does not show. -/
def Claimed (x : LambdaPool) (c : Str) : Prop :=
  (∃ inst ∈ x.2.db.instances, inst.containerId = c ∧ inst.status ≠ .instanceIdle) ∨
    ∃ t ∈ x.1, c ∈ sentTo t ∧ marked t = false

instance (x : LambdaPool) (c : Str) : Decidable (Claimed x c) :=
  inferInstanceAs (Decidable (_ ∨ _))

/-- An instance of the container is stored, and it is not claimed. -/
def Free (x : LambdaPool) (c : Str) : Prop := (∃ inst ∈ x.2.db.instances, inst.containerId = c) ∧ ¬ Claimed x c

instance (x : LambdaPool) (c : Str) : Decidable (Free x c) := inferInstanceAs (Decidable (_ ∧ _))

/-- The update keeps every claimed instance, and writes none as idle that is stored as not idle. -/
def KeepsClaims (x : LambdaPool) (lambda : Lambda) : Prop :=
  (∀ c ∈ replaced x.2.db lambda, Claimed x c → c ∈ lambda.instances.map Instance.containerId) ∧
    ∀ inst ∈ lambda.instances, inst.status = .instanceIdle →
      ∀ stored ∈ x.2.db.instances, stored.containerId = inst.containerId → stored.status = .instanceIdle

instance (x : LambdaPool) (lambda : Lambda) : Decidable (KeepsClaims x lambda) :=
  inferInstanceAs (Decidable (_ ∧ _))

/-- What the `i`-th thread is sent to after its turn, beyond what it was sent to before. -/
def chosen (rt : Runtime) (accountId : Str) (i : Nat) (x : LambdaPool) : List Str :=
  match x.1[i]?, (turn rt accountId i x).bind fun y => y.1[i]? with
  | some t, some u => (sentTo u).filter (· ∉ sentTo t)
  | _, _ => []

/-- The container that a call stops. -/
def stops : LambdaCall → List Str
  | .stopContainer id => [id]
  | _ => []

/-- The record that a call writes. -/
def writes : LambdaCall → List Lambda
  | .updateLambda lambda => [lambda]
  | _ => []

/-- A step that takes only free instances: an invocation chooses a free one, the worker stops a free one,
    and an update keeps the claims. -/
structure Careful (rt : Runtime) (accountId : Str) (i : Nat) (x : LambdaPool) : Prop where
  chooses : ∀ c ∈ chosen rt accountId i x, Free x c
  stops : ∀ call ∈ nextCall i x, ∀ id ∈ stops call, Free x id
  writes : ∀ call ∈ nextCall i x, ∀ lambda ∈ writes call, KeepsClaims x lambda

instance (rt : Runtime) (accountId : Str) (i : Nat) (x : LambdaPool) : Decidable (Careful rt accountId i x) :=
  decidable_of_iff ((∀ c ∈ chosen rt accountId i x, Free x c) ∧ (∀ call ∈ nextCall i x, ∀ id ∈ stops call, Free x id) ∧
    ∀ call ∈ nextCall i x, ∀ lambda ∈ writes call, KeepsClaims x lambda)
    ⟨fun h => ⟨h.1, h.2.1, h.2.2⟩, fun h => ⟨h.1, h.2, h.3⟩⟩

/-! ### What the threads do -/

variable {rt : Runtime} {accountId : Str} {x y : LambdaPool} {i : Nat} {α β : Type}

/-- The calls of a request beside those that choose an instance and send to it. -/
def Plain : LambdaCall → Prop
  | .getLambdaByArn _ | .setInstanceStatus .. | .deleteLambda _ | .start .. | .sendSync .. | .receiveSync _ => False
  | _ => True

inductive Stage where
  | plain
  | sending

/-- A request sends right after a lookup, and waits for the output right after it has sent. -/
def requesting : Prog.Protocol LambdaCall LambdaCall.Reply Stage where
  law
    | .plain, c => Plain c ∨ ∃ arn, c = .getLambdaByArn arn
    | .sending, .setInstanceStatus .. | .sending, .deleteLambda _ => False
    | .sending, _ => True
  next
    | _, .getLambdaByArn _, _ | _, .sendSync .., _ => .sending
    | _, _, _ => .plain

inductive Execution where
  | pending
  | running
  | finished

/-- An executor sets the running status, sends, and has ended when it resets the status. -/
def executing (containerId : Str) : Prog.Protocol LambdaCall LambdaCall.Reply Execution where
  law
    | .pending, c => c = .setInstanceStatus containerId .instanceRunning
    | .running, .send .. | .running, .receive | .running, .terminate => True
    | .running, .setInstanceStatus c status => c = containerId ∧ status ≠ .instanceRunning
    | _, _ => False
  next
    | .running, .setInstanceStatus _ .instanceIdle, _ => .finished
    | _, _, _ => .running

theorem follows_tryCall {τ : Type} {P : Prog.Protocol LambdaCall LambdaCall.Reply τ} {Q : β → τ → Prop}
    {p : LambdaProg (Except Error α)} {f : α → LambdaProg β} {t : τ}
    (hp : p.Follows P (fun x t => ∀ a, x = .ok a → (f a).Follows P Q t) t) :
    (tryCall p >>= f).Follows P Q t := by
  refine Prog.follows_bind (Prog.follows_bind (hp.mono fun x t hx => ?_))
  cases x with
  | error e => trivial
  | ok a => exact hx a rfl

theorem lambdaCreator_plain (functionCode functionId instanceId : Str) :
    (lambdaCreator functionCode functionId instanceId).Only Plain := by
  have houtside : ∀ c, Outside c → Plain c := by
    intro c hc
    cases c <;> first | trivial | exact hc.elim
  exact Prog.only_bind (only_tryCall (Prog.only_perform trivial)) fun lambda => Prog.only_bind
    ((only_createInstance instanceId functionCode lambda).mono houtside) fun lambda => Prog.only_bind
      (Prog.only_perform trivial) fun now => Prog.only_bind (only_tryCall (Prog.only_perform trivial)) fun _ =>
        Prog.only_pure _

theorem removeExpiredLambdas_plain : removeExpiredLambdas.Only Plain := by
  refine Prog.only_bind (Prog.only_perform trivial) fun lambdaList => ?_
  split
  · exact Prog.only_pure _
  · refine Prog.only_bind (Prog.only_perform trivial) fun now => Prog.only_bind
      (Prog.only_forEach fun lambda _ => Prog.only_when fun _ => ?_) fun _ => Prog.only_perform trivial
    exact Prog.only_bind (Prog.only_forEach fun inst _ => Prog.only_perform trivial) fun _ =>
      Prog.only_bind (only_tryCall (Prog.only_perform trivial)) fun _ => Prog.only_pure _

/-- Calls without a choice leave a request where it is. -/
theorem Plain.stays (c : LambdaCall) (h : Plain c) :
    requesting.law .plain c ∧ ∀ r, requesting.next .plain c r = .plain := by
  refine ⟨.inl h, fun r => ?_⟩
  cases c <;> first | rfl | exact h.elim

theorem follows_of_plain {p : LambdaProg α} (hp : p.Only Plain) :
    p.Follows requesting (fun _ _ => True) .plain := (hp.follows Plain.stays).mono fun _ _ _ => trivial

/-- The end of an invocation. -/
theorem follows_dispatched (lambda : Lambda) (output : Str) :
    (do let now ← call .now
        let _ ← tryCall (call (.updateLambda { lambda with lastInvocation := now, state := .active }))
        return output : LambdaProg Str).Follows requesting (fun _ _ => True) .plain :=
  follows_of_plain (Prog.only_bind (Prog.only_perform trivial) fun _ => Prog.only_bind
    (only_tryCall (Prog.only_perform trivial)) fun _ => Prog.only_pure _)

theorem follows_dispatch (request : InvokeRequest) (lambda : Lambda) (instanceId : Str) :
    (dispatch request lambda instanceId).Follows requesting (fun _ _ => True) .sending := by
  unfold dispatch
  split
  · refine Prog.follows_bind ⟨trivial, fun _ => follows_tryCall ⟨trivial, fun x response _ => ?_⟩⟩
    exact follows_dispatched lambda _
  · exact Prog.follows_bind ⟨trivial, fun _ => follows_dispatched lambda []⟩

theorem follows_invokeLocked (request : InvokeRequest) :
    (invokeLocked accountId request).Follows requesting (fun _ _ => True) .plain := by
  refine follows_tryCall ⟨.inr ⟨_, rfl⟩, fun x lambda _ => ?_⟩
  dsimp only
  split
  · refine Prog.follows_perform_bind trivial fun instanceId => ?_
    refine (only_detached (lambdaCreator_plain _ _ _) trivial).follows_bind Plain.stays fun _ => ?_
    exact follows_tryCall ⟨.inr ⟨_, rfl⟩, fun x lambda _ => follows_dispatch request lambda instanceId⟩
  · exact follows_dispatch request lambda _

theorem follows_invoke (request : InvokeRequest) :
    ((Task.invoke request).prog accountId).Follows requesting (fun _ _ => True) .plain := by
  refine Prog.Follows.bind ⟨.inl trivial, fun _ => ?_⟩ fun _ _ => trivial
  refine (follows_invokeLocked request).attempt.bind fun output stage => ⟨?_, fun _ => Prog.follows_ofExcept ..⟩
  cases stage with
  | plain => exact .inl trivial
  | sending => trivial

theorem follows_executor (containerId host : Str) (port : Int) (payload : Str) :
    ((Task.executor containerId host port payload).prog accountId).Follows (executing containerId)
      (fun _ _ => True) .pending := by
  refine ⟨rfl, fun _ => ⟨trivial, fun _ => ⟨trivial, fun response => ?_⟩⟩⟩
  cases response with
  | error e => exact ⟨trivial, fun _ => trivial⟩
  | ok response =>
    rcases response with ⟨_ | _, body⟩
    · exact ⟨⟨rfl, by decide⟩, fun _ => ⟨⟨rfl, by decide⟩, fun _ => trivial⟩⟩
    · exact ⟨⟨rfl, by decide⟩, fun _ => trivial⟩

/-- A thread does what its label says. -/
def Shape (t : LambdaThread) : Prop :=
  match t.label.container with
  | some containerId => ∃ stage, t.prog.Follows (executing containerId) (fun _ _ => True) stage
  | none => ∃ stage, t.prog.Follows requesting (fun _ _ => True) stage

/-! ### One step -/

/-- What holds in every state of a careful run. -/
structure Guarded (x : LambdaPool) : Prop where
  shape : ∀ t ∈ x.1, Shape t
  exclusive : ∀ (j l : Nat) t u, j ≠ l → x.1[j]? = some t → x.1[l]? = some u → ∀ c ∈ sentTo t, c ∉ sentTo u
  stored : ∀ t ∈ x.1, ∀ c ∈ sentTo t, ∃ inst ∈ x.2.db.instances, inst.containerId = c
  busy : ∀ t ∈ x.1, marked t = true → ∀ c ∈ sentTo t, ∀ inst ∈ x.2.db.instances, inst.containerId = c →
    inst.status ≠ .instanceIdle

/-- Nothing is sent to what is free. -/
theorem Guarded.unused (hx : Guarded x) {c : Str} (h : Free x c) : ∀ t ∈ x.1, c ∉ sentTo t := by
  intro t ht hc
  obtain ⟨⟨inst, hinst, rfl⟩, hclaimed⟩ := h
  rcases hmarked : marked t with _ | _
  · exact hclaimed (.inr ⟨t, ht, hc, hmarked⟩)
  · exact hclaimed (.inl ⟨inst, hinst, rfl, hx.busy t ht hmarked _ hc inst hinst rfl⟩)

/-- What is sent to is claimed. -/
theorem Guarded.claimed (hx : Guarded x) {c : Str} {t : LambdaThread} (ht : t ∈ x.1) (hc : c ∈ sentTo t) :
    Claimed x c := by
  by_contra hclaimed
  exact hx.unused ⟨hx.stored t ht c hc, hclaimed⟩ t ht hc

theorem mem_replaced {db : LambdaMemoryDb} {lambda : Lambda} {c : Str} :
    c ∈ replaced db lambda ↔ ∃ found, db.findUpdated lambda = some found ∧
      ∃ inst ∈ found.2.instances, inst.containerId = c := by
  unfold replaced
  cases db.findUpdated lambda <;> simp

/-- Whatever a careful step takes is free. -/
theorem Careful.spares (h : Careful rt accountId i x) (hx : Guarded x) : Spares i x := by
  intro _ c hnext containerId hc
  cases c with
  | stopContainer id => exact hx.unused (h.stops _ hnext containerId hc)
  | updateLambda lambda =>
    obtain ⟨hreplaced, hkept⟩ := List.mem_filter.mp hc
    intro t ht hsent
    exact of_decide_eq_true hkept
      ((h.writes _ hnext lambda (List.mem_singleton.mpr rfl)).1 containerId hreplaced (hx.claimed ht hsent))
  | _ => cases hc

section Call

variable {label : Task} {c : LambdaCall} {k : c.Reply → LambdaProg Unit} {r : c.Reply} {w w' : World}
  {started : List LambdaThread}

/-- The calls that change instances. -/
def Writes : LambdaCall → Prop
  | .updateLambda _ | .setInstanceStatus .. | .deleteLambda _ => True
  | _ => False

theorem exec_instances (h : exec rt accountId i c w = some (.goes r w' started)) (hc : ¬ Writes c) {inst : Instance} :
    inst ∈ w'.db.instances ↔ inst ∈ w.db.instances := by
  cases c with
  | getLambdaByArn arn =>
    cases h
    exact mem_instances_getLambdaByArn arn
  | getLambdaById oid =>
    cases h
    exact mem_instances_getLambdaById oid
  | lock =>
    simp only [exec] at h
    split at h <;> cases h
    rfl
  | terminate => cases h
  | updateLambda | setInstanceStatus | deleteLambda => exact absurd trivial hc
  | _ =>
    cases h
    rfl

theorem exec_updateLambda {lambda : Lambda} {r : Except Error Lambda}
    (h : exec rt accountId i (.updateLambda lambda) w = some (.goes r w' started)) :
    w'.db = (w.db.updateLambda lambda).2 := by
  cases h
  rfl

theorem exec_setInstanceStatus {containerId : Str} {status : LambdaInstanceStatus} {r : Unit}
    (h : exec rt accountId i (.setInstanceStatus containerId status) w = some (.goes r w' started)) :
    w'.db = w.db.setInstanceStatus containerId status := by
  cases h
  rfl

/-- Without a choice of an instance nothing is sent next. -/
theorem sentTo_plain {t : LambdaThread} (hlabel : t.label.container = none)
    (h : t.prog.Follows requesting (fun _ _ => True) .plain) : sentTo t = [] := by
  obtain ⟨label, prog⟩ := t
  cases prog with
  | call c k =>
    simp only [sentTo, Prog.next, show label.container = none from hlabel]
    rcases h.1 with hc | ⟨arn, rfl⟩
    · cases c <;> first | rfl | exact hc.elim
    · rfl
  | ret | throw => rfl

/-- A request sends nothing after a call that neither chooses nor sends. -/
theorem sentTo_after {stage : Stage} (hlabel : label.container = none)
    (h : (Prog.call c k).Follows requesting (fun _ _ => True) stage) (hc : ∀ arn, c ≠ .getLambdaByArn arn)
    (hc' : ∀ lambda payload, c ≠ .sendSync lambda payload) : sentTo ⟨label, k r⟩ = [] := by
  have hplain : requesting.next stage c r = .plain := by
    cases c with
    | getLambdaByArn arn => exact absurd rfl (hc arn)
    | sendSync lambda payload => exact absurd rfl (hc' lambda payload)
    | _ => rfl
  have hk := h.2 r
  rw [hplain] at hk
  exact sentTo_plain hlabel hk

/-- What a thread is sent to next it was sent to, or it chooses it. -/
theorem mem_sentTo_moved (h : turn rt accountId i x = some y) {t u : LambdaThread} (ht : x.1[i]? = some t)
    (hu : y.1[i]? = some u) {containerId : Str} (hc : containerId ∈ sentTo u) :
    containerId ∈ sentTo t ∨ containerId ∈ chosen rt accountId i x := by
  by_cases hold : containerId ∈ sentTo t
  · exact .inl hold
  · refine .inr ?_
    simp only [chosen, ht, h, Option.bind_some, hu]
    exact List.mem_filter.mpr ⟨hc, decide_eq_true hold⟩

/-- Only an executor sets a status, and that of its container. -/
theorem Shape.container_eq {containerId : Str} {status : LambdaInstanceStatus}
    {k : Unit → LambdaProg Unit} (h : Shape ⟨label, .call (.setInstanceStatus containerId status) k⟩) :
    label.container = some containerId := by
  unfold Shape at h
  split at h
  · next hlabel =>
    obtain ⟨stage, hf⟩ := h
    rw [hlabel]
    cases stage with
    | pending =>
      cases hf.1
      rfl
    | running => rw [hf.1.1]
    | finished => exact hf.1.elim
  · obtain ⟨stage, hf⟩ := h
    cases stage with
    | plain =>
      rcases hf.1 with h | ⟨arn, h⟩
      · exact h.elim
      · cases h
    | sending => exact hf.1.elim

theorem Shape.request {lambda : Lambda} {k : Except Error Lambda → LambdaProg Unit}
    (h : Shape ⟨label, .call (.updateLambda lambda) k⟩) : label.container = none := by
  unfold Shape at h
  split at h
  · obtain ⟨stage, hf⟩ := h
    cases stage with
    | pending => cases hf.1
    | running | finished => exact hf.1.elim
  · next hlabel => exact hlabel

theorem Shape.not_delete {functionName : Str} {k : Unit → LambdaProg Unit}
    (h : Shape ⟨label, .call (.deleteLambda functionName) k⟩) : False := by
  unfold Shape at h
  split at h
  · obtain ⟨stage, hf⟩ := h
    cases stage with
    | pending => cases hf.1
    | running | finished => exact hf.1
  · obtain ⟨stage, hf⟩ := h
    cases stage with
    | plain =>
      rcases hf.1 with h | ⟨arn, h⟩
      · exact h
      · cases h
    | sending => exact hf.1

end Call

/-- A turn in which a thread makes a call. -/
structure Moves (rt : Runtime) (accountId : Str) (i : Nat) (x y : LambdaPool) (label : Task) (c : LambdaCall)
    (k : c.Reply → LambdaProg Unit) (r : c.Reply) (started : List LambdaThread) : Prop where
  turn : turn rt accountId i x = some y
  before : x.1[i]? = some ⟨label, .call c k⟩
  exec : exec rt accountId i c x.2 = some (.goes r y.2 started)
  after : y.1 = x.1.set i ⟨label, k r⟩ ++ started

namespace Moves

variable {label : Task} {c : LambdaCall} {k : c.Reply → LambdaProg Unit} {r : c.Reply}
  {started : List LambdaThread} (h : Moves rt accountId i x y label c k r started) (hx : Guarded x)
  (hcareful : Careful rt accountId i x)

include h

theorem moved : y.1[i]? = some ⟨label, k r⟩ := by
  rw [h.after]
  exact Thread.getElem?_moved_self h.before

/-- An update of a careful step keeps the claims. -/
theorem keepsClaims (hcareful : Careful rt accountId i x) {lambda : Lambda} (hc : c = .updateLambda lambda) :
    KeepsClaims x lambda := by
  subst hc
  have hnext : nextCall i x = some (.updateLambda lambda) := by
    rw [nextCall, h.before]
    rfl
  exact hcareful.writes _ hnext lambda (List.mem_singleton.mpr rfl)

include hx

theorem shape_before : Shape ⟨label, .call c k⟩ := hx.shape _ (List.mem_of_getElem? h.before)

theorem shape : ∀ t ∈ y.1, Shape t := by
  intro t ht
  obtain ⟨j, hj⟩ := List.mem_iff_getElem?.mp ht
  rw [h.after] at hj
  rcases Thread.getElem?_moved hj with ⟨-, rfl⟩ | ⟨-, hj⟩ | ⟨hstarted, -⟩
  · have hshape := h.shape_before hx
    unfold Shape at hshape ⊢
    dsimp only at hshape ⊢
    split at hshape
    · obtain ⟨stage, hf⟩ := hshape
      exact ⟨_, hf.2 r⟩
    · obtain ⟨stage, hf⟩ := hshape
      exact ⟨_, hf.2 r⟩
  · exact hx.shape t (List.mem_of_getElem? hj)
  · rcases exec_started h.exec with rfl | ⟨containerId, host, port, payload, -, rfl⟩
    · cases hstarted
    · cases List.mem_singleton.mp hstarted
      exact ⟨.pending, @follows_executor accountId containerId host port payload⟩

/-- After an update nothing is sent. -/
theorem sentTo_updated {lambda : Lambda} (hc : c = .updateLambda lambda) : sentTo ⟨label, k r⟩ = [] := by
  subst hc
  have hshape := h.shape_before hx
  have hlabel := hshape.request
  unfold Shape at hshape
  simp only [hlabel] at hshape
  obtain ⟨stage, hf⟩ := hshape
  exact sentTo_after hlabel hf (fun _ h => by cases h) fun _ _ h => by cases h

/-- Where the container of an invocation comes from: the thread that makes the call has been sent to it or
    chooses it, another thread keeps it, or it is handed to the executor that is started. -/
theorem origin (hcareful : Careful rt accountId i x) {j : Nat} {v : LambdaThread} (hj : y.1[j]? = some v) {containerId : Str}
    (hc : containerId ∈ sentTo v) :
    (j = i ∧ v = ⟨label, k r⟩ ∧ (containerId ∈ sentTo ⟨label, .call c k⟩ ∨ Free x containerId)) ∨
    (j ≠ i ∧ x.1[j]? = some v) ∨
    (j = x.1.length ∧ containerId ∈ sentTo ⟨label, .call c k⟩ ∧ sentTo ⟨label, k r⟩ = []) := by
  have hlt := (List.getElem?_eq_some_iff.mp hj).1
  rw [h.after, List.length_append, List.length_set] at hlt
  have hj' := hj
  rw [h.after] at hj'
  rcases Thread.getElem?_moved hj' with ⟨rfl, rfl⟩ | hold | ⟨hstarted, hle⟩
  · exact .inl ⟨rfl, rfl, (mem_sentTo_moved h.turn h.before hj hc).imp_right (hcareful.chooses containerId)⟩
  · exact .inr (.inl hold)
  · rcases exec_started h.exec with rfl | ⟨started, host, port, payload, rfl, rfl⟩
    · cases hstarted
    · cases List.mem_singleton.mp hstarted
      have hlabel : label.container = none := by
        have hshape := h.shape_before hx
        unfold Shape at hshape
        split at hshape
        · obtain ⟨stage, hf⟩ := hshape
          cases stage with
          | pending => cases hf.1
          | running | finished => exact hf.1.elim
        · next hlabel => exact hlabel
      have hshape := h.shape_before hx
      unfold Shape at hshape
      simp only [hlabel] at hshape
      obtain ⟨stage, hf⟩ := hshape
      refine .inr (.inr ⟨?_, ?_, sentTo_after hlabel hf (fun _ h => by cases h) fun _ _ h => by cases h⟩)
      · simp only [List.length_singleton] at hlt
        omega
      · simp only [sentTo, Prog.next, hlabel, targets]
        exact hc

theorem exclusive (hcareful : Careful rt accountId i x) (j l : Nat) (t u : LambdaThread) (hne : j ≠ l)
    (hj : y.1[j]? = some t) (hl : y.1[l]? = some u) : ∀ c ∈ sentTo t, c ∉ sentTo u := by
  intro containerId hc hd
  rcases h.origin hx hcareful hj hc with ⟨rfl, rfl, hc' | hfree⟩ | ⟨hji, hj'⟩ | ⟨rfl, hc', hnone⟩
  · rcases h.origin hx hcareful hl hd with ⟨rfl, -⟩ | ⟨hli, hl'⟩ | ⟨rfl, hd', hnone⟩
    · exact hne rfl
    · exact hx.exclusive _ _ _ _ hne h.before hl' _ hc' hd
    · rw [hnone] at hc
      cases hc
  · rcases h.origin hx hcareful hl hd with ⟨rfl, -⟩ | ⟨hli, hl'⟩ | ⟨rfl, hd', hnone⟩
    · exact hne rfl
    · exact hx.unused hfree _ (List.mem_of_getElem? hl') hd
    · rw [hnone] at hc
      cases hc
  · rcases h.origin hx hcareful hl hd with ⟨rfl, rfl, hd' | hfree⟩ | ⟨hli, hl'⟩ | ⟨rfl, hd', hnone⟩
    · exact hx.exclusive _ _ _ _ hne hj' h.before _ hc hd'
    · exact hx.unused hfree _ (List.mem_of_getElem? hj') hc
    · exact hx.exclusive _ _ _ _ hne hj' hl' _ hc hd
    · exact hx.exclusive _ _ _ _ hji hj' h.before _ hc hd'
  · rcases h.origin hx hcareful hl hd with ⟨rfl, rfl, -⟩ | ⟨hli, hl'⟩ | ⟨rfl, hd', -⟩
    · rw [hnone] at hd
      cases hd
    · exact hx.exclusive _ _ _ _ (Ne.symm hli) h.before hl' _ hc' hd
    · exact hne rfl

/-- A claimed instance stays in the store. -/
theorem stored_of_claimed (hcareful : Careful rt accountId i x) {containerId : Str}
    (hstored : ∃ inst ∈ x.2.db.instances, inst.containerId = containerId)
    (hclaimed : ∀ lambda, c = .updateLambda lambda → Claimed x containerId) :
    ∃ inst ∈ y.2.db.instances, inst.containerId = containerId := by
  obtain ⟨inst, hinst, rfl⟩ := hstored
  by_cases hwrites : Writes c
  · cases c with
    | updateLambda lambda =>
      rw [exec_updateLambda h.exec]
      rcases mem_instances_of_updateLambda hinst with hin | ⟨found, hfound, hold, hnew⟩
      · exact ⟨inst, hin, rfl⟩
      · have hreplaced := mem_replaced.mpr ⟨found, hfound, inst, hold, rfl⟩
        obtain ⟨new, hmem, heq⟩ := List.mem_map.mp
          ((h.keepsClaims hcareful rfl).1 _ hreplaced (hclaimed lambda rfl))
        exact ⟨new, hnew new hmem, heq⟩
    | setInstanceStatus containerId status =>
      rw [exec_setInstanceStatus h.exec]
      refine ⟨_, mem_setInstanceStatus_of hinst, ?_⟩
      split <;> rfl
    | deleteLambda functionName => exact (h.shape_before hx).not_delete.elim
    | _ => exact hwrites.elim
  · exact ⟨inst, (exec_instances h.exec hwrites).mpr hinst, rfl⟩

theorem stored (hcareful : Careful rt accountId i x) : ∀ t ∈ y.1, ∀ c ∈ sentTo t,
    ∃ inst ∈ y.2.db.instances, inst.containerId = c := by
  intro t ht containerId hc
  obtain ⟨j, hj⟩ := List.mem_iff_getElem?.mp ht
  have hbefore := List.mem_of_getElem? h.before
  have hnone : ∀ lambda, c = .updateLambda lambda → sentTo ⟨label, k r⟩ = [] := fun _ => h.sentTo_updated hx
  rcases h.origin hx hcareful hj hc with ⟨rfl, rfl, hc' | hfree⟩ | ⟨-, hj'⟩ | ⟨rfl, hc', -⟩
  · exact h.stored_of_claimed hx hcareful (hx.stored _ hbefore _ hc') fun _ _ => hx.claimed hbefore hc'
  · refine h.stored_of_claimed hx hcareful hfree.1 fun lambda hupdate => ?_
    rw [hnone lambda hupdate] at hc
    cases hc
  · have hmem := List.mem_of_getElem? hj'
    exact h.stored_of_claimed hx hcareful (hx.stored _ hmem _ hc) fun _ _ => hx.claimed hmem hc
  · exact h.stored_of_claimed hx hcareful (hx.stored _ hbefore _ hc') fun _ _ => hx.claimed hbefore hc'

/-- What is not idle stays so under the calls of the other threads. -/
theorem busy_other (hcareful : Careful rt accountId i x) {containerId : Str}
    (hstored : ∃ inst ∈ x.2.db.instances, inst.containerId = containerId)
    (hbusy : ∀ inst ∈ x.2.db.instances, inst.containerId = containerId → inst.status ≠ .instanceIdle)
    (hother : label.container ≠ some containerId) :
    ∀ inst ∈ y.2.db.instances, inst.containerId = containerId → inst.status ≠ .instanceIdle := by
  intro inst hinst heq
  by_cases hwrites : Writes c
  · cases c with
    | updateLambda lambda =>
      rw [exec_updateLambda h.exec] at hinst
      rcases mem_instances_updateLambda hinst with hnew | hold
      · intro hidle
        obtain ⟨stored, hmem, hid⟩ := hstored
        exact hbusy stored hmem hid ((h.keepsClaims hcareful rfl).2 inst hnew hidle stored hmem (hid.trans heq.symm))
      · exact hbusy inst hold heq
    | setInstanceStatus changed status =>
      rw [exec_setInstanceStatus h.exec] at hinst
      obtain ⟨old, hold, rfl⟩ := mem_setInstanceStatus hinst
      have hne : old.containerId ≠ changed := by
        rintro rfl
        rw [if_pos rfl] at heq
        rw [← heq] at hother
        exact hother (h.shape_before hx).container_eq
      rw [if_neg hne] at heq ⊢
      exact hbusy old hold heq
    | deleteLambda functionName => exact (h.shape_before hx).not_delete.elim
    | _ => exact hwrites.elim
  · exact hbusy inst ((exec_instances h.exec hwrites).mp hinst) heq

/-- What an executor does to its own instance. -/
theorem busy_self {containerId : Str} (hlabel : label.container = some containerId) (hcalls : ((k r).next).isSome) :
    ∀ inst ∈ y.2.db.instances, inst.containerId = containerId → inst.status ≠ .instanceIdle := by
  have hshape := h.shape_before hx
  have hbefore := List.mem_of_getElem? h.before
  unfold Shape at hshape
  simp only [hlabel] at hshape
  obtain ⟨stage, hf⟩ := hshape
  intro inst hinst heq
  cases stage with
  | pending =>
    cases hf.1
    rw [exec_setInstanceStatus h.exec] at hinst
    obtain ⟨old, -, rfl⟩ := mem_setInstanceStatus hinst
    split at heq
    · next hold =>
      rw [if_pos hold]
      exact fun h => by cases h
    · next hold => exact absurd heq hold
  | finished => exact hf.1.elim
  | running =>
    -- the status that the executor found is its own
    have hold : ∀ inst ∈ x.2.db.instances, inst.containerId = containerId → marks c = false →
        inst.status ≠ .instanceIdle := by
      intro inst hinst heq hmarks
      refine hx.busy _ hbefore ?_ containerId ?_ inst hinst heq
      · simp [marked, hlabel, Prog.next, hmarks]
      · simp [sentTo, hlabel, Prog.next]
    cases c with
    | send host port payload => exact hold inst ((exec_instances h.exec id).mp hinst) heq rfl
    | receive => exact hold inst ((exec_instances h.exec id).mp hinst) heq rfl
    | terminate => cases h.exec
    | setInstanceStatus changed status =>
      obtain ⟨rfl, hstatus⟩ := hf.1
      rw [exec_setInstanceStatus h.exec] at hinst
      obtain ⟨old, -, rfl⟩ := mem_setInstanceStatus hinst
      have hchanged : old.containerId = changed := by
        split at heq
        · next hold => exact hold
        · exact heq
      rw [if_pos hchanged]
      cases status with
      | instanceIdle =>
        have hk : (k r).Follows (executing changed) (fun _ _ => True) .finished := hf.2 r
        rcases hkr : k r with a | e | ⟨c, k'⟩
        · rw [hkr] at hcalls
          cases hcalls
        · rw [hkr] at hcalls
          cases hcalls
        · rw [hkr] at hk
          exact hk.1.elim
      | instanceRunning => exact absurd rfl hstatus
      | instanceFailed | instanceUnknown => exact fun h => by cases h
    | _ => exact hf.1.elim

theorem busy (hcareful : Careful rt accountId i x) : ∀ t ∈ y.1, marked t = true → ∀ c ∈ sentTo t,
    ∀ inst ∈ y.2.db.instances, inst.containerId = c → inst.status ≠ .instanceIdle := by
  intro t ht hmarked containerId hc
  obtain ⟨j, hj⟩ := List.mem_iff_getElem?.mp ht
  have hj' := hj
  rw [h.after] at hj'
  rcases Thread.getElem?_moved hj' with ⟨rfl, rfl⟩ | ⟨hne, hold⟩ | ⟨hstarted, -⟩
  · obtain ⟨changed, hlabel⟩ := Option.isSome_iff_exists.mp (Bool.and_eq_true_iff.mp hmarked).1
    have hcalls : ((k r).next).isSome := by
      rcases hk : (k r).next with _ | c
      · simp only [sentTo, hk] at hc
        cases hc
      · rfl
    obtain ⟨c, hk⟩ := Option.isSome_iff_exists.mp hcalls
    simp only [sentTo, hk, show label.container = some changed from hlabel, List.mem_singleton] at hc
    subst hc
    exact h.busy_self hx hlabel hcalls
  · have hmem := List.mem_of_getElem? hold
    refine h.busy_other hx hcareful (hx.stored t hmem containerId hc) (hx.busy t hmem hmarked containerId hc) ?_
    intro hlabel
    refine hx.exclusive _ _ _ _ hne hold h.before containerId hc ?_
    simp [sentTo, hlabel, Prog.next]
  · rcases exec_started h.exec with rfl | ⟨containerId, host, port, payload, -, rfl⟩
    · cases hstarted
    · cases List.mem_singleton.mp hstarted
      cases hmarked

end Moves

theorem Guarded.step (hcareful : Careful rt accountId i x) (h : turn rt accountId i x = some y) (hx : Guarded x) :
    Guarded y := by
  rcases Thread.turn_cases h with rfl | ⟨label, c, k, r, started, hi, hexec, hy⟩
  · exact hx
  · have hmoves : Moves rt accountId i x y label c k r started := ⟨h, hi, hexec, hy⟩
    exact ⟨hmoves.shape hx, hmoves.exclusive hx hcareful, hmoves.stored hx hcareful, hmoves.busy hx hcareful⟩

/-! ### Every run -/

/-- Requests and passes before their first calls. -/
def requests (accountId : Str) (invocations : List InvokeRequest) (passes : Nat) (db : LambdaMemoryDb) : LambdaPool :=
  begin accountId (invocations.map .invoke ++ List.replicate passes .worker) db

theorem guarded_requests (accountId : Str) (invocations : List InvokeRequest) (passes : Nat) (db : LambdaMemoryDb) :
    Guarded (requests accountId invocations passes db) := by
  have hthread : ∀ t ∈ (requests accountId invocations passes db).1, Shape t ∧ sentTo t = [] := by
    intro t ht
    obtain ⟨task, htask, rfl⟩ := List.mem_map.mp ht
    rcases List.mem_append.mp htask with h | h
    · obtain ⟨request, -, rfl⟩ := List.mem_map.mp h
      exact ⟨⟨.plain, follows_invoke request⟩, rfl⟩
    · cases List.eq_of_mem_replicate h
      exact ⟨⟨.plain, follows_of_plain (only_detached removeExpiredLambdas_plain trivial)⟩, rfl⟩
  have hnone : ∀ t ∈ (requests accountId invocations passes db).1, ∀ c, c ∉ sentTo t := by
    intro t ht c hc
    rw [(hthread t ht).2] at hc
    cases hc
  exact {
    shape := fun t ht => (hthread t ht).1
    exclusive := fun j l t u _ hj _ c hc => absurd hc (hnone t (List.mem_of_getElem? hj) c)
    stored := fun t ht c hc => absurd hc (hnone t ht c)
    busy := fun t ht _ c hc => absurd hc (hnone t ht c) }

theorem Guarded.exclusive_pool (hx : Guarded x) : Exclusive x.1 := by
  refine List.pairwise_iff_getElem.mpr fun j l hj hl hlt => ?_
  exact hx.exclusive j l _ _ hlt.ne (List.getElem?_eq_getElem hj) (List.getElem?_eq_getElem hl)

/-- A world outside that answers every call. -/
def Runtime.answering : Runtime where
  imageExists _ := true
  dockerImage _ := { codeSize := 0, imageId := [], codeSha256 := [], hostPort := 0, zipFile := [] }
  containerExists _ := false
  container _ := {}
  containerId n := List.replicate n (byte 'c')
  imageId _ := []
  now n := n
  randomHexString n := List.replicate n (byte 'a')
  hostPort n := n
  response _ := .ok { ok := true }

def sampleInstance : Instance :=
  { id := str "a", containerId := str "c", hostPort := 32768, created := -1000000000000000 }

def sampleLambda : Lambda :=
  { region := str "eu", function := str "f", arn := createLambdaArn (str "eu") [] (str "f"), instances := [sampleInstance] }

def sampleRequest : InvokeRequest := { region := str "eu", functionName := str "f" }

/-- One idle instance of one function, two invocations and a pass of the worker. -/
def samplePool : LambdaPool :=
  requests [] [sampleRequest, sampleRequest] 1 { lambdas := .ofList [(str "o", sampleLambda)] }

end AwsMock.Lambda
