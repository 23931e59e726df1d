import AwsMock.Kms.Steps
import AwsMock.Lib.Protocol
import AwsMock.Lib.Threads

/-!
# The life of a KMS key

`CreateKey` with the creator that it starts, `ScheduleKeyDeletion` and passes of the worker side by side, in every
order of their calls. The creator writes back a copy that it made before it generated the material, the worker
deletes what it has listed before, and the filter of the deletion on MongoDB matches nothing.
-/

namespace AwsMock.Kms

open Lib KMSDatabase

/-! ### The threads -/

inductive KmsTask where
  | createKey (request : CreateKeyRequest)
  | scheduleKeyDeletion (request : ScheduleKeyDeletionRequest)
  | deleteKeys

/-- What a thread is there for. -/
inductive Role where
  | task (task : KmsTask)
  | creator (keyId : Str)

def KmsTask.program (useDatabase : Bool) (accountId : Str) : KmsTask → KmsProg Unit
  | createKey request => do let _ ← Kms.createKey useDatabase accountId request
  | scheduleKeyDeletion request => do let _ ← Kms.scheduleKeyDeletion useDatabase request
  | deleteKeys => Kms.deleteKeys

abbrev KmsThread := Thread Role KmsCall KmsCall.Reply Error Unit

/-- The process, the date each key was last scheduled for, when each pass of the worker began, and the keys that it has
    to delete. -/
structure Shared where
  world : World
  scheduled : Str → Option TimePoint := fun _ => none
  started : Nat → Option TimePoint := fun _ => none
  due : Nat → Str → Bool := fun _ _ => false

abbrev KmsPool := Thread.Pool Role KmsCall KmsCall.Reply Error Unit Shared

/-- The state of the key of an id. -/
def KMSDatabase.stateOf (db : KMSDatabase) (keyId : Str) : Option Str := (db.entry keyId).map Prod.fst

theorem KMSDatabase.stateOf_eq_none {db : KMSDatabase} {keyId : Str} : db.stateOf keyId = none ↔ db.entry keyId = none :=
  Option.map_eq_none_iff

/-- The key is scheduled for a date that is past. -/
def dueNow (rt : Runtime) (s : Shared) (keyId : Str) : Bool :=
  (s.world.db.stateOf keyId).isSome && (s.scheduled keyId).any fun date => date < rt.now s.world.calls

/-- A key is scheduled anew: a pass that began before the new date need not delete it. -/
def Shared.schedule (s : Shared) (keyId : Str) (date : TimePoint) : Shared :=
  { s with
    scheduled := Function.update s.scheduled keyId (some date),
    due := fun j keyId' => s.due j keyId' && (keyId' ≠ keyId || (s.started j).all fun start => date < start) }

/-- A pass begins. -/
def Shared.begins (s : Shared) (rt : Runtime) (i : Nat) : Shared :=
  { s with
    started := Function.update s.started i (some (rt.now s.world.calls)),
    due := Function.update s.due i (dueNow rt s) }

/-- What is noted of a call of the `i`-th thread. -/
def note (rt : Runtime) (tasks : List KmsTask) (i : Nat) (s : Shared) : KmsCall → Shared
  | .updateKey key => match tasks[i]? with
    | some (.scheduleKeyDeletion request) => s.schedule request.keyId key.scheduledDeletion
    | _ => s
  | .listKeys => s.begins rt i
  | _ => s

/-- The thread that a call starts. -/
def startedBy (useDatabase : Bool) : KmsCall → List KmsThread
  | .startCreator keyId => [⟨.creator keyId, createKmsKey useDatabase keyId⟩]
  | _ => []

def threadExec (rt : Runtime) (useDatabase : Bool) (tasks : List KmsTask) :
    Thread.Exec Role KmsCall KmsCall.Reply Error Unit Shared := fun i c s =>
  (exec rt c s.world).map fun r => .goes r.1 { note rt tasks i s c with world := r.2 } (startedBy useDatabase c)

/-- The store before the first call. -/
def emptyStore (useDatabase : Bool) : KMSDatabase := if useDatabase then mongo ∅ else memory ∅

/-- All requests and passes start on an empty store. -/
def begin (useDatabase : Bool) (accountId : Str) (tasks : List KmsTask) : KmsPool :=
  (tasks.map fun task => ⟨.task task, task.program useDatabase accountId⟩, { world := { db := emptyStore useDatabase } })

abbrev turn (rt : Runtime) (useDatabase : Bool) (tasks : List KmsTask) := Thread.turn (threadExec rt useDatabase tasks)

/-! ### What should hold, and when it does -/

/-- A scheduled key that is there is pending, and at the end of a pass the keys that were due are not there. -/
structure Kept (x : KmsPool) : Prop where
  pending : ∀ keyId state, (x.2.scheduled keyId).isSome → x.2.world.db.stateOf keyId = some state →
    state = KeyState.pendingDeletion.toString
  deleted : ∀ i t keyId, x.1[i]? = some t → t.label = .task .deleteKeys → t.prog.next = none →
    x.2.due i keyId = true → x.2.world.db.stateOf keyId = none

/-- A scheduled key is deleted only by a pass that began after its date. -/
def OnlyDue (rt : Runtime) (useDatabase : Bool) (tasks : List KmsTask) (i : Nat) (x : KmsPool) : Prop :=
  ∀ y, turn rt useDatabase tasks i x = some y → ∀ keyId date, x.2.scheduled keyId = some date →
    x.2.world.db.stateOf keyId ≠ none → y.2.world.db.stateOf keyId = none →
      ∃ start, x.2.started i = some start ∧ date < start

/-- A creator does not write over a scheduled key. In memory, what a pass deletes was due when the pass began and has
    not been put off since; on MongoDB no pass begins while a key is due. -/
structure Timely (rt : Runtime) (i : Nat) (x : KmsPool) : Prop where
  creator : ∀ t keyId key, x.1[i]? = some t → t.label = .creator keyId → t.prog.next = some (.updateKey key) →
    (x.2.scheduled keyId).isSome → x.2.world.db.stateOf keyId = none
  deletion : ∀ t key date, x.1[i]? = some t → t.prog.next = some (.deleteKey key) → x.2.world.db.inMemory = true →
    x.2.scheduled key.keyId = some date → x.2.world.db.stateOf key.keyId ≠ none →
      date ≤ key.scheduledDeletion ∧ ∃ start, x.2.started i = some start ∧ key.scheduledDeletion < start
  listing : ∀ t keyId, x.1[i]? = some t → t.prog.next = some .listKeys → x.2.world.db.inMemory = false →
    dueNow rt x.2 keyId = false

/-! ### The protocol of a thread -/

/-- What a thread has at hand: the id it has drawn, the key it has found, what it has read of a key it found or of one
    just created, or the pending keys of its listing that are left. -/
inductive Phase where
  | idle
  | drawn (keyId : Str)
  | found (keyId : Str)
  | read (keyId : Str) (key : Key)
  | copied (keyId : Str) (key : Key)
  | done
  | listed (keys : List Key)
  | deleting (key : Key) (keys : List Key)

namespace Phase

/-- The keys that the pass has still to look at. -/
def rest : Phase → List Key
  | listed keys => keys
  | deleting key keys => key :: keys
  | _ => []

/-- After a key was read by its id. -/
def reads (keyId : Str) (key : Key) : Phase → Phase
  | found _ => read keyId key
  | idle => copied keyId key
  | phase => phase

/-- After the clock was read, which matters to a pass. -/
def looks (now : TimePoint) : Phase → Phase
  | listed (key :: keys) => if key.scheduledDeletion < now then deleting key keys else listed keys
  | phase => phase

/-- After a key was deleted. -/
def deletes : Phase → Phase
  | deleting _ keys => listed keys
  | phase => phase

end Phase

/-- The keys of a listing that are pending. -/
def pendingKeys (keys : List Key) : List Key := keys.filter fun key => key.keyState = KeyState.pendingDeletion.toString

theorem pendingKeys_cons (key : Key) (keys : List Key) : pendingKeys (key :: keys) =
    if key.keyState = KeyState.pendingDeletion.toString then key :: pendingKeys keys else pendingKeys keys := by
  simp [pendingKeys, List.filter_cons]

/-- Where a reply leads. -/
def Phase.next (phase : Phase) : (c : KmsCall) → c.Reply → Phase
  | .createRandom, keyId => .drawn keyId
  | .createKey _, _ => .idle
  | .keyExists keyId, there => if there then .found keyId else phase
  | .getKeyByKeyId keyId, key => phase.reads keyId key
  | .updateKey _, _ => .done
  | .listKeys, keys => .listed (pendingKeys keys)
  | .systemNow, now => phase.looks now
  | .deleteKey _, _ => phase.deletes
  | _, _ => phase

/-- The scheduler writes a pending key, under the id that it has read; the creator writes over its copy. -/
def protocol (role : Role) : Prog.Protocol KmsCall KmsCall.Reply Phase where
  law phase c := match c with
    | .createRandom | .keyExists _ | .listKeys => phase = .idle
    | .createKey key => phase = .drawn key.keyId
    | .getKeyByKeyId keyId => phase = .found keyId ∨ phase = .idle ∨ phase = .done
    | .updateKey key =>
      (∃ request r, role = .task (.scheduleKeyDeletion request) ∧ phase = .read request.keyId r ∧
        key.keyId = r.keyId ∧ key.keyState = KeyState.pendingDeletion.toString) ∨
      ∃ keyId r, role = .creator keyId ∧ phase = .copied keyId r ∧ key.keyId = r.keyId
    | .deleteKey key => ∃ keys, phase = .deleting key keys
    | _ => True
  next := Phase.next

/-- A pass ends when it has looked at every key. -/
def ending : Role → Except Error Unit → Phase → Prop
  | .task .deleteKeys, _, phase => phase = .listed []
  | _, _, _ => True

section Programs

variable {role : Role} {useDatabase : Bool} {accountId : Str} {Q : Except Error Key → Phase → Prop}

theorem complies_databaseCreateKey {key : Key} (hQ : ∀ r, Q (.ok r) .idle) :
    (databaseCreateKey useDatabase key).Complies (protocol role) Q (.drawn key.keyId) := by
  refine Prog.complies_perform_bind rfl fun stored => ?_
  split
  · exact ⟨trivial, fun r => hQ r⟩
  · exact hQ stored

theorem complies_databaseUpdateKey {key : Key} {phase : Phase} (hlaw : (protocol role).law phase (.updateKey key))
    (hQ : ∀ r, Q (.ok r) .done) : (databaseUpdateKey useDatabase key).Complies (protocol role) Q phase := by
  refine Prog.complies_perform_bind hlaw fun stored => ?_
  split
  · exact ⟨.inr (.inr rfl), fun r => hQ r⟩
  · exact hQ stored

theorem complies_createKey (request : CreateKeyRequest) :
    (createKey useDatabase accountId request).Complies (protocol role) (fun _ _ => True) .idle := by
  refine Prog.complies_perform_bind rfl fun keyId => ?_
  refine Prog.complies_perform_bind trivial fun now => ?_
  refine Prog.complies_bind (complies_databaseCreateKey fun key => ?_)
  exact Prog.complies_perform_bind trivial fun _ => trivial

theorem complies_scheduleKeyDeletion (request : ScheduleKeyDeletionRequest) :
    (scheduleKeyDeletion useDatabase request).Complies (protocol (.task (.scheduleKeyDeletion request)))
      (fun _ _ => True) .idle := by
  refine Prog.complies_perform_bind rfl fun found => ?_
  cases found with
  | false => trivial
  | true =>
    refine Prog.complies_perform_bind (.inl rfl) fun key => ?_
    refine Prog.complies_perform_bind trivial fun now => ?_
    exact Prog.complies_bind
      (complies_databaseUpdateKey (.inl ⟨request, key, rfl, rfl, rfl, rfl⟩) fun r => trivial)

/-- The material changes neither the id nor the phase. -/
theorem complies_generateMaterial {key : Key} {phase : Phase} (spec : KeySpec)
    (hQ : ∀ r, r.keyId = key.keyId → Q (.ok r) phase) :
    (generateMaterial key spec).Complies (protocol role) Q phase := by
  cases spec with
  | symmetricDefault => exact Prog.complies_perform_bind trivial fun material => hQ _ rfl
  | rsa2048 | rsa3072 | rsa4096 => exact Prog.complies_perform_bind trivial fun material => hQ _ rfl
  | hmac224 | hmac256 | hmac384 | hmac512 => exact Prog.complies_perform_bind trivial fun material => hQ _ rfl
  | eccNistP256 | eccNistP384 | eccNistP521 | eccSecgP256k1 => exact hQ key rfl

theorem complies_createKmsKey (keyId : Str) :
    (createKmsKey useDatabase keyId).Complies (protocol (.creator keyId)) (fun _ _ => True) .idle := by
  refine Prog.complies_perform_bind (.inr (.inl rfl)) fun copy => ?_
  refine Prog.complies_bind (complies_generateMaterial _ fun key hid => ?_)
  exact Prog.complies_bind (complies_databaseUpdateKey (.inr ⟨keyId, copy, rfl, rfl, hid⟩) fun r => trivial)

/-- A pass over a listing: what is not pending is passed over. -/
theorem complies_deleteIfDue : ∀ (keys : List Key),
    (Prog.forEach keys deleteIfDue).Complies (protocol role) (fun _ phase => phase = .listed [])
      (.listed (pendingKeys keys))
  | [] => rfl
  | key :: keys => by
    refine Prog.complies_bind ?_
    rw [deleteIfDue, pendingKeys_cons]
    split
    · refine Prog.complies_perform_bind trivial fun now => ?_
      simp only [protocol, Phase.next, Phase.looks, Prog.when]
      split
      · exact ⟨⟨_, rfl⟩, fun _ => complies_deleteIfDue keys⟩
      · exact complies_deleteIfDue keys
    · exact complies_deleteIfDue keys

theorem complies_deleteKeys :
    deleteKeys.Complies (protocol role) (fun _ phase => phase = .listed []) .idle :=
  Prog.complies_perform_bind rfl fun keys => complies_deleteIfDue keys

theorem complies_program (task : KmsTask) :
    (task.program useDatabase accountId).Complies (protocol (.task task)) (ending (.task task)) .idle := by
  cases task with
  | createKey request =>
    refine Prog.complies_bind ((complies_createKey request).mono fun response phase _ => ?_)
    cases response <;> trivial
  | scheduleKeyDeletion request =>
    refine Prog.complies_bind ((complies_scheduleKeyDeletion request).mono fun response phase _ => ?_)
    cases response <;> trivial
  | deleteKeys => exact complies_deleteKeys

end Programs

/-! ### The invariant -/

/-- What a phase says of the process: an id that is drawn is not yet in use, and what was read of a key that existed
    is that key, unless this is gone. -/
def Phase.Fits (rt : Runtime) (born : Str → Prop) (w : World) : Phase → Prop
  | .drawn keyId => ¬ born keyId ∧ ∃ n < w.calls, rt.uuid n = keyId
  | .found keyId => born keyId
  | .read keyId key => born keyId ∧ (key.keyId = keyId ∨ key.keyId = [] ∧ w.db.entry keyId = none)
  | .copied keyId key => key.keyId = keyId ∨ key.keyId = []
  | _ => True

/-- Nothing that a phase says is lost as long as no key in use comes back. -/
theorem Phase.Fits.later {rt : Runtime} {born born' : Str → Prop} {w w' : World} {p : Phase} (h : p.Fits rt born w)
    (hcalls : w.calls ≤ w'.calls) (hborn : ∀ keyId, born keyId → born' keyId)
    (hnew : ∀ keyId, p = .drawn keyId → ¬ born' keyId)
    (hstays : ∀ keyId, born keyId → w.db.entry keyId = none → w'.db.entry keyId = none) : p.Fits rt born' w' := by
  cases p with
  | drawn keyId =>
    obtain ⟨-, n, hn, rfl⟩ := h
    exact ⟨hnew _ rfl, n, hn.trans_le hcalls, rfl⟩
  | found keyId => exact hborn keyId h
  | read keyId key => exact ⟨hborn keyId h.1, h.2.imp id fun hgone => ⟨hgone.1, hstays keyId h.1 hgone.2⟩⟩
  | copied keyId key => exact h
  | idle | done | listed keys | deleting key keys => trivial

/-- The key is due since the pass began, and the pass will come to it. -/
def Awaits (s : Shared) (j : Nat) (phase : Phase) (keyId : Str) : Prop :=
  ∃ key ∈ phase.rest, key.keyId = keyId ∧ ∃ start, s.started j = some start ∧ key.scheduledDeletion < start

/-- Ids in use were drawn; every scheduled key that is there is pending, with its date; what a pass has to delete is
    gone or still before it. -/
structure Sound (rt : Runtime) (born : Str → Prop) (phase : Nat → Phase) (s : Shared) : Prop where
  phases : ∀ j, (phase j).Fits rt born s.world
  alone : ∀ j j' keyId, phase j = .drawn keyId → phase j' = .drawn keyId → j = j'
  drawn : ∀ keyId, born keyId → ∃ n < s.world.calls, rt.uuid n = keyId
  stored : ∀ keyId, s.world.db.entry keyId ≠ none → born keyId
  oids : ∀ oid, s.world.db.has oid = true → ∃ n < s.world.calls, rt.uuid n = oid
  scheduled : ∀ keyId, s.scheduled keyId ≠ none → born keyId
  pending : ∀ keyId date e, s.scheduled keyId = some date → s.world.db.entry keyId = some e →
    e = s.world.db.view KeyState.pendingDeletion.toString date
  started : ∀ j start, s.started j = some start → start ≤ rt.now s.world.calls
  due : ∀ j keyId, s.due j keyId = true → s.world.db.inMemory = true ∧ born keyId ∧
    (s.world.db.entry keyId = none ∨ Awaits s j (phase j) keyId)

theorem sound_begin (rt : Runtime) (useDatabase : Bool) :
    Sound rt (fun _ => False) (fun _ => .idle) { world := { db := emptyStore useDatabase } } where
  phases _ := trivial
  alone _ _ _ h := by cases h
  drawn _ h := h.elim
  stored keyId h := h (by cases useDatabase <;> rfl)
  oids oid h := by cases useDatabase <;> cases h
  scheduled _ h := (h rfl).elim
  pending _ _ _ h := by cases h
  started _ _ h := by cases h
  due _ _ h := by cases h

variable {rt : Runtime} {born born' : Str → Prop} {phase : Nat → Phase} {s : Shared} {w' : World} {p : Phase} {i : Nat}

namespace Sound

variable (hs : Sound rt born phase s)

include hs

/-- No key has the empty id. -/
theorem not_born_nil : ¬ born [] := by
  intro h
  obtain ⟨n, -, hn⟩ := hs.drawn [] h
  exact rt.uuid_ne n hn

theorem entry_nil : s.world.db.entry [] = none := by
  by_contra h
  exact hs.not_born_nil (hs.stored [] h)

/-- The `i`-th thread makes a call that deletes keys, or makes one under the id that it has drawn, but changes no
    scheduled key. -/
theorem moved (hcalls : w'.calls = s.world.calls + 1) (hmem : w'.db.inMemory = s.world.db.inMemory)
    (hoids : ∀ oid, w'.db.has oid = true → s.world.db.has oid = true ∨ oid = rt.uuid s.world.calls)
    (hborn : ∀ keyId, born keyId → born' keyId) (hnew : ∀ keyId, born' keyId → born keyId ∨ phase i = .drawn keyId)
    (hstays : ∀ keyId, born keyId → s.world.db.entry keyId = none → w'.db.entry keyId = none)
    (hstored : ∀ keyId, w'.db.entry keyId ≠ none → born' keyId)
    (hsame : ∀ keyId e, s.scheduled keyId ≠ none → w'.db.entry keyId = some e → s.world.db.entry keyId = some e)
    (hfits : p.Fits rt born' w') (halone : ∀ keyId, p = .drawn keyId → ∀ j, phase j = .drawn keyId → j = i)
    (hrest : ∀ keyId, s.due i keyId = true → Awaits s i (phase i) keyId →
      Awaits s i p keyId ∨ w'.db.entry keyId = none) :
    Sound rt born' (Function.update phase i p) { s with world := w' } := by
  have hle : s.world.calls ≤ w'.calls := by omega
  have hlater : ∀ {keyId : Str}, (∃ n < s.world.calls, rt.uuid n = keyId) → ∃ n < w'.calls, rt.uuid n = keyId := by
    rintro keyId ⟨n, hn, rfl⟩
    exact ⟨n, hn.trans_le hle, rfl⟩
  refine ⟨fun j => ?_, fun j j' keyId h h' => ?_, fun keyId hkey => ?_, hstored, fun oid hoid => ?_,
    fun keyId h => hborn keyId (hs.scheduled keyId h), fun keyId date e hdate he => ?_,
    fun j start h => (hs.started j start h).trans (rt.now_mono hle), fun j keyId h => ?_⟩
  · rcases eq_or_ne j i with rfl | hj
    · rwa [Function.update_self]
    · rw [Function.update_of_ne hj]
      refine (hs.phases j).later hle hborn (fun keyId hphase hkey => ?_) hstays
      rcases hnew keyId hkey with hold | hdrawn
      · have hfit := hs.phases j
        rw [hphase] at hfit
        exact hfit.1 hold
      · exact hj (hs.alone j i keyId hphase hdrawn)
  · rw [Function.update_apply] at h h'
    split at h <;> split at h'
    · next hj hj' => rw [hj, hj']
    · next hj _ => rw [hj, halone keyId h j' h']
    · next _ hj' => rw [hj', halone keyId h' j h]
    · exact hs.alone j j' keyId h h'
  · rcases hnew keyId hkey with hold | hdrawn
    · exact hlater (hs.drawn keyId hold)
    · have hfit := hs.phases i
      rw [hdrawn] at hfit
      exact hlater hfit.2
  · rcases hoids oid hoid with hold | rfl
    · exact hlater (hs.oids oid hold)
    · exact ⟨s.world.calls, hcalls.symm ▸ Nat.lt_succ_self _, rfl⟩
  · have hold := hsame keyId e (by rw [hdate]; exact Option.some_ne_none date) he
    rw [hs.pending keyId date e hdate hold]
    simp only [view, hmem]
  · obtain ⟨hmemory, hkey, hwaits⟩ := hs.due j keyId h
    refine ⟨hmem.trans hmemory, hborn keyId hkey, ?_⟩
    rcases hwaits with hgone | hwaits
    · exact .inl (hstays keyId hkey hgone)
    · rcases eq_or_ne j i with rfl | hj
      · rw [Function.update_self]
        exact (hrest keyId h hwaits).symm
      · rw [Function.update_of_ne hj]
        exact .inr hwaits

variable {c : KmsCall} {r : c.Reply × World}

/-- A call after which every key is seen as before. -/
theorem quiet (h : exec rt c s.world = some r) (hentry : ∀ keyId, r.2.db.entry keyId = s.world.db.entry keyId)
    (hfits : p.Fits rt born r.2) (halone : ∀ keyId, p = .drawn keyId → ∀ j, phase j = .drawn keyId → j = i)
    (hrest : ∀ keyId, s.due i keyId = true → Awaits s i (phase i) keyId → Awaits s i p keyId) :
    Sound rt born (Function.update phase i p) { s with world := r.2 } := by
  refine hs.moved (exec_cases h).2 (exec_inMemory h) (fun oid hoid => exec_has h hoid) (fun _ h => h) (fun _ h => .inl h)
    (fun keyId _ hgone => ?_) (fun keyId hstored => ?_) (fun keyId e _ he => ?_) hfits halone
    fun keyId hdue hwaits => .inl (hrest keyId hdue hwaits)
  · rw [hentry, hgone]
  · rw [hentry] at hstored
    exact hs.stored keyId hstored
  · rwa [hentry] at he

/-- Such a call in a phase that goes on. -/
theorem quiet_same (h : exec rt c s.world = some r) (hentry : ∀ keyId, r.2.db.entry keyId = s.world.db.entry keyId) :
    Sound rt born (Function.update phase i (phase i)) { s with world := r.2 } := by
  refine hs.quiet h hentry ?_ (fun keyId hp j hj => hs.alone j i keyId hj hp) fun _ _ hwaits => hwaits
  refine (hs.phases i).later ((exec_cases h).2 ▸ Nat.le_succ _) (fun _ h => h) (fun keyId hphase hkey => ?_)
    fun keyId _ hgone => by rw [hentry, hgone]
  have hfit := hs.phases i
  rw [hphase] at hfit
  exact hfit.1 hkey

/-- An id that is drawn is not in use and not drawn by another thread. -/
theorem createRandom {r : Str × World} (h : exec rt .createRandom s.world = some r) (hphase : phase i = .idle) :
    Sound rt born (Function.update phase i (.drawn r.1)) { s with world := r.2 } := by
  cases h
  have hnew : ∀ n < s.world.calls, rt.uuid n ≠ rt.uuid s.world.calls := fun n hn heq => hn.ne (rt.uuid_inj heq)
  refine hs.quiet (c := .createRandom) rfl (fun _ => rfl) ⟨fun hkey => ?_, _, Nat.lt_succ_self _, rfl⟩
    (fun keyId hp j hj => ?_) fun keyId _ hwaits => ?_
  · obtain ⟨n, hn, heq⟩ := hs.drawn _ hkey
    exact hnew n hn heq
  · cases hp
    have hfit := hs.phases j
    rw [hj] at hfit
    obtain ⟨n, hn, heq⟩ := hfit.2
    exact absurd heq (hnew n hn)
  · rw [hphase] at hwaits
    obtain ⟨key, hmem, -⟩ := hwaits
    cases hmem

theorem keyExists {keyId : Str} {r : Bool × World} (h : exec rt (.keyExists keyId) s.world = some r)
    (hphase : phase i = .idle) :
    Sound rt born (Function.update phase i ((phase i).next (.keyExists keyId) r.1)) { s with world := r.2 } := by
  cases h
  dsimp only [Phase.next]
  split
  · next hthere =>
    refine hs.quiet (c := .keyExists keyId) rfl (fun _ => rfl) (hs.stored keyId ?_) nofun fun keyId _ hwaits => ?_
    · rw [keyExists_eq] at hthere
      exact Option.isSome_iff_ne_none.mp hthere
    · rw [hphase] at hwaits
      obtain ⟨key, hmem, -⟩ := hwaits
      cases hmem
  · exact hs.quiet_same (c := .keyExists keyId) rfl fun _ => rfl

/-- What is read of a key. -/
theorem getKeyByKeyId {keyId : Str} {r : Key × World} (h : exec rt (.getKeyByKeyId keyId) s.world = some r)
    (hlaw : phase i = .found keyId ∨ phase i = .idle ∨ phase i = .done) :
    Sound rt born (Function.update phase i ((phase i).next (.getKeyByKeyId keyId) r.1)) { s with world := r.2 } := by
  have hentry : ∀ keyId, r.2.db.entry keyId = s.world.db.entry keyId := (exec_reads (by trivial) h).2.1
  have hread := getKeyByKeyId_keyId (exec_cases h).1
  have hrest : ∀ keyId, (phase i).rest = [] → ¬ Awaits s i (phase i) keyId := by
    rintro keyId hnil ⟨key, hmem, -⟩
    rw [hnil] at hmem
    cases hmem
  rcases hlaw with hphase | hphase | hphase
  · have hborn := hs.phases i
    rw [hphase] at hborn
    rw [show (phase i).next (.getKeyByKeyId keyId) r.1 = .read keyId r.1 by rw [hphase]; rfl]
    refine hs.quiet h hentry ⟨hborn, hread.imp id fun hgone => ⟨hgone.1, ?_⟩⟩ nofun
      fun keyId _ hwaits => absurd hwaits (hrest keyId (by rw [hphase]; rfl))
    rw [hentry, hgone.2]
  · rw [show (phase i).next (.getKeyByKeyId keyId) r.1 = .copied keyId r.1 by rw [hphase]; rfl]
    exact hs.quiet h hentry (hread.imp id And.left) nofun
      fun keyId _ hwaits => absurd hwaits (hrest keyId (by rw [hphase]; rfl))
  · rw [show (phase i).next (.getKeyByKeyId keyId) r.1 = phase i by rw [hphase]; rfl]
    exact hs.quiet_same h hentry

/-- A pass that looks at a key which was due when it began finds it due. -/
theorem systemNow {r : TimePoint × World} (h : exec rt .systemNow s.world = some r) :
    Sound rt born (Function.update phase i ((phase i).looks r.1)) { s with world := r.2 } := by
  cases h
  unfold Phase.looks
  split
  · next key keys hphase =>
    split
    · refine hs.quiet (c := .systemNow) rfl (fun _ => rfl) trivial nofun fun keyId _ hwaits => ?_
      rw [hphase] at hwaits
      exact hwaits
    · next hlater =>
      refine hs.quiet (c := .systemNow) rfl (fun _ => rfl) trivial nofun fun keyId _ hwaits => ?_
      rw [hphase] at hwaits
      obtain ⟨key', hmem, hid, start, hstart, hdate⟩ := hwaits
      rcases List.mem_cons.mp hmem with rfl | hmem
      · exact absurd (hdate.trans_le (hs.started i start hstart)) hlater
      · exact ⟨key', hmem, hid, start, hstart, hdate⟩
  · exact hs.quiet_same (c := .systemNow) rfl fun _ => rfl

/-- A key is made under the id that was drawn, which nobody has seen so far. -/
theorem createKey {key : Key} {r : Key × World} (h : exec rt (.createKey key) s.world = some r)
    (hphase : phase i = .drawn key.keyId) :
    Sound rt (fun keyId => born keyId ∨ keyId = key.keyId) (Function.update phase i .idle)
      { s with world := r.2 } := by
  have hfit := hs.phases i
  rw [hphase] at hfit
  have hoid : s.world.db.has (rt.uuid s.world.calls) = false := by
    refine Bool.eq_false_iff.mpr fun hhas => ?_
    obtain ⟨n, hn, heq⟩ := hs.oids _ hhas
    exact hn.ne (rt.uuid_inj heq)
  have hother : ∀ keyId, keyId ≠ key.keyId → r.2.db.entry keyId = s.world.db.entry keyId := by
    intro keyId hne
    rw [exec_createKey h]
    exact entry_createKey_of_ne hoid hne
  have hold : ∀ keyId, born keyId → keyId ≠ key.keyId := by
    rintro _ hkey rfl
    exact hfit.1 hkey
  refine hs.moved (exec_cases h).2 (exec_inMemory h) (fun oid hoid => exec_has h hoid) (fun _ => .inl) ?_
    (fun keyId hkey hgone => ?_) (fun keyId hstored => ?_) (fun keyId e hscheduled he => ?_) trivial nofun
    fun keyId _ hwaits => ?_
  · rintro keyId (hkey | rfl)
    · exact .inl hkey
    · exact .inr hphase
  · rw [hother keyId (hold keyId hkey), hgone]
  · refine or_iff_not_imp_right.mpr fun hne => hs.stored keyId ?_
    rwa [← hother keyId hne]
  · rwa [hother keyId (hold keyId (hs.scheduled keyId hscheduled))] at he
  · rw [hphase] at hwaits
    obtain ⟨key, hmem, -⟩ := hwaits
    cases hmem

/-- A key is deleted from the in-memory store; on MongoDB the key stays, and no pass has to delete any. -/
theorem deleteKey {key : Key} {keys : List Key} {r : Unit × World} (h : exec rt (.deleteKey key) s.world = some r)
    (hphase : phase i = .deleting key keys) :
    Sound rt born (Function.update phase i (.listed keys)) { s with world := r.2 } := by
  have hdb := exec_deleteKey h
  have hother : ∀ keyId, keyId ≠ key.keyId → r.2.db.entry keyId = s.world.db.entry keyId := by
    intro keyId hne
    rw [hdb, entry_deleteKey_of_ne _ hne]
  have hself : r.2.db.entry key.keyId = s.world.db.entry key.keyId ∨ r.2.db.entry key.keyId = none := by
    rw [hdb]
    cases s.world.db with
    | memory keys => exact .inr (entry_deleteKey_self keys key)
    | mongo documents =>
      rw [deleteKey_mongo]
      exact .inl rfl
  have hless : ∀ keyId e, r.2.db.entry keyId = some e → s.world.db.entry keyId = some e := by
    intro keyId e he
    rcases eq_or_ne keyId key.keyId with rfl | hne
    · rcases hself with hsame | hgone
      · rwa [hsame] at he
      · rw [hgone] at he
        cases he
    · rwa [hother keyId hne] at he
  refine hs.moved (exec_cases h).2 (exec_inMemory h) (fun oid hoid => exec_has h hoid) (fun _ h => h) (fun _ h => .inl h)
    (fun keyId _ hgone => ?_) (fun keyId hstored => ?_) (fun keyId e _ he => hless keyId e he) trivial nofun
    fun keyId hdue hwaits => ?_
  · refine Option.eq_none_iff_forall_ne_some.mpr fun e he => ?_
    rw [hless keyId e he] at hgone
    cases hgone
  · obtain ⟨e, he⟩ := Option.ne_none_iff_exists'.mp hstored
    exact hs.stored keyId (by rw [hless keyId e he]; exact Option.some_ne_none e)
  · rw [hphase] at hwaits
    obtain ⟨key', hmem, hid, hstart⟩ := hwaits
    rcases List.mem_cons.mp hmem with rfl | hmem
    · refine .inr ?_
      obtain ⟨hmemory, -⟩ := hs.due i keyId hdue
      rw [hdb, ← hid]
      cases hstore : s.world.db with
      | memory keys => exact entry_deleteKey_self keys key'
      | mongo documents =>
        rw [hstore] at hmemory
        cases hmemory
    · exact .inl ⟨key', hmem, hid, hstart⟩

/-- A write to a key that is not scheduled or not there. -/
theorem updateKey {key : Key} {r : Key × World} (h : exec rt (.updateKey key) s.world = some r)
    (hfree : s.scheduled key.keyId = none ∨ s.world.db.entry key.keyId = none) (hrest : (phase i).rest = []) :
    Sound rt born (Function.update phase i .done) { s with world := r.2 } := by
  have hdb := exec_updateKey h
  have hnone : ∀ keyId, s.world.db.entry keyId = none → r.2.db.entry keyId = none := by
    intro keyId hgone
    rw [hdb, entry_updateKey_none hgone]
  refine hs.moved (exec_cases h).2 (exec_inMemory h) (fun oid hoid => exec_has h hoid) (fun _ h => h) (fun _ h => .inl h)
    (fun keyId _ hgone => hnone keyId hgone) (fun keyId hstored => ?_) (fun keyId e hscheduled he => ?_) trivial nofun
    fun keyId _ hwaits => ?_
  · exact hs.stored keyId fun hgone => hstored (hnone keyId hgone)
  · rcases eq_or_ne keyId key.keyId with rfl | hne
    · rcases hfree with hfree | hgone
      · exact absurd hfree hscheduled
      · rw [hnone _ hgone] at he
        cases he
    · rwa [hdb, entry_updateKey_of_ne _ hne] at he
  · obtain ⟨key', hmem, -⟩ := hwaits
    rw [hrest] at hmem
    cases hmem

/-- A key need not be scheduled. -/
theorem unscheduled (keyId : Str) :
    Sound rt born phase { s with scheduled := Function.update s.scheduled keyId none } where
  __ := hs
  scheduled keyId' h := by
    refine hs.scheduled keyId' fun hnone => h ?_
    dsimp only
    rw [Function.update_apply, hnone, ite_self]
  pending keyId' date e hdate he := by
    refine hs.pending keyId' date e ?_ he
    dsimp only at hdate
    rw [Function.update_apply] at hdate
    split at hdate
    · cases hdate
    · exact hdate

/-- A key is scheduled that is pending for this date if it is there. -/
theorem schedule (keyId : Str) (date : TimePoint) (hborn : born keyId) (hpending : ∀ e,
    s.world.db.entry keyId = some e → e = s.world.db.view KeyState.pendingDeletion.toString date) :
    Sound rt born phase (s.schedule keyId date) where
  __ := hs
  scheduled keyId' h := by
    rcases eq_or_ne keyId' keyId with rfl | hne
    · exact hborn
    · dsimp only [Shared.schedule] at h
      rw [Function.update_of_ne hne] at h
      exact hs.scheduled keyId' h
  pending keyId' date' e hdate he := by
    dsimp only [Shared.schedule] at hdate
    rcases eq_or_ne keyId' keyId with rfl | hne
    · rw [Function.update_self] at hdate
      cases hdate
      exact hpending e he
    · rw [Function.update_of_ne hne] at hdate
      exact hs.pending keyId' date' e hdate he
  due j keyId' h := hs.due j keyId' (Bool.and_eq_true_iff.mp h).1

/-- The scheduler writes the key that it has read, or nothing if this is gone. -/
theorem updateKey_schedule {keyId : Str} {key found : Key} {r : Key × World}
    (h : exec rt (.updateKey key) s.world = some r) (hphase : phase i = .read keyId found)
    (hid : key.keyId = found.keyId) (hstate : key.keyState = KeyState.pendingDeletion.toString) :
    Sound rt born (Function.update phase i .done) { s.schedule keyId key.scheduledDeletion with world := r.2 } := by
  have hfit := hs.phases i
  rw [hphase] at hfit
  obtain ⟨hborn, hread⟩ := hfit
  rw [← hid] at hread
  have hfree : (Function.update s.scheduled keyId none) key.keyId = none ∨ s.world.db.entry key.keyId = none := by
    rcases hread with rfl | ⟨hnil, -⟩
    · exact .inl (Function.update_self ..)
    · exact .inr (hnil ▸ hs.entry_nil)
  have hmoved := ((hs.unscheduled keyId).updateKey h hfree (by rw [hphase]; rfl)).schedule
    keyId key.scheduledDeletion hborn fun e he => ?_
  · simpa only [Shared.schedule, Function.update_idem] using hmoved
  · dsimp only at he
    have hgone : s.world.db.entry keyId ≠ none := by
      intro hgone
      rw [exec_updateKey h, entry_updateKey_none hgone] at he
      cases he
    rcases hread with rfl | ⟨-, hnone⟩
    · rw [exec_updateKey h, entry_updateKey_self hgone] at he
      cases he
      rw [hstate]
      simp only [view, exec_inMemory h]
    · exact absurd hnone hgone

/-- A pass begins whose listing shows every key that it has to delete. -/
theorem begins {start : TimePoint} {due : Str → Bool} (hstart : start ≤ rt.now s.world.calls)
    (hdue : ∀ keyId, due keyId = true → s.world.db.inMemory = true ∧ born keyId ∧
      ∃ key ∈ (phase i).rest, key.keyId = keyId ∧ key.scheduledDeletion < start) :
    Sound rt born phase
      { s with started := Function.update s.started i (some start), due := Function.update s.due i due } where
  __ := hs
  started j start' h := by
    dsimp only at h
    rw [Function.update_apply] at h
    split at h
    · cases h
      exact hstart
    · exact hs.started j start' h
  due j keyId h := by
    dsimp only at h
    rcases eq_or_ne j i with rfl | hj
    · rw [Function.update_self] at h
      obtain ⟨hmemory, hborn, key, hmem, hid, hdate⟩ := hdue keyId h
      exact ⟨hmemory, hborn, .inr ⟨key, hmem, hid, start, Function.update_self .., hdate⟩⟩
    · rw [Function.update_of_ne hj] at h
      obtain ⟨hmemory, hborn, hwaits⟩ := hs.due j keyId h
      refine ⟨hmemory, hborn, hwaits.imp id ?_⟩
      rintro ⟨key, hmem, hid, start', hstart', hdate⟩
      exact ⟨key, hmem, hid, start', (Function.update_of_ne hj ..).trans hstart', hdate⟩

/-- A listing in memory, or while nothing is due. -/
theorem listKeys {r : List Key × World} (h : exec rt .listKeys s.world = some r) (hphase : phase i = .idle)
    (hlisting : s.world.db.inMemory = false → ∀ keyId, dueNow rt s keyId = false) :
    Sound rt born (Function.update phase i (.listed (pendingKeys r.1))) { s.begins rt i with world := r.2 } := by
  cases h
  have hquiet : Sound rt born (Function.update phase i
      (.listed (pendingKeys (s.world.db.listKeys (rt.now s.world.calls)))))
      { s with world := { db := s.world.db, calls := s.world.calls + 1 } } := by
    refine hs.quiet (c := .listKeys) rfl (fun _ => rfl) trivial nofun fun keyId _ hwaits => ?_
    rw [hphase] at hwaits
    obtain ⟨key, hmem, -⟩ := hwaits
    cases hmem
  refine hquiet.begins (i := i) (rt.now_mono (Nat.le_succ _)) fun keyId hdue => ?_
  cases hstore : s.world.db with
  | mongo documents =>
    rw [hlisting (by rw [hstore]; rfl) keyId] at hdue
    cases hdue
  | memory keys =>
    obtain ⟨hthere, hdate⟩ := Bool.and_eq_true_iff.mp hdue
    obtain ⟨date, hscheduled, hpast⟩ := (Option.any_eq_true _ _).mp hdate
    obtain ⟨⟨state, seen⟩, hentry⟩ := Option.isSome_iff_exists.mp ((Option.isSome_map ..).symm.trans hthere)
    have hview := hs.pending keyId date _ hscheduled hentry
    rw [hstore] at hentry hview
    cases hview
    obtain ⟨key, hmem, hid, hstate, hkeyDate⟩ := listKeys_listed (rt.now s.world.calls) hentry
    refine ⟨rfl, hs.stored keyId (by rw [hstore, hentry]; exact Option.some_ne_none _), key, ?_, hid, ?_⟩
    · rw [Function.update_self]
      exact List.mem_filter.mpr ⟨hmem, decide_eq_true hstate⟩
    · rw [hkeyDate]
      exact of_decide_eq_true hpast

end Sound

/-! ### One turn -/

/-- Every thread follows its protocol and has the role of its task, or is a creator. -/
structure Running (tasks : List KmsTask) (phase : Nat → Phase) (x : KmsPool) : Prop where
  complies : ∀ (j : Nat) (t : KmsThread), x.1[j]? = some t →
    t.prog.Complies (protocol t.label) (ending t.label) (phase j)
  task : ∀ (j : Nat) (t : KmsThread), x.1[j]? = some t → (∃ task, t.label = .task task ∧ tasks[j]? = some task) ∨
    (∃ keyId, t.label = .creator keyId) ∧ tasks[j]? = none
  later : ∀ j, x.1.length ≤ j → phase j = .idle ∧ tasks[j]? = none

variable {useDatabase : Bool} {accountId : Str} {tasks : List KmsTask} {x y : KmsPool} {c : KmsCall}

theorem running_begin : Running tasks (fun _ => .idle) (begin useDatabase accountId tasks) where
  complies j t ht := by
    obtain ⟨task, -, rfl⟩ := List.mem_map.mp (List.mem_of_getElem? ht)
    exact complies_program task
  task j t ht := by
    simp only [begin, List.getElem?_map, Option.map_eq_some_iff] at ht
    obtain ⟨task, htask, rfl⟩ := ht
    exact .inl ⟨task, rfl, htask⟩
  later j hj := ⟨rfl, List.getElem?_eq_none (by simpa [begin] using hj)⟩

/-- The `i`-th thread makes a call. -/
structure Goes (rt : Runtime) (useDatabase : Bool) (tasks : List KmsTask) (i : Nat) (x y : KmsPool) (role : Role)
    (c : KmsCall) (k : c.Reply → KmsProg Unit) (r : c.Reply × World) : Prop where
  before : x.1[i]? = some ⟨role, .call c k⟩
  exec : exec rt c x.2.world = some r
  after : y.1 = x.1.set i ⟨role, k r.1⟩ ++ startedBy useDatabase c
  shared : y.2 = { note rt tasks i x.2 c with world := r.2 }

theorem turn_goes (h : turn rt useDatabase tasks i x = some y) :
    y = x ∨ ∃ role c k r, Goes rt useDatabase tasks i x y role c k r := by
  rcases Thread.turn_cases h with rfl | ⟨role, c, k, reply, started, hi, hexec, hy⟩
  · exact .inl rfl
  · obtain ⟨r, hr, hgoes⟩ := Option.map_eq_some_iff.mp hexec
    simp only [Turn.goes.injEq] at hgoes
    obtain ⟨rfl, hs, rfl⟩ := hgoes
    exact .inr ⟨role, c, k, r, hi, hr, hy, hs.symm⟩

namespace Goes

variable {role : Role} {k : c.Reply → KmsProg Unit} {r : c.Reply × World}
  (h : Goes rt useDatabase tasks i x y role c k r) (hx : Running tasks phase x)

include h hx

theorem law : (protocol role).law (phase i) c := (hx.complies i _ h.before).1

theorem running : Running tasks (Function.update phase i ((phase i).next c r.1)) y := by
  have hlength : x.1.length ≤ y.1.length := by
    rw [h.after, List.length_append, List.length_set]
    exact Nat.le_add_right ..
  obtain ⟨hlt, -⟩ := List.getElem?_eq_some_iff.mp h.before
  have hlater : ∀ j, x.1.length ≤ j → Function.update phase i ((phase i).next c r.1) j = .idle ∧ tasks[j]? = none := by
    intro j hj
    rw [Function.update_of_ne (hlt.trans_le hj).ne']
    exact hx.later j hj
  have hthread : ∀ (j : Nat) (t : KmsThread), y.1[j]? = some t → j = i ∧ t = ⟨role, k r.1⟩ ∨ j ≠ i ∧ x.1[j]? = some t ∨
      x.1.length ≤ j ∧ ∃ keyId, t = ⟨.creator keyId, createKmsKey useDatabase keyId⟩ := by
    intro j t ht
    rw [h.after] at ht
    rcases Thread.getElem?_moved ht with hself | hother | ⟨hnew, hj⟩
    · exact .inl hself
    · exact .inr (.inl hother)
    · refine .inr (.inr ⟨hj, ?_⟩)
      cases c with
      | startCreator keyId => exact ⟨keyId, List.mem_singleton.mp hnew⟩
      | _ => cases hnew
  refine ⟨fun j t ht => ?_, fun j t ht => ?_, fun j hj => hlater j (hlength.trans hj)⟩
  · rcases hthread j t ht with ⟨rfl, rfl⟩ | ⟨hne, hold⟩ | ⟨hj, keyId, rfl⟩
    · rw [Function.update_self]
      exact (hx.complies j _ h.before).2 r.1
    · rw [Function.update_of_ne hne]
      exact hx.complies j t hold
    · rw [(hlater j hj).1]
      exact complies_createKmsKey keyId
  · rcases hthread j t ht with ⟨rfl, rfl⟩ | ⟨-, hold⟩ | ⟨hj, keyId, rfl⟩
    · have htask := hx.task j _ h.before
      exact htask
    · exact hx.task j t hold
    · exact .inr ⟨⟨keyId, rfl⟩, (hlater j hj).2⟩

/-- What a call in time makes of the process. -/
theorem sound (hs : Sound rt born phase x.2) (htimely : Timely rt i x) :
    ∃ born', Sound rt born' (Function.update phase i ((phase i).next c r.1)) y.2 := by
  have hlaw := h.law hx
  have hexec := h.exec
  rw [h.shared]
  cases c with
  | systemNow => exact ⟨born, hs.systemNow hexec⟩
  | createRandom => exact ⟨born, hs.createRandom hexec hlaw⟩
  | keyExists keyId => exact ⟨born, hs.keyExists hexec hlaw⟩
  | getKeyByKeyId keyId => exact ⟨born, hs.getKeyByKeyId hexec hlaw⟩
  | listKeys => exact ⟨born, hs.listKeys hexec hlaw fun hmongo keyId => htimely.listing _ keyId h.before rfl hmongo⟩
  | createKey key => exact ⟨_, hs.createKey hexec hlaw⟩
  | updateKey key =>
    refine ⟨born, ?_⟩
    rcases hlaw with ⟨request, found, hrole, hphase, hid, hstate⟩ | ⟨keyId, copy, hrole, hphase, hid⟩
    · have htask : tasks[i]? = some (.scheduleKeyDeletion request) := by
        rcases hx.task i _ h.before with ⟨task, hlabel, htask⟩ | ⟨⟨keyId, hlabel⟩, -⟩
        · cases hlabel.symm.trans hrole
          exact htask
        · cases hlabel.symm.trans hrole
      simp only [note, htask]
      exact hs.updateKey_schedule hexec hphase hid hstate
    · have htask : tasks[i]? = none := by
        rcases hx.task i _ h.before with ⟨task, hlabel, -⟩ | ⟨-, hnone⟩
        · cases hlabel.symm.trans hrole
        · exact hnone
      have hfree : x.2.scheduled key.keyId = none ∨ x.2.world.db.entry key.keyId = none := by
        have hfit := hs.phases i
        rw [hphase] at hfit
        rw [hid]
        rcases hfit with hsame | hnil
        · refine or_iff_not_imp_left.mpr fun hscheduled => stateOf_eq_none.mp ?_
          rw [hsame] at hscheduled ⊢
          exact htimely.creator _ keyId key h.before hrole rfl (Option.isSome_iff_ne_none.mpr hscheduled)
        · exact .inr (hnil ▸ hs.entry_nil)
      simp only [note, htask]
      exact hs.updateKey hexec hfree (by rw [hphase]; rfl)
  | deleteKey key =>
    obtain ⟨keys, hphase⟩ := hlaw
    have hnext : (phase i).next (.deleteKey key) r.1 = .listed keys := by rw [hphase]; rfl
    rw [hnext]
    exact ⟨born, hs.deleteKey hexec hphase⟩
  | getKeyById | createAes256Key | generateRsaKeys | createHmacKey | startCreator =>
    exact ⟨born, hs.quiet_same hexec (exec_reads (by trivial) hexec).2.1⟩

/-- A call that deletes a scheduled key belongs to a pass that began after its date. -/
theorem onlyDue (hs : Sound rt born phase x.2) (htimely : Timely rt i x) {keyId : Str} {date : TimePoint}
    (hscheduled : x.2.scheduled keyId = some date) (hthere : x.2.world.db.stateOf keyId ≠ none)
    (hgone : y.2.world.db.stateOf keyId = none) : ∃ start, x.2.started i = some start ∧ date < start := by
  have hexec := h.exec
  have hlaw := h.law hx
  rw [h.shared] at hgone
  have hentry : x.2.world.db.entry keyId ≠ none := fun hnone => hthere (stateOf_eq_none.mpr hnone)
  have hgone : r.2.db.entry keyId = none := stateOf_eq_none.mp hgone
  cases c with
  | createKey key =>
    have hfit := hs.phases i
    rw [show phase i = .drawn key.keyId from hlaw] at hfit
    have hother : keyId ≠ key.keyId := by
      rintro rfl
      exact hfit.1 (hs.stored _ hentry)
    rw [exec_createKey hexec, entry_createKey_of_ne ?_ hother] at hgone
    · exact absurd hgone hentry
    · refine Bool.eq_false_iff.mpr fun hhas => ?_
      obtain ⟨n, hn, heq⟩ := hs.oids _ hhas
      exact hn.ne (rt.uuid_inj heq)
  | updateKey key =>
    rw [exec_updateKey hexec] at hgone
    rcases eq_or_ne keyId key.keyId with rfl | hne
    · rw [entry_updateKey_self hentry] at hgone
      cases hgone
    · rw [entry_updateKey_of_ne _ hne] at hgone
      exact absurd hgone hentry
  | deleteKey key =>
    rw [exec_deleteKey hexec] at hgone
    rcases eq_or_ne keyId key.keyId with rfl | hne
    · cases hstore : x.2.world.db with
      | mongo documents =>
        rw [hstore] at hgone hentry
        rw [deleteKey_mongo] at hgone
        exact absurd hgone hentry
      | memory keys =>
        obtain ⟨hdate, start, hstart, hbefore⟩ :=
          htimely.deletion _ key date h.before rfl (by rw [hstore]; rfl) hscheduled hthere
        exact ⟨start, hstart, hdate.trans_lt hbefore⟩
    · rw [entry_deleteKey_of_ne _ hne] at hgone
      exact absurd hgone hentry
  | _ =>
    rw [(exec_reads (by trivial) hexec).2.1] at hgone
    exact absurd hgone hentry

end Goes

/-- The threads and the process as they should be. -/
def Orderly (rt : Runtime) (tasks : List KmsTask) (x : KmsPool) : Prop :=
  ∃ phase born, Running tasks phase x ∧ Sound rt born phase x.2

theorem orderly_begin : Orderly rt tasks (begin useDatabase accountId tasks) :=
  ⟨fun _ => .idle, fun _ => False, running_begin, sound_begin rt useDatabase⟩

/-- One turn in time. -/
theorem Orderly.step (hx : Orderly rt tasks x) (htimely : Timely rt i x) (h : turn rt useDatabase tasks i x = some y) :
    Orderly rt tasks y := by
  obtain ⟨phase, born, hrunning, hs⟩ := hx
  rcases turn_goes h with rfl | ⟨role, c, k, r, hgoes⟩
  · exact ⟨phase, born, hrunning, hs⟩
  · obtain ⟨born', hs'⟩ := hgoes.sound hrunning hs htimely
    exact ⟨_, born', hgoes.running hrunning, hs'⟩

theorem Orderly.onlyDue (hx : Orderly rt tasks x) (htimely : Timely rt i x) : OnlyDue rt useDatabase tasks i x := by
  obtain ⟨phase, born, hrunning, hs⟩ := hx
  intro y h keyId date hscheduled hthere hgone
  rcases turn_goes h with rfl | ⟨role, c, k, r, hgoes⟩
  · exact absurd hgone hthere
  · exact hgoes.onlyDue hrunning hs htimely hscheduled hthere hgone

theorem Orderly.kept (hx : Orderly rt tasks x) : Kept x := by
  obtain ⟨phase, born, hrunning, hs⟩ := hx
  constructor
  · intro keyId state hscheduled hstate
    obtain ⟨date, hdate⟩ := Option.isSome_iff_exists.mp hscheduled
    obtain ⟨e, he, rfl⟩ := Option.map_eq_some_iff.mp hstate
    rw [hs.pending keyId date e hdate he]
    rfl
  · intro j t keyId ht hlabel hend hdue
    -- the pass has looked at every key that it has listed
    have hended : phase j = .listed [] := by
      have hcomplies := hrunning.complies j t ht
      rw [hlabel] at hcomplies
      cases hprog : t.prog with
      | ret a =>
        rw [hprog] at hcomplies
        exact hcomplies
      | throw e =>
        rw [hprog] at hcomplies
        exact hcomplies
      | call c k =>
        rw [hprog] at hend
        cases hend
    obtain ⟨-, -, hgone | ⟨key, hmem, -⟩⟩ := hs.due j keyId hdue
    · exact stateOf_eq_none.mpr hgone
    · rw [hended] at hmem
      cases hmem

/-! ### Every run -/

/-- Whether a call in memory is in time. -/
def checkTimely (i : Nat) (x : KmsPool) : Bool :=
  match x.1[i]? with
  | none => true
  | some t => match t.prog.next with
    | some (.updateKey _) => match t.label with
      | .creator keyId => (x.2.scheduled keyId).isNone || (x.2.world.db.stateOf keyId).isNone
      | _ => true
    | some (.deleteKey key) => (x.2.scheduled key.keyId).all fun date =>
      date ≤ key.scheduledDeletion && (x.2.started i).any fun start => key.scheduledDeletion < start
    | some .listKeys => x.2.world.db.inMemory
    | _ => true

theorem timely_of_check (h : checkTimely i x = true) : Timely rt i x := by
  unfold checkTimely at h
  refine ⟨fun t keyId key ht hlabel hnext hscheduled => ?_, fun t key date ht hnext _ hdate _ => ?_,
    fun t keyId ht hnext hmongo => ?_⟩
  · simp only [ht, hnext, hlabel, Bool.or_eq_true, Option.isNone_iff_eq_none] at h
    refine h.resolve_left fun hnone => ?_
    rw [hnone] at hscheduled
    cases hscheduled
  · simp only [ht, hnext, hdate, Option.all_some, Bool.and_eq_true, decide_eq_true_eq, Option.any_eq_true] at h
    exact h
  · simp only [ht, hnext, hmongo] at h
    cases h

def sampleRequest : CreateKeyRequest := { region := str "eu", keySpec := .symmetricDefault, keyUsage := .encryptDecrypt }

/-- A key, its deletion a day later, and a pass. -/
def sampleTasks : List KmsTask :=
  [.createKey sampleRequest, .scheduleKeyDeletion { keyId := str "u", pendingWindowInDays := 1 }, .deleteKeys]

/-- As before, and a request that puts the deletion off. -/
def sampleTasksPutOff : List KmsTask :=
  sampleTasks ++ [.scheduleKeyDeletion { keyId := str "u", pendingWindowInDays := 30 }]

end AwsMock.Kms
