import AwsMock.S3.Answers

/-!
# Deleted objects and their files

What `DeleteObject` and `DeleteObjects` leave behind, where each record has a data file of its own.
`DeleteObjects` deletes the file of the first record of each key, for a key without a record the data
directory, and only then the records.
-/

namespace AwsMock.S3

open Lib OrderedMap

inductive Deletion
  | deleteObject (request : DeleteObjectRequest)
  | deleteObjects (request : DeleteObjectsRequest)

namespace Deletion

def serve (env : Env) : Deletion → S3Prog Unit
  | deleteObject request => S3.deleteObject env request
  | deleteObjects request => S3.deleteObjects env request

def region : Deletion → Str
  | deleteObject request => request.region
  | deleteObjects request => request.region

def bucket : Deletion → Str
  | deleteObject request => request.bucket
  | deleteObjects request => request.bucket

def keys : Deletion → List Str
  | deleteObject request => [request.key]
  | deleteObjects request => request.keys

/-- The records that the request is about. -/
def asks (d : Deletion) (object : Object) : Bool := d.keys.any fun key => object.isAt d.region d.bucket key

end Deletion

/-- Each record has a data file of its own. -/
structure OwnFiles (w : World) : Prop where
  named : ∀ {k object}, w.db.objects.get? k = some object → object.internalName ≠ []
  file : ∀ {k object}, w.db.objects.get? k = some object → (w.files.get? object.internalName).isSome
  own : ∀ {k k' object object'}, w.db.objects.get? k = some object → w.db.objects.get? k' = some object' →
    object.internalName = object'.internalName → k = k'

/-- `DeleteFile` is called with the data directory, which is empty and so removed. -/
def S3Call.removesDirectory : S3Call → World → Prop
  | .deleteFile name, w => name = [] ∧ w.files.size = 0
  | _, _ => False

/-- Another service fails. -/
def S3Call.fails (rt : Runtime) : S3Call → World → Prop
  | .send target notification record, w => ∃ e, rt.send w.calls target notification record = .error e
  | .deleteTransferFile key, w => ∃ e, rt.deleteTransferFile w.calls key = .error e
  | _, _ => False

/-- Records and files are in step after the request: each record that is left has its file, the files of the
    removed records are gone, and all that was not asked for is as before. -/
structure InStep (env : Env) (rt : Runtime) (d : Deletion) (w w' : World) : Prop where
  kept : ∀ {k object}, w'.db.objects.get? k = some object → (w'.files.get? object.internalName).isSome
  gone : ∀ {k object}, w.db.objects.get? k = some object → w'.db.objects.get? k = none →
    w'.files.get? object.internalName = none
  others : ∀ {k object}, w.db.objects.get? k = some object → d.asks object = false →
    (w'.db.objects.get? k).map Object.bare = some object.bare
  otherFiles : ∀ {name}, (∀ k object, w.db.objects.get? k = some object → d.asks object → object.internalName ≠ name) →
    w'.files.get? name = w.files.get? name
  directory : ¬ (d.serve env).Makes (exec env rt) S3Call.removesDirectory w

/-- One record has the key, in whatever region and version, and it is in the region. -/
def OnlyRecord (w : World) (region bucket key : Str) : Prop :=
  ∃ k object, w.db.objects.get? k = some object ∧ object.isAt region bucket key ∧
    ∀ k' object', w.db.objects.get? k' = some object' → object'.isKeyed bucket key → k' = k

/-- When the request keeps records and files in step. -/
def Deletion.Sound (env : Env) (rt : Runtime) (w : World) : Deletion → Prop
  | .deleteObject request => w.db.bucketExists request.region request.bucket = false ∨
      w.db.objectExists request.region request.bucket request.key = false ∨
      OnlyRecord w request.region request.bucket request.key
  | .deleteObjects request => w.db.bucketExists request.region request.bucket = false ∨
      ((∀ key ∈ request.keys, OnlyRecord w request.region request.bucket key) ∧
        ¬ (S3.deleteObjects env request).Makes (exec env rt) (S3Call.fails rt) w) ∨
      (∃ key keys, request.keys = key :: keys ∧ w.db.objectExists request.region request.bucket key = false ∧
        w.files.size ≠ 0)

/-! ### What the deletion tells others -/

/-- The rest of the deletion of an object whose data file is gone. -/
def tell (env : Env) (region bucket key : Str) (object : Object) : S3Prog Unit := do
  Prog.when (object.bucket = env.transferBucket) do
    let deleted ← call (.deleteTransferFile object.key)
    .ofExcept deleted
  checkNotifications region bucket key 0 (str "ObjectRemoved")

/-- The part of `DeleteObjects` for one key. -/
def deleteKey (env : Env) (region bucket key : Str) : S3Prog Unit := do
  let object ← call (.getObject region bucket key)
  deleteObjectFiles env object.bucket object.key object.internalName
  checkNotifications region bucket key 0 (str "ObjectRemoved")

variable {env : Env} {rt : Runtime} {w w' : World} {α β : Type}

/-- The calls of this part. -/
def S3Call.Tells : S3Call → Prop
  | .deleteTransferFile .. | .getBucketByRegionName .. | .createRandom | .send .. => True
  | _ => False

theorem tell_only (region bucket key : Str) (object : Object) :
    (tell env region bucket key object).Only S3Call.Tells := by
  refine Prog.only_bind (Prog.only_when fun _ => ?_) fun _ => ?_
  · exact Prog.only_bind (Prog.only_perform trivial) fun _ => Prog.only_ofExcept _
  · exact checkNotifications_only (fun _ _ => trivial) trivial (fun _ _ _ => trivial) _ _ _ _ _

theorem tells_not_removes (c : S3Call) (w : World) (hc : c.Tells) : ¬ c.removesDirectory w := by
  cases c <;> first | exact id | cases hc

/-- A program that throws exactly where another service fails. -/
structure Frank (env : Env) (rt : Runtime) (p : S3Prog α) : Prop where
  throws : ∀ {w x w'}, p.run (exec env rt) w = some (x, w') →
    ((∃ e, x = .error e) ↔ p.Makes (exec env rt) (S3Call.fails rt) w)

theorem frank_pure (a : α) : Frank env rt (pure a) := by
  refine ⟨fun {w x w'} h => ?_⟩
  cases h
  refine iff_of_false ?_ id
  rintro ⟨e, he⟩
  cases he

theorem frank_call {c : S3Call} (hc : ∀ w, ¬ c.fails rt w) : Frank env rt (call c) := by
  refine ⟨fun {w x w'} h => ?_⟩
  rw [Prog.run_perform] at h
  obtain ⟨r, hr, he⟩ := Option.map_eq_some_iff.mp h
  obtain ⟨rfl, -⟩ := Prod.mk.inj he
  refine iff_of_false ?_ ?_
  · rintro ⟨e, he⟩
    cases he
  · rintro (hfails | ⟨_, _, hmakes⟩)
    · exact hc w hfails
    · exact hmakes

theorem frank_bind {p : S3Prog α} {f : α → S3Prog β} (hp : Frank env rt p) (hf : ∀ a, Frank env rt (f a)) :
    Frank env rt (p >>= f) := by
  refine ⟨fun {w x w'} h => ?_⟩
  rw [Prog.run_bind] at h
  rw [Prog.makes_bind]
  rcases hrun : p.run (exec env rt) w with _ | ⟨y, w₁⟩
  · rw [hrun] at h
    cases h
  · rw [hrun] at h
    rcases y with e | a
    · cases h
      exact iff_of_true ⟨e, rfl⟩ (.inl ((hp.throws hrun).mp ⟨e, rfl⟩))
    · have hquiet : ¬ p.Makes (exec env rt) (S3Call.fails rt) w := by
        intro hmakes
        obtain ⟨e, he⟩ := (hp.throws hrun).mpr hmakes
        cases he
      rw [(hf a).throws h, or_iff_right hquiet]
      constructor
      · exact fun hmakes => ⟨a, w₁, rfl, hmakes⟩
      · rintro ⟨a', w₂, he, hmakes⟩
        cases he
        exact hmakes

theorem frank_when {b : Prop} [Decidable b] {p : S3Prog Unit} (hp : Frank env rt p) : Frank env rt (Prog.when b p) := by
  unfold Prog.when
  split
  · exact hp
  · exact frank_pure ()

/-- A call whose reply tells whether it failed. -/
theorem frank_reply (c : S3Call) (error : c.Reply → Except S3Error Unit)
    (hc : ∀ w r, exec env rt c w = some r → ((∃ e, error r.1 = .error e) ↔ c.fails rt w)) :
    Frank env rt (do let x ← call c; .ofExcept (error x)) := by
  refine ⟨fun {w x w'} h => ?_⟩
  rw [Prog.run_perform_bind] at h
  obtain ⟨r, hr, he⟩ := Option.bind_eq_some_iff.mp h
  have hmakes : (do let x ← call c; .ofExcept (error x) : S3Prog Unit).Makes (exec env rt) (S3Call.fails rt) w ↔
      c.fails rt w := by
    refine or_iff_left ?_
    rintro ⟨r', _, hmakes⟩
    change (Prog.ofExcept (error r'.1) : S3Prog Unit).Makes _ _ _ at hmakes
    cases herror : error r'.1 <;> rw [herror] at hmakes <;> exact hmakes
  rw [hmakes, ← hc w r hr]
  cases herror : error r.1 <;> rw [herror] at he <;> cases he <;> simp

theorem frank_send (target : Target) (notification : Notification) (record : EventRecord) :
    Frank env rt (do let sent ← call (.send target notification record); .ofExcept sent) := by
  refine frank_reply (.send target notification record) (fun reply => reply) fun w r hr => ?_
  obtain ⟨v, hv, -⟩ := exec_eq_some.mp hr
  simp only [S3Call.apply] at hv
  split at hv
  · cases hv
  · obtain ⟨hreply, -⟩ := Prod.mk.inj (Option.some.inj hv)
    rw [← hreply]
    exact Iff.rfl

theorem frank_deleteTransferFile (key : Str) :
    Frank env rt (do let deleted ← call (.deleteTransferFile key); .ofExcept deleted) := by
  refine frank_reply (.deleteTransferFile key) (fun reply => reply) fun w r hr => ?_
  obtain ⟨v, hv, -⟩ := exec_eq_some.mp hr
  obtain ⟨hreply, -⟩ := Prod.mk.inj (Option.some.inj hv)
  rw [← hreply]
  exact Iff.rfl

theorem frank_notify (target : Target) (entity : Bucket) (region key : Str) (size : Int) (event : Str) :
    Frank env rt (notify target entity region key size event) := by
  unfold notify
  split
  · exact frank_pure ()
  · exact frank_when (frank_bind (frank_call fun _ => id) fun _ => frank_send ..)

theorem frank_tell (region bucket key : Str) (object : Object) : Frank env rt (tell env region bucket key object) := by
  refine frank_bind (frank_when (frank_deleteTransferFile _)) fun _ => ?_
  refine frank_bind (frank_call fun _ => id) fun entity => ?_
  exact frank_bind (frank_notify ..) fun _ => frank_bind (frank_notify ..) fun _ => frank_notify ..

/-! ### One key -/

/-- The records apart from the keys that lookups write. -/
def World.records (w : World) : OrderedMap Str Object := w.db.objects.mapVal fun _ => Object.bare

/-- The data file of the first record of a key. -/
def World.fileOf (w : World) (region bucket key : Str) : Option Str :=
  (w.db.objects.findIf fun _ object => object.isAt region bucket key).map fun it => it.2.internalName

theorem fileOf_of_records (h : w'.records = w.records) (region bucket key : Str) :
    w'.fileOf region bucket key = w.fileOf region bucket key := by
  have hfind := findIf_of_mapVal_eq (p := fun _ object => object.isAt region bucket key)
    (q := fun _ object => object.isAt region bucket key) h fun _ _ => rfl
  have hname := congrArg (Option.map fun it : Str × Object => it.2.internalName) hfind
  rw [Option.map_map, Option.map_map] at hname
  exact hname

theorem fileOf_isSome (w : World) (region bucket key : Str) :
    (w.fileOf region bucket key).isSome = w.db.objectExists region bucket key := by
  rw [World.fileOf, Option.isSome_map]
  rfl

/-- The records are as before, the data files of the names are gone. -/
structure Left (names : List Str) (w w' : World) : Prop where
  records : w'.records = w.records
  files : ∀ name, w'.files.get? name = if name ∈ names then none else w.files.get? name

theorem left_nil (hrecords : w'.records = w.records) (hfiles : w'.files = w.files) : Left [] w w' where
  records := hrecords
  files name := by rw [hfiles, if_neg List.not_mem_nil]

theorem Left.trans {names names' : List Str} {w'' : World} (h : Left names w w') (h' : Left names' w' w'') :
    Left (names ++ names') w w'' where
  records := h'.records.trans h.records
  files name := by
    rw [h'.files, h.files]
    by_cases hn : name ∈ names <;> by_cases hn' : name ∈ names' <;> simp [hn, hn']

theorem left_of_tells {p : S3Prog α} (hp : p.Only S3Call.Tells) {x : Except S3Error α}
    (h : p.run (exec env rt) w = some (x, w')) : Left [] w w' := by
  have hstep : ∀ (c : S3Call) (v : World) (r : c.Reply × World), c.Tells → Left [] w v →
      exec env rt c v = some r → Left [] w r.2 := by
    intro c v r hc hv hr
    have hobjects : c.touchesObjects = false := by cases c <;> first | rfl | cases hc
    have hfiles : c.touchesFiles = false := by cases c <;> first | rfl | cases hc
    refine hv.trans (left_nil ?_ (files_of_call hfiles hr))
    rw [World.records, objects_eq_of_call hobjects hr]
    rfl
  exact hp.invariant hstep (left_nil rfl rfl) h

variable {region bucket key : Str}

variable (env rt) in
/-- A key with a record: its file goes, and then others are told. -/
theorem deleteKey_present {k : Str} {object : Object}
    (hfind : w.db.objects.findIf (fun _ object => object.isAt region bucket key) = some (k, object))
    (hname : object.internalName ≠ []) :
    ∃ w₁, Left [object.internalName] w w₁ ∧
      (deleteKey env region bucket key).run (exec env rt) w =
        (tell env region bucket key { object with oid := k }).run (exec env rt) w₁ ∧
      ∀ P : S3Call → World → Prop, (∀ v, ¬ P (.getObject region bucket key) v) →
        (∀ v, ¬ P (.deleteFile object.internalName) v) →
        ((deleteKey env region bucket key).Makes (exec env rt) P w ↔
          (tell env region bucket key { object with oid := k }).Makes (exec env rt) P w₁) := by
  let w₀ : World := { w with
    db := (w.db.getObject region bucket key (rt.now w.calls)).2, calls := w.calls + 1 }
  have hget : exec env rt (.getObject region bucket key) w = some ({ object with oid := k }, w₀) := by
    simp [exec, S3Call.apply, w₀, S3MemoryDb.getObject, hfind, S3MemoryDb.fetchObject]
  have hdelete : exec env rt (.deleteFile object.internalName) w₀ = some (.ok (), { w₀ with
      files := w₀.files.eraseIf fun file _ => file = object.internalName, calls := w₀.calls + 1 }) := by
    simp [exec, S3Call.apply, World.deleteFile, hname]
  refine ⟨{ w₀ with files := w₀.files.eraseIf fun file _ => file = object.internalName, calls := w₀.calls + 1 },
    ⟨?_, fun name => ?_⟩, ?_, fun P hP hP' => ?_⟩
  · exact fetchObject_bare w.db (rt.now w.calls) _
  · simp only [List.mem_singleton]
    exact get?_eraseIf_key ..
  · rw [deleteKey, Prog.run_perform_bind_some hget]
    exact Prog.run_perform_bind_some hdelete
  · refine (Prog.makes_perform_bind (hP w) hget).trans ?_
    exact Prog.makes_perform_bind (hP' w₀) hdelete

variable (env rt) in
/-- A key without a record, while there are data files: the directory cannot be removed. -/
theorem deleteKey_missing (hfind : w.db.objects.findIf (fun _ object => object.isAt region bucket key) = none)
    (hfiles : w.files.size ≠ 0) :
    (∃ e w₁, Left [] w w₁ ∧ (deleteKey env region bucket key).run (exec env rt) w = some (.error e, w₁)) ∧
      ¬ (deleteKey env region bucket key).Makes (exec env rt) S3Call.removesDirectory w := by
  let w₀ : World := { w with calls := w.calls + 1 }
  have hget : exec env rt (.getObject region bucket key) w =
      some ({ created := rt.now w.calls, modified := rt.now w.calls }, w₀) := by
    simp [exec, S3Call.apply, w₀, S3MemoryDb.getObject, hfind, S3MemoryDb.fetchObject]
  have hdelete : exec env rt (.deleteFile []) w₀ =
      some (.error (.pocoException (World.path env [])), { w₀ with calls := w₀.calls + 1 }) := by
    simp [exec, S3Call.apply, World.deleteFile, w₀, hfiles]
  refine ⟨⟨.pocoException (World.path env []), { w₀ with calls := w₀.calls + 1 }, left_nil rfl rfl, ?_⟩, ?_⟩
  · rw [deleteKey, Prog.run_perform_bind_some hget]
    exact Prog.run_perform_bind_some hdelete
  · rw [deleteKey, Prog.makes_perform_bind id hget]
    rintro (⟨-, hsize⟩ | ⟨r, hr, hmakes⟩)
    · exact hfiles hsize
    · rw [hdelete] at hr
      obtain rfl := Option.some.inj hr
      exact hmakes

variable (env rt) in
/-- Without data files it is removed. -/
theorem deleteKey_removes (hfind : w.db.objects.findIf (fun _ object => object.isAt region bucket key) = none)
    (hfiles : w.files.size = 0) :
    (∃ w₁ object, Left [] w w₁ ∧ (deleteKey env region bucket key).run (exec env rt) w =
      (tell env region bucket key object).run (exec env rt) w₁) ∧
    (deleteKey env region bucket key).Makes (exec env rt) S3Call.removesDirectory w := by
  let w₀ : World := { w with calls := w.calls + 1 }
  let object : Object := { created := rt.now w.calls, modified := rt.now w.calls }
  have hget : exec env rt (.getObject region bucket key) w = some (object, w₀) := by
    simp [exec, S3Call.apply, w₀, object, S3MemoryDb.getObject, hfind, S3MemoryDb.fetchObject]
  have hdelete : exec env rt (.deleteFile []) w₀ = some (.ok (), { w₀ with calls := w₀.calls + 1 }) := by
    simp [exec, S3Call.apply, World.deleteFile, w₀, hfiles]
  refine ⟨⟨{ w₀ with calls := w₀.calls + 1 }, object, left_nil rfl rfl, ?_⟩, ?_⟩
  · rw [deleteKey, Prog.run_perform_bind_some hget]
    exact Prog.run_perform_bind_some hdelete
  · rw [deleteKey, Prog.makes_perform_bind id hget]
    exact .inl ⟨rfl, hfiles⟩

/-- The first record of every key has a file name. -/
def World.Named (w : World) : Prop := ∀ region bucket key name, w.fileOf region bucket key = some name → name ≠ []

theorem named_of_records (h : w'.records = w.records) (hw : w.Named) : w'.Named := by
  intro region bucket key name hname
  rw [fileOf_of_records h] at hname
  exact hw region bucket key name hname

theorem OwnFiles.toNamed (h : OwnFiles w) : w.Named := by
  intro region bucket key name hname
  obtain ⟨it, hit, rfl⟩ := Option.map_eq_some_iff.mp hname
  exact h.named (findIf_some hit).1

/-- In each case the records stay, and the file of the first record goes. -/
theorem deleteKey_left (hnamed : w.Named) {x : Except S3Error Unit}
    (h : (deleteKey env region bucket key).run (exec env rt) w = some (x, w')) :
    Left (w.fileOf region bucket key).toList w w' := by
  rw [World.fileOf]
  rcases hfind : w.db.objects.findIf (fun _ object => object.isAt region bucket key) with _ | ⟨k, object⟩
  · by_cases hfiles : w.files.size = 0
    · obtain ⟨⟨w₁, object, hleft, hrun⟩, _⟩ := deleteKey_removes env rt hfind hfiles
      rw [hrun] at h
      exact hleft.trans (left_of_tells (tell_only ..) h)
    · obtain ⟨⟨e, w₁, hleft, hrun⟩, _⟩ := deleteKey_missing env rt hfind hfiles
      rw [hrun] at h
      cases h
      exact hleft
  · have hname : object.internalName ≠ [] := hnamed region bucket key _ (by rw [World.fileOf, hfind]; rfl)
    obtain ⟨w₁, hleft, hrun, _⟩ := deleteKey_present env rt hfind hname
    rw [hrun] at h
    exact hleft.trans (left_of_tells (tell_only ..) h)

/-! ### The loop -/

/-- The loop of `DeleteObjects`. -/
def deleteKeys (env : Env) (region bucket : Str) (keys : List Str) : S3Prog Unit :=
  Prog.forEach keys (deleteKey env region bucket)

/-- Some first keys are done: all of them without an exception, and one at least if the first has a record. -/
theorem deleteKeys_left : ∀ {keys : List Str} {w : World} {x : Except S3Error Unit}, w.Named →
    (deleteKeys env region bucket keys).run (exec env rt) w = some (x, w') →
    ∃ done, Left (done.filterMap (w.fileOf region bucket)) w w' ∧ (x = .ok () → done = keys) ∧
      ∀ key rest, keys = key :: rest → ∃ rest', done = key :: rest'
  | [], w, x, _, h => by
    cases h
    exact ⟨[], left_nil rfl rfl, fun _ => rfl, fun key rest h => by cases h⟩
  | key :: keys, w, x, hnamed, h => by
    rw [deleteKeys, Prog.forEach, Prog.run_bind] at h
    rcases hrun : (deleteKey env region bucket key).run (exec env rt) w with _ | ⟨y, w₁⟩
    · rw [hrun] at h
      cases h
    · rw [hrun] at h
      have hleft := deleteKey_left hnamed hrun
      rcases y with e | ⟨⟩
      · cases h
        refine ⟨[key], ?_, fun h => (by cases h), fun key' rest h => ⟨[], by cases h; rfl⟩⟩
        simp only [List.filterMap_cons, List.filterMap_nil]
        cases hfile : w.fileOf region bucket key <;> rw [hfile] at hleft <;> exact hleft
      · obtain ⟨done, hdone, hok, _⟩ := deleteKeys_left (named_of_records hleft.records hnamed) h
        refine ⟨key :: done, ?_, fun hx => by rw [hok hx], fun key' rest h => ⟨done, by cases h; rfl⟩⟩
        have htrans := hleft.trans hdone
        have hfiles : w₁.fileOf region bucket = w.fileOf region bucket :=
          funext fun key => fileOf_of_records hleft.records region bucket key
        rw [hfiles] at htrans
        simp only [List.filterMap_cons]
        cases hfile : w.fileOf region bucket key <;> rw [hfile] at htrans <;> exact htrans

/-- With a record for each key, the directory stays, and only another service makes the loop throw. -/
theorem deleteKeys_present : ∀ {keys : List Str} {w : World}, w.Named →
    (∀ key ∈ keys, (w.fileOf region bucket key).isSome) →
    ¬ (deleteKeys env region bucket keys).Makes (exec env rt) S3Call.removesDirectory w ∧
      ∀ {x w'}, (deleteKeys env region bucket keys).run (exec env rt) w = some (x, w') →
        ((∃ e, x = .error e) ↔ (deleteKeys env region bucket keys).Makes (exec env rt) (S3Call.fails rt) w)
  | [], w, _, _ => ⟨id, (frank_pure ()).throws⟩
  | key :: keys, w, hnamed, hpresent => by
    obtain ⟨name, hfile⟩ := Option.isSome_iff_exists.mp (hpresent key (by simp))
    obtain ⟨⟨k, object⟩, hfind, rfl⟩ := Option.map_eq_some_iff.mp hfile
    have hne : object.internalName ≠ [] := hnamed region bucket key _ hfile
    obtain ⟨w₁, hleft, hrun, hmakes⟩ := deleteKey_present env rt hfind hne
    have hstays : ¬ (deleteKey env region bucket key).Makes (exec env rt) S3Call.removesDirectory w := by
      rw [hmakes _ (fun _ => id) fun v hv => hne hv.1]
      exact (tell_only ..).not_makes tells_not_removes
    have hthrows : ∀ {x w'}, (deleteKey env region bucket key).run (exec env rt) w = some (x, w') →
        ((∃ e, x = .error e) ↔ (deleteKey env region bucket key).Makes (exec env rt) (S3Call.fails rt) w) := by
      intro x w' h
      rw [hmakes _ (fun _ => id) fun _ => id]
      rw [hrun] at h
      exact (frank_tell ..).throws h
    have hrest : ∀ {w₂}, (deleteKey env region bucket key).run (exec env rt) w = some (.ok (), w₂) →
        w₂.Named ∧ ∀ key ∈ keys, (w₂.fileOf region bucket key).isSome := by
      intro w₂ h
      have hrecords := (deleteKey_left hnamed h).records
      refine ⟨named_of_records hrecords hnamed, fun key' hkey' => ?_⟩
      rw [fileOf_of_records hrecords]
      exact hpresent key' (List.mem_cons_of_mem _ hkey')
    constructor
    · rw [deleteKeys, Prog.forEach, Prog.makes_bind]
      rintro (h | ⟨_, w₂, h, hmakes₂⟩)
      · exact hstays h
      · exact (deleteKeys_present (hrest h).1 (hrest h).2).1 hmakes₂
    · intro x w' h
      rw [deleteKeys, Prog.forEach, Prog.run_bind] at h
      rw [deleteKeys, Prog.forEach, Prog.makes_bind]
      rcases hfirst : (deleteKey env region bucket key).run (exec env rt) w with _ | ⟨y, w₂⟩
      · rw [hfirst] at h
        cases h
      · rw [hfirst] at h
        rcases y with e | ⟨⟩
        · cases h
          exact iff_of_true ⟨e, rfl⟩ (.inl ((hthrows hfirst).mp ⟨e, rfl⟩))
        · have hquiet : ¬ (deleteKey env region bucket key).Makes (exec env rt) (S3Call.fails rt) w := by
            intro hfails
            obtain ⟨e, he⟩ := (hthrows hfirst).mpr hfails
            cases he
          rw [(deleteKeys_present (hrest hfirst).1 (hrest hfirst).2).2 h, or_iff_right hquiet]
          constructor
          · exact fun hfails => ⟨(), w₂, rfl, hfails⟩
          · rintro ⟨_, w₃, he, hfails⟩
            cases he
            exact hfails

/-- A loop that ends without an exception, and without removing the directory, has a record for each key. -/
theorem present_of_deleteKeys : ∀ {keys : List Str} {w w' : World}, w.Named →
    (deleteKeys env region bucket keys).run (exec env rt) w = some (.ok (), w') →
    ¬ (deleteKeys env region bucket keys).Makes (exec env rt) S3Call.removesDirectory w →
    ∀ key ∈ keys, (w.fileOf region bucket key).isSome
  | [], _, _, _, _, _ => fun key hkey => absurd hkey List.not_mem_nil
  | key :: keys, w, w', hnamed, h, hstays => by
    rw [deleteKeys, Prog.forEach, Prog.run_bind_eq_ok] at h
    rw [deleteKeys, Prog.forEach, Prog.makes_bind, not_or] at hstays
    obtain ⟨_, w₁, hfirst, hrest⟩ := h
    have hrecords := (deleteKey_left hnamed hfirst).records
    have htail := present_of_deleteKeys (named_of_records hrecords hnamed) hrest
      fun hmakes => hstays.2 ⟨(), w₁, hfirst, hmakes⟩
    intro key' hkey'
    rcases List.mem_cons.mp hkey' with rfl | hkey'
    · rw [World.fileOf, Option.isSome_map]
      by_contra hmissing
      rw [Option.not_isSome_iff_eq_none] at hmissing
      by_cases hfiles : w.files.size = 0
      · exact hstays.1 (deleteKey_removes env rt hmissing hfiles).2
      · obtain ⟨⟨e, w₂, _, hrun⟩, _⟩ := deleteKey_missing env rt hmissing hfiles
        rw [hrun] at hfirst
        cases hfirst
    · rw [← fileOf_of_records hrecords]
      exact htail key' hkey'

variable (env rt) in
/-- A first key without a record ends the loop at once, while there are data files. -/
theorem deleteKeys_missing (keys : List Str) (hmissing : w.db.objectExists region bucket key = false)
    (hfiles : w.files.size ≠ 0) :
    (∃ e w₁, Left [] w w₁ ∧ (deleteKeys env region bucket (key :: keys)).run (exec env rt) w = some (.error e, w₁)) ∧
      ¬ (deleteKeys env region bucket (key :: keys)).Makes (exec env rt) S3Call.removesDirectory w := by
  have hfind : w.db.objects.findIf (fun _ object => object.isAt region bucket key) = none :=
    Option.isSome_eq_false_iff.mp hmissing |> Option.isNone_iff_eq_none.mp
  obtain ⟨⟨e, w₁, hleft, hrun⟩, hstays⟩ := deleteKey_missing env rt hfind hfiles
  refine ⟨⟨e, w₁, hleft, ?_⟩, ?_⟩
  · rw [deleteKeys, Prog.forEach, Prog.run_bind, hrun]
    rfl
  · rw [deleteKeys, Prog.forEach, Prog.makes_bind]
    rintro (hmakes | ⟨_, w₂, h, _⟩)
    · exact hstays hmakes
    · rw [hrun] at h
      cases h

/-! ### Requests -/

theorem get?_of_records (h : w'.records = w.records) (k : Str) :
    (w'.db.objects.get? k).map Object.bare = (w.db.objects.get? k).map Object.bare := by
  have hget := congrArg (fun m : OrderedMap Str Object => m.get? k) h
  simpa only [World.records, get?_mapVal] using hget

theorem internalName_of_bare {object object' : Object} (h : object.bare = object'.bare) :
    object.internalName = object'.internalName := by
  change object.bare.internalName = object'.bare.internalName
  rw [h]

/-- Nothing changes. -/
theorem inStep_unchanged {d : Deletion} (hown : OwnFiles w) (h : Left [] w w')
    (hdirectory : ¬ (d.serve env).Makes (exec env rt) S3Call.removesDirectory w) : InStep env rt d w w' where
  kept {k object'} hget' := by
    have hrecord := get?_of_records h.records k
    rw [hget', Option.map_some] at hrecord
    obtain ⟨object, hget, hbare⟩ := Option.map_eq_some_iff.mp hrecord.symm
    rw [h.files, if_neg List.not_mem_nil, ← internalName_of_bare hbare]
    exact hown.file hget
  gone {k object} hget hnone := by
    have hrecord := get?_of_records h.records k
    rw [hget, hnone] at hrecord
    cases hrecord
  others {k object} hget _ := by
    rw [get?_of_records h.records, hget]
    rfl
  otherFiles _ := by rw [h.files, if_neg List.not_mem_nil]
  directory := hdirectory

section Erased

variable {d : Deletion} (hown : OwnFiles w)
  (hpresent : ∀ key ∈ d.keys, (w.fileOf d.region d.bucket key).isSome)
  (hrecords : ∀ k, (w'.db.objects.get? k).map Object.bare = ((w.db.objects.get? k).map Object.bare).filter
    fun object => !decide (object.bucket = d.bucket ∧ object.key ∈ d.keys))
  (hfiles : ∀ name, w'.files.get? name =
    if name ∈ d.keys.filterMap (w.fileOf d.region d.bucket) then none else w.files.get? name)

/-- The files deleted are those of the first records. -/
theorem mem_files {name : Str} : name ∈ d.keys.filterMap (w.fileOf d.region d.bucket) ↔
    ∃ key ∈ d.keys, ∃ k object, w.db.objects.findIf (fun _ object => object.isAt d.region d.bucket key) =
      some (k, object) ∧ object.internalName = name := by
  simp [World.fileOf, List.mem_filterMap]

include hrecords in
/-- A record is left as it was, or it is one of the keys. -/
theorem erased_cases {k : Str} {object : Object} (hget : w.db.objects.get? k = some object) :
    (w'.db.objects.get? k = none ∧ object.bucket = d.bucket ∧ object.key ∈ d.keys) ∨
      ((w'.db.objects.get? k).map Object.bare = some object.bare ∧
        ¬ (object.bucket = d.bucket ∧ object.key ∈ d.keys)) := by
  have hrecord := hrecords k
  rw [hget] at hrecord
  by_cases hkeyed : object.bucket = d.bucket ∧ object.key ∈ d.keys
  · refine .inl ⟨?_, hkeyed⟩
    simpa [Option.filter, Object.bare, hkeyed] using hrecord
  · refine .inr ⟨?_, hkeyed⟩
    rw [hrecord]
    exact Option.filter_eq_some_iff.mpr ⟨rfl, by rw [Bool.not_eq_true', decide_eq_false_iff_not]; exact hkeyed⟩

include hown hpresent hrecords hfiles in
/-- Where the records of the keys are erased and the files of their first records: no record is left over in the
    region, and none is erased in another. -/
theorem inStep_erased (hdirectory : ¬ (d.serve env).Makes (exec env rt) S3Call.removesDirectory w) :
    InStep env rt d w w' ↔ ∀ key ∈ d.keys, OnlyRecord w d.region d.bucket key := by
  constructor
  · intro h key hkey
    obtain ⟨name, hname⟩ := Option.isSome_iff_exists.mp (hpresent key hkey)
    obtain ⟨⟨k, object⟩, hfind, _⟩ := Option.map_eq_some_iff.mp hname
    refine ⟨k, object, (findIf_some hfind).1, (findIf_some hfind).2, fun k' object' hget' hkeyed => ?_⟩
    obtain ⟨hbucket', hkey'⟩ := of_decide_eq_true hkeyed
    rcases erased_cases hrecords hget' with ⟨hnone, _⟩ | ⟨_, hleft⟩
    · have hgone := h.gone hget' hnone
      rw [hfiles] at hgone
      split at hgone
      · next hmem =>
        obtain ⟨key₁, hkey₁, k₁, object₁, hfind₁, hname₁⟩ := mem_files.mp hmem
        obtain ⟨hget₁, hat₁⟩ := findIf_some hfind₁
        have hk : k' = k₁ := hown.own hget' hget₁ hname₁.symm
        subst hk
        obtain rfl := Option.some.inj (hget'.symm.trans hget₁)
        have hkeys : key₁ = key := (of_decide_eq_true hat₁).2.2.symm.trans hkey'
        subst hkeys
        exact congrArg Prod.fst (Option.some.inj (hfind₁.symm.trans hfind))
      · have hfile := hown.file hget'
        rw [hgone] at hfile
        cases hfile
    · exact absurd ⟨hbucket', hkey' ▸ hkey⟩ hleft
  · intro honly
    have hasked : ∀ {k object}, w.db.objects.get? k = some object → object.bucket = d.bucket ∧ object.key ∈ d.keys →
        d.asks object = true ∧ object.internalName ∈ d.keys.filterMap (w.fileOf d.region d.bucket) := by
      rintro k object hget ⟨hbucket, hkey⟩
      obtain ⟨k₁, object₁, hget₁, hat₁, hall⟩ := honly object.key hkey
      obtain rfl := hall k object hget (decide_eq_true ⟨hbucket, rfl⟩)
      obtain rfl := Option.some.inj (hget.symm.trans hget₁)
      refine ⟨List.any_eq_true.mpr ⟨object.key, hkey, hat₁⟩, mem_files.mpr ⟨object.key, hkey, k, object, ?_, rfl⟩⟩
      refine findIf_unique hget hat₁ fun k' object' hget' hat' => hall k' object' hget' (decide_eq_true ?_)
      obtain ⟨_, hbucket', hkey'⟩ := of_decide_eq_true hat'
      exact ⟨hbucket', hkey'⟩
    have hfirst : ∀ {name}, name ∈ d.keys.filterMap (w.fileOf d.region d.bucket) → ∃ k object,
        w.db.objects.get? k = some object ∧ d.asks object = true ∧ object.internalName = name ∧
          object.bucket = d.bucket ∧ object.key ∈ d.keys := by
      intro name hmem
      obtain ⟨key, hkey, k, object, hfind, hname⟩ := mem_files.mp hmem
      obtain ⟨hget, hat⟩ := findIf_some hfind
      obtain ⟨_, hbucket, hkey'⟩ := of_decide_eq_true hat
      exact ⟨k, object, hget, List.any_eq_true.mpr ⟨key, hkey, hat⟩, hname, hbucket, hkey' ▸ hkey⟩
    constructor
    · intro k object' hget'
      have hrecord := hrecords k
      rw [hget', Option.map_some] at hrecord
      obtain ⟨hmap, hleft⟩ := Option.filter_eq_some_iff.mp hrecord.symm
      obtain ⟨object, hget, hbare⟩ := Option.map_eq_some_iff.mp hmap
      rw [hfiles, if_neg, ← internalName_of_bare hbare]
      · exact hown.file hget
      · intro hmem
        obtain ⟨k₁, object₁, hget₁, _, hname₁, hkeyed₁⟩ := hfirst hmem
        have hk : k = k₁ := hown.own hget hget₁ ((internalName_of_bare hbare).trans hname₁.symm)
        subst hk
        obtain rfl := Option.some.inj (hget.symm.trans hget₁)
        rcases erased_cases hrecords hget with ⟨hnone, _⟩ | ⟨_, hstays⟩
        · rw [hnone] at hget'
          cases hget'
        · exact hstays hkeyed₁
    · intro k object hget hnone
      rcases erased_cases hrecords hget with ⟨_, hkeyed⟩ | ⟨hsome, _⟩
      · rw [hfiles, if_pos (hasked hget hkeyed).2]
      · rw [hnone] at hsome
        cases hsome
    · intro k object hget hasks
      rcases erased_cases hrecords hget with ⟨_, hkeyed⟩ | ⟨hsome, _⟩
      · rw [(hasked hget hkeyed).1] at hasks
        cases hasks
      · exact hsome
    · intro name hother
      rw [hfiles, if_neg]
      intro hmem
      obtain ⟨k, object, hget, hasks, hname, _⟩ := hfirst hmem
      exact hother k object hget hasks hname
    · exact hdirectory

end Erased

/-- The world after a call that only asks. -/
def World.called (w : World) (n : Nat) : World := { w with calls := w.calls + n }

theorem left_called (w : World) (n : Nat) : Left [] w (w.called n) := left_nil rfl rfl

theorem objectExists_iff : w.db.objectExists region bucket key = true ↔ ∃ k object,
    w.db.objects.findIf (fun _ object => object.isAt region bucket key) = some (k, object) := by
  rw [S3MemoryDb.objectExists, Option.isSome_iff_exists]
  simp

/-- A key with one record has a record. -/
theorem OnlyRecord.isSome (h : OnlyRecord w region bucket key) : (w.fileOf region bucket key).isSome := by
  obtain ⟨k, object, hget, hat, _⟩ := h
  rw [World.fileOf, Option.isSome_map, findIf_isSome]
  exact ⟨k, object, hget, hat⟩

/-- A bucket that is missing. -/
theorem serve_missing (env : Env) (rt : Runtime) (d : Deletion) (h : w.db.bucketExists d.region d.bucket = false) :
    (∃ e, (d.serve env).run (exec env rt) w = some (.error e, w.called 1)) ∧
      ¬ (d.serve env).Makes (exec env rt) S3Call.removesDirectory w := by
  cases d with
  | deleteObject request =>
    have hcall : exec env rt (.bucketExists request.region request.bucket) w = some (false, w.called 1) := by
      rw [← show w.db.bucketExists request.region request.bucket = false from h]
      rfl
    refine ⟨⟨.notFoundException (str "Bucket does not exist, bucket: " ++ request.bucket), ?_⟩, ?_⟩
    · exact Prog.run_perform_bind_some hcall
    · exact fun hmakes => (Prog.makes_perform_bind id hcall).mp hmakes
  | deleteObjects request =>
    have hcall : exec env rt (.bucketExists request.region request.bucket) w = some (false, w.called 1) := by
      rw [← show w.db.bucketExists request.region request.bucket = false from h]
      rfl
    refine ⟨⟨bucketDoesNotExist, ?_⟩, ?_⟩
    · exact Prog.run_perform_bind_some hcall
    · exact fun hmakes => (Prog.makes_perform_bind id hcall).mp hmakes

/-- The records of a key are erased, whatever their regions and versions. -/
theorem records_deleteObject (h : w'.records = w.records) (k : Str) :
    ((w'.db.deleteObject bucket key).objects.get? k).map Object.bare = ((w.db.objects.get? k).map Object.bare).filter
      fun object => !decide (object.bucket = bucket ∧ object.key ∈ [key]) := by
  rw [← get?_of_records h, S3MemoryDb.deleteObject, get?_eraseIf]
  cases hget : w'.db.objects.get? k with
  | none => rfl
  | some object =>
    by_cases hkeyed : object.bucket = bucket ∧ object.key = key <;>
      simp [Option.filter, Object.isKeyed, Object.bare, hkeyed]

section DeleteObject

variable {request : DeleteObjectRequest}

theorem deleteObject_absent (env : Env) (rt : Runtime)
    (hbucket : w.db.bucketExists request.region request.bucket = true)
    (habsent : w.db.objectExists request.region request.bucket request.key = false) :
    (deleteObject env request).run (exec env rt) w = some (.ok (), w.called 2) ∧
      ¬ (deleteObject env request).Makes (exec env rt) S3Call.removesDirectory w := by
  have hcall : exec env rt (.bucketExists request.region request.bucket) w = some (true, w.called 1) := by
    rw [← hbucket]
    rfl
  have hexists : exec env rt (.objectExists request.region request.bucket request.key) (w.called 1) =
      some (false, w.called 2) := by
    rw [← habsent]
    rfl
  constructor
  · exact (Prog.run_perform_bind_some hcall).trans (Prog.run_perform_bind_some hexists)
  · exact fun hmakes => (Prog.makes_perform_bind id hexists).mp ((Prog.makes_perform_bind id hcall).mp hmakes)

/-- The records are erased, the file of the first one is deleted, and others are told. -/
theorem deleteObject_found (env : Env) (rt : Runtime)
    (hbucket : w.db.bucketExists request.region request.bucket = true) {k : Str} {object : Object} (hfind : w.db.objects.findIf (fun _ object =>
      object.isAt request.region request.bucket request.key) = some (k, object))
    (hname : object.internalName ≠ []) :
    ∃ w₁, (∀ k, (w₁.db.objects.get? k).map Object.bare = ((w.db.objects.get? k).map Object.bare).filter
        fun object => !decide (object.bucket = request.bucket ∧ object.key ∈ [request.key])) ∧
      (∀ name, w₁.files.get? name = if name ∈ [object.internalName] then none else w.files.get? name) ∧
      (deleteObject env request).run (exec env rt) w = (guarded (tell env request.region request.bucket request.key
        { object with oid := k })).run (exec env rt) w₁ ∧
      ¬ (deleteObject env request).Makes (exec env rt) S3Call.removesDirectory w := by
  obtain ⟨_, hobucket, hokey⟩ := of_decide_eq_true (findIf_some hfind).2
  have hcall : exec env rt (.bucketExists request.region request.bucket) w = some (true, w.called 1) := by
    rw [← hbucket]
    rfl
  have hexists : exec env rt (.objectExists request.region request.bucket request.key) (w.called 1) =
      some (true, w.called 2) := by
    rw [← objectExists_iff.mpr ⟨k, object, hfind⟩]
    rfl
  let w₀ : World := { w with
    db := (w.db.getObject request.region request.bucket request.key (rt.now (w.calls + 2))).2, calls := w.calls + 3 }
  have hget : exec env rt (.getObject request.region request.bucket request.key) (w.called 2) =
      some ({ object with oid := k }, w₀) := by
    simp [exec, S3Call.apply, w₀, World.called, S3MemoryDb.getObject, hfind, S3MemoryDb.fetchObject]
  let w₁ : World := { w₀ with db := w₀.db.deleteObject request.bucket request.key, calls := w₀.calls + 1 }
  have herase : exec env rt (.deleteObject object.bucket object.key) w₀ = some ((), w₁) := by
    rw [hobucket, hokey]
    rfl
  have hdelete : exec env rt (.deleteFile object.internalName) w₁ = some (.ok (), { w₁ with
      files := w₁.files.eraseIf fun file _ => file = object.internalName, calls := w₁.calls + 1 }) := by
    simp [exec, S3Call.apply, World.deleteFile, hname]
  refine ⟨{ w₁ with files := w₁.files.eraseIf fun file _ => file = object.internalName, calls := w₁.calls + 1 },
    fun j => ?_, fun name => ?_, ?_, ?_⟩
  · exact records_deleteObject (show w₀.records = w.records from fetchObject_bare w.db (rt.now (w.calls + 2)) _) j
  · simp only [List.mem_singleton]
    exact get?_eraseIf_key ..
  · refine (Prog.run_perform_bind_some hcall).trans ((Prog.run_perform_bind_some hexists).trans ?_)
    rw [if_pos rfl, guarded, guarded, Prog.run_mapThrow, Prog.run_mapThrow, Prog.run_perform_bind_some hget]
    exact congrArg _ ((Prog.run_perform_bind_some herase).trans (Prog.run_perform_bind_some hdelete))
  · intro hmakes
    have htail := (Prog.makes_perform_bind id hexists).mp ((Prog.makes_perform_bind id hcall).mp hmakes)
    rw [if_pos rfl, guarded, Prog.makes_mapThrow, Prog.makes_perform_bind id hget] at htail
    have htold := (Prog.makes_perform_bind (fun h => hname h.1) hdelete).mp
      ((Prog.makes_perform_bind id herase).mp htail)
    exact (tell_only request.region request.bucket request.key { object with oid := k }).not_makes
      tells_not_removes htold

end DeleteObject

section DeleteObjects

variable {request : DeleteObjectsRequest}

variable (env rt) in
/-- The loop, and then the records. -/
theorem deleteObjects_loop (hbucket : w.db.bucketExists request.region request.bucket = true) :
    (deleteObjects env request).run (exec env rt) w = (guarded (do
      deleteKeys env request.region request.bucket request.keys
      call (.deleteObjects request.bucket request.keys))).run (exec env rt) (w.called 1) ∧
    ∀ P : S3Call → World → Prop, (∀ c, c = .bucketExists request.region request.bucket ∨
        c = .deleteObjects request.bucket request.keys → ∀ v, ¬ P c v) →
      ((deleteObjects env request).Makes (exec env rt) P w ↔
        (deleteKeys env request.region request.bucket request.keys).Makes (exec env rt) P (w.called 1)) := by
  have hcall : exec env rt (.bucketExists request.region request.bucket) w = some (true, w.called 1) := by
    rw [← hbucket]
    rfl
  refine ⟨Prog.run_perform_bind_some hcall, fun P hP => ?_⟩
  refine (Prog.makes_perform_bind (hP _ (.inl rfl) w) hcall).trans ?_
  rw [if_pos rfl, guarded, Prog.makes_mapThrow]
  refine Prog.makes_bind.trans (or_iff_left ?_)
  rintro ⟨_, v, _, hmakes | ⟨_, _, hmakes⟩⟩
  · exact hP _ (.inr rfl) v hmakes
  · exact hmakes

/-- The records of the keys are erased. -/
theorem records_deleteObjects (h : w'.records = w.records) (keys : List Str) (k : Str) :
    ((w'.db.deleteObjects bucket keys).objects.get? k).map Object.bare = ((w.db.objects.get? k).map Object.bare).filter
      fun object => !decide (object.bucket = bucket ∧ object.key ∈ keys) := by
  rw [← get?_of_records h, S3MemoryDb.deleteObjects_eq, get?_eraseIf]
  cases hget : w'.db.objects.get? k with
  | none => rfl
  | some object =>
    by_cases hkeyed : object.bucket = bucket ∧ object.key ∈ keys <;>
      simp [Option.filter, Object.bare, hkeyed]

variable (env rt) in
/-- The calls around the loop do not matter. -/
theorem makes_loop (hbucket : w.db.bucketExists request.region request.bucket = true) :
    ((deleteObjects env request).Makes (exec env rt) S3Call.removesDirectory w ↔
      (deleteKeys env request.region request.bucket request.keys).Makes (exec env rt) S3Call.removesDirectory
        (w.called 1)) ∧
    ((deleteObjects env request).Makes (exec env rt) (S3Call.fails rt) w ↔
      (deleteKeys env request.region request.bucket request.keys).Makes (exec env rt) (S3Call.fails rt)
        (w.called 1)) := by
  obtain ⟨_, hmakes⟩ := deleteObjects_loop env rt hbucket
  refine ⟨hmakes _ ?_, hmakes _ ?_⟩
  · rintro c (rfl | rfl) v <;> exact id
  · rintro c (rfl | rfl) v <;> exact id

/-- After the loop ended, records and files are in step if each key has one record. -/
theorem deleteObjects_ended (hown : OwnFiles w)
    (hbucket : w.db.bucketExists request.region request.bucket = true) {w₁ : World}
    (hloop : (deleteKeys env request.region request.bucket request.keys).run (exec env rt) (w.called 1) =
      some (.ok (), w₁)) (hfiles : w'.files = w₁.files)
    (hrecords : w'.db = w₁.db.deleteObjects request.bucket request.keys) :
    InStep env rt (.deleteObjects request) w w' ↔ Deletion.Sound env rt w (.deleteObjects request) := by
  have hnamed : (w.called 1).Named := hown.toNamed
  obtain ⟨hremoves, hfails⟩ := makes_loop env rt hbucket
  have hends : ∀ key keys, request.keys = key :: keys →
      w.db.objectExists request.region request.bucket key = false → w.files.size = 0 := by
    intro key keys hkeys hmissing
    by_contra hsize
    obtain ⟨⟨e, w₂, _, hrun⟩, _⟩ := deleteKeys_missing env rt (w := w.called 1) keys hmissing hsize
    rw [hkeys, hrun] at hloop
    cases hloop
  by_cases hstays : (deleteKeys env request.region request.bucket request.keys).Makes (exec env rt)
      S3Call.removesDirectory (w.called 1)
  · refine iff_of_false (fun h => h.directory (hremoves.mpr hstays)) ?_
    rintro (hmissing | ⟨honly, _⟩ | ⟨key, keys, hkeys, hmissing, hsize⟩)
    · rw [hbucket] at hmissing
      cases hmissing
    · exact (deleteKeys_present hnamed fun key hkey => (honly key hkey).isSome).1 hstays
    · exact hsize (hends key keys hkeys hmissing)
  · have hpresent := present_of_deleteKeys hnamed hloop hstays
    obtain ⟨done, hleft, hdone, _⟩ := deleteKeys_left hnamed hloop
    rw [hdone rfl] at hleft
    have hthrows := (deleteKeys_present hnamed hpresent).2 hloop
    have honly : InStep env rt (.deleteObjects request) w w' ↔
        ∀ key ∈ request.keys, OnlyRecord w request.region request.bucket key :=
      inStep_erased hown hpresent (fun k => by rw [hrecords]; exact records_deleteObjects hleft.records request.keys k)
        (fun name => by rw [hfiles]; exact hleft.files name) fun hmakes => hstays (hremoves.mp hmakes)
    rw [honly]
    constructor
    · intro h
      refine .inr (.inl ⟨h, fun hmakes => ?_⟩)
      obtain ⟨e, he⟩ := hthrows.mpr (hfails.mp hmakes)
      cases he
    · rintro (hmissing | ⟨h, _⟩ | ⟨key, keys, hkeys, hmissing, _⟩)
      · rw [hbucket] at hmissing
        cases hmissing
      · exact h
      · have hsome := hpresent key (by rw [hkeys]; simp)
        rw [fileOf_isSome] at hsome
        exact absurd hsome (by rw [show (w.called 1).db = w.db from rfl, hmissing]; simp)

/-- A loop that throws has deleted a file whose record stays, unless the first key has no record. -/
theorem deleteObjects_thrown (hown : OwnFiles w)
    (hbucket : w.db.bucketExists request.region request.bucket = true) {e : S3Error}
    (hloop : (deleteKeys env request.region request.bucket request.keys).run (exec env rt) (w.called 1) =
      some (.error e, w')) :
    InStep env rt (.deleteObjects request) w w' ↔ Deletion.Sound env rt w (.deleteObjects request) := by
  have hnamed : (w.called 1).Named := hown.toNamed
  obtain ⟨hremoves, hfails⟩ := makes_loop env rt hbucket
  constructor
  · intro h
    obtain ⟨done, hleft, _, hfirst⟩ := deleteKeys_left hnamed hloop
    rcases hkeys : request.keys with _ | ⟨key, keys⟩
    · rw [hkeys] at hloop
      cases hloop
    · obtain ⟨rest, rfl⟩ := hfirst key keys hkeys
      have hfile : (w.called 1).fileOf request.region request.bucket key = none := by
        rw [Option.eq_none_iff_forall_ne_some]
        intro name hname
        obtain ⟨⟨k, object⟩, hfind, rfl⟩ := Option.map_eq_some_iff.mp hname
        have hrecord := get?_of_records hleft.records k
        rw [(findIf_some hfind).1, Option.map_some] at hrecord
        obtain ⟨object', hget', hbare⟩ := Option.map_eq_some_iff.mp hrecord
        have hkept := h.kept hget'
        rw [hleft.files, if_pos] at hkept
        · cases hkept
        · rw [internalName_of_bare hbare, List.filterMap_cons_some hname]
          exact List.mem_cons_self
      have hmissing : w.db.objectExists request.region request.bucket key = false := by
        have hsome := fileOf_isSome (w.called 1) request.region request.bucket key
        rw [hfile] at hsome
        exact hsome.symm
      refine .inr (.inr ⟨key, keys, hkeys, hmissing, fun hsize => ?_⟩)
      refine h.directory (hremoves.mpr ?_)
      rw [hkeys, deleteKeys, Prog.forEach, Prog.makes_bind]
      exact .inl (deleteKey_removes env rt (Option.map_eq_none_iff.mp hfile) hsize).2
  · rintro (hmissing | ⟨honly, hquiet⟩ | ⟨key, keys, hkeys, hmissing, hsize⟩)
    · rw [hbucket] at hmissing
      cases hmissing
    · have hthrows := (deleteKeys_present hnamed fun key hkey => (honly key hkey).isSome).2 hloop
      exact absurd (hfails.mpr (hthrows.mp ⟨e, rfl⟩)) hquiet
    · obtain ⟨⟨e', w₁, hleft, hrun⟩, hstays⟩ := deleteKeys_missing env rt (w := w.called 1) keys hmissing hsize
      rw [hkeys, hrun] at hloop
      cases hloop
      refine inStep_unchanged hown ((left_called w 1).trans hleft) fun hmakes => hstays ?_
      have hloop := hremoves.mp hmakes
      rwa [hkeys] at hloop

end DeleteObjects

theorem deleteObject_in_step {request : DeleteObjectRequest} {x : Except S3Error Unit} (hown : OwnFiles w)
    (hbucket : w.db.bucketExists request.region request.bucket = true)
    (h : (deleteObject env request).run (exec env rt) w = some (x, w')) :
    InStep env rt (.deleteObject request) w w' ↔ Deletion.Sound env rt w (.deleteObject request) := by
  rcases hexists : w.db.objectExists request.region request.bucket request.key with _ | _
  · obtain ⟨hrun, hstays⟩ := deleteObject_absent env rt hbucket hexists
    rw [hrun] at h
    cases h
    exact iff_of_true (inStep_unchanged hown (left_called w 2) hstays) (.inr (.inl hexists))
  · obtain ⟨k, object, hfind⟩ := objectExists_iff.mp hexists
    have hget := (findIf_some hfind).1
    obtain ⟨w₁, hrecords, hfiles, hrun, hstays⟩ := deleteObject_found env rt hbucket hfind (hown.named hget)
    rw [hrun, guarded, Prog.run_mapThrow] at h
    obtain ⟨y, hy, he⟩ := Option.map_eq_some_iff.mp h
    cases he
    have hleft := left_of_tells (tell_only ..) hy
    have hfile : [request.key].filterMap (w.fileOf request.region request.bucket) = [object.internalName] := by
      simp [World.fileOf, hfind]
    have hpresent : ∀ key ∈ [request.key], (w.fileOf request.region request.bucket key).isSome := by
      intro key hkey
      rw [List.mem_singleton.mp hkey, fileOf_isSome, hexists]
    have honly : InStep env rt (.deleteObject request) w y.2 ↔
        ∀ key ∈ [request.key], OnlyRecord w request.region request.bucket key :=
      inStep_erased hown hpresent (fun k => (get?_of_records hleft.records k).trans (hrecords k))
        (fun name => by
          rw [hleft.files, if_neg List.not_mem_nil, hfiles]
          exact congrArg (fun names : List Str => if name ∈ names then none else w.files.get? name) hfile.symm) hstays
    rw [honly]
    constructor
    · exact fun h => .inr (.inr (h request.key (by simp)))
    · rintro (hmissing | hmissing | h) key hkey
      · rw [hbucket] at hmissing
        cases hmissing
      · rw [hexists] at hmissing
        cases hmissing
      · rw [List.mem_singleton.mp hkey]
        exact h

/-- A request keeps records and files in step exactly when its keys have one record each and no other service fails,
    or nothing is deleted. -/
theorem deletion_in_step_iff (env : Env) (rt : Runtime) (d : Deletion) {w w' : World} {x : Except S3Error Unit}
    (hown : OwnFiles w) (h : (d.serve env).run (exec env rt) w = some (x, w')) :
    InStep env rt d w w' ↔ d.Sound env rt w := by
  rcases hbucket : w.db.bucketExists d.region d.bucket with _ | _
  · obtain ⟨⟨e, hrun⟩, hstays⟩ := serve_missing env rt d hbucket
    rw [hrun] at h
    cases h
    refine iff_of_true (inStep_unchanged hown (left_called w 1) hstays) ?_
    cases d <;> exact .inl hbucket
  · cases d with
    | deleteObject request => exact deleteObject_in_step hown hbucket h
    | deleteObjects request =>
      rw [Deletion.serve, (deleteObjects_loop env rt hbucket).1, guarded, Prog.run_mapThrow, Prog.run_bind] at h
      rcases hloop : (deleteKeys env request.region request.bucket request.keys).run (exec env rt) (w.called 1) with
        _ | ⟨y, w₁⟩
      · rw [hloop] at h
        cases h
      · rw [hloop] at h
        rcases y with e | ⟨⟩
        · cases h
          exact deleteObjects_thrown hown hbucket hloop
        · cases h
          exact deleteObjects_ended hown hbucket hloop rfl rfl

/-! ### A deleted object -/

/-- The condition on a finite store. -/
theorem ownFiles_iff : OwnFiles w ↔
    (∀ e ∈ w.db.objects.entries, e.2.internalName ≠ [] ∧ (w.files.get? e.2.internalName).isSome) ∧
      ∀ e ∈ w.db.objects.entries, ∀ e' ∈ w.db.objects.entries, e.2.internalName = e'.2.internalName → e.1 = e'.1 := by
  constructor
  · intro h
    refine ⟨fun e he => ⟨h.named (get?_eq_some.mpr he), h.file (get?_eq_some.mpr he)⟩, fun e he e' he' => ?_⟩
    exact h.own (get?_eq_some.mpr he) (get?_eq_some.mpr he')
  · rintro ⟨hfiles, hown⟩
    exact ⟨fun hget => (hfiles _ (get?_eq_some.mp hget)).1, fun hget => (hfiles _ (get?_eq_some.mp hget)).2,
      fun hget hget' => hown _ (get?_eq_some.mp hget) _ (get?_eq_some.mp hget')⟩

instance : Decidable (OwnFiles w) := decidable_of_iff _ ownFiles_iff.symm

/-- A record of the key `k` with a data file. -/
def recordOf (file : Str) : Object where
  region := str "eu"
  bucket := str "b"
  key := str "k"
  internalName := file
  created := 0
  modified := 0

/-- A bucket with records of the key `k` for the files. -/
def storeOf (files : List Str) : World where
  db := {
    buckets := .ofList [(str "1", { region := str "eu", name := str "b", created := 0, modified := 0 })]
    objects := .ofList (files.map fun file => (file, recordOf file)) }
  files := .ofList (files.map fun file => (file, str "content"))

def deleteK : Deletion := .deleteObject { region := str "eu", bucket := str "b", key := str "k" }

theorem deletion_of_one : ∃ x w', (deleteK.serve .sample).run (exec .sample .counting) (storeOf [str "f"]) =
    some (x, w') ∧ InStep .sample .counting deleteK (storeOf [str "f"]) w' := by
  refine ⟨_, _, rfl, (deletion_in_step_iff .sample .counting deleteK (by decide +kernel) rfl).mpr (.inr (.inr ?_))⟩
  refine ⟨str "f", recordOf (str "f"), rfl, by decide +kernel, fun k' object' hget _ => ?_⟩
  have hmem := get?_eq_some.mp hget
  exact congrArg Prod.fst (List.mem_singleton.mp (show (k', object') ∈ [(str "f", recordOf (str "f"))] from hmem))

/-- Both records of the key are deleted, but one data file. -/
theorem older_file_stays : ∃ x w', OwnFiles (storeOf [str "f", str "g"]) ∧
    (deleteK.serve .sample).run (exec .sample .counting) (storeOf [str "f", str "g"]) = some (x, w') ∧
    ¬ InStep .sample .counting deleteK (storeOf [str "f", str "g"]) w' := by
  refine ⟨_, _, by decide +kernel, rfl, fun h => ?_⟩
  have hget : (storeOf [str "f", str "g"]).db.objects.get? (str "g") = some (recordOf (str "g")) := rfl
  have hgone := h.gone hget rfl
  revert hgone
  decide +kernel

end AwsMock.S3
