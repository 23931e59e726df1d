import AwsMock.S3.DataFiles
import AwsMock.S3.Reads

/-!
# Serving a request, call by call

What holds while a request on a bucket is under way, as long as no other service fails: the protocol of
the data files, the settings of the bucket, and what a run keeps true of its records and files.
-/

namespace AwsMock.S3

open Lib

/-- What is said of the records and their files, and does not depend on the keys that lookups write into
    records. -/
class Stable (I : World → Prop) : Prop where
  congr : ∀ {w w' : World}, w'.db.objects = w.db.objects →
    (∀ {k object}, w.db.objects.get? k = some object → object.internalName ≠ [] →
      w'.files.get? object.internalName = w.files.get? object.internalName) → I w → I w'
  look : ∀ {w w' : World} {k : Str} {object : Object}, w.db.objects.get? k = some object →
    w'.db.objects = w.db.objects.insert k { object with oid := k } → w'.files = w.files → I w → I w'

/-- Another service fails. -/
def failing (rt : Runtime) : S3Call → World → Bool
  | .send target notification record, w => !(rt.send w.calls target notification record).isOk
  | .deleteTransferFile key, w => !(rt.deleteTransferFile w.calls key).isOk
  | _, _ => false

/-- A request on the bucket is under way: what holds of its draft, the content of the file it has
    written, and what it has found out about the records (`frame`). -/
structure Midway (rt : Runtime) (region bucket : Str) (versioned : Bool) (I : World → Prop)
    (frame : OrderedMap Str Object → Prop) (draft : Draft) (content : Str) (w : World) : Prop where
  drafting : Drafting rt draft w
  settings : HasSettings region bucket versioned false w
  kept : I w
  found : frame w.db.objects
  file : ∀ {name}, draft = .written name → w.files.get? name = some content

/-- Between two requests. -/
structure Settled (rt : Runtime) (region bucket : Str) (versioned : Bool) (I : World → Prop) (w : World) : Prop where
  wellFormed : WellFormed rt w
  settings : HasSettings region bucket versioned false w
  kept : I w

/-- What `DeleteObject` of a key does to what is kept: it was missing, its records are erased, or the
    deletion ends by an exception because the first record has no data file. -/
structure Deletes (region bucket key : Str) (I I' : World → Prop) : Prop where
  missing : ∀ {w : World}, I w → w.db.objectExists region bucket key = false → I' w
  erase : ∀ {w w' : World}, I w →
    w'.db.objects = w.db.objects.eraseIf (fun _ o => o.isKeyed bucket key) → w'.files = w.files → I' w'
  back : ∀ {w w' : World} {k : Str} {found : Object}, I w →
    w.db.objects.findIf (fun _ o => o.isAt region bucket key) = some (k, found) →
    found.internalName = [] → I' w' → I w'

/-- The calls that leave the records, the files and the settings. -/
def Passing : S3Call → Prop
  | .createS3FileName | .createBucket .. | .updateBucket .. | .deleteBucket .. | .createObject ..
  | .updateObject .. | .getObject .. | .getObjectMd5 .. | .deleteObject .. | .deleteObjects ..
  | .writeFile .. | .deleteFile .. | .copyTo .. | .encryptFile .. | .decryptFile .. | .appendParts ..
  | .deleteBucketDirectory .. => False
  | _ => True

/-- What a request ends in: with a result, or with an exception. -/
def Outcome {α : Type} (done : α → World → Prop) (failed : World → Prop) : Except S3Error α → World → Prop
  | .ok a, w => done a w
  | .error _, w => failed w

/-- A run in which no other service fails ends in an outcome. -/
def Ends {α : Type} (env : Env) (rt : Runtime) (done : α → World → Prop) (failed : World → Prop)
    (p : S3Prog α) (w : World) : Prop :=
  p.Ensures (Prog.without (exec env rt) (failing rt)) (fun _ _ => True) (Outcome done failed) w

variable {env : Env} {rt : Runtime} {w w' : World} {c : S3Call} {x : c.Reply} {region bucket key : Str}
  {versioned : Bool} {I : World → Prop} {frame : OrderedMap Str Object → Prop} {draft : Draft} {content : Str}

theorem Midway.settled (hm : Midway rt region bucket versioned I frame draft content w) :
    Settled rt region bucket versioned I w := ⟨hm.drafting.wellFormed, hm.settings, hm.kept⟩

theorem Settled.midway (hs : Settled rt region bucket versioned I w) (hframe : frame w.db.objects) :
    Midway rt region bucket versioned I frame .none content w :=
  ⟨hs.wellFormed, hs.settings, hs.kept, hframe, nofun⟩

theorem Passing.touches (hc : Passing c) :
    c.touchesObjects = false ∧ c.touchesFiles = false ∧ c.touchesBuckets = false := by
  cases c with
  | createS3FileName | createBucket | updateBucket | deleteBucket | createObject | updateObject | getObject
  | getObjectMd5 | deleteObject | deleteObjects | writeFile | deleteFile | copyTo | encryptFile
  | decryptFile | appendParts | deleteBucketDirectory => cases hc
  | _ => exact ⟨rfl, rfl, rfl⟩

/-- They have nothing to do with a draft. -/
theorem Passing.undrafted (hc : Passing c) : Undrafted c := by
  cases c with
  | createS3FileName | createBucket | updateBucket | deleteBucket | createObject | updateObject | getObject
  | getObjectMd5 | deleteObject | deleteObjects | writeFile | deleteFile | copyTo | encryptFile
  | decryptFile | appendParts | deleteBucketDirectory => cases hc
  | _ => trivial

variable {α β : Type} {done : α → World → Prop} {failed : World → Prop}

theorem ends_bind {mid : β → World → Prop} {p : S3Prog β} {f : β → S3Prog α}
    (hp : Ends env rt mid failed p w) (hf : ∀ a w', mid a w' → Ends env rt done failed (f a) w') :
    Ends env rt done failed (p >>= f) w :=
  Prog.ensures_bind_of hp hf fun _ _ h => h

theorem ends_guarded {p : S3Prog α} (hp : Ends env rt done failed p w) :
    Ends env rt done failed (guarded p) w := by
  refine Prog.ensures_mapThrow (hp.mono fun y w' hy => ?_)
  cases y <;> exact hy

theorem ends_call {f : c.Reply → S3Prog α} (hf : ∀ x w', exec env rt c w = some (x, w') →
    failing rt c w = false → Ends env rt done failed (f x) w') :
    Ends env rt done failed (call c >>= f) w :=
  Prog.ensures_perform_bind trivial fun r hr =>
    hf r.1 r.2 (Prog.without_eq_some.mp hr).2 (Prog.without_eq_some.mp hr).1

/-- The response of a request is not looked at. -/
theorem ends_ignored {after : World → Prop} {p : S3Prog α} (hp : Ends env rt (fun _ => after) failed p w) :
    Ends env rt (fun _ => after) failed (do let _ ← p : S3Prog Unit) w :=
  ends_bind hp fun _ _ hdone => hdone

/-- Without encryption the file stays as it is. -/
theorem checkEncryption_ends {entity : Bucket} (object : Object) (hencrypted : entity.hasEncryption = false)
    (hs : Settled rt region bucket versioned I w) :
    Ends env rt (fun _ => Settled rt region bucket versioned I) failed (checkEncryption entity object) w := by
  have hplain : checkEncryption entity object = pure () := by
    simp [checkEncryption, Prog.when, hencrypted]
  rw [hplain]
  exact hs

/-! ### Replies -/

/-- A record has one key. -/
theorem isAt_key {object : Object} {key' : Str} (h : object.isAt region bucket key)
    (h' : object.isAt region bucket key') : key = key' := by
  simp only [Object.isAt, decide_eq_true_eq] at h h'
  exact h.2.2.symm.trans h'.2.2

theorem objectExists_eq_false : w.db.objectExists region bucket key = false ↔
    ∀ k object, w.db.objects.get? k = some object → object.isAt region bucket key = false := by
  rw [← Bool.not_eq_true, S3MemoryDb.objectExists_iff]
  simp only [not_exists, not_and, Bool.not_eq_true]

/-- A copy of a data file that is there. -/
theorem copyTo_run {source name content : Str} {copied : Except S3Error Unit}
    (hfile : w.files.get? source = some content)
    (h : exec env rt (.copyTo source name) w = some (copied, w')) :
    copied = .ok () ∧ w'.files = w.files.insert name content := by
  obtain ⟨v, hv, rfl⟩ := exec_eq_some.mp h
  simp only [S3Call.apply, World.copyTo, hfile, Option.some.injEq, Prod.mk.injEq] at hv
  exact ⟨hv.1.symm, by rw [← hv.2]⟩

theorem copyTo_missing {source name : Str} {copied : Except S3Error Unit}
    (hfile : w.files.get? source = none)
    (h : exec env rt (.copyTo source name) w = some (copied, w')) :
    copied = .error (.pocoException (World.path env source)) ∧ w'.files = w.files := by
  obtain ⟨v, hv, rfl⟩ := exec_eq_some.mp h
  simp only [S3Call.apply, World.copyTo, hfile, Option.some.injEq, Prod.mk.injEq] at hv
  exact ⟨hv.1.symm, by rw [← hv.2]⟩

/-- The data file of a record is removed; the directory itself stays. -/
theorem deleteFile_run {name : Str} {result : Except S3Error Unit}
    (h : exec env rt (.deleteFile name) w = some (result, w')) :
    name = [] ∧ w'.files = w.files ∨
      result = .ok () ∧ w'.files = w.files.eraseIf fun file _ => file = name := by
  obtain ⟨v, hv, rfl⟩ := exec_eq_some.mp h
  simp only [S3Call.apply, World.deleteFile, Option.some.injEq] at hv
  split at hv
  · next hname =>
    cases hv
    exact Or.inl ⟨hname, rfl⟩
  · cases hv
    exact Or.inr ⟨rfl, rfl⟩

theorem isKeyed_of_isAt {object : Object} {key' : Str} (h : object.isAt region bucket key') :
    object.isKeyed bucket key = false ↔ key' ≠ key := by
  simp only [Object.isAt, decide_eq_true_eq] at h
  simp [Object.isKeyed, h.2.1, h.2.2]

/-- The record found is deleted, and with it every record of its key. -/
theorem Midway.erase {I' : World → Prop} {k : Str} {found : Object}
    (hm : Midway rt region bucket versioned I frame .none content w) (hdeletes : Deletes region bucket key I I')
    {u : Unit} (h : exec env rt (.deleteObject found.bucket found.key) w = some (u, w'))
    (hget : w.db.objects.get? k = some found) (hat : found.isAt region bucket key) :
    Settled rt region bucket versioned I' w' ∧
      ∀ {k' o}, w'.db.objects.get? k' = some o → o.internalName ≠ [] →
        o.internalName ≠ found.internalName := by
  obtain ⟨rfl, rfl⟩ : found.bucket = bucket ∧ found.key = key := by
    simp only [Object.isAt, decide_eq_true_eq] at hat
    exact hat.2
  have hlaw : Draft.law True .none (.deleteObject found.bucket found.key) := trivial
  have hobjects : w'.db.objects =
      w.db.objects.eraseIf fun _ o => o.isKeyed found.bucket found.key := by
    obtain ⟨v, hv, rfl⟩ := exec_eq_some.mp h
    cases hv
    rfl
  refine ⟨⟨.step hm.drafting h hlaw, hasSettings_of_call rfl h hm.settings,
    hdeletes.erase hm.kept hobjects (files_of_call rfl h)⟩, ?_⟩
  intro k' o hget' hne hname
  rw [hobjects, OrderedMap.get?_eraseIf, Option.filter_eq_some_iff, Bool.not_eq_true'] at hget'
  obtain ⟨hold, hkeyed⟩ := hget'
  obtain rfl := hm.drafting.wellFormed.own hold hget hname hne
  rw [hget, Option.some.injEq] at hold
  subst hold
  exact (isKeyed_of_isAt hat).mp hkeyed rfl

/-! ### The way through a request -/

variable [Stable I]

theorem Midway.pass (hm : Midway rt region bucket versioned I frame draft content w)
    (h : exec env rt c w = some (x, w')) (hc : Passing c) :
    Midway rt region bucket versioned I frame draft content w' := by
  obtain ⟨hobjects, hfiles, hbuckets⟩ := hc.touches
  have hfiles' := files_of_call hfiles h
  refine ⟨?_, hasSettings_of_call hbuckets h hm.settings, ?_, ?_, ?_⟩
  · obtain ⟨hlaw, hnext⟩ := undrafted_stay True draft c hc.undrafted
    have hstep := hm.drafting.step h hlaw
    rwa [show Draft.next draft c x = draft from hnext x] at hstep
  · exact Stable.congr (objects_eq_of_call hobjects h) (fun _ _ => by rw [hfiles']) hm.kept
  · rw [objects_eq_of_call hobjects h]
    exact hm.found
  · intro name hname
    rw [hfiles']
    exact hm.file hname

theorem Midway.draw {name : Str} (hm : Midway rt region bucket versioned I frame .none content w)
    (h : exec env rt .createS3FileName w = some (name, w')) :
    Midway rt region bucket versioned I frame (.drawn name) content w' where
  drafting := hm.drafting.wellFormed.draw h
  settings := hasSettings_of_call rfl h hm.settings
  kept := Stable.congr (objects_eq_of_call rfl h) (fun _ _ => by rw [files_of_call rfl h]) hm.kept
  found := by
    rw [objects_eq_of_call rfl h]
    exact hm.found
  file := nofun

/-- The file of the draft is written. -/
theorem Midway.write {name content' : Str}
    (hm : Midway rt region bucket versioned I frame (.drawn name) content' w)
    (h : exec env rt c w = some (x, w')) (hwrites : c.writesFile = some name)
    (hfiles : w'.files = w.files.insert name content) :
    Midway rt region bucket versioned I frame (.written name) content w' := by
  have hkinds : Draft.law True (.drawn name) c ∧ Draft.next (.drawn name) c x = .written name ∧
      c.touchesObjects = false ∧ c.touchesBuckets = false := by
    cases c with
    | writeFile | copyTo | appendParts => cases hwrites; exact ⟨rfl, rfl, rfl, rfl⟩
    | _ => cases hwrites
  obtain ⟨hlaw, hnext, hobjects, hbuckets⟩ := hkinds
  have hdrafting := hm.drafting.step h hlaw
  rw [hnext] at hdrafting
  refine ⟨hdrafting, hasSettings_of_call hbuckets h hm.settings, ?_, ?_, ?_⟩
  · refine Stable.congr (objects_eq_of_call hobjects h) (fun hget _ => ?_) hm.kept
    rw [hfiles, OrderedMap.get?_insert_of_ne _ _ (hm.drafting.2.1.unused hget)]
  · rw [objects_eq_of_call hobjects h]
    exact hm.found
  · rintro _ ⟨⟩
    rw [hfiles, OrderedMap.get?_insert_self]

/-- A record that exists is looked up. -/
theorem Midway.look {region' bucket' key' : Str} {object : Object}
    (hm : Midway rt region bucket versioned I frame draft content w)
    (h : exec env rt (.getObject region' bucket' key') w = some (object, w'))
    (hexists : w.db.objectExists region' bucket' key') :
    ∃ k found, w.db.objects.findIf (fun _ o => o.isAt region' bucket' key') = some (k, found) ∧
      object = { found with oid := k } ∧
      w'.db.objects = w.db.objects.insert k { found with oid := k } ∧ w'.files = w.files ∧
      ∀ {frame' : OrderedMap Str Object → Prop}, frame' w'.db.objects →
        Midway rt region bucket versioned I frame' draft content w' := by
  obtain ⟨⟨k, found⟩, hit⟩ := Option.isSome_iff_exists.mp hexists
  have hfiles := files_of_call rfl h
  obtain ⟨v, hv, hw'⟩ := exec_eq_some.mp h
  simp only [S3Call.apply, S3MemoryDb.getObject, hit, S3MemoryDb.fetchObject, Option.some.injEq,
    Prod.mk.injEq] at hv
  have hobjects : w'.db.objects = w.db.objects.insert k { found with oid := k } := by rw [hw', ← hv.2]
  refine ⟨k, found, hit, hv.1.symm, hobjects, hfiles, fun hframe => ?_⟩
  refine ⟨?_, hasSettings_of_call rfl h hm.settings, ?_, hframe, fun hname => hfiles ▸ hm.file hname⟩
  · have hlaw : Draft.law True draft (.getObject region' bucket' key') := trivial
    refine hm.drafting.stay h hlaw ?_ rfl
    rintro _ ⟨⟩
  · exact Stable.look (OrderedMap.findIf_some hit).1 hobjects hfiles hm.kept

/-- A call that leaves things as they are. -/
theorem Midway.next {f : c.Reply → S3Prog α} (hm : Midway rt region bucket versioned I frame draft content w)
    (hc : Passing c) (hf : ∀ x w', exec env rt c w = some (x, w') →
      Midway rt region bucket versioned I frame draft content w' → Ends env rt done failed (f x) w') :
    Ends env rt done failed (call c >>= f) w :=
  ends_call fun x w' h _ => hf x w' h (hm.pass h hc)

/-- Such calls alone. -/
theorem Midway.ends {p : S3Prog α} (hm : Midway rt region bucket versioned I frame draft content w)
    (hp : p.Only Passing) :
    Ends env rt (fun _ => Midway rt region bucket versioned I frame draft content)
      (Midway rt region bucket versioned I frame draft content) p w := by
  have hstep : ∀ c v (r : c.Reply × World), Passing c →
      Midway rt region bucket versioned I frame draft content v →
      Prog.without (exec env rt) (failing rt) c v = some r →
      Midway rt region bucket versioned I frame draft content r.2 := fun c v r hc hv hr =>
    hv.pass (Prog.without_eq_some.mp hr).2 hc
  refine Prog.Ensures.mono (fun y w' hy => ?_) (hp.ensures (fun _ _ _ _ => trivial) hstep hm)
  cases y <;> exact hy

/-- When no other service fails, the notifications are sent. -/
theorem notify_ends (target : Target) (entity : Bucket) (region' key' : Str) (size : Int) (event : Str)
    (hs : Settled rt region bucket versioned I w) :
    Ends env rt (fun _ => Settled rt region bucket versioned I) failed (notify target entity region' key' size event)
      w := by
  have hm : Midway rt region bucket versioned I (fun _ => True) .none [] w := hs.midway trivial
  unfold notify
  split
  · exact hs
  · unfold Prog.when
    split
    swap
    · exact hs
    refine hm.next trivial fun etag w₁ _ hm => ?_
    refine ends_call fun sent w₂ h hsent => ?_
    obtain ⟨v, hv, hw₂⟩ := exec_eq_some.mp h
    simp only [S3Call.apply] at hv
    split at hv
    · cases hv
    · have hreply := (Prod.mk.inj (Option.some.inj hv)).1
      simp only [failing, hreply, Bool.not_eq_false'] at hsent
      rcases sent with e | ⟨⟩
      · cases hsent
      · exact (hm.pass h trivial).settled

theorem checkNotifications_ends (region' bucket' key' : Str) (size : Int) (event : Str)
    (hs : Settled rt region bucket versioned I w) :
    Ends env rt (fun _ => Settled rt region bucket versioned I) failed
      (checkNotifications region' bucket' key' size event) w := by
  have hm : Midway rt region bucket versioned I (fun _ => True) .none [] w := hs.midway trivial
  refine hm.next trivial fun entity w₁ _ hm => ?_
  refine ends_bind (notify_ends .queue entity _ _ _ _ hm.settled) fun _ w₂ hs => ?_
  refine ends_bind (notify_ends .topic entity _ _ _ _ hs) fun _ w₃ hs => ?_
  exact notify_ends .lambda entity _ _ _ _ hs

/-- The hash task is only started. -/
theorem Midway.hash {f : Unit → S3Prog α} (hm : Midway rt region bucket versioned I frame draft content w)
    (algorithm : Str) (object : Object)
    (hf : ∀ w', Midway rt region bucket versioned I frame draft content w' → Ends env rt done failed (f ()) w') :
    Ends env rt done failed (startHashing algorithm object >>= f) w := by
  unfold startHashing Prog.when
  split
  · exact hm.next trivial fun _ w' _ hm => hf w' hm
  · exact hf w hm

/-- The file that was written is read. -/
theorem Midway.readFile {name : Str} (hm : Midway rt region bucket versioned I frame (.written name) content w)
    {f : Str → S3Prog α} (hf : ∀ w', Midway rt region bucket versioned I frame (.written name) content w' →
      Ends env rt done failed (f content) w') :
    Ends env rt done failed (call (.readFile name) >>= f) w := by
  refine hm.next trivial fun stored w' h hm' => ?_
  obtain ⟨v, hv, -⟩ := exec_eq_some.mp h
  have hreply := (Prod.mk.inj (Option.some.inj hv)).1
  rw [World.read, hm.file rfl] at hreply
  exact hreply ▸ hf w' hm'

theorem Midway.fileSize {name : Str} (hm : Midway rt region bucket versioned I frame (.written name) content w)
    {f : Int → S3Prog α} (hf : ∀ w', Midway rt region bucket versioned I frame (.written name) content w' →
      Ends env rt done failed (f content.length) w') :
    Ends env rt done failed (call (.fileSize name) >>= f) w := by
  refine hm.next trivial fun size w' h hm' => ?_
  obtain ⟨v, hv, -⟩ := exec_eq_some.mp h
  have hreply := (Prod.mk.inj (Option.some.inj hv)).1
  rw [hm.file rfl] at hreply
  exact hreply ▸ hf w' hm'

/-- A deletion in the transfer server that succeeds. -/
theorem deleteTransferFile_ends {b : Prop} [Decidable b] {key' : Str}
    (hs : Settled rt region bucket versioned I w) :
    Ends env rt (fun _ => Settled rt region bucket versioned I) failed
      (Prog.when b do
        let deleted ← call (.deleteTransferFile key')
        .ofExcept deleted) w := by
  have hm : Midway rt region bucket versioned I (fun _ => True) .none [] w := hs.midway trivial
  unfold Prog.when
  split
  swap
  · exact hs
  refine ends_call fun deleted w₁ h hdeleted => ?_
  obtain ⟨v, hv, -⟩ := exec_eq_some.mp h
  have hreply := (Prod.mk.inj (Option.some.inj hv)).1
  simp only [failing, hreply, Bool.not_eq_false'] at hdeleted
  rcases deleted with e | ⟨⟩
  · cases hdeleted
  · exact (hm.pass h trivial).settled

/-! ### Deleting an object -/

variable {I' : World → Prop} [Stable I']

theorem deleteObject_ends {request : DeleteObjectRequest}
    (hs : Settled rt request.region request.bucket versioned I w)
    (hdeletes : Deletes request.region request.bucket request.key I I') :
    Ends env rt (fun _ => Settled rt request.region request.bucket versioned I')
      (Settled rt request.region request.bucket versioned I) (deleteObject env request) w := by
  have hm : Midway rt request.region request.bucket versioned I (fun _ => True) .none [] w :=
    hs.midway trivial
  refine hm.next trivial fun exists_ w₁ _ hm₁ => ?_
  split
  swap
  · exact hm₁.settled
  refine ends_call fun exists_ w₂ h₂ _ => ?_
  have hm₂ := hm₁.pass h₂ trivial
  have hreply : exists_ = w₂.db.objectExists request.region request.bucket request.key := by
    obtain ⟨v, hv, rfl⟩ := exec_eq_some.mp h₂
    cases hv
    rfl
  split
  swap
  · next hnew =>
    rw [hreply, Bool.not_eq_true] at hnew
    exact ⟨hm₂.drafting.wellFormed, hm₂.settings, hdeletes.missing hm₂.kept hnew⟩
  rename_i hexists
  rw [hreply] at hexists
  refine ends_guarded (ends_call fun object w₃ h₃ _ => ?_)
  obtain ⟨k, found, hit, rfl, hobjects, -, hframe⟩ := hm₂.look h₃ hexists
  have hm₃ : Midway rt request.region request.bucket versioned I (fun _ => True) .none [] w₃ :=
    hframe trivial
  have hat : found.isAt request.region request.bucket request.key := (OrderedMap.findIf_some hit).2
  have hget : w₃.db.objects.get? k = some { found with oid := k } := by
    rw [hobjects, OrderedMap.get?_insert_self]
  refine ends_call fun _ w₄ h₄ _ => ?_
  obtain ⟨hs₄, hgone⟩ := hm₃.erase hdeletes h₄ hget hat
  refine ends_bind ?_ fun _ w₅ hs => checkNotifications_ends _ _ _ _ _ hs
  refine ends_call fun result w₅ h₅ _ => ?_
  have hlaw : Draft.law True .none (.deleteFile found.internalName) := Or.inl trivial
  have hs₅ : Settled rt request.region request.bucket versioned I' w₅ := by
    refine ⟨.step (show Drafting rt .none w₄ from hs₄.wellFormed) h₅ hlaw,
      hasSettings_of_call rfl h₅ hs₄.settings,
      Stable.congr (objects_eq_of_call rfl h₅) (fun hget hne => ?_) hs₄.kept⟩
    rcases deleteFile_run h₅ with ⟨-, hfiles⟩ | ⟨-, hfiles⟩
    · rw [hfiles]
    · rw [hfiles, OrderedMap.get?_eraseIf_key, if_neg (hgone hget hne)]
  rcases result with e | ⟨⟩
  · rcases deleteFile_run h₅ with ⟨hempty, -⟩ | ⟨hok, -⟩
    · exact ⟨hs₅.wellFormed, hs₅.settings, hdeletes.back hm₂.kept hit hempty hs₅.kept⟩
    · cases hok
  · exact deleteTransferFile_ends hs₅

end AwsMock.S3
