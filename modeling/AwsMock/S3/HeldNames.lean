import AwsMock.S3.Worker

/-!
# Names of data files

A name is spent when its file is written. No thread writes it again, so a file that was missing stays missing, and no
thread gives it to a record unless it knows the name.
-/

namespace AwsMock.S3

open Lib

variable {env : Env} {rt : Runtime}

/-! ### The threads keep to the protocol -/

section Programs

variable {α β : Type} {t : Held} {c : S3Call}

/-- The calls that have nothing to do with the names of files. -/
def Nameless : S3Call → Prop
  | .createS3FileName | .writeFile .. | .appendParts .. | .copyTo .. | .decryptFile .. | .createObject ..
  | .updateObject .. | .startHashCreator .. | .getObject .. | .getObjectMd5 .. | .deleteObject ..
  | .deleteObjects .. | .deleteBucketDirectory .. => False
  | _ => True

theorem nameless_stay (t : Held) (c : S3Call) (hc : Nameless c) :
    storing.law t c ∧ ∀ r, storing.next t c r = t := by
  cases c with
  | createS3FileName | writeFile | appendParts | copyTo | decryptFile | createObject | updateObject
  | startHashCreator | getObject | getObjectMd5 | deleteObject | deleteObjects | deleteBucketDirectory => cases hc
  | _ => exact ⟨trivial, fun _ => rfl⟩

theorem nameless_stores {p : S3Prog α} (hp : p.Only Nameless) (t : Held) : StoresFrom p t :=
  (hp.follows (nameless_stay t)).mono fun _ _ _ => trivial

theorem nameless_bind {p : S3Prog α} (hp : p.Only Nameless) {f : α → S3Prog β} (hf : ∀ a, StoresFrom (f a) t) :
    StoresFrom (p >>= f) t :=
  hp.follows_bind (nameless_stay t) hf

theorem nameless_call {f : c.Reply → S3Prog β} (hc : Nameless c) (hf : ∀ a, StoresFrom (f a) t) :
    StoresFrom (call c >>= f) t :=
  nameless_bind (Prog.only_perform hc) hf

theorem startHashing_bind (algorithm : Str) {object : Object} {f : Unit → S3Prog β}
    (h : object.internalName = [] ∨ object.internalName ∈ t.known) (hf : ∀ a, StoresFrom (f a) t) :
    StoresFrom (startHashing algorithm object >>= f) t := by
  unfold startHashing Prog.when
  split
  · exact ⟨h, hf⟩
  · exact hf ()

theorem createOrUpdateObject_stores {object : Object}
    (h : object.internalName = [] ∨ object.internalName ∈ t.known) : StoresFrom (createOrUpdateObject object) t := by
  refine nameless_call trivial fun found => ?_
  split <;> exact ⟨h, fun _ => trivial⟩

theorem checkNotifications_nameless (region bucket key : Str) (size : Int) (event : Str) :
    (checkNotifications region bucket key size event).Only Nameless :=
  checkNotifications_only (fun _ _ => trivial) trivial (fun _ _ _ => trivial) _ _ _ _ _

theorem saveUnversionedObject_stores (request : PutObjectRequest) (entity : Bucket) (body : Str)
    (chunkEncoding : Bool) (t : Held) :
    StoresFrom (saveUnversionedObject env request entity body chunkEncoding) t := by
  refine Prog.follows_perform_bind trivial fun fileName => ?_
  refine nameless_bind (receiveContent_only (fun _ => trivial) _ _) fun content => ?_
  refine Prog.follows_perform_bind rfl fun _ => ?_
  refine nameless_call trivial fun size => ?_
  refine nameless_call trivial fun now => ?_
  refine nameless_call trivial fun stored => ?_
  refine startHashing_bind _ (.inr List.mem_cons_self) fun _ => ?_
  refine (createOrUpdateObject_stores (.inr List.mem_cons_self)).bind fun object t => nameless_stores ?_ t
  exact Prog.only_bind (checkEncryption_only (fun _ _ => trivial) _ _) fun _ =>
    Prog.only_bind (checkNotifications_nameless _ _ _ _ _) fun _ => Prog.only_pure _

theorem createVersion_stores (request : PutObjectRequest) (entity : Bucket) {fileName : Str} (size : Int)
    (h : fileName ∈ t.known) : StoresFrom (createVersion env request entity fileName size) t := by
  refine nameless_call trivial fun versionId => ?_
  refine nameless_call trivial fun now => ?_
  refine nameless_call trivial fun stored => ?_
  refine Prog.follows_perform_bind (.inr h) fun object => ?_
  refine startHashing_bind _ (.inr List.mem_cons_self) fun _ => nameless_stores ?_ _
  exact Prog.only_bind (checkEncryption_only (fun _ _ => trivial) _ _) fun _ =>
    Prog.only_bind (checkNotifications_nameless _ _ _ _ _) fun _ => Prog.only_pure _

theorem saveVersionedObject_stores (request : PutObjectRequest) (entity : Bucket) (body : Str) (t : Held) :
    StoresFrom (saveVersionedObject env request entity body) t := by
  refine Prog.follows_perform_bind trivial fun fileName => ?_
  refine Prog.follows_perform_bind rfl fun _ => ?_
  refine nameless_call trivial fun size => ?_
  refine nameless_call trivial fun now => ?_
  refine Prog.follows_perform_bind trivial fun existingObject => ?_
  dsimp only
  split
  · refine (createVersion_stores _ _ _ (List.mem_cons_of_mem _ List.mem_cons_self)).bind fun object t =>
      nameless_stores ?_ t
    exact Prog.only_bind (Prog.only_perform trivial) fun _ => Prog.only_pure _
  · refine nameless_stores ?_ _
    exact Prog.only_bind (Prog.only_perform trivial) fun _ => Prog.only_bind (Prog.only_ofExcept _) fun _ =>
      Prog.only_bind (Prog.only_pure _) fun _ => Prog.only_bind (Prog.only_perform trivial) fun _ =>
        Prog.only_pure _

theorem putObject_stores (request : PutObjectRequest) (body : Str) (chunkEncoding : Bool) (t : Held) :
    StoresFrom (putObject env request body chunkEncoding) t := by
  refine nameless_call trivial fun found => ?_
  split
  · refine Prog.follows_mapThrow (nameless_call trivial fun bucket => ?_)
    split
    · exact saveVersionedObject_stores _ _ _ _
    · exact saveUnversionedObject_stores _ _ _ _ _
  · trivial

theorem createMultipartUpload_stores (request : CreateMultipartUploadRequest) (t : Held) :
    StoresFrom (createMultipartUpload request) t := by
  refine nameless_call trivial fun found => ?_
  split
  · refine nameless_call trivial fun uploadId => ?_
    refine nameless_call trivial fun _ => ?_
    refine nameless_call trivial fun now => ?_
    exact (createOrUpdateObject_stores (.inl rfl)).bind fun object t => trivial
  · trivial

theorem completeMultipartUpload_stores (request : CompleteMultipartUploadRequest) (t : Held) :
    StoresFrom (completeMultipartUpload env request) t := by
  refine nameless_call trivial fun listed => ?_
  refine nameless_bind (Prog.only_ofExcept _) fun files => ?_
  refine Prog.follows_perform_bind trivial fun filename => ?_
  refine Prog.follows_perform_bind rfl fun fileSize => ?_
  refine nameless_call trivial fun stored => ?_
  refine Prog.follows_perform_bind trivial fun object => ?_
  refine Prog.follows_perform_bind (.inr (List.mem_cons_of_mem _ List.mem_cons_self)) fun object => ?_
  refine startHashing_bind _ (.inr List.mem_cons_self) fun _ => nameless_stores ?_ _
  exact Prog.only_bind (Prog.only_perform trivial) fun _ =>
    Prog.only_bind (checkNotifications_nameless _ _ _ _ _) fun _ => Prog.only_pure _

theorem serve_stores {request : S3Request} (h : request.IsUpload) : StoresFrom (serve env request) {} := by
  cases request with
  | putObject r body chunkEncoding => exact (putObject_stores _ _ _ _).bind fun _ _ => trivial
  | createMultipartUpload r => exact (createMultipartUpload_stores _ _).bind fun _ _ => trivial
  | uploadPart body part uploadId =>
    exact nameless_stores (Prog.only_bind (uploadPart_only (fun _ _ _ => trivial) (fun _ _ => trivial) _ _ _ _)
      fun _ => Prog.only_pure _) _
  | completeMultipartUpload r => exact (completeMultipartUpload_stores _ _).bind fun _ _ => trivial
  | _ => cases h

theorem s3HashCreator_stores (algorithm : Str) (object : Object) :
    StoresFrom (s3HashCreator env algorithm object) { known := [object.internalName] } := by
  have hupdate : ∀ o : Object, o.internalName = object.internalName →
      StoresFrom (do let _ ← call (.updateObject o) : S3Prog Unit) { known := [object.internalName] } :=
    fun o ho => ⟨.inr (List.mem_singleton.mpr ho), fun _ => trivial⟩
  unfold s3HashCreator
  split
  · exact nameless_call trivial fun content => hupdate _ rfl
  · split
    · exact nameless_call trivial fun content => hupdate _ rfl
    · split
      · exact nameless_call trivial fun content => hupdate _ rfl
      · exact hupdate object rfl

end Programs

/-! ### The calls of the threads -/

section Calls

variable {w w' : World} {c : S3Call} {x : c.Reply} {t : Held} {name : Str}

theorem Held.law_writesFile (hlaw : t.law c) (h : c.writesFile = some name) : t.drawn = some name := by
  cases c with
  | writeFile | appendParts =>
    cases h
    exact hlaw
  | copyTo => exact hlaw.elim
  | _ => cases h

theorem Held.law_writes (hlaw : t.law c) {object : Object} (h : c.Writes object) :
    object.internalName = [] ∨ object.internalName ∈ t.known := by
  cases c with
  | createObject o =>
    have hsame : object = { o with oid := object.oid } := h
    rw [hsame]
    exact hlaw
  | updateObject o =>
    have hsame : o = object := h
    exact hsame ▸ hlaw
  | _ => cases h

/-- A name that is drawn after a call was drawn by it, or before and is not written. -/
theorem Held.next_drawn (hlaw : t.law c) (h : exec env rt c w = some (x, w'))
    (hname : (t.next c x).drawn = some name) :
    name = rt.fileName w.calls ∧ c.ensuresDirectory = true ∨ t.drawn = some name ∧ c.writesFile ≠ some name := by
  cases c with
  | createS3FileName =>
    obtain ⟨v, hv, -⟩ := exec_eq_some.mp h
    cases hv
    exact .inl ⟨(Option.some.inj hname).symm, rfl⟩
  | writeFile | appendParts => cases hname
  | copyTo => exact hlaw.elim
  | _ => exact .inr ⟨hname, fun hwrites => by cases hwrites⟩

/-- A name that is known after a call was known before, is that of the file it writes, or that of a record. -/
theorem Held.next_known (hlaw : t.law c) (h : exec env rt c w = some (x, w')) (hname : name ∈ (t.next c x).known) :
    name = [] ∨ name ∈ t.known ∨ c.writesFile = some name ∨
      ∃ k object, w.db.objects.get? k = some object ∧ object.internalName = name := by
  have hfetch : ∀ {p : Str → Object → Bool} {now : TimePoint},
      name ∈ (w.db.fetchObject now (w.db.objects.findIf p)).1.internalName :: t.known →
      name = [] ∨ name ∈ t.known ∨ c.writesFile = some name ∨
        ∃ k object, w.db.objects.get? k = some object ∧ object.internalName = name := by
    intro p now hmem
    rcases List.mem_cons.mp hmem with rfl | hknown
    · rcases hit : w.db.objects.findIf p with _ | ⟨k, object⟩
      · exact .inl rfl
      · exact .inr (.inr (.inr ⟨k, object, (OrderedMap.findIf_some hit).1, rfl⟩))
    · exact .inr (.inl hknown)
  have hput : ∀ {object : Object}, (object.internalName = [] ∨ object.internalName ∈ t.known) →
      name ∈ object.internalName :: t.known → name = [] ∨ name ∈ t.known := by
    intro object ho hmem
    rcases List.mem_cons.mp hmem with rfl | hknown
    · exact ho
    · exact .inr hknown
  obtain ⟨v, hv, -⟩ := exec_eq_some.mp h
  cases c with
  | writeFile | appendParts =>
    rcases List.mem_cons.mp hname with rfl | hknown
    · exact .inr (.inr (.inl rfl))
    · exact .inr (.inl hknown)
  | createObject object =>
    simp only [S3Call.apply, S3MemoryDb.createObject_eq, Option.some.injEq, Prod.mk.injEq] at hv
    obtain ⟨rfl, -⟩ := hv
    exact (hput hlaw hname).imp_right .inl
  | updateObject object =>
    obtain ⟨y, hy, he⟩ := Option.map_eq_some_iff.mp hv
    obtain ⟨it, -, rfl⟩ := Option.map_eq_some_iff.mp hy
    cases he
    exact (hput hlaw hname).imp_right .inl
  | getObject | getObjectMd5 =>
    cases hv
    exact hfetch hname
  | _ => exact .inr (.inl hname)

/-- A file that is not there is not there after a call that does not write it. -/
theorem Held.absent_of_call (hlaw : t.law c) (h : exec env rt c w = some (x, w')) (hc : c.writesFile ≠ some name)
    (hnone : w.files.get? name = none) : w'.files.get? name = none := by
  rcases htouch : c.touchesFiles with _ | _
  · rw [files_of_call htouch h, hnone]
  obtain ⟨v, hv, rfl⟩ := exec_eq_some.mp h
  change v.files.get? name = none
  cases c with
  | writeFile name' content =>
    cases hv
    have hne : name ≠ name' := fun he => hc (by rw [he]; rfl)
    rw [OrderedMap.get?_insert_of_ne _ _ hne, hnone]
  | appendParts name' uploadId files =>
    cases hv
    have hne : name ≠ name' := fun he => hc (by rw [he]; rfl)
    exact (OrderedMap.get?_insert_of_ne _ _ hne).trans hnone
  | deleteFile name' =>
    simp only [S3Call.apply, World.deleteFile, Option.some.injEq] at hv
    split at hv
    · cases hv
      exact hnone
    · cases hv
      rw [OrderedMap.get?_eraseIf_key]
      split
      · rfl
      · exact hnone
  | encryptFile name' keyId =>
    obtain ⟨_, he, hv⟩ := Option.map_eq_some_iff.mp hv
    cases hv
    obtain ⟨content', hget, rfl⟩ := Option.map_eq_some_iff.mp he
    have hne : name ≠ name' := by
      rintro rfl
      rw [hnone] at hget
      cases hget
    exact (OrderedMap.get?_insert_of_ne _ _ hne).trans hnone
  | copyTo | decryptFile | deleteBucketDirectory => exact hlaw.elim
  | _ => cases htouch

end Calls

/-! ### Names that are spent -/

/-- A name that was drawn, and whose file no thread has yet to write. -/
structure Spent (rt : Runtime) (hands : Nat → Held) (w : World) (name : Str) : Prop where
  drawn : ∃ i < w.calls, name = rt.fileName i
  written : ∀ i, (hands i).drawn ≠ some name

/-- What a hash creator that is started knows. -/
def S3Call.handed : S3Call → Held
  | .startHashCreator _ object => { known := [object.internalName] }
  | _ => {}

/-- What the threads hold after a call of the `i`-th of `n`. -/
def handsAfter (hands : Nat → Held) (n i : Nat) (c : S3Call) (x : c.Reply) (j : Nat) : Held :=
  if j = i then (hands i).next c x else if j < n then hands j else c.handed

/-- What stays true beside the pass. -/
structure Kept (rt : Runtime) (hands : Nat → Held) (x : S3JobPool) : Prop where
  records : ∀ {k object}, x.2.world.db.objects.get? k = some object →
    object.internalName = [] ∨ Spent rt hands x.2.world object.internalName
  files : ∀ {name content}, x.2.world.files.get? name = some content → Spent rt hands x.2.world (dataFileOf name)
  directory : x.2.dataS3Dir = false → x.2.world.files = ∅
  stores : ∀ {i t}, x.1[i]? = some t → StoresFrom t.prog (hands i)
  known : ∀ {i}, ∀ name ∈ (hands i).known, name = [] ∨ Spent rt hands x.2.world name
  drawn : ∀ {i name}, (hands i).drawn = some name → (∃ k < x.2.world.calls, name = rt.fileName k) ∧
    x.2.dataS3Dir = true ∧ ∀ j, (hands j).drawn = some name → j = i

/-- No record names a file, and no thread is about to name it in one. -/
structure Free (name : Str) (x : S3JobPool) : Prop where
  records : ∀ k object, x.2.world.db.objects.get? k = some object → object.internalName ≠ name
  threads : ∀ t ∈ x.1, Leaves name t.prog

theorem handsAfter_drawn {hands : Nat → Held} {n i j : Nat} {c : S3Call} {x : c.Reply} {name : Str}
    (h : (handsAfter hands n i c x j).drawn = some name) :
    j = i ∧ ((hands i).next c x).drawn = some name ∨ j ≠ i ∧ (hands j).drawn = some name := by
  unfold handsAfter at h
  split at h
  · next hj => exact .inl ⟨hj, h⟩
  · next hj =>
    split at h
    · exact .inr ⟨hj, h⟩
    · cases c <;> cases h

theorem Spent.ne {hands : Nat → Held} {w : World} {name : Str} (h : Spent rt hands w name) : name ≠ [] := by
  obtain ⟨i, -, rfl⟩ := h.drawn
  exact rt.fileName_ne i

section Step

variable {hands : Nat → Held} {threads : List S3JobThread} {s : Storage} {w' : World} {i : Nat} {label : S3Job}
  {c : S3Call} {k : c.Reply → S3Prog Unit} {x : c.Reply} {name : Str}

theorem Spent.step (hs : Spent rt hands s.world name) (hlaw : (hands i).law c)
    (h : exec env rt c s.world = some (x, w')) :
    Spent rt (handsAfter hands threads.length i c x) w' name where
  drawn := fileName_lt h hs.drawn
  written j hj := by
    rcases handsAfter_drawn hj with ⟨-, hnext⟩ | ⟨-, hold⟩
    · rcases Held.next_drawn hlaw h hnext with ⟨hnew, -⟩ | ⟨hold, -⟩
      · obtain ⟨m, hm, hname⟩ := hs.drawn
        exact absurd (rt.fileName_inj (hname.symm.trans hnew)) (Nat.ne_of_lt hm)
      · exact hs.written i hold
    · exact hs.written j hold

/-- The name of a file that is written is spent. -/
theorem Kept.spent_of_write (hk : Kept rt hands (threads, s)) (hlaw : (hands i).law c)
    (h : exec env rt c s.world = some (x, w')) (hc : c.writesFile = some name) :
    Spent rt (handsAfter hands threads.length i c x) w' name := by
  obtain ⟨hname, -, hown⟩ := hk.drawn (Held.law_writesFile hlaw hc)
  refine ⟨fileName_lt h hname, fun j hj => ?_⟩
  rcases handsAfter_drawn hj with ⟨-, hnext⟩ | ⟨hne, hold⟩
  · rcases Held.next_drawn hlaw h hnext with ⟨hnew, -⟩ | ⟨-, hother⟩
    · obtain ⟨m, hm, hname⟩ := hname
      exact absurd (rt.fileName_inj (hname.symm.trans hnew)) (Nat.ne_of_lt hm)
    · exact hother hc
  · exact hne (hown j hold)

theorem Kept.known_step (hk : Kept rt hands (threads, s)) (hlaw : (hands i).law c)
    (h : exec env rt c s.world = some (x, w')) (hname : name ∈ ((hands i).next c x).known) :
    name = [] ∨ Spent rt (handsAfter hands threads.length i c x) w' name := by
  rcases Held.next_known hlaw h hname with hnil | hknown | hwrites | ⟨k, object, hget, rfl⟩
  · exact .inl hnil
  · exact (hk.known name hknown).imp_right fun hs => hs.step hlaw h
  · exact .inr (hk.spent_of_write hlaw h hwrites)
  · exact (hk.records hget).imp_right fun hs => hs.step hlaw h

/-- A call of a thread. -/
theorem Kept.call (hk : Kept rt hands (threads, s)) (hi : threads[i]? = some ⟨label, .call c k⟩)
    (h : exec env rt c s.world = some (x, w')) :
    Kept rt (handsAfter hands threads.length i c x)
      (threads.set i ⟨label, k x⟩ ++ c.jobs env, ⟨w', s.dataS3Dir || c.ensuresDirectory⟩) := by
  obtain ⟨hlaw, hrest⟩ := hk.stores hi
  have hlt : i < threads.length := (List.getElem?_eq_some_iff.mp hi).1
  refine ⟨fun ho => ?_, fun hf => ?_, fun hdir => ?_, fun {j t} ht => ?_, fun {j} name hname => ?_,
    fun {j name} hname => ?_⟩
  · rcases internalName_of_call h ho with ⟨old, hold, he⟩ | ⟨hput, -⟩
    · rw [he]
      exact (hk.records hold).imp_right fun hs => hs.step hlaw h
    · rcases Held.law_writes hlaw hput with hnil | hknown
      · exact .inl hnil
      · exact (hk.known _ hknown).imp_right fun hs => hs.step hlaw h
  · rename_i name content
    rcases files_get?_of_call h hf with ⟨file, content', hold, he⟩ | hwrites
    · rw [he]
      exact (hk.files hold).step hlaw h
    · obtain ⟨⟨m, -, hm⟩, -⟩ := hk.drawn (Held.law_writesFile hlaw hwrites)
      have hsame : dataFileOf name = name := by rw [hm, dataFileOf_fileName]
      rw [hsame]
      exact hk.spent_of_write hlaw h hwrites
  · obtain ⟨hold, -⟩ := Bool.or_eq_false_iff.mp hdir
    refine OrderedMap.ext_get? fun name => ?_
    have hnone : s.world.files.get? name = none := by
      rw [show s.world.files = ∅ from hk.directory hold]
      rfl
    refine Eq.trans (Held.absent_of_call hlaw h (fun hwrites => ?_) hnone) rfl
    have hthere := (hk.drawn (Held.law_writesFile hlaw hwrites)).2.1
    rw [show s.dataS3Dir = false from hold] at hthere
    cases hthere
  · rcases Thread.getElem?_moved ht with ⟨rfl, rfl⟩ | ⟨hne, hold⟩ | ⟨hnew, hge⟩
    · rw [handsAfter, if_pos rfl]
      exact hrest x
    · rw [handsAfter, if_neg hne, if_pos (List.getElem?_eq_some_iff.mp hold).1]
      exact hk.stores hold
    · rw [handsAfter, if_neg (by omega), if_neg (by omega)]
      cases c with
      | startHashCreator algorithm object =>
        obtain rfl := List.mem_singleton.mp hnew
        exact s3HashCreator_stores algorithm object
      | _ => cases hnew
  · unfold handsAfter at hname
    split at hname
    · exact hk.known_step hlaw h hname
    · split at hname
      · exact (hk.known name hname).imp_right fun hs => hs.step hlaw h
      · cases c with
        | startHashCreator algorithm object =>
          obtain rfl := List.mem_singleton.mp hname
          have hnamed : object.internalName = [] ∨ object.internalName ∈ (hands i).known := hlaw
          rcases hnamed with hnil | hknown
          · exact .inl hnil
          · exact (hk.known _ hknown).imp_right fun hs => hs.step hlaw h
        | _ => cases hname
  · rcases handsAfter_drawn hname with ⟨rfl, hnext⟩ | ⟨hne, hold⟩
    · rcases Held.next_drawn hlaw h hnext with ⟨rfl, hdir⟩ | ⟨hold, hother⟩
      · refine ⟨⟨s.world.calls, ?_, rfl⟩, by simp [hdir], fun j' hj' => ?_⟩
        · rw [calls_of_call h]
          exact Nat.lt_succ_self _
        · rcases handsAfter_drawn hj' with ⟨he, -⟩ | ⟨-, hold'⟩
          · exact he
          · obtain ⟨⟨m, hm, he⟩, -⟩ := hk.drawn hold'
            exact absurd (rt.fileName_inj he.symm) (Nat.ne_of_lt hm)
      · obtain ⟨hm, hdir, hown⟩ := hk.drawn hold
        refine ⟨fileName_lt h hm, by simp [show s.dataS3Dir = true from hdir], fun j' hj' => ?_⟩
        rcases handsAfter_drawn hj' with ⟨he, -⟩ | ⟨-, hold'⟩
        · exact he
        · exact hown j' hold'
    · obtain ⟨hm, hdir, hown⟩ := hk.drawn hold
      refine ⟨fileName_lt h hm, by simp [show s.dataS3Dir = true from hdir], fun j' hj' => ?_⟩
      rcases handsAfter_drawn hj' with ⟨rfl, hnext⟩ | ⟨-, hold'⟩
      · rcases Held.next_drawn hlaw h hnext with ⟨hnew, -⟩ | ⟨hold', -⟩
        · obtain ⟨m, hm, he⟩ := hm
          exact absurd (rt.fileName_inj (he.symm.trans hnew)) (Nat.ne_of_lt hm)
        · exact hown j' hold'
      · exact hown j' hold'

/-- A name that no thread has drawn for a file stays free. -/
theorem Free.call (hf : Free name (threads, s)) (hk : Kept rt hands (threads, s))
    (hi : threads[i]? = some ⟨label, .call c k⟩) (h : exec env rt c s.world = some (x, w')) (hne : name ≠ [])
    (hdrawn : (hands i).drawn ≠ some name) :
    Free name (threads.set i ⟨label, k x⟩ ++ c.jobs env, ⟨w', s.dataS3Dir || c.ensuresDirectory⟩) := by
  obtain ⟨t, hnot, hlaw, hrest⟩ := hf.threads _ (List.mem_of_getElem? hi)
  have hother : ∀ {other : Str}, (other = [] ∨ other ∈ t.known) → other ≠ name := by
    rintro other (rfl | hknown) rfl
    · exact hne rfl
    · exact hnot hknown
  refine ⟨fun key object ho => ?_, fun u hu => ?_⟩
  · rcases internalName_of_call h ho with ⟨old, hold, he⟩ | ⟨hput, -⟩
    · rw [he]
      exact hf.records key old hold
    · exact hother (Held.law_writes hlaw hput)
  · rcases List.mem_append.mp hu with hmoved | hnew
    · rcases List.mem_or_eq_of_mem_set hmoved with hold | rfl
      · exact hf.threads u hold
      · refine ⟨t.next c x, fun hknown => ?_, hrest x⟩
        rcases Held.next_known hlaw h hknown with hnil | hold | hwrites | ⟨key, object, hget, he⟩
        · exact hne hnil
        · exact hnot hold
        · exact hdrawn (Held.law_writesFile (hk.stores hi).1 hwrites)
        · exact hf.records key object hget he
    · cases c with
      | startHashCreator algorithm object =>
        obtain rfl := List.mem_singleton.mp hnew
        refine ⟨_, fun hmem => ?_, s3HashCreator_stores algorithm object⟩
        exact hother hlaw (List.mem_singleton.mp hmem).symm
      | _ => cases hnew

end Step

end AwsMock.S3
