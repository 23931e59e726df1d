import AwsMock.Lib.Triple
import AwsMock.S3.Reads

/-!
# Encrypted objects

`GetObject` decrypts with the key its bucket yields now. Beside the world, notes say what was put into
each data file and the keys it was encrypted with since. In every history of settings, puts and copies
the data files are what the notes say, so an object is read back as it was put whenever its bucket yields
the keys of its file.
-/

namespace AwsMock.S3

open Lib

/-- What was put into a data file, and the keys it was encrypted with. -/
structure Origin where
  content : Str
  keys : List Str := []
  deriving DecidableEq

/-- The content of the file. -/
def Origin.stored (env : Env) (origin : Origin) : Str :=
  origin.keys.foldl (fun content key => env.encrypt key content) origin.content

/-- The notes: the origin of each data file. -/
abbrev Origins := OrderedMap Str Origin

/-- What was put first into a file of a name stays noted. -/
def Origins.note (origins : Origins) (name : Str) (origin : Option Origin) : Origins :=
  match origins.get? name, origin with
  | none, some origin => origins.insert name origin
  | _, _ => origins

/-- What a call adds to the notes. -/
def noteOrigin (rt : Runtime) (c : S3Call) (w : World) (_ : c.Reply) (_ : World) (origins : Origins) :
    Origins :=
  match c with
  | .writeFile name content => origins.note name (some { content := content })
  | .copyTo source target => origins.note target (origins.get? source)
  | .encryptFile name keyId =>
    match origins.get? name with
    | some origin =>
      origins.insert name { origin with keys := origin.keys ++ [rt.aes256Key w.calls keyId] }
    | none => origins
  | .deleteFile name => origins.eraseIf fun file _ => file = name
  | _ => origins

/-- The world with the notes. -/
abbrev Noted := World × Origins

/-- A call with its note. -/
def execNoted (env : Env) (rt : Runtime) : Prog.Exec S3Call S3Call.Reply Noted :=
  Prog.noting (exec env rt) (noteOrigin rt)

/-- The requests of a history: settings, puts, copies and reads. -/
def S3Request.ofHistory : S3Request → Bool
  | .createBucket .. | .putBucketEncryption .. | .putBucketVersioning .. | .putObject ..
  | .copyObject .. | .moveObject .. | .getObject .. => true
  | _ => false

/-- `P` holds whenever a `GetObject` of a run is served. -/
def AtReads (env : Env) (rt : Runtime) (P : Noted → GetObjectRequest → Prop) :
    List S3Request → Noted → Prop
  | [], _ => True
  | request :: run, s => (∀ r, request = .getObject r → P s r) ∧
      ∀ x s', (serve env request).run (execNoted env rt) s = some (x, s') → AtReads env rt P run s'

/-- `GetObject` answers with what was put into the data file of the object it finds. -/
def ReadsBack (env : Env) (rt : Runtime) (s : Noted) (request : GetObjectRequest) : Prop :=
  ∀ bucket object, Finds s.1 request bucket object → ∃ origin response w',
    s.2.get? object.internalName = some origin ∧
    (handleGetObject request).run (exec env rt) s.1 = some (.ok (response, origin.content), w')

/-- No version is asked for, and the bucket yields now the keys the data file was encrypted with. -/
def Decryptable (rt : Runtime) (s : Noted) (request : GetObjectRequest) : Prop :=
  ∀ bucket object origin, Finds s.1 request bucket object →
    s.2.get? object.internalName = some origin →
    (bucket.isVersioned → request.versionId = []) ∧
    origin.keys = if bucket.hasEncryption
      then [rt.aes256Key (s.1.calls + request.lookups) bucket.bucketEncryption.kmsKeyId] else []

/-! ### The data files are what the notes say -/

structure OriginsOk (env : Env) (rt : Runtime) (s : Noted) : Prop where
  files : ∀ {name origin}, s.2.get? name = some origin →
    s.1.files.get? name = some (origin.stored env)
  records : ∀ {k object}, s.1.db.objects.get? k = some object →
    ∃ origin, s.2.get? object.internalName = some origin
  names : ∀ {name origin}, s.2.get? name = some origin → ∃ i < s.1.calls, name = rt.fileName i

/-- While a request works on a file of its own, written or not yet, no record has it. -/
structure Working (env : Env) (rt : Runtime) (name : Str) (written : Bool) (s : Noted) : Prop
    extends OriginsOk env rt s where
  drawn : ∃ i < s.1.calls, name = rt.fileName i
  unused : ∀ {k object}, s.1.db.objects.get? k = some object → object.internalName ≠ name
  noted : (s.2.get? name).isSome = written

variable {env : Env} {rt : Runtime} {s s' : Noted} {c : S3Call} {x : c.Reply} {name : Str}

theorem execNoted_eq_some : execNoted env rt c s = some (x, s') ↔
    exec env rt c s.1 = some (x, s'.1) ∧ s'.2 = noteOrigin rt c s.1 x s'.1 s.2 :=
  Prog.noting_eq_some

/-- What a call has to respect for the notes to stay right. -/
def Careful (rt : Runtime) : S3Call → Noted → Prop
  | .createObject object, s | .updateObject object, s =>
    ∃ origin, s.2.get? object.internalName = some origin
  | .writeFile name _, s | .copyTo _ name, s =>
    (∃ i < s.1.calls, name = rt.fileName i) ∧ s.2.get? name = none
  | .deleteFile name, s =>
    ∀ {k object}, s.1.db.objects.get? k = some object → object.internalName ≠ name
  | .appendParts .., _ | .deleteBucketDirectory .., _ => False
  | _, _ => True

/-- The calls without a note, which put no record into the store. -/
def Silent : S3Call → Prop
  | .createObject .. | .updateObject .. | .writeFile .. | .copyTo .. | .encryptFile .. | .deleteFile ..
  | .appendParts .. | .deleteBucketDirectory .. => False
  | _ => True

theorem Silent.careful (hc : Silent c) (s : Noted) : Careful rt c s := by
  cases c with
  | createObject | updateObject | writeFile | copyTo | deleteFile | appendParts
  | deleteBucketDirectory => cases hc
  | _ => trivial

theorem Silent.note (hc : Silent c) (h : execNoted env rt c s = some (x, s')) : s'.2 = s.2 := by
  rw [(execNoted_eq_some.mp h).2]
  cases c with
  | createObject | updateObject | writeFile | copyTo | encryptFile | deleteFile | appendParts
  | deleteBucketDirectory => cases hc
  | _ => rfl

theorem fileName_ne_plainName (i : Nat) (name : Str) : rt.fileName i ≠ World.plainName name := by
  intro h
  have hdot : byte '.' ∈ World.plainName name := List.mem_append_right _ (by decide)
  exact rt.fileName_dot i (h ▸ hdot)

/-- Every file that a record names, or that a record put by the call names, is noted before and after it. -/
theorem OriginsOk.noted_step (hs : OriginsOk env rt s) (hc : Careful rt c s)
    (h : execNoted env rt c s = some (x, s')) {k : Str} {object : Object}
    (ho : s'.1.db.objects.get? k = some object) :
    ∃ origin, s.2.get? object.internalName = some origin := by
  obtain ⟨hcall, -⟩ := execNoted_eq_some.mp h
  rcases internalName_of_call hcall ho with ⟨object', hold, hname⟩ | ⟨hput, -⟩
  · rw [hname]
    exact hs.records hold
  · cases c with
    | createObject o =>
      have hsame : object = { o with oid := object.oid } := hput
      rw [hsame]
      exact hc
    | updateObject o =>
      have hsame : o = object := hput
      exact hsame ▸ hc
    | _ => cases hput

section Changes

variable (hs : OriginsOk env rt s) (hcalls : s.1.calls ≤ s'.1.calls)
  (hrecords : ∀ {k object}, s'.1.db.objects.get? k = some object →
    ∃ origin, s.2.get? object.internalName = some origin)

include hs hcalls

theorem OriginsOk.names_later {origin : Origin} (h : s.2.get? name = some origin) :
    ∃ i < s'.1.calls, name = rt.fileName i := by
  obtain ⟨i, hi, hname⟩ := hs.names h
  exact ⟨i, by omega, hname⟩

include hrecords

/-- The noted files stay. -/
theorem OriginsOk.keep (hnote : s'.2 = s.2)
    (hfiles : ∀ {name origin}, s.2.get? name = some origin →
      s'.1.files.get? name = s.1.files.get? name) : OriginsOk env rt s' where
  files h := by
    rw [hnote] at h
    rw [hfiles h]
    exact hs.files h
  records ho := by
    rw [hnote]
    exact hrecords ho
  names h := hs.names_later hcalls (hnote ▸ h)

/-- A file is written and noted. -/
theorem OriginsOk.write (origin : Origin) (hdrawn : ∃ i < s'.1.calls, name = rt.fileName i)
    (hnote : s'.2 = s.2.insert name origin)
    (hfiles : s'.1.files = s.1.files.insert name (origin.stored env)) : OriginsOk env rt s' where
  files {name' origin'} h := by
    rw [hnote] at h
    rw [hfiles]
    by_cases hname : name' = name
    · subst hname
      rw [OrderedMap.get?_insert_self, Option.some.injEq] at h
      rw [OrderedMap.get?_insert_self, h]
    · rw [OrderedMap.get?_insert_of_ne _ _ hname] at h ⊢
      exact hs.files h
  records {k object} ho := by
    obtain ⟨origin', h⟩ := hrecords ho
    rw [hnote]
    by_cases hname : object.internalName = name
    · exact ⟨origin, by rw [hname, OrderedMap.get?_insert_self]⟩
    · exact ⟨origin', by rw [OrderedMap.get?_insert_of_ne _ _ hname]; exact h⟩
  names {name' origin'} h := by
    rw [hnote] at h
    by_cases hname : name' = name
    · exact hname ▸ hdrawn
    · rw [OrderedMap.get?_insert_of_ne _ _ hname] at h
      exact hs.names_later hcalls h

end Changes

/-- A careful call keeps the notes right. -/
theorem OriginsOk.step (hs : OriginsOk env rt s) (hc : Careful rt c s)
    (h : execNoted env rt c s = some (x, s')) : OriginsOk env rt s' := by
  obtain ⟨hcall, hnote⟩ := execNoted_eq_some.mp h
  have hcalls : s.1.calls ≤ s'.1.calls := by
    rw [calls_of_call hcall]
    omega
  have hrecords : ∀ {k object}, s'.1.db.objects.get? k = some object →
      ∃ origin, s.2.get? object.internalName = some origin := fun ho => hs.noted_step hc h ho
  rcases htouch : c.touchesFiles with _ | _
  · refine hs.keep hcalls hrecords ?_ fun _ => by rw [files_of_call htouch hcall]
    rw [hnote]
    cases c with
    | writeFile | copyTo | encryptFile | deleteFile => cases htouch
    | _ => rfl
  obtain ⟨v, hv, he⟩ := exec_eq_some.mp hcall
  have hfiles : s'.1.files = v.files := by rw [he]
  cases c with
  | writeFile name content =>
    obtain ⟨⟨i, hi, hname⟩, hfree⟩ := hc
    cases hv
    exact hs.write hcalls hrecords { content := content } ⟨i, by omega, hname⟩
      (by rw [hnote]; simp [noteOrigin, Origins.note, hfree]) hfiles
  | copyTo source target =>
    obtain ⟨⟨i, hi, hname⟩, hfree⟩ := hc
    simp only [S3Call.apply, World.copyTo, Option.some.injEq] at hv
    rcases hsource : s.2.get? source with _ | origin
    · -- The source is not one of the noted files.
      refine hs.keep hcalls hrecords (by rw [hnote]; simp [noteOrigin, Origins.note, hsource]) ?_
      intro name origin hget
      have hne : name ≠ target := by
        rintro rfl
        rw [hfree] at hget
        cases hget
      rw [hfiles]
      split at hv
      · cases hv
        exact OrderedMap.get?_insert_of_ne _ _ hne
      · cases hv
        rfl
    · have hcontent := hs.files hsource
      rw [hcontent] at hv
      cases hv
      exact hs.write hcalls hrecords origin ⟨i, by omega, hname⟩
        (by rw [hnote]; simp [noteOrigin, Origins.note, hfree, hsource]) hfiles
  | encryptFile name keyId =>
    obtain ⟨_, hf, he'⟩ := Option.map_eq_some_iff.mp hv
    cases he'
    obtain ⟨content, hcontent, rfl⟩ := Option.map_eq_some_iff.mp hf
    rcases hget : s.2.get? name with _ | origin
    · refine hs.keep hcalls hrecords (by rw [hnote]; simp [noteOrigin, hget]) ?_
      intro name' origin hget'
      have hne : name' ≠ name := by
        rintro rfl
        rw [hget] at hget'
        cases hget'
      rw [hfiles]
      exact OrderedMap.get?_insert_of_ne _ _ hne
    · obtain ⟨i, hi, hname⟩ := hs.names hget
      have hstored := hs.files hget
      rw [hcontent, Option.some.injEq] at hstored
      refine hs.write hcalls hrecords
        { origin with keys := origin.keys ++ [rt.aes256Key s.1.calls keyId] } ⟨i, by omega, hname⟩
        (by rw [hnote]; simp [noteOrigin, hget]) ?_
      rw [hfiles, hstored]
      simp [Origin.stored, List.foldl_append]
  | decryptFile name keyId =>
    obtain ⟨_, hf, he'⟩ := Option.map_eq_some_iff.mp hv
    cases he'
    obtain ⟨content, hcontent, rfl⟩ := Option.map_eq_some_iff.mp hf
    refine hs.keep hcalls hrecords (by rw [hnote]; rfl) ?_
    intro name' origin hget
    obtain ⟨i, -, rfl⟩ := hs.names hget
    rw [hfiles]
    exact OrderedMap.get?_insert_of_ne _ _ (fileName_ne_plainName i name)
  | deleteFile name =>
    have hget : ∀ name', s'.2.get? name' = if name' = name then none else s.2.get? name' := by
      intro name'
      rw [hnote]
      exact OrderedMap.get?_eraseIf_key _ _ _
    refine ⟨?_, ?_, ?_⟩
    · intro name' origin h'
      rw [hget] at h'
      split at h'
      · cases h'
      · next hne =>
        rw [hfiles]
        simp only [S3Call.apply, World.deleteFile, Option.some.injEq] at hv
        split at hv
        · cases hv
          exact hs.files h'
        · cases hv
          rw [OrderedMap.get?_eraseIf_key, if_neg hne]
          exact hs.files h'
    · intro k object ho
      obtain ⟨origin, h'⟩ := hrecords ho
      refine ⟨origin, ?_⟩
      rw [hget, if_neg ?_]
      · exact h'
      · obtain ⟨object', hold, hname⟩ | ⟨hput, -⟩ := internalName_of_call hcall ho
        · exact hname ▸ hc hold
        · cases hput
    · intro name' origin h'
      rw [hget] at h'
      split at h'
      · cases h'
      · exact hs.names_later hcalls h'
  | appendParts | deleteBucketDirectory => cases hc
  | _ => cases htouch

/-! ### The programs of a history -/

section Programs

variable {α β : Type} {written : Bool}

/-- Whatever its outcome, a run ends in a state that meets `Q`. -/
def Leads (env : Env) (rt : Runtime) (Q : Noted → Prop) (p : S3Prog α) (s : Noted) : Prop :=
  p.Ensures (execNoted env rt) (fun _ _ => True) (fun _ => Q) s

theorem leads_bind {Q : Noted → Prop} {M : Noted → Prop} {p : S3Prog α} {f : α → S3Prog β}
    (hp : Leads env rt M p s) (hf : ∀ a s', M s' → Leads env rt Q (f a) s')
    (hweak : ∀ s', M s' → Q s') : Leads env rt Q (p >>= f) s :=
  Prog.ensures_bind_of hp (fun a s' => hf a s') fun _ s' => hweak s'

theorem leads_call {Q : Noted → Prop} {f : c.Reply → S3Prog α}
    (hf : ∀ x s', execNoted env rt c s = some (x, s') → Leads env rt Q (f x) s') :
    Leads env rt Q (call c >>= f) s :=
  Prog.ensures_perform_bind trivial fun r hr => hf r.1 r.2 hr

/-- Calls that are careful in every state. -/
theorem leads_careful {p : S3Prog α} (hp : p.Only fun c => ∀ s, Careful rt c s)
    (hs : OriginsOk env rt s) : Leads env rt (OriginsOk env rt) p s :=
  hp.ensures (fun _ _ _ _ => trivial) (fun _ s _ hc hs h => hs.step (hc s) h) hs

theorem Working.silent (hs : Working env rt name written s) (hc : Silent c)
    (h : execNoted env rt c s = some (x, s')) : Working env rt name written s' := by
  obtain ⟨hcall, -⟩ := execNoted_eq_some.mp h
  obtain ⟨i, hi, hname⟩ := hs.drawn
  refine { hs.toOriginsOk.step (hc.careful s) h with drawn := ?_, unused := ?_, noted := ?_ }
  · exact ⟨i, by rw [calls_of_call hcall]; omega, hname⟩
  · intro k object ho
    rcases internalName_of_call hcall ho with ⟨object', hold, hsame⟩ | ⟨hput, -⟩
    · exact hsame ▸ hs.unused hold
    · cases c with
      | createObject | updateObject => cases hc
      | _ => cases hput
  · rw [hc.note h]
    exact hs.noted

theorem Working.leads {p : S3Prog α} (hp : p.Only Silent) (hs : Working env rt name written s) :
    Leads env rt (Working env rt name written) p s :=
  hp.ensures (fun _ _ _ _ => trivial) (fun _ _ _ hc hs h => hs.silent hc h) hs

/-- A silent call and the rest of the program. -/
theorem Working.next {f : c.Reply → S3Prog α} (hc : Silent c) (hs : Working env rt name written s)
    (hf : ∀ x s', Working env rt name written s' → Leads env rt (OriginsOk env rt) (f x) s') :
    Leads env rt (OriginsOk env rt) (call c >>= f) s :=
  leads_call fun x s' h => hf x s' (hs.silent hc h)

theorem OriginsOk.next {f : c.Reply → S3Prog α} (hc : Silent c) (hs : OriginsOk env rt s)
    (hf : ∀ x s', OriginsOk env rt s' → Leads env rt (OriginsOk env rt) (f x) s') :
    Leads env rt (OriginsOk env rt) (call c >>= f) s :=
  leads_call fun x s' h => hf x s' (hs.step (hc.careful s) h)

/-- A request draws a file name of its own. -/
theorem OriginsOk.draw {f : Str → S3Prog α} (hs : OriginsOk env rt s)
    (hf : ∀ name s', Working env rt name false s' → s'.2 = s.2 →
      Leads env rt (OriginsOk env rt) (f name) s') :
    Leads env rt (OriginsOk env rt) (call .createS3FileName >>= f) s := by
  refine leads_call fun x s' h => hf x s' ?_ (Silent.note (c := .createS3FileName) trivial h)
  have hs' := hs.step (Silent.careful (c := .createS3FileName) trivial s) h
  obtain ⟨hcall, hnote⟩ := execNoted_eq_some.mp h
  have hfree : s.2.get? (rt.fileName s.1.calls) = none := by
    rw [Option.eq_none_iff_forall_ne_some]
    intro origin hget
    obtain ⟨i, hi, hname⟩ := hs.names hget
    exact absurd (rt.fileName_inj hname) (Nat.ne_of_gt hi)
  have hx : x = rt.fileName s.1.calls := by
    obtain ⟨v, hv, -⟩ := exec_eq_some.mp hcall
    cases hv
    rfl
  have hdb : s'.1.db = s.1.db := db_of_call (c := .createS3FileName) rfl hcall
  subst hx
  refine { hs' with drawn := ?_, unused := ?_, noted := ?_ }
  · exact ⟨s.1.calls, by rw [calls_of_call hcall]; omega, rfl⟩
  · intro k object ho hname
    rw [hdb] at ho
    obtain ⟨origin, hget⟩ := hs.records ho
    rw [hname, hfree] at hget
    cases hget
  · rw [hnote]
    change (s.2.get? _).isSome = false
    rw [hfree]
    rfl

/-- It writes the file. -/
theorem Working.write {f : Unit → S3Prog α} {content : Str} (hs : Working env rt name false s)
    (hf : ∀ s', Working env rt name true s' → Leads env rt (OriginsOk env rt) (f ()) s') :
    Leads env rt (OriginsOk env rt) (call (.writeFile name content) >>= f) s := by
  refine leads_call fun x s' h => hf s' ?_
  have hfree : s.2.get? name = none := by
    rw [← Option.not_isSome_iff_eq_none, hs.noted]
    simp
  have hs' := hs.toOriginsOk.step (c := .writeFile name content) ⟨hs.drawn, hfree⟩ h
  obtain ⟨hcall, hnote⟩ := execNoted_eq_some.mp h
  have hdb : s'.1.db = s.1.db := db_of_call (c := .writeFile name content) rfl hcall
  obtain ⟨i, hi, hname⟩ := hs.drawn
  refine { hs' with drawn := ?_, unused := ?_, noted := ?_ }
  · exact ⟨i, by rw [calls_of_call hcall]; omega, hname⟩
  · intro k object ho
    rw [hdb] at ho
    exact hs.unused ho
  · rw [hnote]
    simp [noteOrigin, Origins.note, hfree]

/-- The record of the file is put into the store. -/
theorem Working.created (hs : Working env rt name true s) {object : Object}
    (hname : object.internalName = name) {x : Object}
    (h : execNoted env rt (.createObject object) s = some (x, s')) : OriginsOk env rt s' :=
  hs.toOriginsOk.step (c := .createObject object)
    (by rw [Careful, hname]; exact Option.isSome_iff_exists.mp hs.noted) h

theorem Working.createOrUpdate {object : Object} (hs : Working env rt name true s)
    (hname : object.internalName = name) :
    Leads env rt (OriginsOk env rt) (createOrUpdateObject object) s := by
  have hnoted : ∀ {s}, Working env rt name true s → ∃ origin, s.2.get? object.internalName = some origin :=
    fun hs => hname ▸ Option.isSome_iff_exists.mp hs.noted
  refine hs.next trivial fun found s' hs' => ?_
  split
  · exact Prog.ensures_perform trivial fun r hr =>
      hs'.toOriginsOk.step (c := .updateObject object) (hnoted hs') hr
  · exact Prog.ensures_perform trivial fun r hr =>
      hs'.toOriginsOk.step (c := .createObject object) (hnoted hs') hr

theorem checkNotifications_silent (region bucket key : Str) (size : Int) (event : Str) :
    (checkNotifications region bucket key size event).Only Silent :=
  checkNotifications_only (fun _ _ => trivial) trivial (fun _ _ _ => trivial) _ _ _ _ _

theorem careful_of_silent {p : S3Prog α} (hp : p.Only Silent) :
    p.Only fun c => ∀ s, Careful rt c s :=
  hp.mono fun _ hc => hc.careful

theorem saveUnversionedObject_leads (request : PutObjectRequest) (entity : Bucket) (body : Str)
    (chunkEncoding : Bool) (hs : OriginsOk env rt s) : Leads env rt (OriginsOk env rt)
      (saveUnversionedObject env request entity body chunkEncoding) s := by
  refine hs.draw fun fileName s hs _ => ?_
  refine leads_bind (hs.leads (receiveContent_only (fun _ => trivial) _ _)) (fun content s hs => ?_)
    fun _ hs => hs.toOriginsOk
  refine hs.write fun s hs => ?_
  refine hs.next trivial fun size s hs => ?_
  refine hs.next trivial fun now s hs => ?_
  refine hs.next trivial fun stored s hs => ?_
  refine leads_bind (hs.leads (startHashing_only (fun _ _ => trivial) _ _)) (fun _ s hs => ?_)
    fun _ hs => hs.toOriginsOk
  refine leads_bind (hs.createOrUpdate rfl) (fun object s hs => ?_) fun _ hs => hs
  refine leads_careful ?_ hs
  exact Prog.only_bind (checkEncryption_only (fun _ _ _ => trivial) _ _) fun _ =>
    Prog.only_bind (careful_of_silent (checkNotifications_silent _ _ _ _ _)) fun _ => Prog.only_pure _

theorem createVersion_leads {request : PutObjectRequest} {entity : Bucket} {size : Int}
    (hs : Working env rt name true s) :
    Leads env rt (OriginsOk env rt) (createVersion env request entity name size) s := by
  refine hs.next trivial fun versionId s hs => ?_
  refine hs.next trivial fun now s hs => ?_
  refine hs.next trivial fun stored s hs => ?_
  refine leads_call fun object s' h => leads_careful ?_ (hs.created rfl h)
  exact Prog.only_bind (careful_of_silent (startHashing_only (fun _ _ => trivial) _ _)) fun _ =>
    Prog.only_bind (checkEncryption_only (fun _ _ _ => trivial) _ _) fun _ =>
      Prog.only_bind (careful_of_silent (checkNotifications_silent _ _ _ _ _)) fun _ => Prog.only_pure _

theorem saveVersionedObject_leads (request : PutObjectRequest) (entity : Bucket) (body : Str)
    (hs : OriginsOk env rt s) : Leads env rt (OriginsOk env rt)
      (saveVersionedObject env request entity body) s := by
  refine hs.draw fun fileName s hs _ => ?_
  refine hs.write fun s hs => ?_
  refine hs.next trivial fun size s hs => ?_
  refine hs.next trivial fun now s hs => ?_
  refine hs.next trivial fun existingObject s hs => ?_
  dsimp only
  split
  · refine leads_bind (createVersion_leads hs) (fun object s hs => ?_) fun _ hs => hs
    exact leads_careful (Prog.only_bind (Prog.only_perform fun _ => trivial) fun _ => Prog.only_pure _) hs
  · refine leads_call fun deleted s' h => leads_careful ?_
      (hs.toOriginsOk.step (c := .deleteFile fileName) hs.unused h)
    exact Prog.only_bind (Prog.only_ofExcept _) fun _ => Prog.only_bind (Prog.only_pure _) fun _ =>
      Prog.only_bind (Prog.only_perform fun _ => trivial) fun _ => Prog.only_pure _

theorem putObject_leads (request : PutObjectRequest) (body : Str) (chunkEncoding : Bool)
    (hs : OriginsOk env rt s) :
    Leads env rt (OriginsOk env rt) (putObject env request body chunkEncoding) s := by
  refine hs.next trivial fun found s hs => ?_
  split
  · refine Prog.ensures_mapThrow (OriginsOk.next trivial hs fun bucket s hs => ?_)
    split
    · exact saveVersionedObject_leads _ _ _ hs
    · exact saveUnversionedObject_leads _ _ _ _ hs
  · exact leads_careful (Prog.only_throw _) hs

/-- The copy of a record's file is noted, when it succeeds. -/
theorem Working.copy {f : Except S3Error Unit → S3Prog α} {source : Str}
    (hs : Working env rt name false s) (hsource : ∃ origin, s.2.get? source = some origin)
    (hf : ∀ x s', Working env rt name true s' → Leads env rt (OriginsOk env rt) (f x) s') :
    Leads env rt (OriginsOk env rt) (call (.copyTo source name) >>= f) s := by
  refine leads_call fun x s' h => hf x s' ?_
  have hfree : s.2.get? name = none := by
    rw [← Option.not_isSome_iff_eq_none, hs.noted]
    simp
  obtain ⟨origin, hget⟩ := hsource
  have hs' := hs.toOriginsOk.step (c := .copyTo source name) ⟨hs.drawn, hfree⟩ h
  obtain ⟨hcall, hnote⟩ := execNoted_eq_some.mp h
  have hdb : s'.1.db = s.1.db := db_of_call (c := .copyTo source name) rfl hcall
  obtain ⟨i, hi, hname⟩ := hs.drawn
  refine { hs' with drawn := ?_, unused := ?_, noted := ?_ }
  · exact ⟨i, by rw [calls_of_call hcall]; omega, hname⟩
  · intro k object ho
    rw [hdb] at ho
    exact hs.unused ho
  · rw [hnote]
    simp [noteOrigin, Origins.note, hfree, hget]

/-- A look at the store or its buckets leaves the records. -/
theorem OriginsOk.look {region bucket key : Str} {f : c.Reply → S3Prog α}
    (hc : Silent c ∧ c.touchesObjects = false)
    (hs : OriginsOk env rt s ∧ s.1.db.objectExists region bucket key)
    (hf : ∀ x s', OriginsOk env rt s' ∧ s'.1.db.objectExists region bucket key →
      Leads env rt (OriginsOk env rt) (f x) s') :
    Leads env rt (OriginsOk env rt) (call c >>= f) s := by
  refine leads_call fun x s' h => hf x s' ⟨hs.1.step (hc.1.careful s) h, ?_⟩
  rw [S3MemoryDb.objectExists, objects_eq_of_call hc.2 (execNoted_eq_some.mp h).1]
  exact hs.2

theorem copyTo_leads (missingTarget : S3Error) (request : CopyObjectRequest) (hs : OriginsOk env rt s) :
    Leads env rt (OriginsOk env rt) (copyTo missingTarget request) s := by
  refine hs.next trivial fun found s hs => ?_
  split
  swap
  · exact leads_careful (Prog.only_throw _) hs
  refine leads_call fun found s' h => ?_
  have hs' := hs.step (Silent.careful (c := .objectExists ..) trivial s) h
  obtain ⟨v, hv, he⟩ := exec_eq_some.mp (execNoted_eq_some.mp h).1
  cases hv
  split
  swap
  · exact leads_careful (Prog.only_throw _) hs'
  next hfound =>
    have hexists : s'.1.db.objectExists request.region request.sourceBucket request.sourceKey := by
      rw [he]
      exact hfound
    refine Prog.ensures_mapThrow (OriginsOk.look ⟨trivial, rfl⟩ ⟨hs', hexists⟩ fun found s hs => ?_)
    split
    swap
    · exact leads_careful (Prog.only_throw _) hs.1
    refine OriginsOk.look ⟨trivial, rfl⟩ hs fun targetBucket s hs => ?_
    -- The source is found, so its file is noted.
    obtain ⟨k, object, hget, -, hlookup⟩ := S3MemoryDb.getObject_eq hs.2 (rt.now s.1.calls)
    refine leads_call fun sourceObject s' h => ?_
    have hs' := hs.1.step (Silent.careful (c := .getObject ..) trivial s) h
    obtain ⟨v, hv, -⟩ := exec_eq_some.mp (execNoted_eq_some.mp h).1
    simp only [S3Call.apply, hlookup, Option.some.injEq, Prod.mk.injEq] at hv
    obtain ⟨rfl, -⟩ := hv
    have hsource : ∃ origin, s'.2.get? object.internalName = some origin := by
      rw [Silent.note (c := .getObject ..) trivial h]
      exact hs.1.records hget
    refine hs'.draw fun targetFile s hs hnote => ?_
    refine hs.copy (hnote ▸ hsource) fun copied s hs => ?_
    refine leads_bind (hs.leads (Prog.only_ofExcept _)) (fun _ s hs => ?_) fun _ hs => hs.toOriginsOk
    refine hs.next trivial fun now s hs => ?_
    dsimp only
    split
    all_goals
      refine leads_bind (hs.leads ?_) (fun versionId s hs => ?_) fun _ hs => hs.toOriginsOk
    · exact Prog.only_perform trivial
    rotate_left
    · exact Prog.only_pure _
    all_goals
      refine leads_call fun targetObject s' h => leads_careful ?_ (hs.created rfl h)
      exact Prog.only_bind (careful_of_silent (checkNotifications_silent _ _ _ _ _)) fun _ =>
        Prog.only_pure _

theorem silent_of_ofBuckets {p : S3Prog α} (hp : p.Only S3Call.OfBuckets) : p.Only Silent :=
  hp.mono fun c hc => by cases c <;> trivial

theorem silent_of_ofRead {p : S3Prog α} (hp : p.Only S3Call.OfRead) : p.Only Silent :=
  hp.mono fun c hc => by cases c <;> trivial

/-- Every request of a history keeps the notes right. -/
theorem serve_leads {request : S3Request} (hrequest : request.ofHistory) (hs : OriginsOk env rt s) :
    Leads env rt (OriginsOk env rt) (serve env request) s := by
  have hsilent : ∀ {p : S3Prog Unit}, p.Only Silent → Leads env rt (OriginsOk env rt) p s := fun hp =>
    leads_careful (careful_of_silent hp) hs
  have hanswer : ∀ {α : Type} {p : S3Prog α}, Leads env rt (OriginsOk env rt) p s →
      Leads env rt (OriginsOk env rt) (do let _ ← p) s := fun hp =>
    leads_bind hp (fun _ _ hs => hs) fun _ hs => hs
  cases request with
  | createBucket request =>
    exact hsilent (Prog.only_bind (silent_of_ofBuckets (createBucket_only request)) fun _ => Prog.only_pure _)
  | putBucketEncryption request => exact hsilent (silent_of_ofBuckets (putBucketEncryption_only request))
  | putBucketVersioning request => exact hsilent (silent_of_ofBuckets (putBucketVersioning_only request))
  | putObject request body chunkEncoding => exact hanswer (putObject_leads request body chunkEncoding hs)
  | getObject request =>
    exact hsilent (Prog.only_bind (silent_of_ofRead (handleGetObject_only request)) fun _ => Prog.only_pure _)
  | copyObject request | moveObject request => exact hanswer (copyTo_leads _ request hs)
  | _ => cases hrequest

end Programs

/-! ### Reading back -/

variable {request : GetObjectRequest}

/-- With the notes right, an object is read back when its bucket yields the keys of its file. -/
theorem readsBack_of_decryptable (hcipher : ∀ key content, env.decrypt key (env.encrypt key content) = content)
    (hs : OriginsOk env rt s) (h : Decryptable rt s request) : ReadsBack env rt s request := by
  intro bucket object hfinds
  obtain ⟨-, ko, hobject⟩ := id hfinds
  obtain ⟨origin, hget⟩ := hs.records (OrderedMap.findIf_some hobject).1
  obtain ⟨hversion, hkeys⟩ := h bucket object origin hfinds hget
  obtain ⟨response, w', hrun, -⟩ := handleGetObject_run env rt hfinds hversion (hs.files hget)
  have hread : (if bucket.hasEncryption then env.decrypt (rt.aes256Key (s.1.calls + request.lookups)
      bucket.bucketEncryption.kmsKeyId) (origin.stored env) else origin.stored env) =
      origin.content := by
    rw [Origin.stored, hkeys]
    split
    · exact hcipher _ _
    · rfl
  rw [hread] at hrun
  exact ⟨origin, response, w', hget, hrun⟩

/-! ### Histories -/

theorem atReads_readsBack
    (hcipher : ∀ key content, env.decrypt key (env.encrypt key content) = content) :
    ∀ {run : List S3Request} {s : Noted}, (∀ request ∈ run, request.ofHistory) → OriginsOk env rt s →
      AtReads env rt (Decryptable rt) run s → AtReads env rt (ReadsBack env rt) run s
  | [], _, _, _, _ => trivial
  | request :: run, s, hrun, hs, ⟨hread, hrest⟩ => by
    refine ⟨fun r hr => readsBack_of_decryptable hcipher hs (hread r hr), fun x s' h => ?_⟩
    have hs' := (serve_leads (hrun request (by simp)) hs).of_run h
    exact atReads_readsBack hcipher (fun r hr => hrun r (by simp [hr])) hs' (hrest x s' h)

end AwsMock.S3
