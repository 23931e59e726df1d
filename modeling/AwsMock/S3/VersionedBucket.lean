import AwsMock.S3.ChunkedUpload
import AwsMock.S3.Serving
import Mathlib.Logic.Relation

/-!
# Versioned buckets

Puts and deletions in a versioned bucket, beside a log of the puts that succeeded. A put makes a new
version unless one has the digest of the request, and `GetObject` takes the version whose random id comes
first; it has no way to a version by its version id.
-/

namespace AwsMock.S3

open Lib

inductive VersionedRequest
  | putObject (request : PutObjectRequest) (payload : Payload)
  | deleteObject (request : DeleteObjectRequest)

namespace VersionedRequest

/-- The bucket it changes. -/
def On (region bucket : Str) : VersionedRequest → Prop
  | .putObject request _ => request.region = region ∧ request.bucket = bucket
  | .deleteObject request => request.region = region ∧ request.bucket = bucket

def toRequest : VersionedRequest → S3Request
  | .putObject request payload => .putObject request payload.body payload.chunked.isSome
  | .deleteObject request => .deleteObject request

end VersionedRequest

/-- A put that has succeeded. -/
structure Put where
  key : Str
  content : Str
  response : PutObjectResponse

/-- The puts that have succeeded, and the content put last under each key since it was deleted. -/
structure PutLog where
  puts : List Put := []
  latest : OrderedMap Str Str := ∅

/-- A request is served, and the log notes its success. -/
inductive ServesVersioned (env : Env) (rt : Runtime) (P : World → VersionedRequest → Prop) :
    PutLog × World → PutLog × World → Prop
  | put {log : PutLog} {w w' : World} (request : PutObjectRequest) (payload : Payload)
      {response : PutObjectResponse} (hrequest : P w (.putObject request payload))
      (hrun : (putObject env request payload.body payload.chunked.isSome).run (exec env rt) w =
        some (.ok response, w')) :
      ServesVersioned env rt P (log, w)
        ({ puts := { key := request.key, content := payload.content, response := response } :: log.puts,
           latest := log.latest.insert request.key payload.content }, w')
  | delete {log : PutLog} {w w' : World} (request : DeleteObjectRequest)
      (hrequest : P w (.deleteObject request))
      (hrun : (deleteObject env request).run (exec env rt) w = some (.ok (), w')) :
      ServesVersioned env rt P (log, w)
        ({ log with latest := log.latest.eraseIf fun key _ => key = request.key }, w')
  | error {log : PutLog} {w w' : World} {e : S3Error} (request : VersionedRequest)
      (hrequest : P w request)
      (hrun : (serve env request.toRequest).run (exec env rt) w = some (.error e, w')) :
      ServesVersioned env rt P (log, w) (log, w')

/-- The response to a put has a version id, and the size and digest of its content. -/
def Put.Answered (env : Env) (put : Put) : Prop :=
  put.response.versionId ≠ [] ∧ put.response.contentLength = put.content.length ∧
    put.response.md5Sum = env.md5 put.content

/-- `GetObject` without a version id answers with the content put last. -/
def ReadsNewest (env : Env) (rt : Runtime) (region bucket : Str) (log : PutLog) (w : World) : Prop :=
  ∀ request : GetObjectRequest, request.region = region → request.bucket = bucket →
    request.versionId = [] → ∀ content, log.latest.get? request.key = some content →
      ∃ response w', (handleGetObject request).run (exec env rt) w = some (.ok (response, content), w')

/-- `GetObject` with the version id of a put answers with its content. -/
def ReadsVersion (env : Env) (rt : Runtime) (region bucket : Str) (put : Put) (w : World) : Prop :=
  ∃ response w', (handleGetObject
    { region := region, bucket := bucket, key := put.key, versionId := put.response.versionId }).run
      (exec env rt) w = some (.ok (response, put.content), w')

/-- The number of calls before a put creates its version. -/
def putCalls : Nat := 10

/-- The put asks for no checksum, its payload is plain, no version has the digest of the request, and the
    id drawn for the new version comes first, unless the version that is first has the same content. -/
def VersionedRequest.Sound (env : Env) (rt : Runtime) (w : World) : VersionedRequest → Prop
  | .putObject request payload => request.checksumAlgorithm = [] ∧ payload.chunked = none ∧
    (w.db.objects.findIf fun _ o => o.isAt request.region request.bucket request.key ∧
      o.md5sum = env.contentMd5 request.md5Sum) = none ∧
    ∀ it, (w.db.objects.findIf fun _ o => o.isAt request.region request.bucket request.key) = some it →
      rt.uuid (w.calls + putCalls) < it.1 ∨ w.files.get? it.2.internalName = some payload.content
  | .deleteObject _ => True

/-- A request on the bucket that goes well, also with the other services. -/
def VersionedRequest.GoesWell (env : Env) (rt : Runtime) (region bucket : Str) (w : World)
    (request : VersionedRequest) : Prop :=
  request.On region bucket ∧ request.Sound env rt w ∧
    ¬ (serve env request.toRequest).Makes (exec env rt) (fun c w => failing rt c w = true) w

/-! ### What stays true -/

/-- The first record of a key has the content put last. -/
def NewestFirst (region bucket : Str) (latest : OrderedMap Str Str) (w : World) : Prop :=
  ∀ {key content}, latest.get? key = some content → ∃ k object,
    w.db.objects.findIf (fun _ o => o.isAt region bucket key) = some (k, object) ∧
    object.internalName ≠ [] ∧ w.files.get? object.internalName = some content

/-- A record's data file holds a content. -/
def Holds (name content : Str) (w : World) : Prop :=
  name ≠ [] ∧ (∃ k object, w.db.objects.get? k = some object ∧ object.internalName = name) ∧
    w.files.get? name = some content

/-- The first record of a key is behind an id, or its data file holds a content. -/
def Precedes (region bucket key id content : Str) (w : World) : Prop :=
  ∀ {k object}, w.db.objects.findIf (fun _ o => o.isAt region bucket key) = some (k, object) →
    id < k ∨ object.internalName ≠ [] ∧ w.files.get? object.internalName = some content

variable {env : Env} {rt : Runtime} {w w' : World} {c : S3Call} {x : c.Reply}
  {region bucket key : Str} {latest : OrderedMap Str Str}

/-- A lookup leaves the first record of a key, up to the key written into it. -/
theorem find_of_look {k k' : Str} {object object' : Object} (hget : w.db.objects.get? k = some object)
    (hobjects : w'.db.objects = w.db.objects.insert k { object with oid := k })
    (hfind : w.db.objects.findIf (fun _ o => o.isAt region bucket key) = some (k', object')) :
    ∃ object'', SameRecord object' object'' ∧
      w'.db.objects.findIf (fun _ o => o.isAt region bucket key) = some (k', object'') := by
  have hsame : (w.db.objects.insert k { object with oid := k }).findIf
      (fun _ o => o.isAt region bucket key) = _ := OrderedMap.findIf_insert_of_same hget rfl
  rw [hfind, Option.map_some] at hsame
  rw [hobjects, hsame]
  by_cases hk : k' = k
  · subst hk
    have hold := (OrderedMap.findIf_some hfind).1
    rw [hget, Option.some.injEq] at hold
    subst hold
    rw [if_pos rfl]
    exact ⟨{ object with oid := k' }, rfl, rfl⟩
  · rw [if_neg hk]
    exact ⟨_, .refl _, rfl⟩

instance : Stable (NewestFirst region bucket latest) where
  congr hobjects hfiles hw key content h := by
    obtain ⟨k, object, hfind, hname, hfile⟩ := hw h
    refine ⟨k, object, hobjects ▸ hfind, hname, ?_⟩
    rw [hfiles (OrderedMap.findIf_some hfind).1 hname, hfile]
  look hget hobjects hfiles hw key content h := by
    obtain ⟨k', object', hfind, hname, hfile⟩ := hw h
    obtain ⟨object'', hsame, hfind'⟩ := find_of_look hget hobjects hfind
    refine ⟨k', object'', hfind', ?_⟩
    rw [hsame, hfiles]
    exact ⟨hname, hfile⟩

instance {id content : Str} : Stable (Precedes region bucket key id content) where
  congr hobjects hfiles hw k object hfind := by
    rw [hobjects] at hfind
    rcases hw hfind with hlt | ⟨hname, hfile⟩
    · exact Or.inl hlt
    · exact Or.inr ⟨hname, hfiles (OrderedMap.findIf_some hfind).1 hname ▸ hfile⟩
  look {w w' k object} hget hobjects hfiles hw k' object' hfind := by
    rcases hold : w.db.objects.findIf fun _ o => o.isAt region bucket key with _ | ⟨k'', old⟩
    · -- There was no record, so there is none now.
      have hsame : (w.db.objects.insert k { object with oid := k }).findIf
          (fun _ o => o.isAt region bucket key) = _ := OrderedMap.findIf_insert_of_same hget rfl
      rw [hobjects, hsame, hold] at hfind
      cases hfind
    · obtain ⟨object'', hsame, hfind'⟩ := find_of_look hget hobjects hold
      rw [hfind, Option.some.injEq, Prod.mk.injEq] at hfind'
      obtain ⟨rfl, rfl⟩ := hfind'
      have hprec := hw hold
      rw [hsame, hfiles]
      exact hprec

instance {name content : Str} : Stable (Holds name content) where
  congr hobjects hfiles hw := by
    obtain ⟨hne, ⟨k, object, hget, rfl⟩, hfile⟩ := hw
    exact ⟨hne, ⟨k, object, hobjects ▸ hget, rfl⟩, hfiles hget hne ▸ hfile⟩
  look {w w' k object} hget hobjects hfiles hw := by
    obtain ⟨hne, ⟨k', object', hget', hname⟩, hfile⟩ := hw
    refine ⟨hne, ?_, hfiles ▸ hfile⟩
    rw [hobjects]
    by_cases hk : k' = k
    · subst hk
      rw [hget, Option.some.injEq] at hget'
      exact ⟨k', _, OrderedMap.get?_insert_self _ _ _, by rw [← hname, ← hget']⟩
    · exact ⟨k', object', by rw [OrderedMap.get?_insert_of_ne _ _ hk]; exact hget', hname⟩

instance {I J : World → Prop} [Stable I] [Stable J] : Stable fun w => I w ∧ J w where
  congr hobjects hfiles hw := ⟨Stable.congr hobjects hfiles hw.1, Stable.congr hobjects hfiles hw.2⟩
  look hget hobjects hfiles hw := ⟨Stable.look hget hobjects hfiles hw.1, Stable.look hget hobjects hfiles hw.2⟩

/-- A new version of a key comes first, or the version that is first has its content. -/
theorem NewestFirst.put {k content : Str} {object : Object} (hw : NewestFirst region bucket latest w)
    (hfresh : w.db.objects.get? k = none) (hobjects : w'.db.objects = w.db.objects.insert k object)
    (hfiles : w'.files = w.files) (hat : object.isAt region bucket key) (hname : object.internalName ≠ [])
    (hfile : w.files.get? object.internalName = some content)
    (hfirst : Precedes region bucket key k content w) :
    NewestFirst region bucket (latest.insert key content) w' := by
  intro key' content' h
  rw [hobjects, hfiles]
  by_cases hkey : key' = key
  · subst hkey
    rw [OrderedMap.get?_insert_self, Option.some.injEq] at h
    subst h
    rcases hfind : w.db.objects.findIf fun _ o => o.isAt region bucket key' with _ | ⟨k', old⟩
    · refine ⟨k, object, OrderedMap.findIf_insert_front hat fun k' o hget hat' => ?_, hname, hfile⟩
      rw [OrderedMap.findIf_none.mp hfind k' o hget] at hat'
      cases hat'
    · rcases hfirst hfind with hlt | ⟨hname', hfile'⟩
      · refine ⟨k, object, OrderedMap.findIf_insert_front hat fun k'' o hget hat' => ?_, hname, hfile⟩
        exact hlt.le.trans (OrderedMap.findIf_le hfind hget hat')
      · have hne : k ≠ k' := by
          rintro rfl
          rw [(OrderedMap.findIf_some hfind).1] at hfresh
          cases hfresh
        rcases lt_or_gt_of_ne hne with hlt | hgt
        · refine ⟨k, object, OrderedMap.findIf_insert_front hat fun k'' o hget hat' => ?_, hname, hfile⟩
          exact hlt.le.trans (OrderedMap.findIf_le hfind hget hat')
        · exact ⟨k', old, OrderedMap.findIf_insert_behind hfind hgt, hname', hfile'⟩
  · rw [OrderedMap.get?_insert_of_ne _ _ hkey] at h
    obtain ⟨k', o, hfind, hrest⟩ := hw h
    refine ⟨k', o, ?_, hrest⟩
    rw [OrderedMap.findIf_insert_of_not hfresh ?_]
    · exact hfind
    · by_contra hat'
      rw [Bool.not_eq_false] at hat'
      exact hkey (isAt_key hat' hat)

/-- `DeleteObject` takes a key out of the log. -/
theorem newestFirst_deletes : Deletes region bucket key (NewestFirst region bucket latest)
    (NewestFirst region bucket (latest.eraseIf fun k _ => k = key)) where
  missing hw _ key' content h := by
    rw [OrderedMap.get?_eraseIf_key] at h
    split at h
    · cases h
    · exact hw h
  erase {w w'} hw hobjects hfiles key' content h := by
    rw [OrderedMap.get?_eraseIf_key] at h
    split at h
    · cases h
    · next hkey =>
      obtain ⟨k, object, hfind, hrest⟩ := hw h
      refine ⟨k, object, ?_, hfiles ▸ hrest⟩
      rw [hobjects, OrderedMap.findIf_eraseIf_of_disjoint fun _ o hat => ?_]
      · exact hfind
      · exact (isKeyed_of_isAt hat).mpr hkey
  back {w w' k found} hw hit hname hw' key' content h := by
    refine hw' ?_
    rw [OrderedMap.get?_eraseIf_key, if_neg ?_]
    · exact h
    · -- A key in the log has a first record with a data file.
      rintro rfl
      obtain ⟨k', object, hfind, hname', -⟩ := hw h
      rw [hit, Option.some.injEq, Prod.mk.injEq] at hfind
      exact hname' (hfind.2 ▸ hname)

/-! ### The requests, one call at a time -/

variable {I : World → Prop} {frame : OrderedMap Str Object → Prop} {draft : Draft}
  {content : Str}

/-- A new version is created. -/
theorem Midway.createVersion (I' : World → Prop) {object reply : Object}
    (hm : Midway rt region bucket true I frame (.written object.internalName) content w)
    (h : exec env rt (.createObject object) w = some (reply, w'))
    (hkept : w.db.objects.get? (rt.uuid w.calls) = none → object.internalName ≠ [] →
      w.files.get? object.internalName = some content → w'.files = w.files →
      w'.db.objects = w.db.objects.insert (rt.uuid w.calls) { object with oid := rt.uuid w.calls } → I' w') :
    reply.versionId = object.versionId ∧
      Settled rt region bucket true (fun w => I' w ∧ Holds object.internalName content w) w' := by
  have hfiles := files_of_call rfl h
  obtain ⟨v, hv, hw'⟩ := exec_eq_some.mp h
  simp only [S3Call.apply, S3MemoryDb.createObject_eq, Option.some.injEq, Prod.mk.injEq] at hv
  have hobjects : w'.db.objects =
      w.db.objects.insert (rt.uuid w.calls) { object with oid := rt.uuid w.calls } := by rw [hw', ← hv.2]
  have hlaw : Draft.law True (.written object.internalName) (.createObject object) := Or.inr rfl
  have hname := hm.drafting.2.ne
  refine ⟨by rw [← hv.1], .step hm.drafting h hlaw, hasSettings_of_call rfl h hm.settings, ?_, hname, ?_, ?_⟩
  · exact hkept hm.drafting.wellFormed.drawn.fresh_object hname (hm.file rfl) hfiles hobjects
  · exact ⟨_, { object with oid := rt.uuid w.calls }, by rw [hobjects, OrderedMap.get?_insert_self], rfl⟩
  · rw [hfiles]
    exact hm.file rfl

variable [Stable I]

/-- No version has the digest. -/
theorem Midway.lookMissing {region' bucket' key' md5sum : Str} {object : Object}
    (hm : Midway rt region bucket true I frame draft content w)
    (h : exec env rt (.getObjectMd5 region' bucket' key' md5sum) w = some (object, w'))
    (hnone : (w.db.objects.findIf fun _ o => o.isAt region' bucket' key' ∧ o.md5sum = md5sum) = none) :
    object.oid = [] ∧ Midway rt region bucket true I frame draft content w' := by
  have hfiles := files_of_call rfl h
  obtain ⟨v, hv, hw'⟩ := exec_eq_some.mp h
  simp only [S3Call.apply, S3MemoryDb.getObjectMd5, hnone, S3MemoryDb.fetchObject, Option.some.injEq,
    Prod.mk.injEq] at hv
  have hobjects : w'.db.objects = w.db.objects := by rw [hw', ← hv.2]
  refine ⟨by rw [← hv.1], ?_, hasSettings_of_call rfl h hm.settings, ?_, hobjects ▸ hm.found,
    fun hname => hfiles ▸ hm.file hname⟩
  · have hlaw : Draft.law True draft (.getObjectMd5 region' bucket' key' md5sum) := trivial
    refine hm.drafting.stay h hlaw ?_ rfl
    rintro _ ⟨⟩
  · exact Stable.congr hobjects (fun _ _ => by rw [hfiles]) hm.kept

section Programs

variable {failed : World → Prop} {calls : Nat}

theorem createVersion_ends {request : PutObjectRequest} {entity : Bucket} {fileName body : Str} {size : Int}
    (hm : Midway rt request.region request.bucket true
      (fun w => NewestFirst request.region request.bucket latest w ∧
        Precedes request.region request.bucket request.key (rt.uuid calls) body w)
      frame (.written fileName) body w)
    (hcalls : calls = w.calls + 3) (hencrypted : entity.hasEncryption = false) :
    Ends env rt (fun object w' => object.versionId ≠ [] ∧ Settled rt request.region request.bucket true
        (fun w => NewestFirst request.region request.bucket (latest.insert request.key body) w ∧
          Holds fileName body w) w')
      failed (createVersion env request entity fileName size) w := by
  refine ends_call fun versionId w₁ h₁ _ => ?_
  have hm₁ := hm.pass h₁ trivial
  have hversion : versionId ≠ [] := by
    obtain ⟨v, hv, -⟩ := exec_eq_some.mp h₁
    cases hv
    exact rt.versionId_ne _
  refine ends_call fun now w₂ h₂ _ => ?_
  have hm₂ := hm₁.pass h₂ trivial
  refine ends_call fun stored w₃ h₃ _ => ?_
  have hm₃ := hm₂.pass h₃ trivial
  have hcalls₃ : calls = w₃.calls := by
    rw [calls_of_call h₃, calls_of_call h₂, calls_of_call h₁]
    exact hcalls
  subst hcalls₃
  refine ends_call fun object w₄ h₄ _ => ?_
  obtain ⟨hreply, hs₄⟩ := hm₃.createVersion
    (NewestFirst request.region request.bucket (latest.insert request.key body)) h₄
    fun hfresh hname hfile hfiles hobjects =>
      NewestFirst.put hm₃.kept.1 hfresh hobjects hfiles (by simp [Object.isAt]) hname hfile hm₃.kept.2
  have hm₄ : Midway rt request.region request.bucket true _ (fun _ => True) .none [] w₄ :=
    hs₄.midway trivial
  refine hm₄.hash _ _ fun w₅ hm₅ => ?_
  refine ends_bind (checkEncryption_ends object hencrypted hm₅.settled) fun _ w₆ hs₆ => ?_
  refine ends_bind (checkNotifications_ends _ _ _ _ _ hs₆) fun _ w₇ hs₇ => ?_
  exact ⟨hreply ▸ hversion, hs₇⟩

/-- A file has a name. -/
theorem WellFormed.file_ne {name content : Str} (hw : WellFormed rt w)
    (h : w.files.get? name = some content) : name ≠ [] := by
  rintro rfl
  obtain ⟨i, -, hname⟩ := hw.files h
  exact rt.fileName_ne i hname.symm

theorem putVersion_ends {request : PutObjectRequest} {payload : Payload}
    (hs : Settled rt request.region request.bucket true (NewestFirst request.region request.bucket latest) w)
    (hplain : payload.chunked = none)
    (hnone : (w.db.objects.findIf fun _ o => o.isAt request.region request.bucket request.key ∧
      o.md5sum = env.contentMd5 request.md5Sum) = none)
    (hfirst : ∀ it, (w.db.objects.findIf fun _ o => o.isAt request.region request.bucket request.key) =
      some it → rt.uuid (w.calls + putCalls) < it.1 ∨
        w.files.get? it.2.internalName = some payload.content) :
    Ends env rt (fun response w' => Settled rt request.region request.bucket true
        (NewestFirst request.region request.bucket (latest.insert request.key payload.content)) w' ∧
        Put.Answered env { key := request.key, content := payload.content, response := response })
      (Settled rt request.region request.bucket true (NewestFirst request.region request.bucket latest))
      (putObject env request payload.body payload.chunked.isSome) w := by
  have hm : Midway rt request.region request.bucket true
      (fun v => NewestFirst request.region request.bucket latest v ∧
        Precedes request.region request.bucket request.key (rt.uuid (w.calls + putCalls))
          payload.content v)
      (fun objects => objects = w.db.objects) .none [] w := by
    refine ⟨hs.wellFormed, hs.settings, ⟨hs.kept, fun hfind => ?_⟩, rfl, nofun⟩
    rcases hfirst _ hfind with hlt | hfile
    · exact Or.inl hlt
    · exact Or.inr ⟨hs.wellFormed.file_ne hfile, hfile⟩
  have hbody : payload.body = payload.content := by simp [Payload.body, hplain]
  rw [hbody]
  refine ends_call fun exists_ w₁ h₁ _ => ?_
  have hm₁ := hm.pass h₁ trivial
  split
  swap
  · exact ⟨hm₁.drafting.wellFormed, hm₁.settings, hm₁.kept.1⟩
  refine ends_guarded (ends_call fun entity w₂ h₂ _ => ?_)
  obtain ⟨hversioned, hencrypted⟩ := hasSettings_lookup hm₁.settings h₂
  have hm₂ := hm₁.pass h₂ trivial
  rw [if_pos hversioned]
  refine ends_call fun fileName w₃ h₃ _ => ?_
  refine ends_call fun _ w₄ h₄ _ => ?_
  have hfiles : w₄.files = w₃.files.insert fileName payload.content := by
    obtain ⟨v, hv, rfl⟩ := exec_eq_some.mp h₄
    cases hv
    rfl
  have hm₄ := (hm₂.draw h₃).write h₄ rfl hfiles
  refine ends_call fun size w₅ h₅ _ => ?_
  have hm₅ := hm₄.pass h₅ trivial
  have hsize : size = (payload.content.length : Int) := by
    obtain ⟨v, hv, -⟩ := exec_eq_some.mp h₅
    have hreply := (Prod.mk.inj (Option.some.inj hv)).1
    rw [hm₄.file rfl] at hreply
    exact hreply.symm
  refine ends_call fun now w₆ h₆ _ => ?_
  have hm₆ := hm₅.pass h₆ trivial
  refine ends_call fun existingObject w₇ h₇ _ => ?_
  obtain ⟨hoid, hm₇⟩ := hm₆.lookMissing h₇ (hm₆.found.symm ▸ hnone)
  have hcalls : w.calls + putCalls = w₇.calls + 3 := by
    have := calls_of_call h₁
    have := calls_of_call h₂
    have := calls_of_call h₃
    have := calls_of_call h₄
    have := calls_of_call h₅
    have := calls_of_call h₆
    have := calls_of_call h₇
    simp only [putCalls]
    omega
  dsimp only
  rw [if_pos hoid]
  refine ends_bind (createVersion_ends hm₇ hcalls hencrypted) fun object w₈ ⟨hversion, hs₈⟩ => ?_
  refine ends_call fun stored w₉ h₉ _ => ?_
  have hm₈ : Midway rt request.region request.bucket true _ (fun _ => True) .none [] w₈ :=
    hs₈.midway trivial
  have hm₉ := hm₈.pass h₉ trivial
  have hstored : stored = payload.content := by
    obtain ⟨v, hv, -⟩ := exec_eq_some.mp h₉
    have hreply := (Prod.mk.inj (Option.some.inj hv)).1
    rw [World.read, hs₈.kept.2.2.2] at hreply
    exact hreply.symm
  exact ⟨⟨hm₉.drafting.wellFormed, hm₉.settings, hm₉.kept.1⟩, hversion, hsize, congrArg env.md5 hstored⟩

end Programs

/-! ### Runs -/

/-- The bucket is settled, and the puts so far were answered right. -/
def Logged (env : Env) (rt : Runtime) (region bucket : Str) (s : PutLog × World) : Prop :=
  Settled rt region bucket true (NewestFirst region bucket s.1.latest) s.2 ∧
    ∀ put ∈ s.1.puts, put.Answered env

theorem Logged.step {s s' : PutLog × World} (hs : Logged env rt region bucket s)
    (h : ServesVersioned env rt (VersionedRequest.GoesWell env rt region bucket) s s') :
    Logged env rt region bucket s' := by
  obtain ⟨hsettled, hputs⟩ := hs
  cases h with
  | put request payload hrequest hrun =>
    obtain ⟨⟨rfl, rfl⟩, ⟨-, hplain, hnone, hfirst⟩, hmakes⟩ := hrequest
    have hput : Ends env rt _ _ _ _ := putVersion_ends hsettled hplain hnone hfirst
    rw [← Prog.run_without fun h => hmakes (Prog.makes_bind.mpr (Or.inl h))] at hrun
    obtain ⟨hsettled', hanswered⟩ := hput.of_run hrun
    refine ⟨hsettled', fun put hmem => ?_⟩
    rcases List.mem_cons.mp hmem with rfl | hmem
    · exact hanswered
    · exact hputs put hmem
  | delete request hrequest hrun =>
    obtain ⟨⟨rfl, rfl⟩, -, hmakes⟩ := hrequest
    have hdelete : Ends env rt _ _ _ _ := deleteObject_ends hsettled newestFirst_deletes
    rw [← Prog.run_without (p := deleteObject env request) hmakes] at hrun
    exact ⟨hdelete.of_run hrun, hputs⟩
  | error request hrequest hrun =>
    obtain ⟨hon, hsound, hmakes⟩ := hrequest
    rw [← Prog.run_without hmakes] at hrun
    refine ⟨?_, hputs⟩
    cases request with
    | putObject request payload =>
      obtain ⟨rfl, rfl⟩ := hon
      obtain ⟨-, hplain, hnone, hfirst⟩ := hsound
      have hput : Ends env rt _ _ _ _ := putVersion_ends hsettled hplain hnone hfirst
      have hserve : Ends env rt (fun _ _ => True) _
          (do let _ ← putObject env request payload.body payload.chunked.isSome : S3Prog Unit) _ :=
        ends_bind hput fun _ _ _ => trivial
      exact hserve.of_run hrun
    | deleteObject request =>
      obtain ⟨rfl, rfl⟩ := hon
      have hdelete : Ends env rt _ _ _ _ := deleteObject_ends hsettled newestFirst_deletes
      exact hdelete.of_run hrun

/-- Of a key in the log, the newest version is found. -/
theorem Logged.readsNewest {s : PutLog × World} (hs : Logged env rt region bucket s) :
    ReadsNewest env rt region bucket s.1 s.2 := by
  rintro request rfl rfl hversion content h
  obtain ⟨k, object, hfind, -, hfile⟩ := hs.1.kept h
  obtain ⟨kb, entity, hbucket, -, hencrypted⟩ := hs.1.settings
  obtain ⟨response, w', hrun, -⟩ :=
    handleGetObject_run env rt ⟨⟨kb, hbucket⟩, k, hfind⟩ (fun _ => hversion) hfile
  rw [hencrypted, if_neg (by simp)] at hrun
  exact ⟨response, w', hrun⟩

/-- In memory, no version is found by its version id. -/
theorem handleGetObject_version (env : Env) (rt : Runtime) (request : GetObjectRequest) {encrypted : Bool}
    (hw : HasSettings request.region request.bucket true encrypted w) (hversion : request.versionId ≠ []) :
    (handleGetObject request).Ensures (exec env rt) (fun _ _ => True) (fun y _ => ∃ e, y = .error e) w := by
  have hfetch : ∀ {w}, HasSettings request.region request.bucket true encrypted w →
      (guarded (fetchObject request)).Ensures (exec env rt) (fun _ _ => True)
        (fun y _ => ∃ e, y = .error e) w := by
    intro w hw
    refine Prog.ensures_mapThrow (Prog.ensures_perform_bind trivial fun r hr => ?_)
    obtain ⟨hversioned, -⟩ := hasSettings_lookup hw hr
    dsimp only
    rw [if_pos ⟨hversioned, hversion⟩]
    refine ⟨trivial, fun r hr => ?_⟩
    cases hr
  have hanswer : (getObject request).Ensures (exec env rt) (fun _ _ => True)
      (fun y _ => ∃ e, y = .error e) w := by
    refine Prog.ensures_perform_bind trivial fun r hr => ?_
    have hw := hasSettings_of_call rfl hr hw
    split
    swap
    · exact ⟨_, rfl⟩
    split
    · exact hfetch hw
    · refine Prog.ensures_perform_bind trivial fun r hr => ?_
      have hw := hasSettings_of_call rfl hr hw
      split
      · exact hfetch hw
      · exact ⟨_, rfl⟩
  refine Prog.ensures_bind_of hanswer (fun a w' h => ?_) fun e w' _ => ⟨e, rfl⟩
  obtain ⟨e, h⟩ := h
  cases h

theorem not_readsVersion {encrypted : Bool} {put : Put} (hw : HasSettings region bucket true encrypted w)
    (hanswered : put.Answered env) : ¬ ReadsVersion env rt region bucket put w := by
  rintro ⟨response, w', hrun⟩
  obtain ⟨e, h⟩ := (handleGetObject_version env rt
    { region := region, bucket := bucket, key := put.key, versionId := put.response.versionId }
    hw hanswered.1).of_run hrun
  cases h

/-- On a versioned bucket without encryption, in every run of requests that go well, each successful put
    was answered with a version id, and `GetObject` answers with the content put last; but never with that
    of a version. -/
theorem versioned_put_get {earlier : List S3Request} {y : Except S3Error Unit}
    (hw : (session env earlier).run (exec env rt) {} = some (y, w))
    (hsettings : HasSettings region bucket true false w) {s : PutLog × World}
    (hrun : Relation.ReflTransGen (ServesVersioned env rt (VersionedRequest.GoesWell env rt region bucket))
      ({}, w) s) :
    (∀ put ∈ s.1.puts, put.Answered env) ∧ ReadsNewest env rt region bucket s.1 s.2 ∧
      ∀ put ∈ s.1.puts, ¬ ReadsVersion env rt region bucket put s.2 := by
  have hstart : Logged env rt region bucket ({}, w) :=
    ⟨⟨session_wellFormed earlier (wellFormed_empty rt) hw, hsettings, nofun⟩, nofun⟩
  have hs : Logged env rt region bucket s := by
    induction hrun with
    | refl => exact hstart
    | tail _ hstep ih => exact ih.step hstep
  exact ⟨hs.2, hs.readsNewest, fun put hput => not_readsVersion hs.1.settings (hs.2 put hput)⟩

/-- An empty versioned bucket. -/
def sampleVersioned : World :=
  (((session Env.sample [.createBucket { region := str "eu", name := str "b" },
      .putBucketVersioning { region := str "eu", bucket := str "b", status := str "Enabled" }]).run
    (exec Env.sample .counting) {}).map Prod.snd).getD {}

theorem sampleVersioned_run : (session Env.sample
    [.createBucket { region := str "eu", name := str "b" },
      .putBucketVersioning { region := str "eu", bucket := str "b", status := str "Enabled" }]).run
    (exec Env.sample .counting) {} = some (.ok (), sampleVersioned) := rfl

/-- A put of `x`, with its digest or without. -/
def samplePutVersion (md5Sum : Str) : PutObjectRequest where
  region := str "eu"
  bucket := str "b"
  key := str "k"
  md5Sum := md5Sum

/-- The state after such a put. -/
def sampleNextVersion (s : PutLog × World) (md5Sum : Str) : PutLog × World :=
  match (putObject Env.sample (samplePutVersion md5Sum) (str "x") false).run (exec Env.sample .counting) s.2 with
  | some (.ok response, w) =>
    ({ puts := { key := str "k", content := str "x", response := response } :: s.1.puts,
       latest := s.1.latest.insert (str "k") (str "x") }, w)
  | _ => s

/-- In the counting runtime no service fails. -/
theorem VersionedRequest.goesWell_counting {w : World} {request : VersionedRequest} {region bucket : Str}
    (hon : request.On region bucket) (hsound : request.Sound Env.sample .counting w) :
    request.GoesWell Env.sample .counting region bucket w := by
  refine ⟨hon, hsound, Prog.not_makes fun c v => ?_⟩
  cases c <;> simp [failing, Runtime.counting, Except.isOk, Except.toBool]

/-- The same bytes are put twice, without their digest. -/
theorem versioned_put_get_twice : ∃ s,
    Relation.ReflTransGen (ServesVersioned Env.sample .counting
      (VersionedRequest.GoesWell Env.sample .counting (str "eu") (str "b"))) ({}, sampleVersioned) s ∧
    s.1.puts.length = 2 ∧ (∀ put ∈ s.1.puts, put.Answered Env.sample) ∧
    ReadsNewest Env.sample .counting (str "eu") (str "b") s.1 s.2 ∧
    ∀ put ∈ s.1.puts, ¬ ReadsVersion Env.sample .counting (str "eu") (str "b") put s.2 := by
  have hfirst : ServesVersioned Env.sample .counting
      (VersionedRequest.GoesWell Env.sample .counting (str "eu") (str "b"))
      ({}, sampleVersioned) (sampleNextVersion ({}, sampleVersioned) []) :=
    .put (samplePutVersion []) { content := str "x" }
      (VersionedRequest.goesWell_counting ⟨rfl, rfl⟩ ⟨rfl, rfl, rfl, fun _ h => nomatch h⟩) rfl
  have hsecond : ServesVersioned Env.sample .counting
      (VersionedRequest.GoesWell Env.sample .counting (str "eu") (str "b"))
      (sampleNextVersion ({}, sampleVersioned) [])
      (sampleNextVersion (sampleNextVersion ({}, sampleVersioned) []) []) := by
    refine .put (samplePutVersion []) { content := str "x" }
      (VersionedRequest.goesWell_counting ⟨rfl, rfl⟩ ⟨rfl, rfl, rfl, fun it h => ?_⟩) rfl
    cases h
    exact Or.inr rfl
  have hrun := (Relation.ReflTransGen.single hfirst).tail hsecond
  exact ⟨_, hrun, rfl, versioned_put_get sampleVersioned_run ⟨_, _, rfl, rfl, rfl⟩ hrun⟩

/-- The same bytes are put twice with their digest: the second put makes no version. -/
theorem versioned_put_get_digest : ¬ ∀ s, Relation.ReflTransGen (ServesVersioned Env.sample .counting
      fun _ request => request.On (str "eu") (str "b")) ({}, sampleVersioned) s →
    (∀ put ∈ s.1.puts, put.Answered Env.sample) ∧
      ReadsNewest Env.sample .counting (str "eu") (str "b") s.1 s.2 ∧
      ∀ put ∈ s.1.puts, ReadsVersion Env.sample .counting (str "eu") (str "b") put s.2 := by
  intro h
  have hfirst : ServesVersioned Env.sample .counting (fun _ request => request.On (str "eu") (str "b"))
      ({}, sampleVersioned) (sampleNextVersion ({}, sampleVersioned) (str "x")) :=
    .put (samplePutVersion (str "x")) { content := str "x" } ⟨rfl, rfl⟩ rfl
  have hsecond : ServesVersioned Env.sample .counting (fun _ request => request.On (str "eu") (str "b"))
      (sampleNextVersion ({}, sampleVersioned) (str "x"))
      (sampleNextVersion (sampleNextVersion ({}, sampleVersioned) (str "x")) (str "x")) :=
    .put (samplePutVersion (str "x")) { content := str "x" } ⟨rfl, rfl⟩ rfl
  obtain ⟨hanswered, -⟩ := h _ ((Relation.ReflTransGen.single hfirst).tail hsecond)
  exact (hanswered _ (List.mem_cons_self ..)).1 rfl

end AwsMock.S3
