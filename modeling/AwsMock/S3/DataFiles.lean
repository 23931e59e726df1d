import AwsMock.Lib.Protocol
import AwsMock.S3.Requests

/-!
# Data files and their records

A request that stores content draws a file name, writes the file, and then puts the one record that has
the name; no other record ever has it. So no two records share a data file, and the file names still to
be drawn name neither a record's file nor a file.
-/

namespace AwsMock.S3

open Lib

/-- What a request has done with a data file of its own. -/
inductive Draft
  | none
  | drawn (name : Str)
  | written (name : Str)
  deriving DecidableEq

/-- A record that is put has no data file, or the one just written. Only where `deletes` is set may a
    request delete anything but its own draft. -/
def Draft.law (deletes : Prop) (t : Draft) : S3Call → Prop
  | .createObject object | .updateObject object =>
    object.internalName = [] ∨ t = .written object.internalName
  | .writeFile name _ | .copyTo _ name | .appendParts name .. => t = .drawn name
  | .deleteFile name => deletes ∨ t = .written name
  | .deleteObject .. | .deleteObjects .. | .deleteBucketDirectory .. => deletes
  | _ => True

def Draft.next (t : Draft) : (c : S3Call) → c.Reply → Draft
  | .createS3FileName, name => .drawn name
  | .writeFile name _, _ | .copyTo _ name, _ | .appendParts name .., _ => .written name
  | .createObject object, _ | .updateObject object, _ =>
    if t = .written object.internalName then .none else t
  | .deleteFile name, _ => if t = .written name then .none else t
  | _, _ => t

/-- The protocol of the requests. -/
def drafting (deletes : Prop) : Prog.Protocol S3Call S3Call.Reply Draft where
  law := Draft.law deletes
  next := Draft.next

/-- The name of a data file that a file belongs to: that of a decrypted file goes on after a dot. -/
def dataFileOf (name : Str) : Str := name.takeWhile (· ≠ byte '.')

/-- Every name in use was drawn before, and a data file has one record at most. -/
structure WellFormed (rt : Runtime) (w : World) : Prop where
  drawn : Drawn rt w
  names : ∀ {k object}, w.db.objects.get? k = some object →
    object.internalName = [] ∨ ∃ i < w.calls, object.internalName = rt.fileName i
  own : ∀ {k k' object object'}, w.db.objects.get? k = some object →
    w.db.objects.get? k' = some object' → object.internalName = object'.internalName →
    object.internalName ≠ [] → k = k'
  files : ∀ {name content}, w.files.get? name = some content →
    ∃ i < w.calls, dataFileOf name = rt.fileName i

/-- A draft is known to its request alone. -/
structure Drafted (rt : Runtime) (name : Str) (w : World) : Prop where
  drawn : ∃ i < w.calls, name = rt.fileName i
  unused : ∀ {k object}, w.db.objects.get? k = some object → object.internalName ≠ name

/-- What a request keeps, with its draft. -/
def Drafting (rt : Runtime) : Draft → World → Prop
  | .none, w => WellFormed rt w
  | .drawn name, w => WellFormed rt w ∧ Drafted rt name w ∧
      ∀ {file content}, w.files.get? file = some content → dataFileOf file ≠ name
  | .written name, w => WellFormed rt w ∧ Drafted rt name w

variable {env : Env} {rt : Runtime} {w w' : World} {c : S3Call} {x : c.Reply} {t : Draft}
  {deletes : Prop}

theorem dataFileOf_fileName (rt : Runtime) (i : Nat) : dataFileOf (rt.fileName i) = rt.fileName i := by
  have hkeep : ∀ b ∈ rt.fileName i, decide (b ≠ byte '.') := by
    intro b hb
    simp only [decide_eq_true_eq]
    rintro rfl
    exact rt.fileName_dot i hb
  have hwhile : (rt.fileName i ++ []).takeWhile (fun b => decide (b ≠ byte '.')) = rt.fileName i ++ [] :=
    List.takeWhile_append_of_pos hkeep
  simpa [dataFileOf] using hwhile

theorem dataFileOf_plainName (name : Str) : dataFileOf (World.plainName name) = dataFileOf name := by
  unfold dataFileOf World.plainName
  induction name with
  | nil => decide
  | cons b name ih =>
    rw [List.cons_append, List.takeWhile_cons, List.takeWhile_cons, ih]

theorem Drafting.wellFormed (h : Drafting rt t w) : WellFormed rt w := by
  cases t with
  | none => exact h
  | drawn | written => exact h.1

/-- The data file a call writes. -/
def S3Call.writesFile : S3Call → Option Str
  | .writeFile name _ | .copyTo _ name | .appendParts name .. => some name
  | _ => none

/-- A file after a call is one the call writes, or belongs to a file from before it. -/
theorem files_get?_of_call (h : exec env rt c w = some (x, w')) {name content : Str}
    (hf : w'.files.get? name = some content) :
    (∃ file content', w.files.get? file = some content' ∧ dataFileOf name = dataFileOf file) ∨
      c.writesFile = some name := by
  rcases htouch : c.touchesFiles with _ | _
  · rw [files_of_call htouch h] at hf
    exact Or.inl ⟨name, content, hf, rfl⟩
  obtain ⟨v, hv, rfl⟩ := exec_eq_some.mp h
  change v.files.get? name = some content at hf
  -- A file that is not the one written was there.
  have hother : ∀ {files : OrderedMap Str Str} {written content' : Str},
      (files.insert written content').get? name = some content → name ≠ written →
      files.get? name = some content := fun hf hne => by
    rwa [OrderedMap.get?_insert_of_ne _ _ hne] at hf
  cases c with
  | writeFile name' content' =>
    cases hv
    by_cases hname : name = name'
    · exact Or.inr (by rw [hname]; rfl)
    · exact Or.inl ⟨name, content, hother hf hname, rfl⟩
  | deleteFile name' =>
    simp only [S3Call.apply, World.deleteFile, Option.some.injEq] at hv
    split at hv
    · cases hv
      exact Or.inl ⟨name, content, hf, rfl⟩
    · cases hv
      rw [OrderedMap.get?_eraseIf_key] at hf
      split at hf
      · cases hf
      · exact Or.inl ⟨name, content, hf, rfl⟩
  | copyTo source name' =>
    simp only [S3Call.apply, World.copyTo, Option.some.injEq] at hv
    split at hv
    · cases hv
      by_cases hname : name = name'
      · exact Or.inr (by rw [hname]; rfl)
      · exact Or.inl ⟨name, content, hother hf hname, rfl⟩
    · cases hv
      exact Or.inl ⟨name, content, hf, rfl⟩
  | encryptFile name' keyId =>
    obtain ⟨_, he, hv⟩ := Option.map_eq_some_iff.mp hv
    cases hv
    obtain ⟨content', hget, rfl⟩ := Option.map_eq_some_iff.mp he
    by_cases hname : name = name'
    · exact Or.inl ⟨name', content', hget, by rw [hname]⟩
    · exact Or.inl ⟨name, content, hother hf hname, rfl⟩
  | decryptFile name' keyId =>
    obtain ⟨_, he, hv⟩ := Option.map_eq_some_iff.mp hv
    cases hv
    obtain ⟨content', hget, rfl⟩ := Option.map_eq_some_iff.mp he
    by_cases hname : name = World.plainName name'
    · exact Or.inl ⟨name', content', hget, by rw [hname, dataFileOf_plainName]⟩
    · exact Or.inl ⟨name, content, hother hf hname, rfl⟩
  | appendParts name' uploadId files =>
    cases hv
    by_cases hname : name = name'
    · exact Or.inr (by rw [hname]; rfl)
    · exact Or.inl ⟨name, content, hother hf hname, rfl⟩
  | deleteBucketDirectory bucket =>
    cases hv
    unfold World.deleteBucketDirectory at hf
    split at hf
    · cases hf
    · split at hf
      · cases hf
      · exact Or.inl ⟨name, content, hf, rfl⟩
  | _ => cases htouch

/-- A name of an earlier draw. -/
theorem fileName_lt (h : exec env rt c w = some (x, w')) {name : Str}
    (hname : ∃ i < w.calls, name = rt.fileName i) : ∃ i < w'.calls, name = rt.fileName i := by
  obtain ⟨i, hi, hname⟩ := hname
  exact ⟨i, by rw [calls_of_call h]; omega, hname⟩

/-- The name a record is given is that of a draft. -/
theorem Draft.law_writes (hc : Draft.law deletes t c) {object : Object} (hput : c.Writes object) :
    object.internalName = [] ∨ t = .written object.internalName := by
  cases c with
  | createObject o =>
    have hsame : object = { o with oid := object.oid } := hput
    rw [hsame]
    exact hc
  | updateObject o =>
    have hsame : o = object := hput
    exact hsame ▸ hc
  | _ => cases hput

theorem Draft.law_writesFile (hc : Draft.law deletes t c) {name : Str}
    (hwrites : c.writesFile = some name) : t = .drawn name := by
  cases c with
  | writeFile | copyTo | appendParts => cases hwrites; exact hc
  | _ => cases hwrites

/-- Whatever the draft is, an allowed call keeps the store well formed. -/
theorem WellFormed.step (hw : Drafting rt t w) (h : exec env rt c w = some (x, w'))
    (hc : Draft.law deletes t c) : WellFormed rt w' := by
  have hwell := hw.wellFormed
  -- A record that is put has no file, or that of the draft, which no other record has.
  have hput : ∀ {object}, c.Writes object → object.internalName ≠ [] →
      Drafted rt object.internalName w := by
    intro object hobject hne
    rcases Draft.law_writes hc hobject with hnone | hwritten
    · exact absurd hnone hne
    · rw [hwritten] at hw
      exact hw.2
  refine ⟨hwell.drawn.step h, ?_, ?_, ?_⟩
  · intro k object ho
    rcases internalName_of_call h ho with ⟨object', hold, hname⟩ | ⟨hobject, -⟩
    · rw [hname]
      rcases hwell.names hold with hnone | hdrawn
      · exact Or.inl hnone
      · exact Or.inr (fileName_lt h hdrawn)
    · by_cases hne : object.internalName = []
      · exact Or.inl hne
      · exact Or.inr (fileName_lt h (hput hobject hne).drawn)
  · intro k k' object object' ho ho' hname hne
    have hne' : object'.internalName ≠ [] := hname ▸ hne
    rcases internalName_of_call h ho with ⟨old, hold, hn⟩ | ⟨hobject, htarget⟩ <;>
      rcases internalName_of_call h ho' with ⟨old', hold', hn'⟩ | ⟨hobject', htarget'⟩
    · exact hwell.own hold hold' (by rw [← hn, ← hn', hname]) (hn ▸ hne)
    · exact absurd (by rw [← hn, hname]) ((hput hobject' hne').unused hold)
    · exact absurd (by rw [← hn', hname]) ((hput hobject hne).unused hold')
    · rw [htarget] at htarget'
      exact Option.some.inj htarget'
  · intro name content hf
    rcases files_get?_of_call h hf with ⟨file, content', hold, hname⟩ | hwrites
    · rw [hname]
      exact fileName_lt h (hwell.files hold)
    · rw [Draft.law_writesFile hc hwrites] at hw
      obtain ⟨i, hi, hname⟩ := hw.2.1.drawn
      rw [hname, dataFileOf_fileName]
      exact fileName_lt h ⟨i, hi, rfl⟩

theorem Drafted.step {name : Str} (hd : Drafted rt name w) (h : exec env rt c w = some (x, w'))
    (hput : ∀ object, c.Writes object → object.internalName ≠ name) : Drafted rt name w' where
  drawn := fileName_lt h hd.drawn
  unused ho := by
    rcases internalName_of_call h ho with ⟨old, hold, hname⟩ | ⟨hobject, -⟩
    · rw [hname]
      exact hd.unused hold
    · exact hput _ hobject

theorem Drafted.ne {name : Str} (hd : Drafted rt name w) : name ≠ [] := by
  obtain ⟨i, -, rfl⟩ := hd.drawn
  exact rt.fileName_ne i

/-- A call that has nothing to do with the draft. -/
theorem Drafting.stay (hw : Drafting rt t w) (h : exec env rt c w = some (x, w'))
    (hc : Draft.law deletes t c) (hput : ∀ object, c.Writes object → object.internalName = [])
    (hfile : c.writesFile = none) : Drafting rt t w' := by
  have hwell := WellFormed.step hw h hc
  have hdrafted : ∀ {name}, Drafted rt name w → Drafted rt name w' := fun hd =>
    hd.step h fun object hobject hname => hd.ne (hname ▸ hput object hobject)
  cases t with
  | none => exact hwell
  | written name => exact ⟨hwell, hdrafted hw.2⟩
  | drawn name =>
    refine ⟨hwell, hdrafted hw.2.1, fun hf => ?_⟩
    rcases files_get?_of_call h hf with ⟨file, content, hold, hname⟩ | hwrites
    · rw [hname]
      exact hw.2.2 hold
    · rw [hfile] at hwrites
      cases hwrites

/-- A name that is drawn now is new. -/
theorem WellFormed.draw {name : Str} (hw : WellFormed rt w)
    (h : exec env rt .createS3FileName w = some (name, w')) :
    Drafting rt (.drawn name) w' := by
  have hwell : WellFormed rt w' := WellFormed.step (t := .none) hw h (show Draft.law True _ _ from trivial)
  have hname : name = rt.fileName w.calls := by
    obtain ⟨v, hv, -⟩ := exec_eq_some.mp h
    cases hv
    rfl
  subst hname
  refine ⟨hwell, ⟨⟨w.calls, by rw [calls_of_call h]; omega, rfl⟩, ?_⟩, ?_⟩
  · intro k object ho hname
    rw [db_of_call rfl h] at ho
    rcases hw.names ho with hnone | ⟨i, hi, hdrawn⟩
    · exact rt.fileName_ne _ (hname ▸ hnone)
    · exact absurd (rt.fileName_inj (hname.symm.trans hdrawn)) (Nat.ne_of_gt hi)
  · intro file content hf hname
    rw [files_of_call rfl h] at hf
    obtain ⟨i, hi, hdrawn⟩ := hw.files hf
    exact absurd (rt.fileName_inj (hname.symm.trans hdrawn)) (Nat.ne_of_gt hi)

/-- A record is put. -/
theorem Drafting.put {object : Object} (hw : Drafting rt t w) (h : exec env rt c w = some (x, w'))
    (hc : Draft.law deletes t c) (hname : object.internalName = [] ∨ t = .written object.internalName)
    (hput : ∀ o, c.Writes o → o.internalName = object.internalName) (hfile : c.writesFile = none) :
    Drafting rt (if t = .written object.internalName then .none else t) w' := by
  split
  · exact WellFormed.step hw h hc
  · next ht => exact hw.stay h hc (fun o ho => (hput o ho).trans (hname.resolve_right ht)) hfile

/-- What a request keeps, one allowed call at a time. -/
theorem Drafting.step (hw : Drafting rt t w) (h : exec env rt c w = some (x, w'))
    (hc : Draft.law deletes t c) : Drafting rt (Draft.next t c x) w' := by
  cases c with
  | createS3FileName => exact hw.wellFormed.draw h
  | writeFile name | copyTo _ name | appendParts name =>
    have ht : t = .drawn name := hc
    subst ht
    refine ⟨WellFormed.step hw h hc, hw.2.1.step h ?_⟩
    rintro object ⟨⟩
  | createObject object =>
    refine hw.put h hc hc (fun o hput => ?_) rfl
    rw [show o = { object with oid := o.oid } from hput]
  | updateObject object =>
    refine hw.put h hc hc (fun o hput => ?_) rfl
    rw [show object = o from hput]
  | deleteFile name =>
    by_cases ht : t = .written name
    · subst ht
      simp only [Draft.next, if_true]
      exact WellFormed.step hw h hc
    · simp only [Draft.next, ht, if_false]
      refine hw.stay h hc ?_ rfl
      rintro object ⟨⟩
  | _ =>
    refine hw.stay h hc ?_ rfl
    rintro object ⟨⟩

/-! ### The requests -/

section Programs

variable {α : Type}

/-- The calls that have nothing to do with data files and their records. -/
def Undrafted : S3Call → Prop
  | .createS3FileName | .writeFile .. | .copyTo .. | .appendParts .. | .createObject ..
  | .updateObject .. | .deleteFile .. | .deleteObject .. | .deleteObjects ..
  | .deleteBucketDirectory .. => False
  | _ => True

theorem undrafted_stay (deletes : Prop) (t : Draft) (c : S3Call) (hc : Undrafted c) :
    (drafting deletes).law t c ∧ ∀ r, (drafting deletes).next t c r = t := by
  cases c with
  | createS3FileName | writeFile | copyTo | appendParts | createObject | updateObject | deleteFile
  | deleteObject | deleteObjects | deleteBucketDirectory => cases hc
  | _ => exact ⟨trivial, fun _ => rfl⟩

/-- A program without data files. -/
theorem undrafted_follows {p : S3Prog α} (hp : p.Only Undrafted) (t : Draft) :
    p.Follows (drafting deletes) (fun _ t' => t' = t) t :=
  hp.follows (undrafted_stay deletes t)

theorem undrafted_bind {β : Type} {p : S3Prog α} (hp : p.Only Undrafted) {Q : β → Draft → Prop}
    {f : α → S3Prog β} (hf : ∀ a, (f a).Follows (drafting deletes) Q t) :
    (p >>= f).Follows (drafting deletes) Q t :=
  hp.follows_bind (undrafted_stay deletes t) hf

theorem undrafted_call {β : Type} {Q : β → Draft → Prop} {f : c.Reply → S3Prog β} (hc : Undrafted c)
    (hf : ∀ a, (f a).Follows (drafting deletes) Q t) :
    (call c >>= f).Follows (drafting deletes) Q t :=
  undrafted_bind (Prog.only_perform hc) hf

/-- The end of a request, when it has no draft. -/
theorem undrafted_end {p : S3Prog α} (hp : p.Only Undrafted) :
    p.Follows (drafting deletes) (fun _ t => t = .none) .none := undrafted_follows hp .none

/-- A record without a data file is put, or that of the draft. -/
theorem follows_put (deletes : Prop) {object : Object} (hc : c = .createObject object ∨ c = .updateObject object)
    (ht : t = .none ∧ object.internalName = [] ∨ t = .written object.internalName) :
    (drafting deletes).law t c ∧ ∀ r, (drafting deletes).next t c r = .none := by
  have hnone : (if Draft.none = .written object.internalName then Draft.none else .none) = .none :=
    ite_self _
  rcases ht with ⟨rfl, hname⟩ | rfl <;> rcases hc with rfl | rfl
  · exact ⟨Or.inl hname, fun _ => hnone⟩
  · exact ⟨Or.inl hname, fun _ => hnone⟩
  · exact ⟨Or.inr rfl, fun _ => if_pos rfl⟩
  · exact ⟨Or.inr rfl, fun _ => if_pos rfl⟩

theorem follows_put_bind {β : Type} {object : Object} {f : c.Reply → S3Prog β} {Q : β → Draft → Prop}
    (hc : c = .createObject object ∨ c = .updateObject object)
    (ht : t = .none ∧ object.internalName = [] ∨ t = .written object.internalName)
    (hf : ∀ a, (f a).Follows (drafting deletes) Q .none) :
    (call c >>= f).Follows (drafting deletes) Q t := by
  obtain ⟨hlaw, hnext⟩ := follows_put deletes hc ht
  refine Prog.follows_perform_bind hlaw fun a => ?_
  rw [hnext]
  exact hf a

/-- The draft is given up. -/
theorem follows_discard {β : Type} {name : Str} {f : Except S3Error Unit → S3Prog β}
    {Q : β → Draft → Prop} (hf : ∀ a, (f a).Follows (drafting deletes) Q .none) :
    (call (.deleteFile name) >>= f).Follows (drafting deletes) Q (.written name) := by
  refine Prog.follows_perform_bind (Or.inr rfl) fun a => ?_
  have hnext : (drafting deletes).next (.written name) (.deleteFile name) a = .none := if_pos rfl
  rw [hnext]
  exact hf a

theorem createOrUpdateObject_follows {object : Object}
    (ht : t = .none ∧ object.internalName = [] ∨ t = .written object.internalName) :
    (createOrUpdateObject object).Follows (drafting deletes) (fun _ t' => t' = .none) t := by
  refine undrafted_call trivial fun found => ?_
  split
  · obtain ⟨hlaw, hnext⟩ := follows_put deletes (Or.inr rfl) ht
    exact Prog.follows_perform hlaw hnext
  · obtain ⟨hlaw, hnext⟩ := follows_put deletes (Or.inl rfl) ht
    exact Prog.follows_perform hlaw hnext

theorem checkNotifications_undrafted (region bucket key : Str) (size : Int) (event : Str) :
    (checkNotifications region bucket key size event).Only Undrafted :=
  checkNotifications_only (fun _ _ => trivial) trivial (fun _ _ _ => trivial) _ _ _ _ _

theorem saveUnversionedObject_follows (request : PutObjectRequest) (entity : Bucket) (body : Str)
    (chunkEncoding : Bool) : (saveUnversionedObject env request entity body chunkEncoding).Follows
      (drafting deletes) (fun _ t => t = .none) .none := by
  refine Prog.follows_perform_bind trivial fun fileName => ?_
  refine undrafted_bind (receiveContent_only (fun _ => trivial) _ _) fun content => ?_
  refine Prog.follows_perform_bind rfl fun _ => ?_
  refine undrafted_call trivial fun size => ?_
  refine undrafted_call trivial fun now => ?_
  refine undrafted_call trivial fun stored => ?_
  refine undrafted_bind (startHashing_only (fun _ _ => trivial) _ _) fun _ => ?_
  refine Prog.follows_bind ((createOrUpdateObject_follows (Or.inr rfl)).mono ?_)
  rintro object t rfl
  refine undrafted_end ?_
  exact Prog.only_bind (checkEncryption_only (fun _ _ => trivial) _ _) fun _ =>
    Prog.only_bind (checkNotifications_undrafted _ _ _ _ _) fun _ => Prog.only_pure _

theorem createVersion_follows (request : PutObjectRequest) (entity : Bucket) (fileName : Str) (size : Int) :
    (createVersion env request entity fileName size).Follows (drafting deletes) (fun _ t => t = .none)
      (.written fileName) := by
  refine undrafted_call trivial fun versionId => ?_
  refine undrafted_call trivial fun now => ?_
  refine undrafted_call trivial fun stored => ?_
  refine follows_put_bind (Or.inl rfl) (Or.inr rfl) fun object => undrafted_end ?_
  exact Prog.only_bind (startHashing_only (fun _ _ => trivial) _ _) fun _ =>
    Prog.only_bind (checkEncryption_only (fun _ _ => trivial) _ _) fun _ =>
      Prog.only_bind (checkNotifications_undrafted _ _ _ _ _) fun _ => Prog.only_pure _

theorem saveVersionedObject_follows (request : PutObjectRequest) (entity : Bucket) (body : Str) :
    (saveVersionedObject env request entity body).Follows (drafting deletes) (fun _ t => t = .none)
      .none := by
  refine Prog.follows_perform_bind trivial fun fileName => ?_
  refine Prog.follows_perform_bind rfl fun _ => ?_
  refine undrafted_call trivial fun size => ?_
  refine undrafted_call trivial fun now => ?_
  refine undrafted_call trivial fun existingObject => ?_
  dsimp only
  split
  · refine Prog.follows_bind ((createVersion_follows _ _ _ _).mono ?_)
    rintro object t rfl
    exact undrafted_end (Prog.only_bind (Prog.only_perform trivial) fun _ => Prog.only_pure _)
  · refine follows_discard fun deleted => undrafted_end ?_
    exact Prog.only_bind (Prog.only_ofExcept _) fun _ => Prog.only_bind (Prog.only_pure _) fun _ =>
      Prog.only_bind (Prog.only_perform trivial) fun _ => Prog.only_pure _

theorem putObject_follows (request : PutObjectRequest) (body : Str) (chunkEncoding : Bool) :
    (putObject env request body chunkEncoding).Follows (drafting deletes) (fun _ t => t = .none)
      .none := by
  refine undrafted_call trivial fun found => ?_
  split
  · refine Prog.follows_mapThrow (undrafted_call trivial fun bucket => ?_)
    split
    · exact saveVersionedObject_follows _ _ _
    · exact saveUnversionedObject_follows _ _ _ _
  · trivial

theorem copyTo_follows (missingTarget : S3Error) (request : CopyObjectRequest) :
    (copyTo missingTarget request).Follows (drafting deletes) (fun _ t => t = .none) .none := by
  refine undrafted_call trivial fun found => ?_
  split
  swap
  · trivial
  refine undrafted_call trivial fun found => ?_
  split
  swap
  · trivial
  refine Prog.follows_mapThrow (undrafted_call trivial fun found => ?_)
  split
  swap
  · trivial
  refine undrafted_call trivial fun targetBucket => ?_
  refine undrafted_call trivial fun sourceObject => ?_
  refine Prog.follows_perform_bind trivial fun targetFile => ?_
  refine Prog.follows_perform_bind rfl fun copied => ?_
  refine undrafted_bind (Prog.only_ofExcept _) fun _ => ?_
  refine undrafted_call trivial fun now => ?_
  dsimp only
  split
  all_goals
    refine undrafted_bind ?_ fun versionId =>
      follows_put_bind (Or.inl rfl) (Or.inr rfl) fun targetObject => undrafted_end
        (Prog.only_bind (checkNotifications_undrafted _ _ _ _ _) fun _ => Prog.only_pure _)
  · exact Prog.only_perform trivial
  · exact Prog.only_pure _

theorem createMultipartUpload_follows (request : CreateMultipartUploadRequest) :
    (createMultipartUpload request).Follows (drafting deletes) (fun _ t => t = .none) .none := by
  refine undrafted_call trivial fun found => ?_
  split
  · refine undrafted_call trivial fun uploadId => ?_
    refine undrafted_call trivial fun _ => ?_
    refine undrafted_call trivial fun now => ?_
    refine Prog.follows_bind ((createOrUpdateObject_follows (Or.inl ⟨rfl, rfl⟩)).mono ?_)
    rintro object t rfl
    exact undrafted_end (Prog.only_pure _)
  · trivial

theorem uploadPartCopy_undrafted (request : UploadPartCopyRequest) :
    (uploadPartCopy env request).Only Undrafted :=
  Prog.only_bind (Prog.only_perform trivial) fun _ => Prog.only_bind (Prog.only_perform trivial) fun _ =>
    Prog.only_bind (Prog.only_perform trivial) fun _ => Prog.only_pure _

theorem completeMultipartUpload_follows (request : CompleteMultipartUploadRequest) :
    (completeMultipartUpload env request).Follows (drafting deletes) (fun _ t => t = .none) .none := by
  refine undrafted_call trivial fun listed => ?_
  refine undrafted_bind (Prog.only_ofExcept _) fun files => ?_
  refine Prog.follows_perform_bind trivial fun filename => ?_
  refine Prog.follows_perform_bind rfl fun fileSize => ?_
  refine undrafted_call trivial fun stored => ?_
  refine undrafted_call trivial fun object => ?_
  refine follows_put_bind (Or.inr rfl) (Or.inr rfl) fun object => undrafted_end ?_
  exact Prog.only_bind (startHashing_only (fun _ _ => trivial) _ _) fun _ =>
    Prog.only_bind (Prog.only_perform trivial) fun _ =>
      Prog.only_bind (checkNotifications_undrafted _ _ _ _ _) fun _ => Prog.only_pure _

/-- A program that deletes, in a request that may. -/
def Deleting : S3Call → Prop
  | .createS3FileName | .writeFile .. | .copyTo .. | .appendParts .. | .createObject ..
  | .updateObject .. => False
  | _ => True

theorem deleting_end {p : S3Prog α} (hp : p.Only Deleting) (hdeletes : deletes) :
    p.Follows (drafting deletes) (fun _ t => t = .none) .none := by
  refine hp.follows fun c hc => ?_
  cases c with
  | createS3FileName | writeFile | copyTo | appendParts | createObject | updateObject => cases hc
  | deleteFile name =>
    have hnone : (if Draft.none = .written name then Draft.none else .none) = .none := ite_self _
    exact ⟨Or.inl hdeletes, fun _ => hnone⟩
  | deleteObject | deleteObjects | deleteBucketDirectory => exact ⟨hdeletes, fun _ => rfl⟩
  | _ => exact ⟨trivial, fun _ => rfl⟩

theorem deleteBucket_deleting (request : DeleteBucketRequest) : (deleteBucket request).Only Deleting := by
  refine Prog.only_bind (Prog.only_perform trivial) fun found => ?_
  split
  · refine Prog.only_bind (Prog.only_perform trivial) fun found => ?_
    split
    · exact Prog.only_throw _
    · exact Prog.only_mapThrow <| Prog.only_bind (Prog.only_perform trivial) fun _ =>
        Prog.only_perform trivial
  · exact Prog.only_throw _

theorem deleteObjectFiles_deleting (bucket key internalName : Str) :
    (deleteObjectFiles env bucket key internalName).Only Deleting :=
  deleteObjectFiles_only (fun _ => trivial) (fun _ => trivial) _ _ _ _

theorem checkNotifications_deleting (region bucket key : Str) (size : Int) (event : Str) :
    (checkNotifications region bucket key size event).Only Deleting :=
  checkNotifications_only (fun _ _ => trivial) trivial (fun _ _ _ => trivial) _ _ _ _ _

theorem deleteObject_deleting (request : DeleteObjectRequest) :
    (deleteObject env request).Only Deleting := by
  refine Prog.only_bind (Prog.only_perform trivial) fun found => ?_
  split
  · refine Prog.only_bind (Prog.only_perform trivial) fun found => ?_
    split
    · exact Prog.only_mapThrow <| Prog.only_bind (Prog.only_perform trivial) fun _ =>
        Prog.only_bind (Prog.only_perform trivial) fun _ =>
          Prog.only_bind (deleteObjectFiles_deleting _ _ _) fun _ => checkNotifications_deleting _ _ _ _ _
    · exact Prog.only_pure _
  · exact Prog.only_throw _

theorem deleteObjects_deleting (request : DeleteObjectsRequest) :
    (deleteObjects env request).Only Deleting := by
  refine Prog.only_bind (Prog.only_perform trivial) fun found => ?_
  split
  · refine Prog.only_mapThrow (Prog.only_bind (Prog.only_forEach fun key _ => ?_) fun _ =>
      Prog.only_perform trivial)
    exact Prog.only_bind (Prog.only_perform trivial) fun _ =>
      Prog.only_bind (deleteObjectFiles_deleting _ _ _) fun _ => checkNotifications_deleting _ _ _ _ _
  · exact Prog.only_throw _

/-- The requests that delete what others have stored. -/
def S3Request.Deletes : S3Request → Prop
  | .deleteBucket _ | .deleteObject _ | .deleteObjects _ => True
  | _ => False

theorem buckets_undrafted (c : S3Call) (hc : c.OfBuckets) : Undrafted c := by
  cases c with
  | clockNow | bucketExists | getBucketByRegionName | createBucket | updateBucket => trivial
  | _ => cases hc

theorem reads_undrafted (c : S3Call) (hc : c.OfRead) : Undrafted c := by
  cases c with
  | bucketExists | objectExists | getBucketByRegionName | getObject | getObjectVersion | decryptFile
  | readFile => trivial
  | _ => cases hc

/-- A request whose response nobody looks at. -/
theorem follows_ignored {p : S3Prog α}
    (hp : p.Follows (drafting deletes) (fun _ t => t = .none) .none) :
    (do let _ ← p : S3Prog Unit).Follows (drafting deletes) (fun _ t => t = .none) .none :=
  Prog.follows_bind (hp.mono fun _ _ ht => ht)

theorem undrafted_ignored {p : S3Prog α} (hp : p.Only Undrafted) :
    (do let _ ← p : S3Prog Unit).Follows (drafting deletes) (fun _ t => t = .none) .none :=
  follows_ignored (undrafted_end hp)

/-- Every request follows the protocol and has no draft at its end. -/
theorem serve_follows (deletes : Prop) (request : S3Request) (hdeletes : request.Deletes → deletes) :
    (serve env request).Follows (drafting deletes) (fun _ t => t = .none) .none := by
  cases request with
  | createBucket r => exact undrafted_ignored ((createBucket_only r).mono buckets_undrafted)
  | deleteBucket r => exact deleting_end (deleteBucket_deleting r) (hdeletes trivial)
  | putBucketEncryption r => exact undrafted_end ((putBucketEncryption_only r).mono buckets_undrafted)
  | putBucketVersioning r => exact undrafted_end ((putBucketVersioning_only r).mono buckets_undrafted)
  | putObject r body chunkEncoding => exact follows_ignored (putObject_follows _ _ _)
  | getObject r => exact undrafted_ignored ((handleGetObject_only r).mono reads_undrafted)
  | copyObject r => exact follows_ignored (copyTo_follows _ _)
  | moveObject r => exact follows_ignored (copyTo_follows _ _)
  | deleteObject r => exact deleting_end (deleteObject_deleting r) (hdeletes trivial)
  | deleteObjects r => exact deleting_end (deleteObjects_deleting r) (hdeletes trivial)
  | createMultipartUpload r => exact follows_ignored (createMultipartUpload_follows r)
  | uploadPart body part uploadId =>
    exact undrafted_ignored (uploadPart_only (fun _ _ _ => trivial) (fun _ _ => trivial) _ _ _ _)
  | uploadPartCopy r => exact undrafted_ignored (uploadPartCopy_undrafted r)
  | completeMultipartUpload r => exact follows_ignored (completeMultipartUpload_follows r)

end Programs

/-- Whatever a run of a program that follows the protocol does, the store is well formed after it. -/
theorem wellFormed_of_follows {α : Type} {p : S3Prog α} {Q : α → Draft → Prop}
    (hp : p.Follows (drafting deletes) Q .none) (hw : WellFormed rt w) {y : Except S3Error α}
    (h : p.run (exec env rt) w = some (y, w')) : WellFormed rt w' := by
  have hstep : ∀ t c v (r : c.Reply × World), (drafting deletes).law t c → Drafting rt t v →
      exec env rt c v = some r → Drafting rt ((drafting deletes).next t c r.1) r.2 :=
    fun t c v r hlaw hv hr => Drafting.step hv hr hlaw
  have hend := hp.ensures hstep (show Drafting rt .none w from hw)
  obtain ⟨t, ht⟩ := hend.of_run h
  exact ht.wellFormed

theorem wellFormed_empty (rt : Runtime) : WellFormed rt {} where
  drawn := drawn_empty
  names h := nomatch h
  own h := nomatch h
  files h := nomatch h

/-- Requests keep the store well formed. -/
theorem session_wellFormed (run : List S3Request) {y : Except S3Error Unit} {w w' : World}
    (hw : WellFormed rt w) (h : (session env run).run (exec env rt) w = some (y, w')) : WellFormed rt w' :=
  session_invariant (fun hw h => wellFormed_of_follows (serve_follows True _ fun _ => trivial) hw h) run hw h

end AwsMock.S3
