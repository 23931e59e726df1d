import AwsMock.S3.HeldNames
import Mathlib.Data.List.TakeWhile

/-!
# Safety of the S3 worker

The worker deletes only what is not needed, as long as it meets no request between a file and its record, and no other
record under the bucket and key of one it deletes.
-/

namespace AwsMock.S3

open Lib

variable {env : Env} {rt : Runtime}

/-! ### The pass -/

/-- What the worker knows: the data files of the records it has listed, the last one it did not find, the files of the
    directory, and the last one without a record. -/
structure Sweeping where
  listed : List Str := []
  absent : Option Str := none
  entries : List Str := []
  unclaimed : Option Str := none

/-- What was looked for, where it is not found. -/
def missed (found : Bool) (name : Str) : Option Str := if found then none else some name

theorem missed_eq_some {found : Bool} {name other : Str} :
    missed found name = some other ↔ found = false ∧ name = other := by
  cases found <;> simp [missed]

def Sweeping.law (t : Sweeping) : S3WorkerCall → Prop
  | .fileExists name => name ∈ t.listed
  | .deleteObject object => t.absent = some object.internalName
  | .deleteFile filename => filename ∈ t.entries ∧ t.unclaimed = some (getBaseName filename)
  | _ => True

def Sweeping.next (t : Sweeping) : (c : S3WorkerCall) → c.Reply → Sweeping
  | .getBucketObjectList .., objects => { t with listed := objects.map Object.internalName }
  | .fileExists name, found => { t with absent := missed found name }
  | .directoryEntries, entries => { t with entries := entries, unclaimed := none }
  | .objectExists filename, found => { t with unclaimed := missed found filename }
  | _, _ => t

/-- The protocol of the worker. -/
def sweeping : Prog.Protocol S3WorkerCall S3WorkerCall.Reply Sweeping where
  law := Sweeping.law
  next := Sweeping.next

theorem syncObjects_sweeps (region : Str) : (syncObjects region).Follows sweeping (fun _ _ => True) {} := by
  have hobject : ∀ (names : List Str) (object : Object), object.internalName ∈ names →
      ∀ t : Sweeping, t.listed = names →
      (do let fileExists ← workerCall (.fileExists object.internalName)
          Prog.when (fileExists = false) (workerCall (.deleteObject object)) : S3WorkerProg Unit).Follows sweeping
        (fun _ t' => t'.listed = names) t := by
    rintro names object hmem t rfl
    refine Prog.follows_perform_bind hmem fun found => ?_
    cases found with
    | false => exact ⟨rfl, fun _ => rfl⟩
    | true => exact rfl
  have hentry : ∀ (entries : List Str), ∀ entry ∈ entries, ∀ t : Sweeping, t.entries = entries →
      (do let objectExists ← workerCall (.objectExists (getBaseName entry))
          Prog.when (objectExists = false) do
            let deleted ← workerCall (.deleteFile entry)
            .ofExcept deleted : S3WorkerProg Unit).Follows sweeping (fun _ t' => t'.entries = entries) t := by
    rintro entries entry hmem t rfl
    refine Prog.follows_perform_bind trivial fun found => ?_
    cases found with
    | true => exact rfl
    | false =>
      refine ⟨⟨hmem, rfl⟩, fun deleted => ?_⟩
      cases deleted with
      | ok => exact rfl
      | error => trivial
  refine Prog.follows_perform_bind trivial fun buckets => ?_
  unfold Prog.when
  split
  swap
  · trivial
  refine Prog.Follows.bind ?_ fun _ t => Prog.follows_perform_bind trivial fun isDirectory => ?_
  · refine Prog.follows_forEach trivial fun bucket _ t _ => Prog.follows_perform_bind trivial fun objects => ?_
    refine (Prog.follows_forEach (J := fun t => t.listed = objects.map Object.internalName) rfl ?_).mono
      fun _ _ _ => trivial
    exact fun object hmem => hobject _ object (List.mem_map_of_mem hmem)
  · split
    · refine Prog.follows_perform_bind trivial fun entries => ?_
      exact (Prog.follows_forEach (J := fun t => t.entries = entries) rfl (hentry entries)).mono
        fun _ _ _ => trivial
    · trivial

theorem getBaseName_of_not_mem {filename : Str} (h : byte '.' ∉ filename) : getBaseName filename = filename := by
  have hdrop : filename.reverse.dropWhile (· ≠ byte '.') = [] := by
    refine List.dropWhile_eq_nil_iff.mpr fun b hb => ?_
    have hne : b ≠ byte '.' := fun he => h (he ▸ List.mem_reverse.mp hb)
    exact decide_eq_true hne
  unfold getBaseName
  rw [hdrop]

theorem dataFileOf_of_not_mem {name : Str} (h : byte '.' ∉ name) : dataFileOf name = name := by
  have htake : ∀ b ∈ name, decide (b ≠ byte '.') = true := fun b hb =>
    decide_eq_true fun he => h (he ▸ hb)
  exact List.takeWhile_eq_self_iff.mpr htake

section Apply

variable {s : Storage}

theorem apply_calls (c : S3WorkerCall) : (c.apply env s).2.calls = s.world.calls := by
  cases c with
  | deleteFile filename =>
    change (s.world.deleteFile env filename).2.calls = _
    unfold World.deleteFile
    split <;> rfl
  | _ => rfl

theorem apply_objects {c : S3WorkerCall} {k : Str} {object : Object}
    (h : (c.apply env s).2.db.objects.get? k = some object) : s.world.db.objects.get? k = some object := by
  cases c with
  | deleteFile filename =>
    have hdb := World.deleteFile_db env s.world filename
    change (s.world.deleteFile env filename).2.db.objects.get? k = some object at h
    rwa [hdb] at h
  | deleteObject object =>
    simp only [S3WorkerCall.apply, S3MemoryDb.deleteObject, OrderedMap.get?_eraseIf, Option.filter_eq_some_iff] at h
    exact h.1
  | _ => exact h

theorem apply_files {c : S3WorkerCall} {name content : Str} (h : (c.apply env s).2.files.get? name = some content) :
    s.world.files.get? name = some content := by
  cases c with
  | deleteFile filename =>
    change (s.world.deleteFile env filename).2.files.get? name = some content at h
    unfold World.deleteFile at h
    split at h
    · exact h
    · rw [OrderedMap.get?_eraseIf_key] at h
      split at h
      · cases h
      · exact h
  | _ => exact h

end Apply

/-! ### The invariant -/

/-- The worker's notes hold of the process: what is absent stays absent, and what is unclaimed stays unclaimed. -/
structure SweepNoted (rt : Runtime) (hands : Nat → Held) (t : Sweeping) (x : S3JobPool) : Prop where
  listed : ∀ name ∈ t.listed, name = [] ∨ Spent rt hands x.2.world name
  absent : ∀ name, t.absent = some name → Spent rt hands x.2.world name ∧ x.2.world.files.get? name = none
  entries : ∀ name ∈ t.entries, Spent rt hands x.2.world (dataFileOf name)
  unclaimed : ∀ name ∈ t.entries, t.unclaimed = some name → Free name x

namespace Sync

abbrev pool (x : Sync) : S3JobPool := (x.threads, x.storage)

/-- A name with a dot is that of no record. -/
structure Invariant (rt : Runtime) (x : Sync) (hands : Nat → Held) (t : Sweeping) : Prop where
  kept : Kept rt hands x.pool
  dotted : ∀ name, byte '.' ∈ name → Free name x.pool
  sweeps : x.worker.Follows sweeping (fun _ _ => True) t
  noted : SweepNoted rt hands t x.pool

end Sync

theorem dot_mem_ne {name : Str} (h : byte '.' ∈ name) (i : Nat) : name ≠ rt.fileName i := by
  rintro rfl
  exact rt.fileName_dot i h

/-- A name that is drawn has no dot. -/
theorem Kept.not_drawn_of_dot {hands : Nat → Held} {x : S3JobPool} (hk : Kept rt hands x) {name : Str}
    (h : byte '.' ∈ name) (i : Nat) : (hands i).drawn ≠ some name := fun hdrawn => by
  obtain ⟨⟨m, -, hm⟩, -⟩ := hk.drawn hdrawn
  exact dot_mem_ne h m hm

section Turn

variable {hands : Nat → Held} {threads : List S3JobThread} {s : Storage} {w' : World} {i : Nat} {label : S3Job}
  {c : S3Call} {k : c.Reply → S3Prog Unit} {x : c.Reply} {name : Str} {t : Sweeping}

theorem Free.call_of_dot (hf : Free name (threads, s)) (hk : Kept rt hands (threads, s))
    (hi : threads[i]? = some ⟨label, .call c k⟩) (h : exec env rt c s.world = some (x, w')) (hdot : byte '.' ∈ name) :
    Free name (threads.set i ⟨label, k x⟩ ++ c.jobs env, ⟨w', s.dataS3Dir || c.ensuresDirectory⟩) :=
  hf.call hk hi h (List.ne_nil_of_mem hdot) (hk.not_drawn_of_dot hdot i)

theorem SweepNoted.call (hn : SweepNoted rt hands t (threads, s)) (hk : Kept rt hands (threads, s))
    (hi : threads[i]? = some ⟨label, .call c k⟩) (h : exec env rt c s.world = some (x, w')) :
    SweepNoted rt (handsAfter hands threads.length i c x) t
      (threads.set i ⟨label, k x⟩ ++ c.jobs env, ⟨w', s.dataS3Dir || c.ensuresDirectory⟩) := by
  obtain ⟨hlaw, -⟩ := hk.stores hi
  refine ⟨fun name hname => ?_, fun name hname => ?_, fun name hname => ?_, fun name hname hunclaimed => ?_⟩
  · exact (hn.listed name hname).imp_right fun hs => hs.step hlaw h
  · obtain ⟨hs, hnone⟩ := hn.absent name hname
    refine ⟨hs.step hlaw h, Held.absent_of_call hlaw h (fun hwrites => ?_) hnone⟩
    exact hs.written i (Held.law_writesFile hlaw hwrites)
  · exact (hn.entries name hname).step hlaw h
  · have hfree := hn.unclaimed name hname hunclaimed
    by_cases hdot : byte '.' ∈ name
    · exact hfree.call_of_dot hk hi h hdot
    · have hs := hn.entries name hname
      rw [dataFileOf_of_not_mem hdot] at hs
      exact hfree.call hk hi h hs.ne (hs.written i)

/-- The worker takes records and files away, and nothing else. -/
theorem Spent.apply (hs : Spent rt hands s.world name) (c : S3WorkerCall) :
    Spent rt hands (c.apply env s).2 name where
  drawn := by
    rw [apply_calls]
    exact hs.drawn
  written := hs.written

theorem Kept.apply (hk : Kept rt hands (threads, s)) (c : S3WorkerCall) :
    Kept rt hands (threads, ⟨(c.apply env s).2, s.dataS3Dir⟩) where
  records ho := (hk.records (apply_objects ho)).imp_right fun hs => hs.apply c
  files hf := (hk.files (apply_files hf)).apply c
  directory hdir := by
    refine OrderedMap.ext_get? fun name => ?_
    rcases hget : (c.apply env s).2.files.get? name with _ | content
    · rfl
    · have hold := apply_files hget
      rw [show s.world.files = ∅ from hk.directory hdir] at hold
      cases hold
  stores := hk.stores
  known name hname := (hk.known name hname).imp_right fun hs => hs.apply c
  drawn hname := by
    obtain ⟨hm, hdir, hown⟩ := hk.drawn hname
    refine ⟨?_, hdir, hown⟩
    rw [apply_calls]
    exact hm

theorem Free.apply (hf : Free name (threads, s)) (c : S3WorkerCall) :
    Free name (threads, ⟨(c.apply env s).2, s.dataS3Dir⟩) where
  records key object ho := hf.records key object (apply_objects ho)
  threads := hf.threads

theorem SweepNoted.apply (hn : SweepNoted rt hands t (threads, s)) (c : S3WorkerCall) :
    SweepNoted rt hands t (threads, ⟨(c.apply env s).2, s.dataS3Dir⟩) where
  listed name hname := (hn.listed name hname).imp_right fun hs => hs.apply c
  absent name hname := by
    obtain ⟨hs, hnone⟩ := hn.absent name hname
    refine ⟨hs.apply c, ?_⟩
    rcases hget : (c.apply env s).2.files.get? name with _ | content
    · rfl
    · have hold := apply_files hget
      rw [show s.world.files.get? name = none from hnone] at hold
      cases hold
  entries name hname := (hn.entries name hname).apply c
  unclaimed name hname hunclaimed := (hn.unclaimed name hname hunclaimed).apply c

/-- The notes after a call of the worker. -/
theorem SweepNoted.worker {c : S3WorkerCall} {k : c.Reply → S3WorkerProg Unit}
    (hn : SweepNoted rt hands t (threads, s)) (hk : Kept rt hands (threads, s)) (hlaw : t.law c)
    (hsettled : Sync.Settled none ⟨.call c k, threads, s⟩) :
    SweepNoted rt hands (t.next c (c.apply env s).1) (threads, s) := by
  cases c with
  | getBucketObjectList region bucket maxKeys =>
    refine ⟨fun name hname => ?_, hn.absent, hn.entries, hn.unclaimed⟩
    obtain ⟨object, hobject, rfl⟩ := List.mem_map.mp hname
    obtain ⟨⟨key, o⟩, hmem, he⟩ := List.mem_map.mp
      ((List.takeWhile_subset _) (List.mem_of_mem_take hobject))
    cases he
    exact hk.records (OrderedMap.get?_eq_some.mpr hmem)
  | fileExists name =>
    refine ⟨hn.listed, fun other hother => ?_, hn.entries, hn.unclaimed⟩
    obtain ⟨hmissing, rfl⟩ := missed_eq_some.mp hother
    have hdir : name = [] → s.dataS3Dir = true := hsettled
    have hne : name ≠ [] := by
      intro hnil
      rw [S3WorkerCall.apply, hdir hnil, decide_eq_true hnil] at hmissing
      cases hmissing
    refine ⟨(hn.listed name hlaw).resolve_left hne, ?_⟩
    rcases hthere : s.dataS3Dir with _ | _
    · rw [show s.world.files = ∅ from hk.directory hthere]
      rfl
    · rw [S3WorkerCall.apply, hthere, decide_eq_false hne, Bool.true_and, Bool.false_or] at hmissing
      exact Option.isNone_iff_eq_none.mp (Option.isSome_eq_false_iff.mp hmissing)
  | directoryEntries =>
    refine ⟨hn.listed, hn.absent, fun name hname => ?_, fun name hname hunclaimed => by cases hunclaimed⟩
    obtain ⟨⟨file, content⟩, hmem, he⟩ := List.mem_map.mp hname
    cases he
    exact hk.files (OrderedMap.get?_eq_some.mpr hmem)
  | objectExists filename =>
    refine ⟨hn.listed, hn.absent, hn.entries, fun name hname hunclaimed => ?_⟩
    obtain ⟨hmissing, rfl⟩ := missed_eq_some.mp hunclaimed
    refine ⟨fun key object ho he => ?_, hsettled⟩
    have hfound : s.world.db.fileObjectExists filename = true :=
      OrderedMap.findIf_isSome.mpr ⟨key, object, ho, decide_eq_true he⟩
    rw [S3WorkerCall.apply, hfound] at hmissing
    cases hmissing
  | _ => exact hn

end Turn

/-! ### The run -/

namespace Sync

variable {e : Option Nat} {x y : Sync} {hands : Nat → Held} {t : Sweeping}

/-- A call of a thread. -/
theorem Invariant.thread_turn (hx : Invariant rt x hands t) {i : Nat} (hturn : syncTurn env rt (some i) x = some y) :
    ∃ hands', Invariant rt y hands' t := by
  obtain ⟨⟨threads, storage⟩, hpool, rfl⟩ := Option.map_eq_some_iff.mp hturn
  rcases Thread.turn_cases hpool with he | ⟨label, c, k, r, started, hthread, hexec, hthreads⟩
  · cases he
    exact ⟨hands, hx⟩
  · obtain ⟨⟨r', w'⟩, hr, he⟩ := Option.map_eq_some_iff.mp hexec
    cases he
    cases hthreads
    refine ⟨_, ⟨hx.kept.call hthread hr, fun name hdot => ?_, hx.sweeps, hx.noted.call hx.kept hthread hr⟩⟩
    exact (hx.dotted name hdot).call_of_dot hx.kept hthread hr hdot

/-- A call of the worker. -/
theorem Invariant.worker_turn (hx : Invariant rt x hands t) (hsettled : Settled none x)
    (hturn : syncTurn env rt none x = some y) : ∃ t', Invariant rt y hands t' := by
  obtain ⟨worker, threads, storage⟩ := x
  obtain ⟨⟨worker', storage'⟩, hstep, rfl⟩ := Option.map_eq_some_iff.mp hturn
  cases worker with
  | ret | throw =>
    cases hstep
    exact ⟨t, hx⟩
  | call c k =>
    obtain ⟨hlaw, hrest⟩ := hx.sweeps
    cases hstep
    refine ⟨t.next c (c.apply env storage).1, ⟨hx.kept.apply c, fun name hdot => (hx.dotted name hdot).apply c,
      hrest _, (hx.noted.worker hx.kept hlaw hsettled).apply c⟩⟩

theorem Invariant.turn (hx : ∃ hands t, Invariant rt x hands t) (hsettled : Settled e x)
    (hturn : syncTurn env rt e x = some y) : ∃ hands t, Invariant rt y hands t := by
  obtain ⟨hands, t, hx⟩ := hx
  cases e with
  | some i =>
    obtain ⟨hands', hy⟩ := hx.thread_turn hturn
    exact ⟨hands', t, hy⟩
  | none =>
    obtain ⟨t', hy⟩ := hx.worker_turn hsettled hturn
    exact ⟨hands, t', hy⟩

/-- What is deleted is not needed. -/
theorem Invariant.safe (hx : ∃ hands t, Invariant rt x hands t) (hsettled : Settled e x) : Safe e x := by
  obtain ⟨hands, t, hx⟩ := hx
  obtain ⟨worker, threads, storage⟩ := x
  cases e with
  | some i => trivial
  | none =>
    cases worker with
    | ret | throw => trivial
    | call c k =>
      obtain ⟨hlaw, -⟩ := hx.sweeps
      cases c with
      | deleteObject object =>
        intro key o ho hkeyed
        obtain ⟨hs, hnone⟩ := hx.noted.absent _ hlaw
        have hname : o.internalName = object.internalName := hsettled key o ho hkeyed
        rw [hname]
        exact ⟨hs.ne, hnone⟩
      | deleteFile filename =>
        obtain ⟨hentry, hunclaimed⟩ := hlaw
        have hfree : Free filename (threads, storage) := by
          by_cases hdot : byte '.' ∈ filename
          · exact hx.dotted filename hdot
          · rw [getBaseName_of_not_mem hdot] at hunclaimed
            exact hx.noted.unclaimed filename hentry hunclaimed
        exact ⟨hfree.records, hfree.threads⟩
      | _ => trivial

theorem kept_start {threads : List S3JobThread} {s : Storage} (hthread : ∀ t ∈ threads, StoresFrom t.prog {})
    (hs : NamesDrawn rt s) : Kept rt (fun _ => {}) (threads, s) := by
  have hspent : ∀ {name : Str}, (∃ i < s.world.calls, name = rt.fileName i) → Spent rt (fun _ => {}) s.world name := by
    refine fun hname => ⟨hname, fun i h => ?_⟩
    cases h
  refine ⟨fun ho => (hs.records ho).imp_right hspent, fun hf => hspent (hs.files hf), hs.directory,
    fun ht => hthread _ (List.mem_of_getElem? ht), fun name hname => ?_, fun hname => ?_⟩
  · cases hname
  · cases hname

theorem noted_start (x : S3JobPool) : SweepNoted rt (fun _ => {}) {} x := by
  refine ⟨fun name h => ?_, fun name h => ?_, fun name h => ?_, fun name h => ?_⟩ <;> cases h

theorem invariant_start {region : Str} {requests : List S3Request} {s : Storage}
    (hrequests : ∀ request ∈ requests, request.IsUpload) (hs : NamesDrawn rt s) :
    ∃ hands t, Invariant rt (startSync env region requests s) hands t := by
  have hthread : ∀ t ∈ (startSync env region requests s).threads, StoresFrom t.prog {} := by
    intro t ht
    obtain ⟨request, hrequest, rfl⟩ := List.mem_map.mp ht
    exact serve_stores (hrequests request hrequest)
  refine ⟨fun _ => {}, {}, kept_start hthread hs, fun name hdot => ⟨fun key object ho he => ?_, fun t ht => ?_⟩,
    syncObjects_sweeps region, noted_start _⟩
  · rcases hs.records ho with hnil | ⟨i, -, hi⟩
    · rw [← he, hnil] at hdot
      cases hdot
    · exact dot_mem_ne hdot i (he.symm.trans hi)
  · exact ⟨{}, List.not_mem_nil, hthread t ht⟩

end Sync

/-- Whatever the order of the calls of a pass of the worker and of any uploads beside it: as long as there is a
    directory for the records without a file, a record that is deleted shares its bucket and key with no other file,
    and no request is between a file and its record when the worker looks for the record, the pass deletes only
    records whose files are gone and files that belong to no record and to no request. -/
theorem sync_safe (env : Env) (rt : Runtime) (region : Str) (requests : List S3Request)
    (hrequests : ∀ request ∈ requests, request.IsUpload) (s : Storage) (hs : NamesDrawn rt s)
    (sched : List (Option Nat))
    (hsettled : Along (syncTurn env rt) Sync.Settled sched (startSync env region requests s)) :
    Along (syncTurn env rt) Sync.Safe sched (startSync env region requests s) :=
  along_of_along (fun hC hturn hx => Sync.Invariant.turn hx hC hturn) (fun hC hx => Sync.Invariant.safe hx hC)
    hsettled (Sync.invariant_start hrequests hs)

/-! ### Sample runs -/

namespace Sync

/-- All requests have come to their ends when the worker looks for the record of a file, and it finds every record's
    file. -/
def quiet (e : Option Nat) (x : Sync) : Bool :=
  e.isSome || match x.worker.next with
    | some (.fileExists _) => x.storage.dataS3Dir
    | some (.deleteObject _) => false
    | some (.objectExists _) => x.threads.all fun t => t.prog.next.isNone
    | _ => true

theorem leaves_of_next {name : Str} {p : S3Prog Unit} (h : p.next = none) : Leaves name p := by
  cases p with
  | ret | throw => exact ⟨{}, List.not_mem_nil, trivial⟩
  | call => cases h

theorem settled_of_quiet {e : Option Nat} {x : Sync} (h : x.quiet e = true) : Settled e x := by
  obtain ⟨worker, threads, storage⟩ := x
  cases e with
  | some i => trivial
  | none =>
    cases worker with
    | ret | throw => trivial
    | call c k =>
      cases c with
      | fileExists name => exact fun _ => h
      | deleteObject object => cases h
      | objectExists filename =>
        exact fun t ht => leaves_of_next (Option.isNone_iff_eq_none.mp (List.all_eq_true.mp h t ht))
      | _ => trivial

/-- The worker is about to delete the file of a record. -/
def deletesNamed (x : Sync) : Bool :=
  match x.worker.next with
  | some (.deleteFile filename) => x.storage.world.db.fileObjectExists filename
  | _ => false

theorem deletesNamed_of_safe {x : Sync} (h : Safe none x) : x.deletesNamed = false := by
  obtain ⟨worker, threads, storage⟩ := x
  cases worker with
  | ret | throw => rfl
  | call c k =>
    cases c with
    | deleteFile filename =>
      refine Bool.eq_false_iff.mpr fun hfound => ?_
      obtain ⟨key, object, ho, he⟩ := OrderedMap.findIf_isSome.mp hfound
      exact h.1 key object ho (of_decide_eq_true he)
    | _ => rfl

end Sync

/-- A bucket, and a file that is left of an earlier object. -/
def strayFile : Storage where
  world := {
    db := { buckets := .ofList [(str "k", { region := str "eu", name := str "b", created := 0, modified := 0 })] }
    files := .ofList [(str "f", str "old")]
    calls := 1 }
  dataS3Dir := true

theorem strayFile_namesDrawn : NamesDrawn .counting strayFile where
  records h := by cases h
  files h := by
    obtain rfl := (Prod.mk.inj (List.mem_singleton.mp (OrderedMap.get?_eq_some.mp h))).1
    exact ⟨0, Nat.zero_lt_one, by decide⟩
  directory h := by cases h

def onePut : List S3Request :=
  [.putObject { region := str "eu", bucket := str "b", key := str "a" } (str "x") false]

theorem onePut_uploads : ∀ request ∈ onePut, request.IsUpload := by
  simp [onePut, S3Request.IsUpload]

/-- The pass starts after the request has ended. -/
def passAfter : List (Option Nat) := List.replicate 11 (some 0) ++ List.replicate 8 none

/-- The request writes its record between the worker's look for it and the deletion. -/
def passBetween : List (Option Nat) :=
  List.replicate 4 (some 0) ++ List.replicate 7 none ++ List.replicate 6 (some 0)

/-- The file that is left is deleted. -/
theorem sync_safe_after :
    Along (syncTurn Env.sample .counting) Sync.Safe passAfter (startSync Env.sample (str "eu") onePut strayFile) :=
  sync_safe Env.sample .counting (str "eu") onePut onePut_uploads strayFile strayFile_namesDrawn passAfter
    (along_of_along (I := fun _ => True) (fun _ _ _ => trivial) (fun h _ => Sync.settled_of_quiet h)
      (by decide +kernel : Along (syncTurn Env.sample .counting) (fun e x => x.quiet e = true) passAfter
        (startSync Env.sample (str "eu") onePut strayFile)) trivial)

def betweenRun : Option Sync :=
  steps (syncTurn Env.sample .counting) passBetween (startSync Env.sample (str "eu") onePut strayFile)

theorem betweenRun_deletesNamed : ∃ x ∈ betweenRun, x.deletesNamed = true := by decide +kernel

/-- The file of an object is deleted, though its record is there and its request has ended. -/
theorem file_of_object_deleted :
    ¬ Along (syncTurn Env.sample .counting) Sync.Safe (passBetween ++ [none])
      (startSync Env.sample (str "eu") onePut strayFile) := by
  intro h
  obtain ⟨x, hx, hdeletes⟩ := betweenRun_deletesNamed
  have hsafe := Sync.deletesNamed_of_safe (h.last hx)
  rw [hdeletes] at hsafe
  cases hsafe

end AwsMock.S3
