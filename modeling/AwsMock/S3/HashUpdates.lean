import AwsMock.S3.HashCreator

/-!
# Writes of hash creators

Runs of requests with the hash creators they start, beside the runs in which these make no call. A hash creator that
finds its version adds hashes; a late one writes an old version over a new one.
-/

namespace AwsMock.S3

open Lib OrderedMap

variable {hashed : VersionName → Bool}

/-! ### With and without hash creators -/

/-- The calls of the hash creator of a version. -/
def CreatorCall (object : Object) : S3Call → Prop
  | .readDataFile _ => True
  | .updateObject o => o.asWritten = object.asWritten
  | _ => False

theorem only_s3HashCreator (env : Env) (algorithm : Str) (object : Object) :
    (s3HashCreator env algorithm object).Only (CreatorCall object) := by
  have hwrite : ∀ o : Object, o.asWritten = object.asWritten →
      (do let _ ← call (.updateObject o) : S3Prog Unit).Only (CreatorCall object) := fun o ho =>
    Prog.only_bind (Prog.only_perform ho) fun _ => trivial
  unfold s3HashCreator
  split
  · exact ⟨trivial, fun _ => hwrite _ rfl⟩
  · split
    · exact ⟨trivial, fun _ => hwrite _ rfl⟩
    · split
      · exact ⟨trivial, fun _ => hwrite _ rfl⟩
      · exact hwrite object rfl

/-- A run with hash creators, and one in which they make no call: the requests are as far, and the processes are the
    same but for the hashes. -/
structure Alongside (hashed : VersionName → Bool) (n : Nat) (x y : S3Pool) : Prop where
  world : SameButHashes hashed x.2 y.2
  length : n ≤ x.1.length
  request : ∀ j < n, ∀ t, x.1[j]? = some t →
    ∃ t', y.1[j]? = some t' ∧ Prog.Alike (SameCall hashed) Eq t.prog t'.prog
  creator : ∀ (j : Nat) (t : S3Thread), n ≤ j → x.1[j]? = some t →
    ∃ algorithm object, t.label = .createHash algorithm object ∧ t.prog.Only (CreatorCall object)

variable {env : Env} {rt : Runtime} {n i : Nat} {x x' y : S3Pool}

theorem alongside_start {requests : List S3Task} (hrequests : ∀ task ∈ requests, task.IsRequest) (w : World) :
    Alongside hashed requests.length (startRequests env requests w) (startRequests env requests w) where
  world := ⟨rfl, rfl, rfl, rfl, rfl⟩
  length := (List.length_map ..).ge
  request j hj t ht := by
    obtain ⟨task, htask, rfl⟩ := List.mem_map.mp (List.mem_of_getElem? ht)
    exact ⟨_, ht, alike_request (hrequests task htask)⟩
  creator j t hj ht := by
    have hlt := (List.getElem?_eq_some_iff.mp ht).1
    rw [startRequests, List.length_map] at hlt
    omega

theorem started_creator {c : S3Call} {t : S3Thread} (ht : t ∈ c.started env) :
    ∃ algorithm object, t.label = .createHash algorithm object ∧ t.prog.Only (CreatorCall object) := by
  cases c with
  | startHashCreator algorithm object =>
    obtain rfl := List.mem_singleton.mp ht
    exact ⟨algorithm, object, rfl, only_s3HashCreator env algorithm object⟩
  | _ => cases ht

/-- A call of a request is made in both runs. -/
theorem Alongside.request_step (h : Alongside hashed n x y) (hi : i < n) (hturn : hashTurn env rt n i x = some x') :
    ∃ y', hashTurn env rt n i y = some y' ∧ Alongside hashed n x' y' := by
  obtain ⟨⟨label, prog⟩, ht⟩ : ∃ t, x.1[i]? = some t :=
    ⟨_, List.getElem?_eq_getElem (Nat.lt_of_lt_of_le hi h.length)⟩
  obtain ⟨⟨label', prog'⟩, ht', halike⟩ := h.request i hi _ ht
  cases halike with
  | ret ha =>
    rw [hashTurn, Thread.turn, ht] at hturn
    cases hturn
    exact ⟨y, by rw [hashTurn, Thread.turn, ht'], h⟩
  | throw e =>
    rw [hashTurn, Thread.turn, ht] at hturn
    cases hturn
    exact ⟨y, by rw [hashTurn, Thread.turn, ht'], h⟩
  | @call c c' Q k k' hK hk =>
    rw [hashTurn, Thread.turn, ht] at hturn
    simp only [hashExec, if_pos hi, Option.map_map, Option.map_eq_some_iff, Function.comp_apply] at hturn
    obtain ⟨r, hr, rfl⟩ := hturn
    obtain ⟨r', hr', hreply, hsame⟩ := h.world.exec hK hr
    refine ⟨(y.1.set i ⟨label', k' r'.1⟩ ++ c'.started env, r'.2), ?_, hsame, ?_, fun j hj t htj => ?_,
      fun j t hj htj => ?_⟩
    · rw [hashTurn, Thread.turn, ht']
      simp only [hashExec, if_pos hi, hr', Option.map_some]
    · rw [List.length_append, List.length_set]
      exact Nat.le_add_right_of_le h.length
    · rcases Thread.getElem?_moved htj with ⟨rfl, rfl⟩ | ⟨hne, hold⟩ | ⟨-, hge⟩
      · exact ⟨_, Thread.getElem?_moved_self ht', hk _ _ hreply⟩
      · obtain ⟨t', hold', halike⟩ := h.request j hj t hold
        exact ⟨t', Thread.getElem?_moved_of_ne hold' hne, halike⟩
      · exact absurd (h.length.trans hge) (Nat.not_le_of_lt hj)
    · rcases Thread.getElem?_moved htj with ⟨rfl, -⟩ | ⟨-, hold⟩ | ⟨hnew, -⟩
      · exact absurd hj (Nat.not_le_of_lt hi)
      · exact h.creator j t hj hold
      · exact started_creator hnew

/-- A call of a hash creator that finds its version changes nothing but hashes. -/
theorem Alongside.creator_step (h : Alongside hashed n x y) (hi : n ≤ i) (hfinds : FindsVersion n i x)
    (hhashed : ∀ name, hashedVersions x name = true → hashed name = true)
    (hturn : hashTurn env rt n i x = some x') : Alongside hashed n x' y := by
  rcases Thread.turn_cases hturn with rfl | ⟨label, c, k, r, started, hthread, hexec, hx'⟩
  · exact h
  · obtain ⟨algorithm, object, rfl, hcall, hrest⟩ := h.creator i _ hi hthread
    simp only [hashExec, if_neg (Nat.not_lt_of_le hi), Option.map_eq_some_iff, Turn.goes.injEq] at hexec
    obtain ⟨⟨r', w⟩, hrun, rfl, rfl, rfl⟩ := hexec
    rw [List.append_nil] at hx'
    have hworld : SameButHashes hashed x'.2 y.2 := by
      cases c with
      | readDataFile name =>
        have hsame := (Prod.mk.inj (Option.some.inj hrun)).2
        rw [← hsame]
        exact h.world
      | updateObject o =>
        have hpending : pendingUpdate i x = some o := by
          rw [pendingUpdate, hthread]
          rfl
        obtain ⟨⟨k, old⟩, hit, hold⟩ := hfinds hi o hpending
        have hwritten : o.asWritten = object.asWritten := hcall
        obtain ⟨r₀, hr₀, heq⟩ := Option.map_eq_some_iff.mp hrun
        obtain ⟨it, hit', rfl⟩ := Option.map_eq_some_iff.mp hr₀
        cases hit.symm.trans hit'
        rw [← (Prod.mk.inj heq).2]
        have hname : hashed o.versionName = true := by
          refine hhashed _ (List.any_eq_true.mpr ⟨_, List.mem_of_getElem? hthread, decide_eq_true ?_⟩)
          exact Object.versionName_eq hwritten.symm
        refine ⟨h.world.buckets, ?_, h.world.files, h.world.uploads, h.world.calls⟩
        refine (mapVal_insert_of_eq (findIf_some hit).1 ?_).trans h.world.objects
        exact Object.stored_eq_of_asWritten hname hold.symm
      | _ => exact hcall.elim
    have hmoved : ∀ {j : Nat} {t : S3Thread}, x'.1[j]? = some t →
        j = i ∧ t = ⟨.createHash algorithm object, k r'⟩ ∨ j ≠ i ∧ x.1[j]? = some t := by
      intro j t ht
      rw [hx', ← List.append_nil (x.1.set i _)] at ht
      rcases Thread.getElem?_moved ht with hself | hother | ⟨hnew, -⟩
      · exact .inl hself
      · exact .inr hother
      · cases hnew
    refine ⟨hworld, ?_, fun j hj t ht => ?_, fun j t hj ht => ?_⟩
    · rw [hx', List.length_set]
      exact h.length
    · rcases hmoved ht with ⟨rfl, -⟩ | ⟨-, hold⟩
      · exact absurd hi (Nat.not_le_of_lt hj)
      · exact h.request j hj t hold
    · rcases hmoved ht with ⟨rfl, rfl⟩ | ⟨-, hold⟩
      · exact ⟨algorithm, object, rfl, hrest r'⟩
      · exact h.creator j t hj hold

/-- Threads keep their labels. -/
theorem labels_turn (hturn : hashTurn env rt n i x = some x') : x.1.map Thread.label <+: x'.1.map Thread.label := by
  rcases Thread.turn_cases hturn with rfl | ⟨label, c, k, r, started, hthread, -, hx'⟩
  · exact List.prefix_refl _
  · rw [hx', List.map_append, List.map_set]
    have hset : (x.1.map Thread.label).set i label = x.1.map Thread.label := by
      refine List.ext_getElem? fun j => ?_
      rw [List.getElem?_set, List.getElem?_map]
      split
      · next hij =>
        rw [← hij, hthread, List.length_map, if_pos (List.getElem?_eq_some_iff.mp hthread).1]
        rfl
      · rfl
    rw [hset]
    exact List.prefix_append _ _

theorem hashedVersions_mono {z : S3Pool} (h : x.1.map Thread.label <+: z.1.map Thread.label) (name : VersionName)
    (hname : hashedVersions x name = true) : hashedVersions z name = true := by
  obtain ⟨t, ht, hlabel⟩ := List.any_eq_true.mp hname
  obtain ⟨t', ht', heq⟩ := List.mem_map.mp (h.subset (List.mem_map_of_mem ht))
  refine List.any_eq_true.mpr ⟨t', ht', ?_⟩
  rwa [heq]

theorem labels_steps {sched : List Nat} {z : S3Pool} (h : steps (hashTurn env rt n) sched x = some z) :
    x.1.map Thread.label <+: z.1.map Thread.label :=
  steps_inv (I := fun s => x.1.map Thread.label <+: s.1.map Thread.label)
    (fun hturn hs => hs.trans (labels_turn hturn)) h (List.prefix_refl _)

/-- A run, and the one without the calls of hash creators. -/
theorem Alongside.run {z : S3Pool} (hhashed : ∀ name, hashedVersions z name = true → hashed name = true) :
    ∀ {sched : List Nat} {x y : S3Pool}, Alongside hashed n x y →
      Along (hashTurn env rt n) (FindsVersion n) sched x → steps (hashTurn env rt n) sched x = some z →
      ∃ y', steps (hashTurn env rt n) (sched.filter fun i => i < n) y = some y' ∧ SameButHashes hashed z.2 y'.2
  | [], x, y, h, _, hrun => by
    cases hrun
    exact ⟨y, rfl, h.world⟩
  | i :: sched, x, y, h, hfinds, hrun => by
    obtain ⟨x', hturn, hrest⟩ := steps_cons_eq_some.mp hrun
    by_cases hi : i < n
    · obtain ⟨y', hturn', hnext⟩ := h.request_step hi hturn
      obtain ⟨y'', hrest', hsame⟩ := hnext.run hhashed (hfinds.2 x' hturn) hrest
      refine ⟨y'', ?_, hsame⟩
      rw [List.filter_cons, if_pos (decide_eq_true hi)]
      exact steps_cons_eq_some.mpr ⟨y', hturn', hrest'⟩
    · have hearlier : ∀ name, hashedVersions x name = true → hashed name = true := fun name hname =>
        hhashed name (hashedVersions_mono (labels_steps hrun) name hname)
      have hnext := h.creator_step (Nat.le_of_not_lt hi) hfinds.1 hearlier hturn
      rw [List.filter_cons, if_neg (by simpa using hi)]
      exact hnext.run hhashed (hfinds.2 x' hturn) hrest

def emptyBucket : World where
  db := { buckets := .ofList [(str "k", { region := str "eu", name := str "b", created := 0, modified := 0 })] }

/-- An object is written with a checksum, and written again without. -/
def twoWrites : List S3Task :=
  [.putObject { region := str "eu", bucket := str "b", key := str "a", checksumAlgorithm := str "SHA1" } (str "x")
      false,
    .putObject { region := str "eu", bucket := str "b", key := str "a" } (str "yy") false]

theorem twoWrites_requests : ∀ task ∈ twoWrites, task.IsRequest := by
  simp [twoWrites, S3Task.IsRequest]

/-- The hash creator writes before the second request, or after it. -/
def hashBefore : List Nat := List.replicate 11 0 ++ [2, 2] ++ List.replicate 10 1

def hashAfter : List Nat := List.replicate 11 0 ++ List.replicate 10 1 ++ [2, 2]

theorem hashBefore_isSome :
    (steps (hashTurn Env.sample .counting 2) hashBefore (startRequests Env.sample twoWrites emptyBucket)).isSome =
      true := by decide +kernel

def lateRun : Option S3Pool :=
  steps (hashTurn Env.sample .counting 2) hashAfter (startRequests Env.sample twoWrites emptyBucket)

def plainRun : Option S3Pool :=
  steps (hashTurn Env.sample .counting 2) (hashAfter.filter fun i => i < 2)
    (startRequests Env.sample twoWrites emptyBucket)

theorem lateRun_isSome : lateRun.isSome = true := by decide +kernel

theorem plainRun_isSome : plainRun.isSome = true := by decide +kernel

/-- The record of the first request takes the place of that of the second. -/
theorem lateRun_objects :
    ((lateRun.get lateRun_isSome).2.db.objects.mapVal fun _ =>
        Object.stored (hashedVersions (lateRun.get lateRun_isSome))) ≠
      (plainRun.get plainRun_isSome).2.db.objects.mapVal fun _ =>
        Object.stored (hashedVersions (lateRun.get lateRun_isSome)) := by decide +kernel

end AwsMock.S3
