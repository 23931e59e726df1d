import AwsMock.Lib.Ensures
import AwsMock.Lib.Triple
import AwsMock.S3.Reads

/-!
# Dispatch of notifications

Which configurations of a bucket a request notifies, against those that are due: the configurations for
the event whose filter rules all accept the key. `CheckNotifications` looks at the first configuration
for the event of each target only, and one rule that fits is enough for it.
-/

namespace AwsMock.S3

open Lib

/-! ### Configurations that are due -/

/-- A rule that fits the key. -/
def FilterRule.accepts (key : Str) (rule : FilterRule) : Bool :=
  (rule.name = str "prefix" ∧ startsWith key rule.value) ∨
  (rule.name = str "suffix" ∧ rule.value.isSuffixOf key)

/-- All rules accept the key. -/
def Notification.accepts (key : Str) (n : Notification) : Bool := n.filterRules.all (·.accepts key)

/-- One of the events matches. -/
def Notification.isFor (event : Str) (n : Notification) : Bool := n.events.contains event

def Target.all : List Target := [.queue, .topic, .lambda]

/-- What is due of the configurations for each target. -/
def dueOf (notifications : Target → List Notification) (event key : Str) : List (Target × Notification) :=
  Target.all.flatMap fun target =>
    ((notifications target).filter fun n => n.isFor event && n.accepts key).map (Prod.mk target)

/-- The configurations of a bucket; a bucket that is missing has none. -/
def World.notifications (w : World) (region name : Str) (target : Target) : List Notification :=
  (w.db.buckets.findIf fun _ b => b.isNamed region name).elim [] fun it => it.2.notifications target

/-- The configurations that an event on a key has to notify. -/
def World.due (w : World) (region name event key : Str) : List (Target × Notification) :=
  dueOf (w.notifications region name) event key

/-- The first configuration for the event accepts the key by all its rules if it does by one, and no
    later one accepts it. -/
def FirstDecides (event key : Str) (ns : List Notification) : Prop :=
  ∀ first rest, ns.filter (·.isFor event) = first :: rest →
    (first.checkFilter key = true → first.accepts key = true) ∧ ∀ n ∈ rest, n.accepts key = false

theorem checkFilter_iff {n : Notification} {key : Str} :
    n.checkFilter key = true ↔ n.filterRules = [] ∨ ∃ rule ∈ n.filterRules, rule.accepts key = true := by
  simp [Notification.checkFilter, FilterRule.accepts]

/-- A configuration all of whose rules fit has none, or one that fits. -/
theorem checkFilter_of_accepts {n : Notification} {key : Str} (h : n.accepts key = true) :
    n.checkFilter key = true := by
  rw [checkFilter_iff]
  rcases hrules : n.filterRules with _ | ⟨rule, rules⟩
  · exact Or.inl rfl
  · simp only [Notification.accepts, hrules, List.all_cons, Bool.and_eq_true] at h
    exact Or.inr ⟨rule, by simp, h.1⟩

/-! ### The first of a list -/

section First

variable {α : Type} {p q r : α → Bool}

/-- To take the first for `p`, if it meets the weaker `q`, is to take all for `p` that meet `r`. -/
theorem find?_filter_perm_iff (hrq : ∀ x, r x = true → q x = true) (xs : List α) :
    ((xs.find? p).toList.filter q).Perm (xs.filter fun x => p x && r x) ↔
      ∀ x rest, xs.filter p = x :: rest → (q x = true → r x = true) ∧ ∀ y ∈ rest, r y = false := by
  have hfilter : (xs.filter fun x => p x && r x) = (xs.filter p).filter r := by
    rw [List.filter_filter]
    exact List.filter_congr fun x _ => Bool.and_comm _ _
  rw [← List.head?_filter, hfilter]
  rcases xs.filter p with _ | ⟨x, rest⟩
  · simp
  have hnone : (∀ y ∈ rest, r y = false) ↔ rest.filter r = [] := by
    simp [List.filter_eq_nil_iff]
  simp only [List.head?_cons, Option.toList_some, List.cons.injEq]
  constructor
  · rintro h _ _ ⟨rfl, rfl⟩
    rw [hnone]
    rcases hr : r x with _ | _
    · rcases hq : q x with _ | _
      · simp only [List.filter_cons, hq, hr, Bool.false_eq_true, if_false, List.filter_nil,
          List.nil_perm] at h
        exact ⟨fun hq => absurd hq (by simp), h⟩
      · -- The first would be one of those that meet `r`.
        simp only [List.filter_cons, hq, hr, Bool.false_eq_true, if_false, if_true, List.filter_nil,
          List.singleton_perm] at h
        have hx : x ∈ rest.filter r := by simp only [← h, List.mem_singleton]
        rw [(List.mem_filter.mp hx).2] at hr
        cases hr
    · simp only [List.filter_cons, hrq x hr, hr, if_true, List.filter_nil, List.perm_cons,
        List.nil_perm] at h
      exact ⟨fun _ => rfl, h⟩
  · intro h
    obtain ⟨hx, hrest⟩ := h x rest ⟨rfl, rfl⟩
    rw [hnone] at hrest
    rcases hr : r x with _ | _
    · have hq : q x = false := by
        rcases hq : q x with _ | _
        · rfl
        · rw [hx hq] at hr
          cases hr
      simp [hq, hr, hrest]
    · simp [hrq x hr, hr, hrest]

end First

/-! ### What is sent -/

/-- What one part of `CheckNotifications` sends. -/
def sentTo (event key : Str) (ns : List Notification) : List Notification :=
  (ns.find? (·.isFor event)).toList.filter (·.checkFilter key)

def sentOf (notifications : Target → List Notification) (event key : Str) : List (Target × Notification) :=
  Target.all.flatMap fun target => (sentTo event key (notifications target)).map (Prod.mk target)

/-- Lists for the targets agree as a whole when they do for each. -/
theorem flatMap_target_perm {f g : Target → List Notification} :
    (Target.all.flatMap fun target => (f target).map (Prod.mk target)).Perm
      (Target.all.flatMap fun target => (g target).map (Prod.mk target)) ↔
    ∀ target, (f target).Perm (g target) := by
  have hof : ∀ (f : Target → List Notification) target,
      ((Target.all.flatMap fun target => (f target).map (Prod.mk target)).filter
        fun e => e.1 = target).map Prod.snd = f target := by
    intro f target
    cases target <;> simp [Target.all, List.filter_append, List.filter_map, Function.comp_def]
  constructor
  · intro h target
    have hperm := (h.filter fun e => e.1 = target).map Prod.snd
    rwa [hof, hof] at hperm
  · intro h
    exact List.Perm.flatMap_left _ fun target _ => (h target).map _

/-- The code sends what is due when the first configuration of each target decides. -/
theorem sentOf_perm_iff {notifications : Target → List Notification} {event key : Str} :
    (sentOf notifications event key).Perm (dueOf notifications event key) ↔
      ∀ target, FirstDecides event key (notifications target) := by
  unfold sentOf dueOf
  rw [flatMap_target_perm]
  exact forall_congr' fun target =>
    find?_filter_perm_iff (fun _ => checkFilter_of_accepts) (notifications target)

/-! ### Sending -/

/-- Note the configurations that are notified. -/
def noteSending : (c : S3Call) → World → c.Reply → World → List (Target × Notification) →
    List (Target × Notification)
  | .send target notification _, _, _, _, sent => sent ++ [(target, notification)]
  | _, _, _, _, sent => sent

abbrev execSending (env : Env) (rt : Runtime) :
    Prog.Exec S3Call S3Call.Reply (World × List (Target × Notification)) :=
  Prog.noting (exec env rt) noteSending

/-- The configurations that a program notifies. -/
def notified (env : Env) (rt : Runtime) {α : Type} (p : S3Prog α) (w : World) :
    List (Target × Notification) :=
  ((p.run (execSending env rt) (w, [])).map fun r => r.2.2).getD []

/-- The calls that neither send nor change a bucket. -/
def S3Call.isSilent : S3Call → Bool
  | .createBucket .. | .updateBucket .. | .deleteBucket .. | .send .. => false
  | _ => true

/-- The list is what has been sent when a program returns. -/
def Sent {α : Type} (sent : List (Target × Notification)) :
    Except S3Error α → World × List (Target × Notification) → Prop
  | .ok _, s => s.2 = sent
  | .error _, _ => True

/-- A program that returns has sent the list. -/
abbrev Sends {α : Type} (env : Env) (rt : Runtime) (sent : List (Target × Notification))
    (p : S3Prog α) (s : World × List (Target × Notification)) : Prop :=
  p.Ensures (execSending env rt) (fun _ _ => True) (Sent sent) s

/-- The bucket is there, and nothing has been sent. -/
def Before (region name : Str) (bucket : Bucket) (s : World × List (Target × Notification)) : Prop :=
  HasBucket region name bucket s.1 ∧ s.2 = []

variable {env : Env} {rt : Runtime} {w w' : World} {bucket : Bucket} {region name : Str}
  {sent : List (Target × Notification)} {s : World × List (Target × Notification)} {α β : Type}

theorem HasBucket.notifications_eq (h : HasBucket region name bucket w) :
    w.notifications region name = bucket.notifications := by
  obtain ⟨k, oid, hfind⟩ := h
  funext target
  rw [World.notifications, hfind]
  cases target <;> rfl

/-- A run that succeeds, with its notes. -/
theorem notified_of_sends {p : S3Prog α} (hp : Sends env rt sent p (w, [])) {a : α}
    (h : p.run (exec env rt) w = some (.ok a, w')) : notified env rt p w = sent := by
  have hnoted : (p.run (execSending env rt) (w, [])).map (fun r => (r.1, r.2.1)) = some (.ok a, w') := by
    rw [Prog.run_noting, h]
  obtain ⟨⟨x, v, notes⟩, hrun, he⟩ := Option.map_eq_some_iff.mp hnoted
  obtain ⟨hx, -⟩ := Prod.mk.inj he
  rw [notified, hrun]
  have hsent := hp.of_run hrun
  rw [show x = _ from hx] at hsent
  exact hsent

/-- The bucket stays, and nothing is sent. -/
theorem Before.call {c : S3Call} {r : c.Reply × World × List (Target × Notification)}
    (hs : Before region name bucket s) (hc : c.isSilent = true) (h : execSending env rt c s = some r) :
    Before region name bucket r.2 := by
  obtain ⟨hr, hnotes⟩ := Prog.noting_eq_some.mp h
  have htouches : c.touchesBuckets = false := by cases c <;> first | rfl | cases hc
  refine ⟨hasBucket_of_call htouches hr hs.1, ?_⟩
  rw [hnotes, ← hs.2]
  cases c <;> first | rfl | cases hc

theorem Before.run {p : S3Prog α} (hs : Before region name bucket s)
    (hp : p.Only fun c => c.isSilent = true) :
    p.Ensures (execSending env rt) (fun _ _ => True) (fun _ => Before region name bucket) s :=
  hp.ensures (fun _ _ _ _ => trivial) (fun _ _ _ hc hs h => hs.call hc h) hs

/-! ### Rules for what a program sends -/

theorem sends_call {c : S3Call} {f : c.Reply → S3Prog α} (hs : Before region name bucket s)
    (hc : c.isSilent = true) (hf : ∀ x w', exec env rt c s.1 = some (x, w') →
      Before region name bucket (w', []) → Sends env rt sent (f x) (w', [])) :
    Sends env rt sent (call c >>= f) s := by
  refine Prog.ensures_perform_bind trivial fun r h => ?_
  have hbefore := hs.call hc h
  obtain ⟨x, v, notes⟩ := r
  obtain rfl : notes = [] := hbefore.2
  exact hf x v (Prog.noting_eq_some.mp h).1 hbefore

theorem sends_after {p : S3Prog β} {f : β → S3Prog α} (hs : Before region name bucket s)
    (hp : p.Only fun c => c.isSilent = true)
    (hf : ∀ x w', Before region name bucket (w', []) → Sends env rt sent (f x) (w', [])) :
    Sends env rt sent (p >>= f) s := by
  refine Prog.ensures_bind_of (hs.run hp) (fun x s' hs' => ?_) fun _ _ _ => trivial
  obtain ⟨w', notes⟩ := s'
  obtain rfl : notes = [] := hs'.2
  exact hf x w' hs'

/-- What follows sends nothing. -/
theorem sends_then {p : S3Prog β} {f : β → S3Prog α} (hp : Sends env rt sent p s)
    (hf : ∀ x, (f x).Only fun c => c.isSilent = true) : Sends env rt sent (p >>= f) s := by
  refine Prog.ensures_bind_of hp (fun x s' hs' => ?_) fun _ _ _ => trivial
  have hstep : ∀ (c : S3Call) (t : World × List (Target × Notification))
      (r : c.Reply × World × List (Target × Notification)), c.isSilent = true → t.2 = sent →
      execSending env rt c t = some r → r.2.2 = sent := by
    intro c t r hc ht h
    rw [(Prog.noting_eq_some.mp h).2, ← ht]
    cases c <;> first | rfl | cases hc
  refine ((hf x).ensures (fun _ _ _ _ => trivial) hstep hs').mono fun y s' hs' => ?_
  cases y with
  | ok => exact hs'
  | error => trivial

theorem sends_guarded {p : S3Prog α} (hp : Sends env rt sent p s) : Sends env rt sent (guarded p) s := by
  refine Prog.ensures_mapThrow (hp.mono fun x s' hs' => ?_)
  cases x with
  | ok => exact hs'
  | error => trivial

theorem sends_nothing {p : S3Prog α} (hs : Before region name bucket s)
    (hp : p.Only fun c => c.isSilent = true) : Sends env rt [] p s := by
  refine (hs.run hp).mono fun x s' hs' => ?_
  cases x with
  | ok => exact hs'.2
  | error => trivial

/-- One part of `CheckNotifications`. -/
theorem notify_sends (target : Target) (entity : Bucket) (region key : Str) (size : Int) (event : Str)
    (s : World × List (Target × Notification)) :
    Sends env rt (s.2 ++ (sentTo event key (entity.notifications target)).map (Prod.mk target))
      (notify target entity region key size event) s := by
  have hfor : (fun n : Notification => decide (event ∈ n.events)) = Notification.isFor event := by
    funext n
    simp [Notification.isFor]
  unfold notify sentTo
  rw [hfor]
  rcases hfound : (entity.notifications target).find? (Notification.isFor event) with _ | notification
  · simp [Prog.Ensures, Sent, pure]
  · simp only [Option.toList_some]
    refine Prog.ensures_when (fun hfits => ?_) fun hfits => ?_
    · refine Prog.ensures_perform_bind trivial fun r h => ?_
      refine Prog.ensures_perform_bind trivial fun r' h' => ?_
      refine Prog.ensures_ofExcept ?_
      rcases hx : r'.1 with e | ⟨⟩
      · trivial
      · have hnotes : r.2.2 = s.2 := (Prog.noting_eq_some.mp h).2
        have hnotes' : r'.2.2 = r.2.2 ++ [(target, notification)] := (Prog.noting_eq_some.mp h').2
        rw [Sent, hnotes', hnotes]
        simp [hfits]
    · simp [Sent, hfits]

theorem checkNotifications_sends (region name key : Str) (size : Int) (event : Str) (w : World) :
    Sends env rt (sentOf (w.notifications region name) event key)
      (checkNotifications region name key size event) (w, []) := by
  refine Prog.ensures_perform_bind trivial fun r h => ?_
  obtain ⟨entity, w', notes⟩ := r
  obtain ⟨hr, hnotes⟩ := Prog.noting_eq_some.mp h
  obtain rfl : notes = [] := hnotes
  have hentity : w.notifications region name = entity.notifications := by
    obtain ⟨v, hv, -⟩ := exec_eq_some.mp hr
    cases hv
    funext target
    unfold World.notifications S3MemoryDb.getBucketByRegionName
    rcases w.db.buckets.findIf _ with _ | ⟨oid, bucket⟩ <;> cases target <;> rfl
  have hlists : sentOf entity.notifications event key =
      (([] ++ (sentTo event key (entity.notifications .queue)).map (Prod.mk .queue)) ++
        (sentTo event key (entity.notifications .topic)).map (Prod.mk .topic)) ++
        (sentTo event key (entity.notifications .lambda)).map (Prod.mk .lambda) := by
    simp [sentOf, Target.all]
  rw [hentity, hlists]
  refine Prog.ensures_bind_of (notify_sends .queue entity _ _ _ _ _) (fun _ s hs => ?_) fun _ _ _ => trivial
  rw [← show s.2 = _ from hs]
  refine Prog.ensures_bind_of (notify_sends .topic entity _ _ _ _ _) (fun _ s hs => ?_) fun _ _ _ => trivial
  rw [← show s.2 = _ from hs]
  exact notify_sends .lambda entity _ _ _ _ _

theorem Before.notify {key : Str} {size : Int} {event : Str} (hs : Before region name bucket (w, [])) :
    Sends env rt (sentOf bucket.notifications event key) (checkNotifications region name key size event)
      (w, []) := by
  rw [← hs.1.notifications_eq]
  exact checkNotifications_sends _ _ _ _ _ _

/-! ### Requests -/

theorem saveUnversionedObject_sends (request : PutObjectRequest) (entity : Bucket) (body : Str)
    (chunkEncoding : Bool) (hs : Before request.region request.bucket bucket (w, [])) :
    Sends env rt (sentOf bucket.notifications (str "ObjectCreated") request.key)
      (saveUnversionedObject env request entity body chunkEncoding) (w, []) := by
  refine sends_after hs (Prog.only_perform rfl) fun fileName w hs => ?_
  refine sends_after hs (receiveContent_only (fun _ => rfl) _ _) fun content w hs => ?_
  refine sends_after hs (Prog.only_perform rfl) fun _ w hs => ?_
  refine sends_after hs (Prog.only_perform rfl) fun size w hs => ?_
  refine sends_after hs (Prog.only_perform rfl) fun now w hs => ?_
  refine sends_after hs (Prog.only_perform rfl) fun stored w hs => ?_
  refine sends_after hs (startHashing_only (fun _ _ => rfl) _ _) fun _ w hs => ?_
  refine sends_after hs (createOrUpdateObject_only (fun _ _ _ => rfl) rfl rfl) fun object w hs => ?_
  refine sends_after hs (checkEncryption_only (fun _ _ => rfl) _ _) fun _ w hs => ?_
  exact sends_then hs.notify fun _ => Prog.only_pure _

theorem createVersion_sends (request : PutObjectRequest) (entity : Bucket) (fileName : Str) (size : Int)
    (hs : Before request.region request.bucket bucket (w, [])) :
    Sends env rt (sentOf bucket.notifications (str "ObjectCreated") request.key)
      (createVersion env request entity fileName size) (w, []) := by
  refine sends_after hs (Prog.only_perform rfl) fun versionId w hs => ?_
  refine sends_after hs (Prog.only_perform rfl) fun now w hs => ?_
  refine sends_after hs (Prog.only_perform rfl) fun stored w hs => ?_
  refine sends_after hs (Prog.only_perform rfl) fun object w hs => ?_
  refine sends_after hs (startHashing_only (fun _ _ => rfl) _ _) fun _ w hs => ?_
  refine sends_after hs (checkEncryption_only (fun _ _ => rfl) _ _) fun _ w hs => ?_
  exact sends_then hs.notify fun _ => Prog.only_pure _

/-- A version of the key has the digest of the request. -/
def World.hasDigest (env : Env) (w : World) (request : PutObjectRequest) : Bool :=
  (w.db.objects.findIf fun _ o => o.isAt request.region request.bucket request.key ∧
    o.md5sum = env.contentMd5 request.md5Sum).elim false fun it => it.1 ≠ []

theorem saveVersionedObject_sends (request : PutObjectRequest) (entity : Bucket) (body : Str)
    (hs : Before request.region request.bucket bucket (w, [])) :
    Sends env rt (if w.hasDigest env request then []
        else sentOf bucket.notifications (str "ObjectCreated") request.key)
      (saveVersionedObject env request entity body) (w, []) := by
  refine sends_call hs rfl fun fileName w₁ h₁ hs => ?_
  refine sends_call hs rfl fun _ w₂ h₂ hs => ?_
  refine sends_call hs rfl fun size w₃ h₃ hs => ?_
  refine sends_call hs rfl fun now w₄ h₄ hs => ?_
  refine sends_call hs rfl fun existing w₅ h₅ hs => ?_
  have hobjects : w₄.db.objects = w.db.objects := by
    rw [objects_eq_of_call rfl h₄, objects_eq_of_call rfl h₃, objects_eq_of_call rfl h₂,
      objects_eq_of_call rfl h₁]
  have hexisting : existing.oid = [] ↔ w.hasDigest env request = false := by
    obtain ⟨v, hv, -⟩ := exec_eq_some.mp h₅
    cases hv
    unfold World.hasDigest S3MemoryDb.getObjectMd5
    rw [hobjects]
    rcases w.db.objects.findIf _ with _ | ⟨oid, object⟩ <;> simp [S3MemoryDb.fetchObject]
  dsimp only
  by_cases hoid : existing.oid = []
  · rw [if_pos hoid, if_neg (by rw [hexisting.mp hoid]; simp)]
    exact sends_then (createVersion_sends request entity fileName size hs) fun _ =>
      Prog.only_bind (Prog.only_perform rfl) fun _ => Prog.only_pure _
  · rw [if_neg hoid, if_pos (Bool.not_eq_false _ ▸ mt hexisting.mpr hoid)]
    exact sends_nothing hs (Prog.only_bind (Prog.only_perform rfl) fun _ =>
      Prog.only_bind (Prog.only_ofExcept _) fun _ => Prog.only_bind (Prog.only_pure _) fun _ =>
        Prog.only_bind (Prog.only_perform rfl) fun _ => Prog.only_pure _)

/-- The put creates an object or replaces its content: the bucket is not versioned, or no version has
    the digest of the request. -/
def World.changes (env : Env) (w : World) (request : PutObjectRequest) : Bool :=
  !((w.db.buckets.findIf fun _ b => b.isNamed request.region request.bucket).elim false
    fun it => it.2.isVersioned) || !w.hasDigest env request

theorem hasBucket_of_exists (h : w.db.bucketExists region name = true) :
    ∃ bucket, HasBucket region name bucket w := by
  obtain ⟨⟨k, bucket⟩, hfind⟩ := Option.isSome_iff_exists.mp h
  exact ⟨bucket, k, bucket.oid, hfind⟩

theorem bucketExists_reply {exists_ : Bool} (h : exec env rt (.bucketExists region name) w = some (exists_, w')) :
    exists_ = w.db.bucketExists region name := by
  obtain ⟨v, hv, -⟩ := exec_eq_some.mp h
  exact (Prod.mk.inj (Option.some.inj hv)).1.symm

theorem objectExists_reply {key : Str} {exists_ : Bool}
    (h : exec env rt (.objectExists region name key) w = some (exists_, w')) :
    exists_ = w.db.objectExists region name key := by
  obtain ⟨v, hv, -⟩ := exec_eq_some.mp h
  exact (Prod.mk.inj (Option.some.inj hv)).1.symm

/-- A request that throws when the bucket is missing. -/
theorem sends_missing {p : S3Prog α} {e : S3Error} (hexists : w.db.bucketExists region name = false) :
    Sends env rt sent (do
      if ← call (.bucketExists region name) then p else .throw e) (w, []) := by
  refine Prog.ensures_perform_bind trivial fun r h => ?_
  rw [bucketExists_reply (Prog.noting_eq_some.mp h).1, hexists]
  trivial

theorem putObject_sends (request : PutObjectRequest) (body : Str) (chunkEncoding : Bool) :
    Sends env rt (if w.changes env request then
        sentOf (w.notifications request.region request.bucket) (str "ObjectCreated") request.key
      else []) (putObject env request body chunkEncoding) (w, []) := by
  rcases hexists : w.db.bucketExists request.region request.bucket with _ | _
  · exact sends_missing hexists
  obtain ⟨bucket, hbucket⟩ := hasBucket_of_exists hexists
  have hs : Before request.region request.bucket bucket (w, []) := ⟨hbucket, rfl⟩
  rw [hbucket.notifications_eq]
  refine sends_call hs rfl fun exists_ w₁ h₁ hs₁ => ?_
  obtain rfl : exists_ = true := (bucketExists_reply h₁).trans hexists
  refine sends_guarded (sends_call hs₁ rfl fun entity w₂ h₂ hs₂ => ?_)
  have hdigest : w₂.hasDigest env request = w.hasDigest env request := by
    unfold World.hasDigest
    rw [objects_eq_of_call rfl h₂, objects_eq_of_call rfl h₁]
  have hchanges : w.changes env request = (!entity.isVersioned || !w₂.hasDigest env request) := by
    obtain ⟨k, oid, hfind⟩ := hbucket
    have hversioned := hasSettings_lookup (hasSettings_iff.mpr ⟨bucket, hs₁.1, rfl, rfl⟩) h₂
    rw [World.changes, hfind, hversioned.1, hdigest]
    rfl
  rw [hchanges]
  rcases hversioned : entity.isVersioned with _ | _
  · exact saveUnversionedObject_sends request entity body chunkEncoding hs₂
  · have hsends : Sends env rt _ (saveVersionedObject env request entity body) (w₂, []) :=
      saveVersionedObject_sends request entity body hs₂
    rcases hdigest₂ : w₂.hasDigest env request with _ | _ <;> rwa [hdigest₂] at hsends

theorem deleteObject_sends (request : DeleteObjectRequest) :
    Sends env rt (if w.db.objectExists request.region request.bucket request.key then
        sentOf (w.notifications request.region request.bucket) (str "ObjectRemoved") request.key
      else []) (deleteObject env request) (w, []) := by
  rcases hexists : w.db.bucketExists request.region request.bucket with _ | _
  · exact sends_missing hexists
  obtain ⟨bucket, hbucket⟩ := hasBucket_of_exists hexists
  have hs : Before request.region request.bucket bucket (w, []) := ⟨hbucket, rfl⟩
  rw [hbucket.notifications_eq]
  refine sends_call hs rfl fun exists_ w₁ h₁ hs => ?_
  obtain rfl : exists_ = true := (bucketExists_reply h₁).trans hexists
  refine sends_call hs rfl fun found w₂ h₂ hs => ?_
  have hfound : found = w.db.objectExists request.region request.bucket request.key := by
    rw [objectExists_reply h₂]
    unfold S3MemoryDb.objectExists
    rw [objects_eq_of_call rfl h₁]
  rw [← hfound]
  rcases found with _ | _
  · exact hs.2
  · refine sends_guarded ?_
    refine sends_after hs (Prog.only_perform rfl) fun object w hs => ?_
    refine sends_after hs (Prog.only_perform rfl) fun _ w hs => ?_
    refine sends_after hs (deleteObjectFiles_only (fun _ => rfl) (fun _ => rfl) _ _ _ _) fun _ w hs => ?_
    exact hs.notify

/-! ### The configurations that are notified -/

/-- The first configuration decides for each target; for a request that changes nothing, none is due. -/
def World.Dispatches (w : World) (region name event key : Str) (changes : Bool) : Prop :=
  if changes then ∀ target, FirstDecides event key (w.notifications region name target)
  else w.due region name event key = []

theorem perm_due_iff {event key : Str} {changes : Bool} :
    (if changes then sentOf (w.notifications region name) event key else []).Perm
      (w.due region name event key) ↔ w.Dispatches region name event key changes := by
  unfold World.Dispatches
  split
  · exact sentOf_perm_iff
  · exact List.nil_perm

/-- A request that succeeds notifies exactly the configurations that are due, each once, when the first
    configuration for the event decides; so does `CheckNotifications` for every event. -/
theorem notification_dispatch (env : Env) (rt : Runtime) (w w' : World) :
    (∀ (request : PutObjectRequest) (body : Str) (chunkEncoding : Bool) (response : PutObjectResponse),
      (putObject env request body chunkEncoding).run (exec env rt) w = some (.ok response, w') →
      ((notified env rt (putObject env request body chunkEncoding) w).Perm
          (w.due request.region request.bucket (str "ObjectCreated") request.key) ↔
        w.Dispatches request.region request.bucket (str "ObjectCreated") request.key
          (w.changes env request))) ∧
    (∀ request : DeleteObjectRequest, (deleteObject env request).run (exec env rt) w = some (.ok (), w') →
      ((notified env rt (deleteObject env request) w).Perm
          (w.due request.region request.bucket (str "ObjectRemoved") request.key) ↔
        w.Dispatches request.region request.bucket (str "ObjectRemoved") request.key
          (w.db.objectExists request.region request.bucket request.key))) ∧
    ∀ (region name key : Str) (size : Int) (event : Str),
      (checkNotifications region name key size event).run (exec env rt) w = some (.ok (), w') →
      ((notified env rt (checkNotifications region name key size event) w).Perm
          (w.due region name event key) ↔ w.Dispatches region name event key true) := by
  refine ⟨fun request body chunkEncoding response h => ?_, fun request h => ?_,
    fun region name key size event h => ?_⟩
  · rw [notified_of_sends (putObject_sends request body chunkEncoding) h]
    exact perm_due_iff
  · rw [notified_of_sends (deleteObject_sends request) h]
    exact perm_due_iff
  · rw [notified_of_sends (checkNotifications_sends region name key size event w) h]
    exact @perm_due_iff _ _ _ _ _ true

namespace Dispatch

/-- Two queues are notified of new objects: one of those below `img/` that end in `.png`, one of all. -/
def images : Notification where
  id := str "images"
  events := [str "ObjectCreated"]
  arn := str "arn:images"
  filterRules := [{ name := str "prefix", value := str "img/" }, { name := str "suffix", value := str ".png" }]

def everything : Notification where
  id := str "everything"
  events := [str "ObjectCreated", str "ObjectRemoved"]
  arn := str "arn:everything"

/-- A store with one bucket that has these configurations for queues. -/
def store (notifications : List Notification) : World where
  db := { buckets := OrderedMap.ofList [(str "b", {
    region := str "eu", name := str "bucket", queueNotifications := notifications,
    created := 0, modified := 0 })] }

def put (key : Str) : S3Prog PutObjectResponse :=
  putObject .sample { region := str "eu", bucket := str "bucket", key := key } (str "content") false

theorem firstDecides_nil (event key : Str) : FirstDecides event key [] := by
  intro first rest h
  cases h

theorem firstDecides_singleton {n : Notification} {key : Str} (h : n.accepts key = true) (event : Str) :
    FirstDecides event key [n] := by
  intro first rest hfilter
  rw [List.filter_singleton] at hfilter
  rcases hfor : n.isFor event with _ | _
  · rw [hfor] at hfilter
    cases hfilter
  · rw [hfor] at hfilter
    obtain ⟨rfl, rfl⟩ := List.cons.inj hfilter
    exact ⟨fun _ => h, by simp⟩

/-- A run that is seen to succeed. -/
theorem exists_of_any {p : S3Prog α} (h : ((p.run (exec env rt) w).any fun r => r.1.toBool) = true) :
    ∃ a w', p.run (exec env rt) w = some (.ok a, w') := by
  obtain ⟨⟨x, w'⟩, hrun, hx⟩ := (Option.any_eq_true _ _).mp h
  cases x with
  | error => cases hx
  | ok a => exact ⟨a, w', hrun⟩

def delete (key : Str) : S3Prog Unit :=
  deleteObject .sample { region := str "eu", bucket := str "bucket", key := key }

/-- The object `doc` is put: the first configuration rejects it, and the second, which is due, is not
    notified. Below `img/` the first is notified of an object of another kind. -/
theorem rejection_hides :
    (((put (str "doc")).run (exec .sample .counting) (store [images, everything])).any
      fun r => r.1.toBool) = true ∧
    notified .sample .counting (put (str "doc")) (store [images, everything]) = [] ∧
    (store [images, everything]).due (str "eu") (str "bucket") (str "ObjectCreated") (str "doc") =
      [(.queue, everything)] ∧
    notified .sample .counting (put (str "img/a.txt")) (store [images]) = [(.queue, images)] ∧
    (store [images]).due (str "eu") (str "bucket") (str "ObjectCreated") (str "img/a.txt") = [] := by
  decide +kernel

/-- With a configuration for everything alone, a put is dispatched, and a deletion of nothing is not. -/
theorem notification_dispatch_sample :
    (notified .sample .counting (put (str "doc")) (store [everything])).Perm [(.queue, everything)] ∧
    ¬ (notified .sample .counting (delete (str "doc")) (store [everything])).Perm
      [(.queue, everything)] ∧
    (notified .sample .counting (checkNotifications (str "eu") (str "bucket") (str "doc") 0
      (str "ObjectRemoved")) (store [everything])).Perm [(.queue, everything)] := by
  obtain ⟨response, w, hput⟩ : ∃ response w',
      (put (str "doc")).run (exec .sample .counting) (store [everything]) = some (.ok response, w') :=
    exists_of_any (by decide +kernel)
  obtain ⟨⟨⟩, v, hdelete⟩ : ∃ u w',
      (delete (str "doc")).run (exec .sample .counting) (store [everything]) = some (.ok u, w') :=
    exists_of_any (by decide +kernel)
  obtain ⟨⟨⟩, u, hcheck⟩ : ∃ a w', (checkNotifications (str "eu") (str "bucket") (str "doc") 0
      (str "ObjectRemoved")).run (exec .sample .counting) (store [everything]) = some (.ok a, w') :=
    exists_of_any (by decide +kernel)
  have hdecides : ∀ (event : Str) (target : Target), FirstDecides event (str "doc")
      ((store [everything]).notifications (str "eu") (str "bucket") target) := by
    intro event target
    cases target with
    | queue => exact firstDecides_singleton rfl event
    | topic | lambda => exact firstDecides_nil event _
  have hcreated : (store [everything]).due (str "eu") (str "bucket") (str "ObjectCreated") (str "doc") =
      [(.queue, everything)] := by decide +kernel
  have hremoved : (store [everything]).due (str "eu") (str "bucket") (str "ObjectRemoved") (str "doc") =
      [(.queue, everything)] := by decide +kernel
  refine ⟨?_, ?_, ?_⟩
  · rw [← hcreated]
    exact ((notification_dispatch _ _ _ w).1 _ _ _ _ hput).mpr (hdecides _)
  · rw [← hremoved]
    refine mt ((notification_dispatch _ _ _ v).2.1 _ hdelete).mp fun h => ?_
    have hnone : (store [everything]).due (str "eu") (str "bucket") (str "ObjectRemoved") (str "doc") = [] := h
    rw [hremoved] at hnone
    cases hnone
  · rw [← hremoved]
    exact ((notification_dispatch _ _ _ u).2.2 _ _ _ _ _ hcheck).mpr (hdecides _)

end Dispatch

end AwsMock.S3
