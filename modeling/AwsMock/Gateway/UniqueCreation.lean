import AwsMock.Lib.Naming
import AwsMock.Lib.Pool
import AwsMock.S3.Steps
import AwsMock.Sns.Service
import AwsMock.Sqs.Steps

/-!
# Concurrent creations of queues, buckets and topics

Any number of `CreateQueue`, `CreateBucket` and `CreateTopic` requests over the three in-memory stores,
under any schedule of their store calls. A request that finds the name taken does not insert, but the
check and the insert are calls of their own, and `CreateTopic` looks an existing topic up by its ARN.
-/

namespace AwsMock.Gateway

open Lib

/-- The process: the stores of SQS and SNS, and the store of S3. -/
structure Process where
  sns : Sns.World := {}
  s3 : S3.World := {}
  deriving DecidableEq

namespace Process

abbrev queues (p : Process) : OrderedMap Str Sqs.Queue := p.sns.sqs.db.queues
abbrev topics (p : Process) : OrderedMap Str Sns.Topic := p.sns.db.topics
abbrev buckets (p : Process) : OrderedMap Str S3.Bucket := p.s3.db.buckets

end Process

/-- A store call of one of the services. -/
inductive CreationCall where
  | sns (c : Sns.SnsCall)
  | s3 (c : S3.S3Call)

abbrev CreationCall.Reply : CreationCall → Type
  | sns c => c.Reply
  | s3 c => c.Reply

/-- What the process computes with and draws from outside. -/
structure ProcessEnv where
  sqs : Sqs.Env
  s3 : S3.Env
  sqsRuntime : Sqs.Runtime
  s3Runtime : S3.Runtime

def ProcessEnv.sample : ProcessEnv where
  sqs := Sqs.Env.sample
  s3 := S3.Env.sample
  sqsRuntime := .counting 20
  s3Runtime := .counting

/-- The meaning of a call in the process. -/
def exec (env : ProcessEnv) : Prog.Exec CreationCall CreationCall.Reply Process
  | .sns c, p => (Sns.exec env.sqs.cfg env.sqsRuntime c p.sns).map fun r => (r.1, { p with sns := r.2 })
  | .s3 c, p => (S3.exec env.s3 env.s3Runtime c p.s3).map fun r => (r.1, { p with s3 := r.2 })

inductive CreationRequest where
  | createQueue (request : Sqs.CreateQueueRequest)
  | createBucket (request : S3.CreateBucketRequest)
  | createTopic (request : Sns.CreateTopicRequest)

/-- The responses; of the one of `CreateBucket` the location. -/
inductive CreationResponse where
  | queue (response : Sqs.CreateQueueResponse)
  | bucket (location : Str)
  | topic (response : Sns.CreateTopicResponse)
  deriving DecidableEq

abbrev CreationProg := Prog CreationCall CreationCall.Reply (Error ⊕ S3.S3Error)

/-- A program of the SNS service. -/
def snsService {α : Type} (p : Sns.SnsProg α) : CreationProg α :=
  (p.via fun c => Prog.perform (.sns c)).mapThrow .inl

/-- A program of the S3 service. -/
def s3Service {α : Type} (p : S3.S3Prog α) : CreationProg α :=
  (p.via fun c => Prog.perform (.s3 c)).mapThrow .inr

/-- The program of a request. -/
def CreationRequest.program (env : Sqs.Env) : CreationRequest → CreationProg CreationResponse
  | createQueue request => do
    return .queue (← snsService (Sns.sqsService (Sqs.createQueue env request)))
  | createBucket request => do return .bucket (← s3Service (S3.createBucket request))
  | createTopic request => do return .topic (← snsService (Sns.createTopic env.cfg request))

/-! ### Names -/

def queueName (queue : Sqs.Queue) : Str × Str := (queue.region, queue.name)
def topicName (topic : Sns.Topic) : Str × Str := (topic.region, topic.topicName)
def bucketName (bucket : S3.Bucket) : Str × Str := (bucket.region, bucket.name)

/-- One queue, one topic and one bucket of each name. -/
structure Unique (p : Process) : Prop where
  queues : OrderedMap.UniqueBy queueName p.queues
  topics : OrderedMap.UniqueBy topicName p.topics
  buckets : OrderedMap.UniqueBy bucketName p.buckets

/-- What the response of a request shows is a stored record of the name asked for. -/
def ShowsStored : CreationRequest → CreationResponse → Process → Prop
  | .createQueue request, .queue response, p =>
    ∃ k queue, p.queues.get? k = some queue ∧ queueName queue = (request.region, request.queueName) ∧
      response = { region := queue.region, name := queue.name, owner := queue.owner,
                   queueUrl := queue.queueUrl, queueArn := queue.queueArn }
  | .createBucket request, .bucket location, p =>
    ∃ k bucket, p.buckets.get? k = some bucket ∧ bucketName bucket = (request.region, request.name) ∧
      location = bucket.region
  | .createTopic request, .topic response, p =>
    ∃ k topic, p.topics.get? k = some topic ∧ topicName topic = (request.region, request.topicName) ∧
      response = { region := topic.region, name := topic.topicName, owner := topic.owner,
                   topicArn := topic.topicArn }
  | _, _, _ => False

/-- An insert finds the name still free, and a topic asked for does not exist. -/
def CreationCall.fits : CreationCall → Process → Bool
  | .sns (.sqs (.createQueue queue)), p => !p.sns.sqs.db.queueExists queue.region queue.name
  | .sns (.topicNameExists region name), p => !p.sns.db.topicNameExists region name
  | .sns (.createTopic topic), p => !p.sns.db.topicNameExists topic.region topic.topicName
  | .s3 (.createBucket bucket), p => !p.s3.db.bucketExists bucket.region bucket.name
  | _, _ => true

/-! ### The invariant -/

/-- The ids of the first calls of a run. -/
def DrawnBefore (uuid : Nat → Str) (n : Nat) (key : Str) : Prop := ∃ i < n, key = uuid i

theorem DrawnBefore.mono {uuid : Nat → Str} {n m : Nat} (hle : n ≤ m) (key : Str) (h : DrawnBefore uuid n key) :
    DrawnBefore uuid m key := by
  obtain ⟨i, hi, rfl⟩ := h
  exact ⟨i, Nat.lt_of_lt_of_le hi hle, rfl⟩

theorem drawnBefore_succ (uuid : Nat → Str) (n : Nat) : DrawnBefore uuid (n + 1) (uuid n) :=
  ⟨n, Nat.lt_succ_self n, rfl⟩

theorem not_drawnBefore {uuid : Nat → Str} (hinj : ∀ {n m}, uuid n = uuid m → n = m) (n : Nat) :
    ¬ DrawnBefore uuid n (uuid n) := by
  rintro ⟨i, hi, h⟩
  exact absurd (hinj h) (Nat.ne_of_gt hi)

structure Catalogued (env : ProcessEnv) (p : Process) : Prop where
  queues : OrderedMap.Catalogue queueName (DrawnBefore env.sqsRuntime.uuid p.sns.sqs.calls) p.queues
  topics : OrderedMap.Catalogue topicName (DrawnBefore env.sqsRuntime.uuid p.sns.sqs.calls) p.topics
  buckets : OrderedMap.Catalogue bucketName (DrawnBefore env.s3Runtime.uuid p.s3.calls) p.buckets

theorem Catalogued.empty (env : ProcessEnv) : Catalogued env {} where
  queues := OrderedMap.catalogue_empty
  topics := OrderedMap.catalogue_empty
  buckets := OrderedMap.catalogue_empty

theorem Catalogued.unique {env : ProcessEnv} {p : Process} (h : Catalogued env p) : Unique p where
  queues := h.queues.unique
  topics := h.topics.unique
  buckets := h.buckets.unique

/-- The stored records stay, up to the `oid` that lookups write into them. -/
structure KeepsRecords (p p' : Process) : Prop where
  queues : OrderedMap.KeptBy (fun queue => { queue with oid := [] }) p.queues p'.queues
  topics : OrderedMap.KeptBy (fun topic => { topic with oid := [] }) p.topics p'.topics
  buckets : OrderedMap.KeptBy (fun bucket => { bucket with oid := [] }) p.buckets p'.buckets

theorem KeepsRecords.refl (p : Process) : KeepsRecords p p where
  queues := OrderedMap.KeptBy.refl _ _
  topics := OrderedMap.KeptBy.refl _ _
  buckets := OrderedMap.KeptBy.refl _ _

theorem KeepsRecords.trans {p p' p'' : Process} (h : KeepsRecords p p') (h' : KeepsRecords p' p'') :
    KeepsRecords p p'' where
  queues := h.queues.trans h'.queues
  topics := h.topics.trans h'.topics
  buckets := h.buckets.trans h'.buckets

/-- What a response shows stays stored. -/
theorem ShowsStored.kept {request : CreationRequest} {response : CreationResponse} {p p' : Process}
    (h : ShowsStored request response p) (hkept : KeepsRecords p p') : ShowsStored request response p' := by
  cases request <;> cases response <;> try exact h.elim
  case createQueue.queue =>
    obtain ⟨k, queue, hqueue, hname, rfl⟩ := h
    obtain ⟨queue', hqueue', hsame⟩ := hkept.queues k queue hqueue
    simp only [Sqs.Queue.mk.injEq] at hsame
    refine ⟨k, queue', hqueue', ?_, ?_⟩
    · rw [← hname]
      simp [queueName, hsame]
    · simp [hsame]
  case createBucket.bucket =>
    obtain ⟨k, bucket, hbucket, hname, rfl⟩ := h
    obtain ⟨bucket', hbucket', hsame⟩ := hkept.buckets k bucket hbucket
    simp only [S3.Bucket.mk.injEq] at hsame
    refine ⟨k, bucket', hbucket', ?_, ?_⟩
    · rw [← hname]
      simp [bucketName, hsame]
    · simp [hsame]
  case createTopic.topic =>
    obtain ⟨k, topic, htopic, hname, rfl⟩ := h
    obtain ⟨topic', htopic', hsame⟩ := hkept.topics k topic htopic
    simp only [Sns.Topic.mk.injEq] at hsame
    refine ⟨k, topic', htopic', ?_, ?_⟩
    · rw [← hname]
      simp [topicName, hsame]
    · simp [hsame]

/-! ### What the calls do -/

theorem queueExists_eq_false {db : Sqs.SqsMemoryDb} {region name : Str} (h : db.queueExists region name = false)
    {k : Str} {queue : Sqs.Queue} (hqueue : db.queues.get? k = some queue) : queueName queue ≠ (region, name) := by
  intro hname
  obtain ⟨rfl, rfl⟩ := Prod.mk.inj hname
  rw [Sqs.SqsMemoryDb.queueExists, Option.isSome_eq_false_iff, Option.isNone_iff_eq_none] at h
  simpa using OrderedMap.findIf_none.mp h k queue hqueue

theorem topicNameExists_eq_false {db : Sns.SnsMemoryDb} {region name : Str}
    (h : db.topicNameExists region name = false) {k : Str} {topic : Sns.Topic}
    (htopic : db.topics.get? k = some topic) : topicName topic ≠ (region, name) := by
  intro hname
  obtain ⟨rfl, rfl⟩ := Prod.mk.inj hname
  rw [Sns.SnsMemoryDb.topicNameExists, Option.isSome_eq_false_iff, Option.isNone_iff_eq_none] at h
  simpa using OrderedMap.findIf_none.mp h k topic htopic

theorem bucketExists_eq_false {db : S3.S3MemoryDb} {region name : Str} (h : db.bucketExists region name = false)
    {k : Str} {bucket : S3.Bucket} (hbucket : db.buckets.get? k = some bucket) :
    bucketName bucket ≠ (region, name) := by
  intro hname
  obtain ⟨rfl, rfl⟩ := Prod.mk.inj hname
  have : db.bucketExists bucket.region bucket.name := S3.S3MemoryDb.bucketExists_iff.mpr ⟨k, bucket, hbucket, rfl, rfl⟩
  rw [h] at this
  cases this

theorem getBucketByRegionName_cases (db : S3.S3MemoryDb) (region name : Str) (now : S3.TimePoint) :
    (∃ k bucket, db.buckets.get? k = some bucket ∧ bucketName bucket = (region, name) ∧
      db.getBucketByRegionName region name now = ({ bucket with oid := k },
        { db with buckets := db.buckets.insert k { bucket with oid := k } })) ∨
    db.bucketExists region name = false ∧
      db.getBucketByRegionName region name now = ({ created := now, modified := now }, db) := by
  unfold S3.S3MemoryDb.getBucketByRegionName S3.S3MemoryDb.bucketExists
  rcases hfind : db.buckets.findIf fun _ bucket => bucket.isNamed region name with _ | ⟨k, bucket⟩
  · exact Or.inr ⟨rfl, rfl⟩
  · obtain ⟨hget, hnamed⟩ := OrderedMap.findIf_some hfind
    obtain ⟨hregion, hname⟩ := of_decide_eq_true hnamed
    exact Or.inl ⟨k, bucket, hget, Prod.ext hregion hname, rfl⟩

/-- A bucket of a name stays. -/
theorem bucketExists_kept {p p' : Process} (hkept : KeepsRecords p p') {region name : Str}
    (h : p.s3.db.bucketExists region name) : p'.s3.db.bucketExists region name := by
  obtain ⟨k, bucket, hbucket, rfl, rfl⟩ := S3.S3MemoryDb.bucketExists_iff.mp h
  obtain ⟨bucket', hbucket', hsame⟩ := hkept.buckets k bucket hbucket
  simp only [S3.Bucket.mk.injEq] at hsame
  exact S3.S3MemoryDb.bucketExists_iff.mpr ⟨k, bucket', hbucket', hsame.2.1, hsame.2.2.1⟩

variable {env : ProcessEnv}

/-- A call that leaves the records alone. -/
theorem Catalogued.passed {p p' : Process} (h : Catalogued env p) (hqueues : p'.queues = p.queues)
    (htopics : p'.topics = p.topics) (hbuckets : p'.buckets = p.buckets)
    (hsqs : p.sns.sqs.calls ≤ p'.sns.sqs.calls) (hs3 : p.s3.calls ≤ p'.s3.calls) :
    Catalogued env p' ∧ KeepsRecords p p' := by
  refine ⟨⟨?_, ?_, ?_⟩, ⟨?_, ?_, ?_⟩⟩
  · rw [hqueues]
    exact h.queues.later (DrawnBefore.mono hsqs)
  · rw [htopics]
    exact h.topics.later (DrawnBefore.mono hsqs)
  · rw [hbuckets]
    exact h.buckets.later (DrawnBefore.mono hs3)
  · rw [hqueues]
    exact OrderedMap.KeptBy.refl _ _
  · rw [htopics]
    exact OrderedMap.KeptBy.refl _ _
  · rw [hbuckets]
    exact OrderedMap.KeptBy.refl _ _

/-- After a call of the SQS store, of the SNS store and of the S3 store. -/
def Process.setQueues (p : Process) (queues : OrderedMap Str Sqs.Queue) : Process :=
  { p with sns.sqs.db.queues := queues, sns.sqs.calls := p.sns.sqs.calls + 1 }

def Process.setTopics (p : Process) (topics : OrderedMap Str Sns.Topic) : Process :=
  { p with sns.db.topics := topics, sns.sqs.calls := p.sns.sqs.calls + 1 }

def Process.setBuckets (p : Process) (buckets : OrderedMap Str S3.Bucket) : Process :=
  { p with s3.db.buckets := buckets, s3.calls := p.s3.calls + 1 }

theorem DrawnBefore.succ {uuid : Nat → Str} {n : Nat} : ∀ key, DrawnBefore uuid n key → DrawnBefore uuid (n + 1) key :=
  DrawnBefore.mono (Nat.le_succ n)

/-- A queue of a new name. -/
theorem Catalogued.createQueue {p : Process} (h : Catalogued env p) {queue : Sqs.Queue}
    (hfits : (CreationCall.sns (.sqs (.createQueue queue))).fits p) :
    ∃ oid p', exec env (.sns (.sqs (.createQueue queue))) p = some ({ queue with oid := oid }, p') ∧
      p'.queues.get? oid = some { queue with oid := oid } ∧ Catalogued env p' ∧ KeepsRecords p p' := by
  obtain ⟨hqueues, hkept⟩ := OrderedMap.Catalogue.create (fun queue => { queue with oid := [] })
    ({ queue with oid := env.sqsRuntime.uuid p.sns.sqs.calls } : Sqs.Queue) h.queues DrawnBefore.succ
    (not_drawnBefore env.sqsRuntime.uuid_inj _) (drawnBefore_succ _ _) fun k queue' hqueue' =>
      queueExists_eq_false ((Bool.not_eq_true' _).mp hfits) hqueue'
  refine ⟨env.sqsRuntime.uuid p.sns.sqs.calls, p.setQueues (p.queues.insert _ _), ?_,
    OrderedMap.get?_insert_self .., ⟨hqueues, h.topics.later DrawnBefore.succ, h.buckets⟩,
    ⟨hkept, OrderedMap.KeptBy.refl _ _, OrderedMap.KeptBy.refl _ _⟩⟩
  simp [exec, Sns.exec, Sqs.exec, Sqs.SqsCall.apply, Sqs.SqsMemoryDb.createQueue_eq, Process.setQueues]

/-- A topic of a new name. -/
theorem Catalogued.createTopic {p : Process} (h : Catalogued env p) {topic : Sns.Topic}
    (hfits : (CreationCall.sns (.createTopic topic)).fits p) :
    ∃ oid p', exec env (.sns (.createTopic topic)) p = some ({ topic with oid := oid }, p') ∧
      p'.topics.get? oid = some { topic with oid := oid } ∧ Catalogued env p' ∧ KeepsRecords p p' := by
  obtain ⟨htopics, hkept⟩ := OrderedMap.Catalogue.create (fun topic => { topic with oid := [] })
    ({ topic with oid := env.sqsRuntime.uuid p.sns.sqs.calls } : Sns.Topic) h.topics DrawnBefore.succ
    (not_drawnBefore env.sqsRuntime.uuid_inj _) (drawnBefore_succ _ _) fun k topic' htopic' =>
      topicNameExists_eq_false ((Bool.not_eq_true' _).mp hfits) htopic'
  refine ⟨env.sqsRuntime.uuid p.sns.sqs.calls, p.setTopics (p.topics.insert _ _), ?_,
    OrderedMap.get?_insert_self .., ⟨h.queues.later DrawnBefore.succ, htopics, h.buckets⟩,
    ⟨OrderedMap.KeptBy.refl _ _, hkept, OrderedMap.KeptBy.refl _ _⟩⟩
  simp [exec, Sns.exec, Sns.SnsCall.apply, Sns.SnsMemoryDb.createTopic_eq, Process.setTopics]

/-- A bucket of a new name. -/
theorem Catalogued.createBucket {p : Process} (h : Catalogued env p) {bucket : S3.Bucket}
    (hfits : (CreationCall.s3 (.createBucket bucket)).fits p) :
    ∃ oid p', exec env (.s3 (.createBucket bucket)) p = some ({ bucket with oid := oid }, p') ∧
      p'.buckets.get? oid = some { bucket with oid := oid } ∧ Catalogued env p' ∧ KeepsRecords p p' := by
  obtain ⟨hbuckets, hkept⟩ := OrderedMap.Catalogue.create (fun bucket => { bucket with oid := [] })
    ({ bucket with oid := env.s3Runtime.uuid p.s3.calls } : S3.Bucket) h.buckets DrawnBefore.succ
    (not_drawnBefore env.s3Runtime.uuid_inj _) (drawnBefore_succ _ _) fun k bucket' hbucket' =>
      bucketExists_eq_false ((Bool.not_eq_true' _).mp hfits) hbucket'
  refine ⟨env.s3Runtime.uuid p.s3.calls, p.setBuckets (p.buckets.insert _ _), ?_,
    OrderedMap.get?_insert_self .., ⟨h.queues, h.topics, hbuckets⟩,
    ⟨OrderedMap.KeptBy.refl _ _, OrderedMap.KeptBy.refl _ _, hkept⟩⟩
  simp [exec, S3.exec, S3.S3Call.apply, S3.S3MemoryDb.createBucket_eq, Process.setBuckets]

/-- A bucket of the name is found, whose key is written into it. -/
theorem Catalogued.getBucketByRegionName {p : Process} (h : Catalogued env p) {region name : Str}
    (hexists : p.s3.db.bucketExists region name) :
    ∃ k bucket p', exec env (.s3 (.getBucketByRegionName region name)) p = some ({ bucket with oid := k }, p') ∧
      p'.buckets.get? k = some { bucket with oid := k } ∧ bucketName bucket = (region, name) ∧
      Catalogued env p' ∧ KeepsRecords p p' := by
  rcases getBucketByRegionName_cases p.s3.db region name (env.s3Runtime.now p.s3.calls) with
    ⟨k, bucket, hbucket, hname, heq⟩ | ⟨hnot, -⟩
  · refine ⟨k, bucket, p.setBuckets (p.buckets.insert k { bucket with oid := k }), ?_,
      OrderedMap.get?_insert_self .., hname,
      ⟨h.queues, h.topics, h.buckets.rewrite DrawnBefore.succ hbucket rfl⟩,
      ⟨OrderedMap.KeptBy.refl _ _, OrderedMap.KeptBy.refl _ _, OrderedMap.keptBy_replace hbucket rfl⟩⟩
    simp [exec, S3.exec, S3.S3Call.apply, heq, Process.setBuckets]
  · rw [hnot] at hexists
    cases hexists

/-! ### The programs -/

/-- What a creation keeps beside the others. -/
def creationContract (env : ProcessEnv) (request : CreationRequest) :
    Prog.Contract CreationCall (Error ⊕ S3.S3Error) CreationResponse Process Unit where
  inv x := Catalogued env x.1
  rely x y := KeepsRecords x.1 y.1
  guar x y := KeepsRecords x.1 y.1
  cond c p := c.fits p
  post a y := ∀ response, a = .ok response → ShowsStored request response y.1

variable {request : CreationRequest}

theorem creation_call {c : CreationCall} {k : c.Reply → CreationProg CreationResponse} {x : Process × Unit}
    (h : ∀ p, KeepsRecords x.1 p → Catalogued env p → c.fits p → ∃ r p', exec env c p = some (r, p') ∧
      (Catalogued env p' ∧ KeepsRecords p p') ∧ (k r).Keeps (exec env) (creationContract env request) (p', ())) :
    Prog.Keeps (exec env) (creationContract env request) (.call c k) x := by
  rintro ⟨p, _⟩ hrely hinv hcond
  obtain ⟨r, p', hr, ⟨hinv', hguar⟩, hk⟩ := h p hrely hinv hcond
  exact ⟨(r, p'), (), hr, hinv', hguar, hk⟩

theorem creation_throws (e : Error ⊕ S3.S3Error) (x : Process × Unit) :
    Prog.Keeps (exec env) (creationContract env request) (.throw e) x := fun _ _ _ _ h => nomatch h

theorem creation_ends {response : CreationResponse} {x : Process × Unit} (h : ShowsStored request response x.1) :
    Prog.Keeps (exec env) (creationContract env request) (.ret response) x := by
  intro y hrely _ response' hresponse
  cases hresponse
  exact h.kept hrely

theorem createQueue_keeps (request : Sqs.CreateQueueRequest) (x : Process × Unit) :
    (CreationRequest.program env.sqs (.createQueue request)).Keeps (exec env)
      (creationContract env (.createQueue request)) x := by
  refine creation_call fun p _ hp _ => ⟨_, _, rfl, hp.passed rfl rfl rfl (Nat.le_succ _) (Nat.le_refl _), ?_⟩
  simp only [Prog.bind]
  split_ifs
  · exact creation_throws _ _
  rcases request.attributes.foldlM (Sqs.createQueueAttribute env.sqs.poco) {} with e | attributes
  · exact creation_throws _ _
  refine creation_call fun p _ hp _ => ⟨_, _, rfl, hp.passed rfl rfl rfl (Nat.le_succ _) (Nat.le_refl _), ?_⟩
  refine creation_call fun p _ hp hfits => ?_
  obtain ⟨oid, p', hcall, hstored, hkept⟩ := hp.createQueue hfits
  exact ⟨_, p', hcall, hkept, creation_ends ⟨oid, _, hstored, rfl, rfl⟩⟩

theorem createBucket_keeps (request : S3.CreateBucketRequest) (x : Process × Unit) :
    (CreationRequest.program env.sqs (.createBucket request)).Keeps (exec env)
      (creationContract env (.createBucket request)) x := by
  refine creation_call fun p _ hp _ => ⟨_, _, rfl, hp.passed rfl rfl rfl (Nat.le_refl _) (Nat.le_succ _), ?_⟩
  simp only [Prog.bind]
  split_ifs with hexists
  · refine creation_call fun p' hkept hp' _ => ?_
    obtain ⟨k, bucket, p'', hcall, hstored, hname, hkept'⟩ := hp'.getBucketByRegionName
      (bucketExists_kept hkept hexists)
    exact ⟨_, p'', hcall, hkept', creation_ends ⟨k, _, hstored, hname, rfl⟩⟩
  refine creation_call fun p _ hp _ => ⟨_, _, rfl, hp.passed rfl rfl rfl (Nat.le_refl _) (Nat.le_succ _), ?_⟩
  refine creation_call fun p _ hp hfits => ?_
  obtain ⟨oid, p', hcall, hstored, hkept⟩ := hp.createBucket hfits
  exact ⟨_, p', hcall, hkept, creation_ends ⟨oid, _, hstored, rfl, rfl⟩⟩

theorem createTopic_keeps (request : Sns.CreateTopicRequest) (x : Process × Unit) :
    (CreationRequest.program env.sqs (.createTopic request)).Keeps (exec env)
      (creationContract env (.createTopic request)) x := by
  refine creation_call fun p _ hp hfits => ⟨_, _, rfl, hp.passed rfl rfl rfl (Nat.le_succ _) (Nat.le_refl _), ?_⟩
  simp only [Prog.bind]
  split_ifs with hexists
  · exact absurd hexists (by simpa [CreationCall.fits] using hfits)
  refine creation_call fun p _ hp _ => ⟨_, _, rfl, hp.passed rfl rfl rfl (Nat.le_succ _) (Nat.le_refl _), ?_⟩
  refine creation_call fun p _ hp hfits => ?_
  obtain ⟨oid, p', hcall, hstored, hkept⟩ := hp.createTopic hfits
  exact ⟨_, p', hcall, hkept, creation_ends ⟨oid, _, hstored, rfl, rfl⟩⟩

theorem program_keeps (request : CreationRequest) (x : Process × Unit) :
    (request.program env.sqs).Keeps (exec env) (creationContract env request) x := by
  cases request with
  | createQueue request => exact createQueue_keeps request x
  | createBucket request => exact createBucket_keeps request x
  | createTopic request => exact createTopic_keeps request x

/-! ### Every schedule -/

/-- The requests, each with its place in the pool; a place without a program keeps everything. -/
def poolContract (env : ProcessEnv) (requests : List CreationRequest) (i : Nat) :
    Prog.Contract CreationCall (Error ⊕ S3.S3Error) CreationResponse Process Unit :=
  match requests[i]? with
  | some request => creationContract env request
  | none => (creationContract env (.createTopic { region := [], topicName := [] })).ending fun _ _ => True

theorem poolContract_compatible (requests : List CreationRequest) :
    Prog.Compatible (poolContract env requests) (fun x => Catalogued env x.1) fun c p => c.fits p := by
  have hrely : ∀ i x y, (poolContract env requests i).rely x y = KeepsRecords x.1 y.1 := by
    intro i x y
    unfold poolContract
    cases requests[i]? <;> rfl
  have hguar : ∀ i x y, (poolContract env requests i).guar x y = KeepsRecords x.1 y.1 := by
    intro i x y
    unfold poolContract
    cases requests[i]? <;> rfl
  constructor
  · intro i
    unfold poolContract
    cases requests[i]? <;> rfl
  · intro i
    unfold poolContract
    cases requests[i]? <;> rfl
  · intro i x
    rw [hrely]
    exact KeepsRecords.refl x.1
  · intro i x y z hxy hyz
    rw [hrely] at hxy hyz ⊢
    exact hxy.trans hyz
  · intro i j x y _ h
    rw [hguar] at h
    rw [hrely]
    exact h

/-- No name is taken twice, and every request that has succeeded shows the record that is stored. -/
structure CreatedOnce (requests : List CreationRequest) (ps : List (CreationProg CreationResponse)) (p : Process) :
    Prop where
  unique : Unique p
  shown : ∀ (i : Nat) (request : CreationRequest) (q : CreationProg CreationResponse) (response : CreationResponse),
    requests[i]? = some request → ps[i]? = some q → q.outcome = some (.ok response) →
      ShowsStored request response p

def sampleQueue : CreationRequest := .createQueue { region := str "eu", queueName := str "q" }
def sampleBucket : CreationRequest := .createBucket { region := str "eu", name := str "b" }
def sampleTopic : CreationRequest := .createTopic { region := str "eu", topicName := str "t" }

def sampleRequests : List CreationRequest :=
  [sampleQueue, sampleBucket, sampleTopic, .createTopic { region := str "us", topicName := str "t" }]

/-- Where two creations of one name end, both checks made before the inserts. -/
def raced (request : CreationRequest) : Option (List (CreationProg CreationResponse) × Process) :=
  Prog.runPool (exec .sample) [0, 1, 0, 0, 1, 1] ([request, request].map (CreationRequest.program Sqs.Env.sample)) {}

/-- Where two creations of one topic end, one after the other. -/
def repeated : Option (List (CreationProg CreationResponse) × Process) :=
  Prog.runPool (exec .sample) [0, 0, 0, 1, 1] ([sampleTopic, sampleTopic].map (CreationRequest.program Sqs.Env.sample))
    {}

end AwsMock.Gateway
