import Mathlib.Data.List.Induction
import AwsMock.Lambda.ExclusiveInstance
import AwsMock.Lambda.Ledger
import AwsMock.Sns.Service

/-!
# Tags

The requests that change the tags of SQS queues, SNS topics and lambda functions, one after the other on one
resource. A queue is found by its URL in all regions and written back by its region and name, a topic by its ARN and
written back by its region and name, and a function likewise.
-/

namespace AwsMock.Tags

open Lib OrderedMap

/-- What requests with tags are about. -/
inductive Resource where
  | queue (region queueUrl : Str)
  | topic (topicArn : Str)
  | function (arn : Str)
  deriving DecidableEq

/-- Queues and topics have no request that removes tags. -/
inductive Request where
  | tagQueue (request : Sqs.TagQueueRequest)
  | tagResource (request : Sns.TagResourceRequest)
  | createTag (request : Lambda.CreateTagRequest)
  | deleteTags (request : Lambda.DeleteTagsRequest)

def Request.resource : Request → Resource
  | tagQueue request => .queue request.region request.queueUrl
  | tagResource request => .topic request.resourceArn
  | createTag request => .function request.arn
  | deleteTags request => .function request.arn

/-! ### What is asked for -/

/-- The tags that a request asks for: the given keys are set and the others kept, or the given keys are removed. -/
def Request.applyTo : Request → OrderedMap Str Str → OrderedMap Str Str
  | tagQueue request, tags => Lambda.setTags tags request.tags
  | tagResource request, tags => Lambda.setTags tags request.tags
  | createTag request, tags => Lambda.setTags tags request.tags
  | deleteTags request, tags => Lambda.eraseTags tags request.tags

def applyAll (requests : List Request) (tags : OrderedMap Str Str) : OrderedMap Str Str :=
  requests.foldl (fun tags request => request.applyTo tags) tags

/-- What a request makes of the tags. -/
def Request.change : Request → OrderedMap Str Str → OrderedMap Str Str
  | tagQueue request, tags => Lambda.setTags tags request.tags
  | tagResource request, _ => request.tags
  | createTag request, tags => Lambda.emplaceTags tags request.tags
  | deleteTags request, tags => Lambda.eraseTags tags request.tags

def changeAll (requests : List Request) (tags : OrderedMap Str Str) : OrderedMap Str Str :=
  requests.foldl (fun tags request => request.change tags) tags

/-- When a request makes of the tags what it asks for: a topic is given all the keys that it has, and a function no
    key that it has with another value. -/
def Request.Meets : Request → OrderedMap Str Str → Prop
  | tagResource request, tags => ∀ key, (tags.get? key).isSome → (request.tags.get? key).isSome
  | createTag request, tags => ∀ key value value', tags.get? key = some value → request.tags.get? key = some value' →
      value = value'
  | tagQueue _, _ | deleteTags _, _ => True

theorem get?_setTags (tags added : OrderedMap Str Str) (key : Str) :
    (Lambda.setTags tags added).get? key = (added.get? key).or (tags.get? key) := by
  rw [Lambda.setTags]
  rcases hget : added.get? key with _ | value
  · refine get?_foldl_insert_of_notMem _ _ fun hmem => ?_
    obtain ⟨⟨_, value⟩, hentry, rfl⟩ := List.mem_map.mp hmem
    cases hget.symm.trans (get?_eq_some.mpr hentry)
  · exact get?_foldl_insert_of_nodup _ added.keys_nodup (get?_eq_some.mp hget)

theorem get?_eraseTags (tags : OrderedMap Str Str) (keys : List Str) (key : Str) :
    (Lambda.eraseTags tags keys).get? key = if key ∈ keys then none else tags.get? key := by
  rw [Lambda.eraseTags]
  induction keys generalizing tags with
  | nil => rfl
  | cons k keys ih =>
    rw [List.foldl_cons, ih, get?_eraseIf_key]
    by_cases hmem : key ∈ keys <;> by_cases hk : key = k <;> simp [hmem, hk]

/-- A key that is there keeps its value. -/
theorem get?_emplaceTags (tags added : OrderedMap Str Str) (key : Str) :
    (Lambda.emplaceTags tags added).get? key = (tags.get? key).or (added.get? key) := by
  have hadded := get?.eq_1 added key
  rw [Lambda.emplaceTags, hadded]
  induction added.entries generalizing tags with
  | nil => simp
  | cons tag es ih =>
    rw [List.foldl_cons, ih, List.find?_cons]
    rcases hfirst : tags.get? tag.1 with _ | value
    · by_cases hkey : tag.1 = key
      · subst hkey
        simp [hfirst]
      · simp [get?_insert_of_ne _ _ (Ne.symm hkey), hkey]
    · by_cases hkey : tag.1 = key
      · subst hkey
        simp [hfirst]
      · simp [hkey]

theorem change_eq_iff (request : Request) (tags : OrderedMap Str Str) :
    request.change tags = request.applyTo tags ↔ request.Meets tags := by
  have hext : ∀ a b : OrderedMap Str Str, a = b ↔ ∀ key, a.get? key = b.get? key := fun a b =>
    ⟨fun h key => congrArg (·.get? key) h, ext_get?⟩
  cases request with
  | tagQueue request => exact iff_true_intro rfl
  | deleteTags request => exact iff_true_intro rfl
  | tagResource request =>
    refine (hext _ _).trans (forall_congr' fun key => ?_)
    simp only [Request.change, Request.applyTo, get?_setTags]
    cases request.tags.get? key <;> cases tags.get? key <;> simp
  | createTag request =>
    refine (hext _ _).trans (forall_congr' fun key => ?_)
    simp only [Request.change, Request.applyTo, get?_setTags, get?_emplaceTags]
    cases request.tags.get? key <;> cases tags.get? key <;> simp

/-! ### The resources -/

/-- The processes of the services. Requests for queues run on the store that SNS shares. -/
structure Process where
  stores : Sns.World
  lambda : Lambda.World

/-- What the services draw from outside. -/
structure Environment where
  cfg : Configuration
  rt : Sqs.Runtime
  lambdaRt : Lambda.Runtime
  accountId : Str

/-- A request to the lambda service runs alone. -/
def execAlone (env : Environment) : Prog.Exec Lambda.LambdaCall Lambda.LambdaCall.Reply Lambda.World := fun c w =>
  (Lambda.exec env.lambdaRt env.accountId 0 c w).bind fun
    | .goes r w _ => some (r, w)
    | .waits => none

/-- The state after a program that does not throw. -/
def succeeded {σ : Type} : Option (Except Error Unit × σ) → Option σ
  | some (.ok (), s) => some s
  | _ => none

def Request.perform (env : Environment) : Request → Process → Option Process
  | tagQueue request, p => (succeeded ((Sqs.tagQueue request).run (Sqs.exec env.cfg env.rt) p.stores.sqs)).map fun w =>
    { p with stores := { p.stores with sqs := w } }
  | tagResource request, p => (succeeded ((Sns.tagResource request).run (Sns.exec env.cfg env.rt) p.stores)).map fun w =>
    { p with stores := w }
  | createTag request, p => (succeeded ((Lambda.createTag request).run (execAlone env) p.lambda)).map fun w =>
    { p with lambda := w }
  | deleteTags request, p => (succeeded ((Lambda.deleteTags request).run (execAlone env) p.lambda)).map fun w =>
    { p with lambda := w }

/-- One request after the other. -/
def performAll (env : Environment) : List Request → Process → Option Process
  | [], p => some p
  | request :: requests, p => (request.perform env p).bind (performAll env requests)

/-- The tags of a resource. -/
def Process.tagsOf (p : Process) : Resource → Option (OrderedMap Str Str)
  | .queue region queueUrl =>
    (p.stores.sqs.db.queues.findIf fun _ queue => queue.region = region ∧ queue.queueUrl = queueUrl).map (·.2.tags)
  | .topic topicArn => (p.stores.db.topics.findIf fun _ topic => topic.topicArn = topicArn).map (·.2.tags)
  | .function arn => (p.lambda.db.findLambda fun lambda => lambda.arn = arn).map (·.2.tags)

/-- The record of a resource with its tags, to which all lookups of the requests lead. -/
def Process.Stores (p : Process) (tags : OrderedMap Str Str) : Resource → Prop
  | .queue region queueUrl => ∃ key queue, queue.tags = tags ∧
    (p.stores.sqs.db.queues.findIf fun _ q => q.region = region ∧ q.queueUrl = queueUrl) = some (key, queue) ∧
    (p.stores.sqs.db.queues.findIf fun _ q => q.queueUrl = queueUrl) = some (key, queue) ∧
    (p.stores.sqs.db.queues.findIf fun _ q => q.region = queue.region ∧ q.name = queue.name) = some (key, queue)
  | .topic topicArn => ∃ key topic, topic.tags = tags ∧
    (p.stores.db.topics.findIf fun _ t => t.topicArn = topicArn) = some (key, topic) ∧
    (p.stores.db.topics.findIf fun _ t => t.region = topic.region ∧ t.topicName = topic.topicName) = some (key, topic)
  | .function arn => ∃ key lambda, lambda.tags = tags ∧
    (p.lambda.db.findLambda fun l => l.arn = arn) = some (key, lambda) ∧
    p.lambda.db.findUpdated lambda = some (key, lambda)

/-! ### One request -/

variable (env : Environment) {p : Process} {tags : OrderedMap Str Str}

/-- A record that a lookup finds is found again when it has been replaced. -/
theorem findIf_replaced {α : Type} {m : OrderedMap Str α} {test : Str → α → Bool} {key : Str} {v v' : α}
    (h : m.findIf test = some (key, v)) (hsame : test key v' = test key v) :
    (m.insert key v').findIf test = some (key, v') := by
  rw [findIf_insert_of_same (findIf_some h).1 hsame, h]
  simp

theorem tagQueue_run {request : Sqs.TagQueueRequest} {w : Sqs.World} {key : Str} {queue : Sqs.Queue}
    (hregion : (w.db.queues.findIf fun _ q => q.region = request.region ∧ q.queueUrl = request.queueUrl) =
      some (key, queue))
    (hurl : (w.db.queues.findIf fun _ q => q.queueUrl = request.queueUrl) = some (key, queue))
    (hname : (w.db.queues.findIf fun _ q => q.region = queue.region ∧ q.name = queue.name) = some (key, queue)) :
    ∃ w', (Sqs.tagQueue request).run (Sqs.exec env.cfg env.rt) w = some (.ok (), w') ∧
      w'.db.queues = w.db.queues.insert key { queue with
        oid := key, tags := Lambda.setTags queue.tags request.tags } := by
  have hexists : w.db.queueUrlExists request.region request.queueUrl = true := by
    rw [Sqs.SqsMemoryDb.queueUrlExists, hregion]
    rfl
  have hget : ∀ now, w.db.getQueueByUrl request.queueUrl now = ({ queue with oid := key },
      { w.db with queues := w.db.queues.insert key { queue with oid := key } }) := fun now => by
    rw [Sqs.SqsMemoryDb.getQueueByUrl, hurl]
    rfl
  have hagain : ((w.db.queues.insert key { queue with oid := key }).findIf fun _ q =>
      q.region = queue.region ∧ q.name = queue.name) = some (key, { queue with oid := key }) :=
    findIf_replaced hname rfl
  have hupdate : ∀ tags, Sqs.SqsMemoryDb.updateQueue
      { w.db with queues := w.db.queues.insert key { queue with oid := key } }
      { queue with oid := key, tags := tags } = some ({ queue with oid := key, tags := tags },
        { w.db with queues := w.db.queues.insert key { queue with oid := key, tags := tags } }) := fun tags => by
    rw [Sqs.SqsMemoryDb.updateQueue, hagain]
    simp only [Option.map_some, insert_insert]
  refine ⟨⟨{ w.db with queues := w.db.queues.insert key { queue with
    oid := key, tags := Lambda.setTags queue.tags request.tags } }, w.calls + 1 + 1 + 1⟩, ?_, rfl⟩
  simp [Sqs.tagQueue, Sqs.guarded, Prog.run_perform_bind, Sqs.exec, Sqs.SqsCall.apply, hexists, hget, hupdate,
    Lambda.setTags]
  rfl

theorem tagResource_run {request : Sns.TagResourceRequest} {w : Sns.World} {key : Str} {topic : Sns.Topic}
    (harn : (w.db.topics.findIf fun _ t => t.topicArn = request.resourceArn) = some (key, topic))
    (hname : (w.db.topics.findIf fun _ t => t.region = topic.region ∧ t.topicName = topic.topicName) =
      some (key, topic)) :
    ∃ w', (Sns.tagResource request).run (Sns.exec env.cfg env.rt) w = some (.ok (), w') ∧
      w'.db.topics = w.db.topics.insert key { topic with oid := key, tags := request.tags } := by
  have hexists : w.db.topicExists request.resourceArn = true := by
    rw [Sns.SnsMemoryDb.topicExists, harn]
    rfl
  have hget : ∀ now, w.db.getTopicByArn request.resourceArn now = ({ topic with oid := key },
      { w.db with topics := w.db.topics.insert key { topic with oid := key } }) := fun now => by
    rw [Sns.SnsMemoryDb.getTopicByArn, harn]
    rfl
  have hagain : ((w.db.topics.insert key { topic with oid := key }).findIf fun _ t =>
      t.region = topic.region ∧ t.topicName = topic.topicName) = some (key, { topic with oid := key }) :=
    findIf_replaced hname rfl
  have hupdate : ∀ tags, Sns.SnsMemoryDb.updateTopic
      { w.db with topics := w.db.topics.insert key { topic with oid := key } }
      { topic with oid := key, tags := tags } = some ({ topic with oid := key, tags := tags },
        { w.db with topics := w.db.topics.insert key { topic with oid := key, tags := tags } }) := fun tags => by
    rw [Sns.SnsMemoryDb.updateTopic, hagain]
    simp only [Option.map_some, insert_insert]
  refine ⟨⟨{ w.db with topics := w.db.topics.insert key { topic with oid := key, tags := request.tags } },
    { w.sqs with calls := w.sqs.calls + 1 + 1 + 1 }⟩, ?_, rfl⟩
  simp [Sns.tagResource, Sns.guarded, Prog.run_perform_bind, Sns.exec, Sns.SnsCall.apply, hexists, hget, hupdate]
  rfl

theorem changeTags_run {arn : Str} (change : OrderedMap Str Str → OrderedMap Str Str) {w : Lambda.World} {key : Str}
    {lambda : Lambda.Lambda} (harn : (w.db.findLambda fun l => l.arn = arn) = some (key, lambda))
    (hname : w.db.findUpdated lambda = some (key, lambda)) :
    ∃ w', (Lambda.changeTags arn change).run (execAlone env) w = some (.ok (), w') ∧
      w'.db.lambdas = w.db.lambdas.insert key { lambda with oid := arn, tags := change lambda.tags } := by
  have hexists : w.db.lambdaExistsByArn arn = true := by
    rw [Lambda.LambdaMemoryDb.lambdaExistsByArn, harn]
    rfl
  have hget : w.db.getLambdaByArn arn = (.ok { lambda with oid := arn }, w.db.withOid key arn lambda) := by
    rw [Lambda.LambdaMemoryDb.getLambdaByArn, harn]
  have hfound : (w.db.lambdas.findIf fun _ l => l.region = lambda.region ∧ l.function = lambda.function) =
      some (key, lambda) := hname
  have hagain : ((w.db.lambdas.insert key { lambda with oid := arn }).findIf fun _ l =>
      l.region = lambda.region ∧ l.function = lambda.function) = some (key, { lambda with oid := arn }) :=
    findIf_replaced hfound rfl
  have hupdate : ∀ tags, (w.db.withOid key arn lambda).updateLambda { lambda with oid := arn, tags := tags } =
      (.ok { lambda with oid := arn, tags := tags },
        ⟨w.db.lambdas.insert key { lambda with oid := arn, tags := tags }⟩) := fun tags => by
    rw [Lambda.LambdaMemoryDb.updateLambda, Lambda.LambdaMemoryDb.findUpdated, Lambda.LambdaMemoryDb.findLambda,
      Lambda.LambdaMemoryDb.withOid, hagain]
    simp only [insert_insert]
  refine ⟨{ (w.tick.tick.looksUp 0 (.ok { lambda with oid := arn }, w.db.withOid key arn lambda)).tick with
    db := ⟨w.db.lambdas.insert key { lambda with oid := arn, tags := change lambda.tags }⟩ }, ?_, rfl⟩
  simp [Lambda.changeTags, Lambda.tryCall, Prog.run_bind, execAlone, Lambda.exec, Lambda.World.looksUp,
    Lambda.World.reads, Lambda.World.tick, hexists, hget, hupdate]

theorem tagsOf_of_stores {resource : Resource} (h : p.Stores tags resource) : p.tagsOf resource = some tags := by
  cases resource with
  | queue region queueUrl =>
    obtain ⟨key, queue, rfl, hregion, -⟩ := h
    exact congrArg (Option.map _) hregion
  | topic topicArn =>
    obtain ⟨key, topic, rfl, harn, -⟩ := h
    exact congrArg (Option.map _) harn
  | function arn =>
    obtain ⟨key, lambda, rfl, harn, -⟩ := h
    exact congrArg (Option.map _) harn

theorem changeTags_stores {arn : Str} (change : OrderedMap Str Str → OrderedMap Str Str)
    (h : p.Stores tags (.function arn)) : ∃ w', (Lambda.changeTags arn change).run (execAlone env) p.lambda =
      some (.ok (), w') ∧ Process.Stores ⟨p.stores, w'⟩ (change tags) (.function arn) := by
  obtain ⟨key, lambda, rfl, harn, hname⟩ := h
  obtain ⟨w', hrun, hlambdas⟩ := changeTags_run env change harn hname
  refine ⟨w', hrun, key, { lambda with oid := arn, tags := change lambda.tags }, rfl, ?_, ?_⟩
  · rw [Lambda.LambdaMemoryDb.findLambda, hlambdas]
    exact findIf_replaced harn rfl
  · rw [Lambda.LambdaMemoryDb.findUpdated, Lambda.LambdaMemoryDb.findLambda, hlambdas]
    exact findIf_replaced hname rfl

/-- A request on a resource that is stored changes its tags, and it stays stored. -/
theorem perform_stores (request : Request) (h : p.Stores tags request.resource) :
    ∃ p', request.perform env p = some p' ∧ p'.Stores (request.change tags) request.resource := by
  cases request with
  | tagQueue request =>
    obtain ⟨key, queue, rfl, hregion, hurl, hname⟩ := h
    obtain ⟨w', hrun, hqueues⟩ := tagQueue_run env hregion hurl hname
    refine ⟨{ p with stores := { p.stores with sqs := w' } }, ?_, key, { queue with
      oid := key, tags := Lambda.setTags queue.tags request.tags }, rfl, ?_, ?_, ?_⟩
    · rw [Request.perform, hrun]
      rfl
    · rw [hqueues]
      exact findIf_replaced hregion rfl
    · rw [hqueues]
      exact findIf_replaced hurl rfl
    · rw [hqueues]
      exact findIf_replaced hname rfl
  | tagResource request =>
    obtain ⟨key, topic, rfl, harn, hname⟩ := h
    obtain ⟨w', hrun, htopics⟩ := tagResource_run env harn hname
    refine ⟨{ p with stores := w' }, ?_, key, { topic with oid := key, tags := request.tags }, rfl, ?_, ?_⟩
    · rw [Request.perform, hrun]
      rfl
    · rw [htopics]
      exact findIf_replaced harn rfl
    · rw [htopics]
      exact findIf_replaced hname rfl
  | createTag request =>
    obtain ⟨w', hrun, hstores⟩ := changeTags_stores env (Lambda.emplaceTags · request.tags) h
    refine ⟨⟨p.stores, w'⟩, ?_, hstores⟩
    rw [Request.perform, Lambda.createTag, hrun]
    rfl
  | deleteTags request =>
    obtain ⟨w', hrun, hstores⟩ := changeTags_stores env (Lambda.eraseTags · request.tags) h
    refine ⟨⟨p.stores, w'⟩, ?_, hstores⟩
    rw [Request.perform, Lambda.deleteTags, hrun]
    rfl

/-! ### All requests -/

/-- Requests on a resource that is stored change its tags one after the other. -/
theorem performAll_stores {resource : Resource} : ∀ {requests : List Request} {p : Process} {tags : OrderedMap Str Str},
    (∀ request ∈ requests, request.resource = resource) → p.Stores tags resource →
      ∃ p', performAll env requests p = some p' ∧ p'.Stores (changeAll requests tags) resource
  | [], p, _, _, h => ⟨p, rfl, h⟩
  | request :: requests, p, tags, hsame, h => by
    obtain ⟨hrequest, hrequests⟩ := List.forall_mem_cons.mp hsame
    subst hrequest
    obtain ⟨p', hrun, h'⟩ := perform_stores env request h
    obtain ⟨p'', hrun', h''⟩ := performAll_stores hrequests h'
    exact ⟨p'', by rw [performAll, hrun]; exact hrun', h''⟩

/-- After each of the requests, the tags of the resource are those that the requests up to then ask for. -/
def Follows (env : Environment) (p : Process) (resource : Resource) (requests : List Request)
    (tags : OrderedMap Str Str) : Prop :=
  ∀ done, done <+: requests → ∃ p', performAll env done p = some p' ∧
    p'.tagsOf resource = some (applyAll done tags)

/-- Each request meets the tags that those before it ask for. -/
def MeetsAll (requests : List Request) (tags : OrderedMap Str Str) : Prop :=
  ∀ done request, done ++ [request] <+: requests → request.Meets (applyAll done tags)

theorem applyAll_concat (requests : List Request) (request : Request) (tags : OrderedMap Str Str) :
    applyAll (requests ++ [request]) tags = request.applyTo (applyAll requests tags) := by
  rw [applyAll, List.foldl_append]
  rfl

theorem changeAll_concat (requests : List Request) (request : Request) (tags : OrderedMap Str Str) :
    changeAll (requests ++ [request]) tags = request.change (changeAll requests tags) := by
  rw [changeAll, List.foldl_append]
  rfl

/-- What is made of the tags is what is asked for all along exactly when each request meets them. -/
theorem changeAll_eq_iff (requests : List Request) (tags : OrderedMap Str Str) :
    (∀ done, done <+: requests → changeAll done tags = applyAll done tags) ↔ MeetsAll requests tags := by
  constructor
  · intro h done request hdone
    have hbefore := h done ((List.prefix_append done [request]).trans hdone)
    have hafter := h _ hdone
    rw [changeAll_concat, applyAll_concat, hbefore] at hafter
    exact (change_eq_iff request _).mp hafter
  · intro h done hdone
    induction done using List.reverseRecOn with
    | nil => rfl
    | append_singleton done request ih =>
      have hbefore := ih ((List.prefix_append done [request]).trans hdone)
      rw [changeAll_concat, applyAll_concat, hbefore]
      exact (change_eq_iff request _).mpr (h done request hdone)

theorem follows_iff {resource : Resource} {requests : List Request}
    (hsame : ∀ request ∈ requests, request.resource = resource) (hstored : p.Stores tags resource) :
    Follows env p resource requests tags ↔ ∀ done, done <+: requests → changeAll done tags = applyAll done tags := by
  refine forall₂_congr fun done hdone => ?_
  obtain ⟨p', hrun, hstores⟩ := performAll_stores env (fun request h => hsame request (hdone.subset h)) hstored
  rw [hrun]
  constructor
  · rintro ⟨_, ⟨⟩, htags⟩
    exact Option.some.inj ((tagsOf_of_stores hstores).symm.trans htags)
  · intro h
    exact ⟨p', rfl, by rw [tagsOf_of_stores hstores, h]⟩

/-- The tags of a resource follow the requests exactly when topics are given all the keys that they have and functions
    no other values for keys that they have. -/
theorem tags_follow_iff (env : Environment) (p : Process) (resource : Resource) (requests : List Request)
    (tags : OrderedMap Str Str) (hsame : ∀ request ∈ requests, request.resource = resource)
    (hstored : p.Stores tags resource) : Follows env p resource requests tags ↔ MeetsAll requests tags :=
  (follows_iff env hsame hstored).trans (changeAll_eq_iff requests tags)

/-! ### A topic -/

def sampleEnvironment : Environment where
  cfg := Sqs.Env.sample.cfg
  rt := .counting 20
  lambdaRt := .answering
  accountId := str "1"

/-- A process with one topic. -/
def sampleProcess : Process where
  stores := { db := { topics := (∅ : OrderedMap Str Sns.Topic).insert (str "1") {
    region := str "eu", topicName := str "t", topicArn := str "arn", created := 0, modified := 0 } } }
  lambda := {}

def tagTopic (key value : String) : Request :=
  .tagResource { region := str "eu", resourceArn := str "arn", tags := OrderedMap.ofList [(str key, str value)] }

theorem sampleProcess_stores : sampleProcess.Stores ∅ (.topic (str "arn")) :=
  ⟨_, _, rfl, rfl, rfl⟩

theorem tags_follow_sample : Follows sampleEnvironment sampleProcess (.topic (str "arn")) [tagTopic "a" "1"] ∅ ↔
    MeetsAll [tagTopic "a" "1"] ∅ :=
  tags_follow_iff sampleEnvironment sampleProcess _ _ _ (fun request h => by cases List.mem_singleton.mp h; rfl)
    sampleProcess_stores

/-- The second request of a topic takes the tags of the first. -/
theorem topic_tags_replaced : ¬ (∀ (env : Environment) (p : Process) (resource : Resource) (requests : List Request)
    (tags : OrderedMap Str Str), (∀ request ∈ requests, request.resource = resource) → p.Stores tags resource →
      Follows env p resource requests tags) := by
  intro h
  have hsame : ∀ request ∈ [tagTopic "a" "1", tagTopic "b" "2"], request.resource = .topic (str "arn") := by
    decide +kernel
  have hfollows := h sampleEnvironment sampleProcess _ _ _ hsame sampleProcess_stores
  have heq := (follows_iff _ hsame sampleProcess_stores).mp hfollows _ (List.prefix_refl _)
  exact absurd heq (by decide +kernel)

end AwsMock.Tags
