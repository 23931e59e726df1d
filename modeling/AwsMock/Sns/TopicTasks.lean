import AwsMock.Lib.Protocol
import AwsMock.Lib.Threads
import AwsMock.Sns.SubscriptionHandles

/-!
# Requests for a topic, side by side

`Subscribe`, `Unsubscribe`, `TagResource` and `DeleteTopic` as threads over the store. Each of the first three writes
the whole record back that it has read, and the store writes without looking whether the topic is still there.
-/

namespace AwsMock.Sns

open Lib OrderedMap

/-! ### Requests -/

/-- What the requests read and write of a topic. -/
structure TopicContent where
  region : Str
  subscriptions : List Subscription
  tags : OrderedMap Str Str
  deriving DecidableEq

def Topic.content (topic : Topic) : TopicContent := ⟨topic.region, topic.subscriptions, topic.tags⟩

namespace TopicContent

/-- With a subscription, unless there is one for the same pair. -/
def subscribed (content : TopicContent) (subscription : Subscription) : TopicContent :=
  if content.subscriptions.any fun s =>
      s.protocol = subscription.protocol ∧ s.endpoint = subscription.endpoint then content
  else { content with subscriptions := content.subscriptions ++ [subscription] }

def without (content : TopicContent) (subscriptionArn : Str) : TopicContent :=
  { content with subscriptions := content.subscriptions.filter fun s => s.subscriptionArn ≠ subscriptionArn }

end TopicContent

inductive TopicTask where
  | subscribe (request : SubscribeRequest)
  | unsubscribe (subscriptionArn : Str)
  | tagResource (request : TagResourceRequest)
  | deleteTopic (region topicArn : Str)

namespace TopicTask

/-- The request with its answer; only that of `Subscribe` says something. -/
def program (cfg : Configuration) : TopicTask → SnsProg Str
  | subscribe request => Sns.subscribe cfg request
  | unsubscribe subscriptionArn => Sns.unsubscribe subscriptionArn
  | tagResource request => do
    Sns.tagResource request
    return []
  | deleteTopic region topicArn => do
    Sns.deleteTopic region topicArn
    return []

/-- The requests on a topic; `Unsubscribe` looks in all topics. -/
def On (topicArn : Str) : TopicTask → Prop
  | subscribe request => request.topicArn = topicArn
  | unsubscribe _ => True
  | tagResource request => request.resourceArn = topicArn
  | deleteTopic _ arn => arn = topicArn

/-- What a request with its answer makes of the topic when nothing runs beside it. -/
def effect (topic : Option TopicContent) : TopicTask × Str → Option TopicContent
  | (subscribe request, subscriptionArn) =>
    topic.map fun content => content.subscribed ⟨request.protocol, request.endpoint, subscriptionArn⟩
  | (unsubscribe subscriptionArn, _) => topic.map fun content => content.without subscriptionArn
  | (tagResource request, _) => topic.map fun content => { content with tags := request.tags }
  | (deleteTopic region _, _) => topic.filter fun content => content.region ≠ region

/-- What a request leaves of the topic as it is. -/
def leaves : TopicTask → TopicContent → TopicContent
  | unsubscribe subscriptionArn, content => content.without subscriptionArn
  | tagResource _, content => { content with tags := ∅ }
  | _, content => content

/-- Whether a record read is one of the topic. -/
def Concerns (topicArn : Str) (read : Topic) : TopicTask → Prop
  | unsubscribe _ => read.topicArn = topicArn
  | _ => True

instance (topicArn : Str) (read : Topic) : ∀ task : TopicTask, Decidable (task.Concerns topicArn read)
  | unsubscribe _ => inferInstanceAs (Decidable (read.topicArn = topicArn))
  | subscribe _ | tagResource _ | deleteTopic .. => inferInstanceAs (Decidable True)

end TopicTask

/-! ### The threads -/

/-- How far a request has come: the records it has read and not written back yet, and those it has written. -/
structure Stage where
  begun : Bool := false
  left : List Topic := []
  written : List Topic := []

def Stage.next (stage : Stage) : (c : SnsCall) → c.Reply → Stage
  | .getTopicByArn _, topic => { begun := true, left := [topic] }
  | .getTopicsBySubscriptionArn _, topics => { begun := true, left := topics }
  | .updateTopic topic, _ => { stage with left := stage.left.tail, written := stage.written ++ [topic] }
  | .deleteTopic .., _ => { begun := true }
  | _, _ => stage

structure TopicState where
  world : World
  stage : Nat → Stage

abbrev TopicThread := Thread TopicTask SnsCall SnsCall.Reply Error Str

abbrev TopicPool := Thread.Pool TopicTask SnsCall SnsCall.Reply Error Str TopicState

def topicExec (cfg : Configuration) (rt : Sqs.Runtime) :
    Thread.Exec TopicTask SnsCall SnsCall.Reply Error Str TopicState := fun i c s =>
  (exec cfg rt c s.world).map fun r => .goes r.1
    { world := r.2, stage := Function.update s.stage i ((s.stage i).next c r.1) } []

/-- All requests start on a store. -/
def startTasks (cfg : Configuration) (tasks : List TopicTask) (w : World) : TopicPool :=
  (tasks.map fun task => ⟨task, task.program cfg⟩, { world := w, stage := fun _ => {} })

abbrev topicTurn (cfg : Configuration) (rt : Sqs.Runtime) := Thread.turn (topicExec cfg rt)

def SnsMemoryDb.contentOf (db : SnsMemoryDb) (topicArn : Str) : Option TopicContent :=
  (db.topics.findIf fun _ topic => topic.topicArn = topicArn).map fun it => it.2.content

/-- The requests that have been answered, with their answers. -/
def completed (x : TopicPool) : List (TopicTask × Str) :=
  x.1.filterMap fun t => match t.prog with
    | .ret answer => some (t.label, answer)
    | _ => none

/-- No request is under way. -/
def Ended (x : TopicPool) : Prop := ∀ t ∈ x.1, t.prog.next = none

/-- The topic is what some order of the completed requests, one after the other, makes of it. -/
def Serialised (topicArn : Str) (start : Option TopicContent) (x : TopicPool) : Prop :=
  ∃ order : List (TopicTask × Str), order.Perm (completed x) ∧
    x.2.world.db.contentOf topicArn = order.foldl TopicTask.effect start

/-- The record that the thread is about to write, with the request and the record that was read. -/
def pendingWrite (i : Nat) (x : TopicPool) : Option (TopicTask × Topic × Topic) := do
  let t ← x.1[i]?
  match t.prog.next, (x.2.stage i).left.head? with
  | some (.updateTopic topic), some read => some (t.label, topic, read)
  | _, _ => none

/-- The thread is about to write the topic back, but where the store writes is no record of the topic. -/
def WritesDeleted (topicArn : Str) (i : Nat) (x : TopicPool) : Prop :=
  ∃ write ∈ pendingWrite i x, write.1.Concerns topicArn write.2.2 ∧
    ∀ it ∈ x.2.world.db.topics.findIf fun _ t => t.region = write.2.1.region ∧ t.topicName = write.2.1.topicName,
      it.2.topicArn ≠ topicArn

/-- The thread, if it writes the topic back, finds it as it was read, but for what the request itself sets or
    removes. -/
def Timely (topicArn : Str) (i : Nat) (x : TopicPool) : Prop :=
  ∀ write ∈ pendingWrite i x, write.1.Concerns topicArn write.2.2 →
    ∃ content ∈ x.2.world.db.contentOf topicArn, write.1.leaves write.2.2.content = write.1.leaves content

instance (topicArn : Str) (i : Nat) (x : TopicPool) : Decidable (WritesDeleted topicArn i x) :=
  inferInstanceAs (Decidable (∃ write ∈ pendingWrite i x, write.1.Concerns topicArn write.2.2 ∧
    ∀ it ∈ x.2.world.db.topics.findIf fun _ t => t.region = write.2.1.region ∧ t.topicName = write.2.1.topicName,
      it.2.topicArn ≠ topicArn))

instance (topicArn : Str) (i : Nat) (x : TopicPool) : Decidable (Timely topicArn i x) :=
  inferInstanceAs (Decidable (∀ write ∈ pendingWrite i x, write.1.Concerns topicArn write.2.2 →
    ∃ content ∈ x.2.world.db.contentOf topicArn, write.1.leaves write.2.2.content = write.1.leaves content))

instance (x : TopicPool) : Decidable (Ended x) := inferInstanceAs (Decidable (∀ t ∈ x.1, t.prog.next = none))

/-- The records of an ARN are those of a name, and there is at most one. -/
structure OneTopic (db : SnsMemoryDb) (topicArn : Str) (name : Str × Str) : Prop where
  named : ∀ k topic, db.topics.get? k = some topic → (topic.topicArn = topicArn ↔ topic.name = name)
  single : ∀ k k' topic topic', db.topics.get? k = some topic → db.topics.get? k' = some topic' →
    topic.topicArn = topicArn → topic'.topicArn = topicArn → k = k'

/-- What precedes the first colon can be read off. -/
theorem colon_prefix_inj {x y u v : Str} (hx : byte ':' ∉ x) (hy : byte ':' ∉ y)
    (h : x ++ byte ':' :: u = y ++ byte ':' :: v) : x = y ∧ u = v := by
  have htake : ∀ {x u : Str}, byte ':' ∉ x → (x ++ byte ':' :: u).takeWhile (fun c => c ≠ byte ':') = x := by
    intro x u hx
    have hall : ∀ c ∈ x, decide (c ≠ byte ':') = true := by
      intro c hc
      refine decide_eq_true ?_
      rintro rfl
      exact hx hc
    rw [List.takeWhile_append_of_pos hall]
    simp
  obtain rfl : x = y := by rw [← htake (u := u) hx, h, htake hy]
  exact ⟨rfl, (List.cons.inj (List.append_cancel_left h)).2⟩

/-- The ARN of a topic names its region, if this has no colon, and the topic. -/
theorem createArn_inj {cfg : Configuration} {region region' topicName topicName' : Str} (hregion : byte ':' ∉ region)
    (hregion' : byte ':' ∉ region') (h : createArn (str "sns") region cfg.accountId topicName =
      createArn (str "sns") region' cfg.accountId topicName') : region = region' ∧ topicName = topicName' := by
  have hform : ∀ region topicName, createArn (str "sns") region cfg.accountId topicName =
      str "arn:aws:sns:" ++ (region ++ byte ':' :: (cfg.accountId ++ byte ':' :: topicName)) := by
    intro region topicName
    simp [createArn, str, byte]
  rw [hform, hform] at h
  obtain ⟨rfl, hrest⟩ := colon_prefix_inj hregion hregion' (List.append_cancel_left h)
  exact ⟨rfl, (List.cons.inj (List.append_cancel_left hrest)).2⟩

/-- Topics as `CreateTopic` makes them. -/
theorem Held.oneTopic {cfg : Configuration} {rt : Sqs.Runtime} {s : HandleState} (hI : Held cfg rt s)
    (hregions : ∀ k topic, s.world.db.topics.get? k = some topic → byte ':' ∉ topic.region) {region topicName : Str}
    (hregion : byte ':' ∉ region) :
    OneTopic s.world.db (createArn (str "sns") region cfg.accountId topicName) (region, topicName) := by
  have hnamed : ∀ k topic, s.world.db.topics.get? k = some topic →
      (topic.topicArn = createArn (str "sns") region cfg.accountId topicName ↔ topic.name = (region, topicName)) := by
    intro k topic hget
    rw [hI.arn k topic hget]
    constructor
    · intro harn
      obtain ⟨hregion, htopicName⟩ := createArn_inj (hregions k topic hget) hregion harn
      exact Prod.ext hregion htopicName
    · intro hname
      obtain ⟨rfl, rfl⟩ := Prod.mk.inj hname
      rfl
  refine ⟨hnamed, fun k k' topic topic' hget hget' harn harn' => ?_⟩
  exact hI.topics.unique k k' topic topic' hget hget'
    (((hnamed k topic hget).mp harn).trans ((hnamed k' topic' hget').mp harn').symm)

theorem pendingWrite_eq_some {i : Nat} {x : TopicPool} {label : TopicTask} {topic read : Topic} :
    pendingWrite i x = some (label, topic, read) ↔
      (∃ k, x.1[i]? = some ⟨label, .call (.updateTopic topic) k⟩) ∧ (x.2.stage i).left.head? = some read := by
  constructor
  · intro h
    obtain ⟨⟨label', prog⟩, ht, hmatch⟩ := Option.bind_eq_some_iff.mp h
    dsimp only at hmatch
    split at hmatch
    · next hnext hhead =>
      cases hmatch
      cases prog with
      | ret | throw => cases hnext
      | call c k =>
        cases hnext
        exact ⟨⟨k, ht⟩, hhead⟩
    · cases hmatch
  · rintro ⟨⟨k, ht⟩, hhead⟩
    simp only [pendingWrite, ht, hhead, Option.bind_eq_bind, Option.bind_some, Prog.next]

/-! ### The protocol of a thread -/

namespace TopicTask

/-- What is written for a record that was read. -/
def Rewrites (read topic : Topic) : TopicTask → Prop
  | subscribe request =>
    read.hasSubscription { protocol := request.protocol, endpoint := request.endpoint } = false ∧
      ∃ subscriptionArn, topic = { read with
        subscriptions := read.subscriptions ++ [⟨request.protocol, request.endpoint, subscriptionArn⟩] }
  | unsubscribe subscriptionArn => topic = read.without subscriptionArn
  | tagResource request => topic = { read with tags := request.tags }
  | deleteTopic .. => False

/-- Nothing of the topic is to be written for a record that was read. -/
def Idle (topicArn : Str) (read : Topic) : TopicTask → Prop
  | subscribe request =>
    read.hasSubscription { protocol := request.protocol, endpoint := request.endpoint } = true
  | unsubscribe _ => read.topicArn ≠ topicArn
  | _ => False

/-- Whether the request reads the topic of the ARN. -/
def Looks (arn : Str) : TopicTask → Prop
  | subscribe request => request.topicArn = arn
  | tagResource request => request.resourceArn = arn
  | _ => False

/-- The request has done to the topic what it does. -/
def Done (topicArn : Str) (task : TopicTask) (stage : Stage) : Prop :=
  stage.begun = true ∧ ∀ read ∈ stage.left, task.Idle topicArn read

/-- The answers that the records written allow. -/
def Answers (answer : Str) (stage : Stage) : TopicTask → Prop
  | subscribe _ => ∀ topic ∈ stage.written, ∀ subscription ∈ topic.subscriptions.getLast?,
    subscription.subscriptionArn = answer
  | _ => True

/-- `Subscribe` and `TagResource` write at most once. -/
def WritesOnce (stage : Stage) (rest : List Topic) : TopicTask → Prop
  | unsubscribe _ => True
  | _ => rest = [] ∧ stage.written = []

/-- A request reads first and writes what it has read, one record after the other. -/
def rules (task : TopicTask) : Prog.Protocol SnsCall SnsCall.Reply Stage where
  law stage c := match c with
    | .topicExists _ | .sqs _ => True
    | .getTopicByArn arn => stage = {} ∧ task.Looks arn
    | .getTopicsBySubscriptionArn subscriptionArn => stage = {} ∧ task = unsubscribe subscriptionArn
    | .updateTopic topic => stage.begun = true ∧ ∃ read rest, stage.left = read :: rest ∧ task.Rewrites read topic ∧
        task.WritesOnce stage rest
    | .deleteTopic region topicArn => stage = {} ∧ task = deleteTopic region topicArn
    | _ => False
  next stage c r := stage.next c r

/-- A request that is answered has done its work; one that throws has not begun it. -/
def Ends (topicArn : Str) (task : TopicTask) : Except Error Str → Stage → Prop
  | .ok answer, stage => task.Done topicArn stage ∧ task.Answers answer stage
  | .error _, stage => stage.begun = false

section Rewrites

variable {task : TopicTask} {topicArn : Str} {read topic : Topic}

theorem Rewrites.same_topic (h : task.Rewrites read topic) :
    topic.name = read.name ∧ topic.topicArn = read.topicArn := by
  cases task with
  | subscribe request =>
    obtain ⟨-, subscriptionArn, rfl⟩ := h
    exact ⟨rfl, rfl⟩
  | unsubscribe subscriptionArn =>
    obtain rfl := h
    exact ⟨rfl, rfl⟩
  | tagResource request =>
    obtain rfl := h
    exact ⟨rfl, rfl⟩
  | deleteTopic => exact h.elim

theorem Rewrites.not_idle (h : task.Rewrites read topic) (hconcerns : task.Concerns topicArn read) :
    ¬ task.Idle topicArn read := by
  cases task with
  | subscribe request => exact fun hidle => Bool.false_ne_true (h.1.symm.trans hidle)
  | unsubscribe subscriptionArn => exact fun hidle => hidle hconcerns
  | tagResource | deleteTopic => exact id

/-- A record of which the request changes what it leaves out of account has the effect of the request. -/
theorem Rewrites.effect {content : TopicContent} {answer : Str} {stage : Stage} (h : task.Rewrites read topic)
    (hleaves : task.leaves read.content = task.leaves content) (hwritten : topic ∈ stage.written)
    (hanswer : task.Answers answer stage) : effect (some content) (task, answer) = some topic.content := by
  cases task with
  | subscribe request =>
    obtain ⟨hnew, subscriptionArn, rfl⟩ := h
    obtain rfl : read.content = content := hleaves
    have hlast := hanswer _ hwritten
    rw [List.getLast?_concat] at hlast
    obtain rfl : subscriptionArn = answer := hlast _ rfl
    refine congrArg some (if_neg ?_)
    exact Bool.eq_false_iff.mp hnew
  | unsubscribe subscriptionArn =>
    obtain rfl := h
    exact congrArg some hleaves.symm
  | tagResource request =>
    obtain rfl := h
    exact congrArg (fun c : TopicContent => some { c with tags := request.tags }) hleaves.symm
  | deleteTopic => exact h.elim

end Rewrites

section Complies

variable {cfg : Configuration} {topicArn : Str}

open Prog

theorem complies_subscribe {request : SubscribeRequest} :
    (program cfg (subscribe request)).Complies (rules (subscribe request)) (Ends topicArn (subscribe request)) {} := by
  refine complies_mapThrow ?_
  split
  · exact rfl
  · refine complies_perform_bind trivial fun found => ?_
    split
    · refine complies_perform_bind ⟨rfl, rfl⟩ fun topic => ?_
      refine complies_perform_bind trivial fun random => ?_
      dsimp only [Prog.when]
      split
      · next hnew =>
        refine complies_perform_bind ⟨rfl, topic, [], rfl, ⟨hnew, _, rfl⟩, rfl, rfl⟩ fun _ => ?_
        refine ⟨⟨rfl, fun read hread => (List.not_mem_nil hread).elim⟩, fun written hwritten => ?_⟩
        obtain rfl := List.mem_singleton.mp hwritten
        rw [List.getLast?_concat]
        rintro subscription ⟨⟩
        rfl
      · next hold =>
        refine ⟨⟨rfl, fun read hread => ?_⟩, fun written hwritten => (List.not_mem_nil hwritten).elim⟩
        obtain rfl := List.mem_singleton.mp hread
        exact Bool.eq_true_of_not_eq_false hold
    · exact rfl

theorem complies_loop {subscriptionArn : Str} : ∀ (left : List Topic) (stage : Stage), stage.begun = true →
    stage.left = left → (Prog.forEach left fun topic => do
        let _ ← call (.updateTopic (topic.without subscriptionArn)) : SnsProg Unit).Complies
      (rules (unsubscribe subscriptionArn))
      (fun x stage => (∃ u, x = .ok u) ∧ stage.begun = true ∧ stage.left = []) stage
  | [], stage, hbegun, hleft => ⟨⟨(), rfl⟩, hbegun, hleft⟩
  | topic :: left, stage, hbegun, hleft => by
    refine complies_bind (complies_perform_bind ⟨hbegun, topic, left, hleft, rfl, trivial⟩ fun _ => ?_)
    exact complies_loop left _ hbegun (congrArg List.tail hleft)

theorem complies_unsubscribe {subscriptionArn : Str} :
    (program cfg (unsubscribe subscriptionArn)).Complies (rules (unsubscribe subscriptionArn))
      (Ends topicArn (unsubscribe subscriptionArn)) {} := by
  refine complies_mapThrow ?_
  split
  · exact rfl
  · refine complies_perform_bind ⟨rfl, rfl⟩ fun topics => ?_
    refine complies_bind ((complies_loop topics _ rfl rfl).mono ?_)
    rintro x stage ⟨⟨u, rfl⟩, hbegun, hleft⟩
    refine ⟨⟨hbegun, fun read hread => ?_⟩, trivial⟩
    rw [hleft] at hread
    exact (List.not_mem_nil hread).elim

theorem complies_tagResource {request : TagResourceRequest} :
    (program cfg (tagResource request)).Complies (rules (tagResource request)) (Ends topicArn (tagResource request))
      {} := by
  refine complies_bind (complies_mapThrow (complies_perform_bind trivial fun found => ?_))
  split
  · refine complies_perform_bind ⟨rfl, rfl⟩ fun topic => ?_
    refine complies_perform_bind ⟨rfl, topic, [], rfl, rfl, rfl, rfl⟩ fun _ => ?_
    exact ⟨⟨rfl, fun read hread => (List.not_mem_nil hread).elim⟩, trivial⟩
  · exact rfl

theorem complies_deleteTopic {region arn : Str} :
    (program cfg (deleteTopic region arn)).Complies (rules (deleteTopic region arn))
      (Ends topicArn (deleteTopic region arn)) {} := by
  refine complies_bind (complies_mapThrow (complies_perform_bind trivial fun found => ?_))
  split
  · refine complies_perform_bind ⟨rfl, rfl⟩ fun _ => ?_
    exact ⟨⟨rfl, fun read hread => (List.not_mem_nil hread).elim⟩, trivial⟩
  · exact rfl

theorem complies_task (task : TopicTask) :
    (task.program cfg).Complies task.rules (task.Ends topicArn) {} := by
  cases task with
  | subscribe request => exact complies_subscribe
  | unsubscribe subscriptionArn => exact complies_unsubscribe
  | tagResource request => exact complies_tagResource
  | deleteTopic region arn => exact complies_deleteTopic

end Complies

end TopicTask

/-! ### What the calls do to the topic -/

namespace OneTopic

variable {db : SnsMemoryDb} {topicArn k : Str} {name : Str × Str} {topic topic' : Topic} {content : TopicContent}
  (h : OneTopic db topicArn name)

include h

theorem contentOf_eq_some : db.contentOf topicArn = some content ↔
    ∃ k topic, db.topics.get? k = some topic ∧ topic.topicArn = topicArn ∧ topic.content = content := by
  constructor
  · intro hcontent
    obtain ⟨⟨k, topic⟩, hfound, rfl⟩ := Option.map_eq_some_iff.mp hcontent
    obtain ⟨hget, harn⟩ := findIf_some hfound
    exact ⟨k, topic, hget, of_decide_eq_true harn, rfl⟩
  · rintro ⟨k, topic, hget, harn, rfl⟩
    have hfound : (db.topics.findIf fun _ topic => topic.topicArn = topicArn) = some (k, topic) :=
      findIf_unique hget (decide_eq_true harn) fun k' topic' hget' harn' =>
        h.single k' k topic' topic hget' hget (of_decide_eq_true harn') harn
    rw [SnsMemoryDb.contentOf, hfound]
    rfl

/-- A record in place of another that is of the topic as well, or neither of them is. -/
theorem insert (hget : db.topics.get? k = some topic) (harn : topic'.topicArn = topicArn ↔ topic.topicArn = topicArn)
    (hname : topic'.topicArn = topicArn ↔ topic'.name = name) :
    OneTopic { db with topics := db.topics.insert k topic' } topicArn name where
  named j t ht := by
    rw [get?_insert] at ht
    split at ht
    · cases ht
      exact hname
    · exact h.named j t ht
  single j j' t t' ht ht' htarn htarn' := by
    have hstored : ∀ {j t}, (db.topics.insert k topic').get? j = some t → t.topicArn = topicArn →
        ∃ t, db.topics.get? j = some t ∧ t.topicArn = topicArn := by
      intro j t ht htarn
      rw [get?_insert] at ht
      split at ht
      · next hj =>
        cases ht
        exact ⟨topic, hj ▸ hget, harn.mp htarn⟩
      · exact ⟨t, ht, htarn⟩
    obtain ⟨old, hold, holdarn⟩ := hstored ht htarn
    obtain ⟨old', hold', holdarn'⟩ := hstored ht' htarn'
    exact h.single j j' old old' hold hold' holdarn holdarn'

/-- A record in place of another with the same content, if it is of the topic. -/
theorem contentOf_insert (hget : db.topics.get? k = some topic)
    (harn : topic'.topicArn = topicArn ↔ topic.topicArn = topicArn)
    (hname : topic'.topicArn = topicArn ↔ topic'.name = name)
    (hcontent : topic.topicArn = topicArn → topic'.content = topic.content) :
    SnsMemoryDb.contentOf { db with topics := db.topics.insert k topic' } topicArn = db.contentOf topicArn := by
  refine Option.ext fun content => ?_
  rw [(h.insert hget harn hname).contentOf_eq_some, h.contentOf_eq_some]
  constructor
  · rintro ⟨j, t, ht, htarn, rfl⟩
    rw [get?_insert] at ht
    split at ht
    · cases ht
      exact ⟨k, topic, hget, harn.mp htarn, (hcontent (harn.mp htarn)).symm⟩
    · exact ⟨j, t, ht, htarn, rfl⟩
  · rintro ⟨j, t, ht, htarn, rfl⟩
    by_cases hj : j = k
    · subst hj
      obtain rfl := Option.some.inj (hget.symm.trans ht)
      exact ⟨j, topic', get?_insert_self .., harn.mpr htarn, hcontent htarn⟩
    · exact ⟨j, t, (get?_insert_of_ne _ _ hj).trans ht, htarn, rfl⟩

/-- The topic is looked up, and keeps all but its id. -/
theorem getTopicByArn (now : TimePoint) :
    OneTopic (db.getTopicByArn topicArn now).2 topicArn name ∧
      (db.getTopicByArn topicArn now).2.contentOf topicArn = db.contentOf topicArn ∧
      (db.contentOf topicArn = none ∧ (db.getTopicByArn topicArn now).1.subscriptions = [] ∨
        db.contentOf topicArn = some (db.getTopicByArn topicArn now).1.content ∧
          (db.getTopicByArn topicArn now).1.topicArn = topicArn ∧ (db.getTopicByArn topicArn now).1.name = name) := by
  rw [SnsMemoryDb.getTopicByArn]
  rcases hfound : db.topics.findIf fun _ topic => decide (topic.topicArn = topicArn) with _ | ⟨k, topic⟩
  · exact ⟨h, rfl, .inl ⟨by rw [SnsMemoryDb.contentOf, hfound]; rfl, rfl⟩⟩
  · obtain ⟨hget, harn⟩ := findIf_some hfound
    have harn : topic.topicArn = topicArn := of_decide_eq_true harn
    have hname := h.named k topic hget
    refine ⟨h.insert hget Iff.rfl hname, h.contentOf_insert hget Iff.rfl hname fun _ => rfl, .inr ⟨?_, harn, ?_⟩⟩
    · exact h.contentOf_eq_some.mpr ⟨k, topic, hget, harn, rfl⟩
    · exact hname.mp harn

/-- The topic is written back. -/
theorem updateTopic_self {r : Topic × SnsMemoryDb} (hrun : db.updateTopic topic = some r)
    (hname : topic.name = name) (harn : topic.topicArn = topicArn) :
    OneTopic r.2 topicArn name ∧ r.2.contentOf topicArn = some topic.content := by
  obtain ⟨⟨k, old⟩, hfound, rfl⟩ := Option.map_eq_some_iff.mp hrun
  obtain ⟨hget, hold⟩ := findIf_some hfound
  obtain ⟨hregion, htopicName⟩ := of_decide_eq_true hold
  have holdname : old.name = name := (Prod.ext hregion htopicName).trans hname
  have holdarn : old.topicArn = topicArn := (h.named k old hget).mpr holdname
  have hone := h.insert hget (iff_of_true harn holdarn) (iff_of_true harn hname)
  exact ⟨hone, hone.contentOf_eq_some.mpr ⟨k, topic, get?_insert_self .., harn, rfl⟩⟩

/-- Another topic is written back. -/
theorem updateTopic_other {r : Topic × SnsMemoryDb} (hrun : db.updateTopic topic = some r)
    (hname : topic.name ≠ name) (harn : topic.topicArn ≠ topicArn) :
    OneTopic r.2 topicArn name ∧ r.2.contentOf topicArn = db.contentOf topicArn := by
  obtain ⟨⟨k, old⟩, hfound, rfl⟩ := Option.map_eq_some_iff.mp hrun
  obtain ⟨hget, hold⟩ := findIf_some hfound
  obtain ⟨hregion, htopicName⟩ := of_decide_eq_true hold
  have holdarn : old.topicArn ≠ topicArn := by
    intro holdarn
    exact hname ((Prod.ext hregion htopicName : old.name = topic.name).symm.trans ((h.named k old hget).mp holdarn))
  have hiff := iff_of_false harn hname
  refine ⟨h.insert hget (iff_of_false harn holdarn) hiff, ?_⟩
  exact h.contentOf_insert hget (iff_of_false harn holdarn) hiff fun hself => absurd hself holdarn

theorem deleteTopic (region : Str) : OneTopic (db.deleteTopic region topicArn) topicArn name ∧
    (db.deleteTopic region topicArn).contentOf topicArn =
      (db.contentOf topicArn).filter fun content => content.region ≠ region := by
  have hstored : ∀ {k topic}, (db.deleteTopic region topicArn).topics.get? k = some topic ↔
      db.topics.get? k = some topic ∧ ¬ (topic.region = region ∧ topic.topicArn = topicArn) := by
    intro k topic
    rw [SnsMemoryDb.deleteTopic, get?_eraseIf, Option.filter_eq_some_iff, Bool.not_eq_true', decide_eq_false_iff_not]
  have hone : OneTopic (db.deleteTopic region topicArn) topicArn name := by
    refine ⟨fun k topic hget => h.named k topic (hstored.mp hget).1, fun k k' topic topic' hget hget' => ?_⟩
    exact h.single k k' topic topic' (hstored.mp hget).1 (hstored.mp hget').1
  refine ⟨hone, Option.ext fun content => ?_⟩
  rw [hone.contentOf_eq_some, Option.filter_eq_some_iff, h.contentOf_eq_some, decide_eq_true_iff]
  constructor
  · rintro ⟨k, topic, hget, harn, rfl⟩
    obtain ⟨hget, hkept⟩ := hstored.mp hget
    exact ⟨⟨k, topic, hget, harn, rfl⟩, fun hregion => hkept ⟨hregion, harn⟩⟩
  · rintro ⟨⟨k, topic, hget, harn, rfl⟩, hregion⟩
    exact ⟨k, topic, hstored.mpr ⟨hget, fun hgone => hregion hgone.1⟩, harn, rfl⟩

/-- Of the topics that have a subscription, at most one is the topic. -/
theorem getTopicsBySubscriptionArn (subscriptionArn : Str) :
    (db.getTopicsBySubscriptionArn subscriptionArn).Pairwise
      fun a b => ¬ (a.topicArn = topicArn ∧ b.topicArn = topicArn) := by
  refine List.Pairwise.filter _ (List.pairwise_map.mpr ?_)
  refine (List.pairwise_map.mp db.topics.keys_nodup).imp_of_mem fun {a b} ha hb hne hboth => hne ?_
  exact h.single a.1 b.1 a.2 b.2 (get?_eq_some.mpr ha) (get?_eq_some.mpr hb) hboth.1 hboth.2

end OneTopic

end AwsMock.Sns
