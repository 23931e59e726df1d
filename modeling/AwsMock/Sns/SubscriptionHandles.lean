import AwsMock.Lib.Machine
import AwsMock.Lib.Naming
import AwsMock.Sns.Service

/-!
# Subscription handles

Runs of `CreateTopic`, `Subscribe` and `Unsubscribe` over the in-memory store. A handle is an ARN that
`Subscribe` returned. A new subscription is stored under the ARN returned; for one that exists already a
new ARN is returned that is stored nowhere.
-/

namespace AwsMock.Sns

open Lib OrderedMap

/-- A topic is named by its region and its name. -/
def Topic.name (topic : Topic) : Str × Str := (topic.region, topic.topicName)

/-- What a subscription is for. -/
def Subscription.pair (subscription : Subscription) : Str × Str := (subscription.protocol, subscription.endpoint)

inductive HandleRequest where
  | createTopic (request : CreateTopicRequest)
  | subscribe (request : SubscribeRequest)
  | unsubscribe (subscriptionArn : Str)

/-- An ARN that `Subscribe` returned, with the topic and the pair it was returned for. -/
structure Handle where
  topic : Str × Str
  pair : Str × Str
  arn : Str
  deriving DecidableEq

/-- The process, and the handles that were returned and not used since. -/
structure HandleState where
  world : World := {}
  handles : List Handle := []
  deriving DecidableEq

def World.topicOf (w : World) (topicArn : Str) : Option (Str × Topic) :=
  w.db.topics.findIf fun _ topic => topic.topicArn = topicArn

/-- The handle of a `Subscribe` that succeeds. -/
def newHandles (w : World) (request : SubscribeRequest) : Except Error Str → List Handle
  | .ok arn => (w.topicOf request.topicArn).toList.map fun it =>
    { topic := it.2.name, pair := (request.protocol, request.endpoint), arn := arn }
  | .error _ => []

variable (cfg : Configuration) (rt : Sqs.Runtime)

def handleStep : HandleRequest → HandleState → Option HandleState
  | .createTopic request, s => ((createTopic cfg request).run (exec cfg rt) s.world).map fun r =>
    { s with world := r.2 }
  | .subscribe request, s => ((subscribe cfg request).run (exec cfg rt) s.world).map fun r =>
    { world := r.2, handles := s.handles ++ newHandles s.world request r.1 }
  | .unsubscribe subscriptionArn, s => ((unsubscribe subscriptionArn).run (exec cfg rt) s.world).map fun r =>
    { world := r.2, handles := s.handles.filter fun h => h.arn ≠ subscriptionArn }

/-! ### What a step owes -/

/-- The topics up to the ids that lookups write into them. -/
def SameTopics (w w' : World) : Prop :=
  (w.db.topics.mapVal fun _ topic => { topic with oid := [] }) =
    w'.db.topics.mapVal fun _ topic => { topic with oid := [] }

/-- The subscription of a handle is taken out of its topic. -/
def Handle.removedFrom (h : Handle) (topic : Topic) : Topic :=
  if topic.name = h.topic then { topic with subscriptions := topic.subscriptions.filter fun s => s.pair ≠ h.pair }
  else topic

/-- The subscription of a handle is stored in its topic, under its ARN. -/
def Handle.Stored (h : Handle) (topics : OrderedMap Str Topic) : Prop :=
  ∃ k topic, topics.get? k = some topic ∧ topic.name = h.topic ∧
    ∃ subscription ∈ topic.subscriptions, subscription.pair = h.pair ∧ subscription.subscriptionArn = h.arn

/-- `CreateTopic` of an existing name returns the stored topic, `Subscribe` of an existing pair adds nothing and
    returns the stored ARN, and `Unsubscribe` with a handle removes exactly its subscription. -/
def Owed : HandleRequest → HandleState → Prop
  | .createTopic request, s => ∀ k topic, s.world.db.topics.get? k = some topic →
    topic.name = (request.region, request.topicName) →
    ∃ w', (createTopic cfg request).run (exec cfg rt) s.world = some (.ok {
        region := topic.region, name := topic.topicName, owner := topic.owner, topicArn := topic.topicArn }, w') ∧
      SameTopics s.world w'
  | .subscribe request, s => ∀ k topic, s.world.topicOf request.topicArn = some (k, topic) →
    ∀ stored ∈ topic.subscriptions, stored.pair = (request.protocol, request.endpoint) →
      ∃ w', (subscribe cfg request).run (exec cfg rt) s.world = some (.ok stored.subscriptionArn, w') ∧
        SameTopics s.world w'
  | .unsubscribe subscriptionArn, s => ∀ h ∈ s.handles, h.arn = subscriptionArn → h.Stored s.world.db.topics ∧
    ∃ w', (unsubscribe subscriptionArn).run (exec cfg rt) s.world = some (.ok subscriptionArn, w') ∧
      w'.db.topics = s.world.db.topics.mapVal fun _ topic => h.removedFrom topic

/-- The name of a topic that is created is new, and so is the pair that is subscribed. -/
def FreshRequest : HandleRequest → HandleState → Prop
  | .createTopic request, s => s.world.db.topicNameExists request.region request.topicName = false
  | .subscribe request, s => ∀ k topic, s.world.topicOf request.topicArn = some (k, topic) →
    ∀ stored ∈ topic.subscriptions, stored.pair ≠ (request.protocol, request.endpoint)
  | .unsubscribe _, _ => True

instance : ∀ (e : HandleRequest) (s : HandleState), Decidable (FreshRequest e s)
  | .createTopic _, s => inferInstanceAs (Decidable (s.world.db.topicNameExists _ _ = false))
  | .subscribe request, s => decidable_of_iff
      (∀ it ∈ s.world.topicOf request.topicArn, ∀ stored ∈ it.2.subscriptions,
        stored.pair ≠ (request.protocol, request.endpoint))
      ⟨fun h k topic hfound => h (k, topic) hfound, fun h it hit => h it.1 it.2 hit⟩
  | .unsubscribe _, _ => inferInstanceAs (Decidable True)

/-! ### What the requests do -/

variable {cfg rt} {w : World}

/-- The process after `n` calls. -/
def World.after (w : World) (topics : OrderedMap Str Topic) (n : Nat) : World :=
  { db := { w.db with topics := topics }, sqs := { w.sqs with calls := w.sqs.calls + n } }

theorem after_after (w : World) (topics topics' : OrderedMap Str Topic) (m n : Nat) :
    (w.after topics m).after topics' n = w.after topics' (m + n) := by
  simp only [World.after, Nat.add_assoc]

theorem createTopic_new {request : CreateTopicRequest}
    (h : w.db.topicNameExists request.region request.topicName = false) :
    (createTopic cfg request).run (exec cfg rt) w = some (.ok {
      region := request.region, name := request.topicName, owner := request.owner,
      topicArn := createArn (str "sns") request.region cfg.accountId request.topicName },
      w.after (w.db.topics.insert (rt.uuid (w.sqs.calls + 2)) {
        oid := rt.uuid (w.sqs.calls + 2), region := request.region, topicName := request.topicName,
        owner := request.owner,
        topicArn := createArn (str "sns") request.region cfg.accountId request.topicName,
        created := rt.now (w.sqs.calls + 1), modified := rt.now (w.sqs.calls + 1) }) 3) := by
  simp [createTopic, Prog.run_perform_bind, exec, SnsCall.apply, h, Sqs.exec, Sqs.SqsCall.apply, World.after,
    SnsMemoryDb.createTopic_eq]

/-- The name is looked up among the ARNs. -/
theorem createTopic_existing {request : CreateTopicRequest}
    (h : w.db.topicNameExists request.region request.topicName = true) :
    ∃ w', (createTopic cfg request).run (exec cfg rt) w = some (.ok (
      match w.db.topics.findIf fun _ topic => topic.region = request.region ∧ topic.topicArn = request.topicName with
      | some (_, topic) => { region := topic.region, name := topic.topicName, owner := topic.owner,
                             topicArn := topic.topicArn }
      | none => { region := [], name := [], owner := [], topicArn := [] }), w') := by
  rcases hfind : w.db.topics.findIf fun _ topic =>
      decide (topic.region = request.region ∧ topic.topicArn = request.topicName) with _ | ⟨k, topic⟩
  · have hget : ∀ now, w.db.getTopicByName request.region request.topicName now =
        ({ created := now, modified := now }, w.db) := fun now => by
      rw [SnsMemoryDb.getTopicByName, hfind]
      rfl
    simp [createTopic, Prog.run_perform_bind, exec, SnsCall.apply, h, hget]
  · have hget : ∀ now, w.db.getTopicByName request.region request.topicName now =
        ({ topic with oid := k }, { w.db with topics := w.db.topics.insert k { topic with oid := k } }) := fun now => by
      rw [SnsMemoryDb.getTopicByName, hfind]
      rfl
    simp [createTopic, Prog.run_perform_bind, exec, SnsCall.apply, h, hget]

/-- The topic found is the only one of its name. -/
theorem updateTopic_eq {db : SnsMemoryDb} (hunique : UniqueBy Topic.name db.topics) {k : Str} {stored topic : Topic}
    (hget : db.topics.get? k = some stored) (hname : topic.name = stored.name) :
    db.updateTopic topic = some (topic, { db with topics := db.topics.insert k topic }) := by
  obtain ⟨hregion, htopic⟩ := Prod.mk.inj hname
  have hfind : (db.topics.findIf fun _ t => t.region = topic.region ∧ t.topicName = topic.topicName) =
      some (k, stored) := by
    refine findIf_unique hget (decide_eq_true ⟨hregion.symm, htopic.symm⟩) fun k' t ht hp => ?_
    obtain ⟨hr, hn⟩ := of_decide_eq_true hp
    exact hunique k' k t stored ht hget (Prod.ext (hr.trans hregion) (hn.trans htopic))
  rw [SnsMemoryDb.updateTopic, hfind]
  rfl

/-- The topic was written a moment ago. -/
theorem updateTopic_insert {db : SnsMemoryDb} (hunique : UniqueBy Topic.name db.topics) {k : Str}
    {stored topic topic' : Topic} (hget : db.topics.get? k = some stored) (hname : topic.name = stored.name)
    (hname' : topic'.name = stored.name) :
    SnsMemoryDb.updateTopic { topics := db.topics.insert k topic, messages := db.messages } topic' =
      some (topic', { topics := db.topics.insert k topic', messages := db.messages }) := by
  have hstored : (db.topics.insert k topic).get? k = some topic := get?_insert_self ..
  refine (updateTopic_eq (hunique.replace hget hname) hstored (hname'.trans hname.symm)).trans ?_
  rw [insert_insert]

theorem topicExists_of_topicOf {topicArn : Str} {it : Str × Topic} (h : w.topicOf topicArn = some it) :
    w.db.topicExists topicArn = true := by
  rw [SnsMemoryDb.topicExists, Option.isSome_iff_exists]
  exact ⟨it, h⟩

/-- The ARN that `Subscribe` makes for a topic. -/
def freshArn (cfg : Configuration) (rt : Sqs.Runtime) (w : World) (request : SubscribeRequest) (topic : Topic) : Str :=
  createSNSSubscriptionArn cfg request.region topic.topicName (rt.uuid (w.sqs.calls + 2))

theorem getTopicByArn_of_topicOf {topicArn k : Str} {topic : Topic} (h : w.topicOf topicArn = some (k, topic))
    (now : TimePoint) : w.db.getTopicByArn topicArn now =
      ({ topic with oid := k }, { w.db with topics := w.db.topics.insert k { topic with oid := k } }) := by
  have hfind : w.db.topics.findIf (fun _ topic => decide (topic.topicArn = topicArn)) = some (k, topic) := h
  rw [SnsMemoryDb.getTopicByArn, hfind]
  rfl

theorem hasSubscription_iff {topic : Topic} {subscription : Subscription} :
    topic.hasSubscription subscription = true ↔ ∃ stored ∈ topic.subscriptions, stored.pair = subscription.pair := by
  simp [Topic.hasSubscription, Subscription.pair]

section Subscribe

variable {request : SubscribeRequest} {k : Str} {topic : Topic}

/-- A pair that the topic has: nothing but the id of the topic is written. -/
theorem subscribe_existing (hne : request.topicArn ≠ []) (hfound : w.topicOf request.topicArn = some (k, topic))
    {stored : Subscription} (hstored : stored ∈ topic.subscriptions)
    (hpair : stored.pair = (request.protocol, request.endpoint)) :
    (subscribe cfg request).run (exec cfg rt) w = some (.ok (freshArn cfg rt w request topic),
      w.after (w.db.topics.insert k { topic with oid := k }) 3) := by
  have hhas : ({ topic with oid := k } : Topic).hasSubscription
      { protocol := request.protocol, endpoint := request.endpoint } = true :=
    hasSubscription_iff.mpr ⟨stored, hstored, hpair⟩
  simp [subscribe, guarded, hne, Prog.run_perform_bind, exec, SnsCall.apply, topicExists_of_topicOf hfound,
    getTopicByArn_of_topicOf hfound, createRandom, Sqs.exec, Sqs.SqsCall.apply, hhas, Prog.when, Prog.pure_bind,
    freshArn, World.after]
  rfl

/-- A new pair: the subscription is stored under the ARN returned. -/
theorem subscribe_new (hunique : UniqueBy Topic.name w.db.topics) (hne : request.topicArn ≠ [])
    (hfound : w.topicOf request.topicArn = some (k, topic))
    (hnew : ∀ stored ∈ topic.subscriptions, stored.pair ≠ (request.protocol, request.endpoint)) :
    (subscribe cfg request).run (exec cfg rt) w = some (.ok (freshArn cfg rt w request topic),
      w.after (w.db.topics.insert k { topic with
        oid := k, subscriptions := topic.subscriptions ++ [{
          protocol := request.protocol, endpoint := request.endpoint,
          subscriptionArn := freshArn cfg rt w request topic }] }) 4) := by
  have hhas : ({ topic with oid := k } : Topic).hasSubscription
      { protocol := request.protocol, endpoint := request.endpoint } = false := by
    rw [Bool.eq_false_iff]
    intro h
    obtain ⟨stored, hstored, hpair⟩ := hasSubscription_iff.mp h
    exact hnew stored hstored hpair
  have hget : w.db.topics.get? k = some topic := (findIf_some hfound).1
  have hupdate : ∀ subscriptions, SnsMemoryDb.updateTopic
      { topics := w.db.topics.insert k { topic with oid := k }, messages := w.db.messages }
      { topic with oid := k, subscriptions := subscriptions } = some (_, _) :=
    fun _ => updateTopic_insert hunique hget rfl rfl
  simp [subscribe, guarded, hne, exec, SnsCall.apply, topicExists_of_topicOf hfound,
    getTopicByArn_of_topicOf hfound, createRandom, Sqs.exec, Sqs.SqsCall.apply, hhas, Prog.when, Prog.run_bind,
    freshArn, World.after, hupdate]
  rfl

/-- Without a topic the request throws. -/
theorem subscribe_missing (h : request.topicArn = [] ∨ w.topicOf request.topicArn = none) :
    ∃ e n, (subscribe cfg request).run (exec cfg rt) w = some (.error e, w.after w.db.topics n) := by
  by_cases hne : request.topicArn = []
  · refine ⟨.serviceException (str "Topic ARN missing"), 0, ?_⟩
    simp [subscribe, guarded, hne, World.after]
    rfl
  · have hexists : w.db.topicExists request.topicArn = false := by
      rw [SnsMemoryDb.topicExists, Option.isSome_eq_false_iff, Option.isNone_iff_eq_none]
      exact h.resolve_left hne
    refine ⟨topicDoesNotExist, 1, ?_⟩
    simp [subscribe, guarded, hne, Prog.run_perform_bind, exec, SnsCall.apply, hexists, World.after]
    rfl

end Subscribe

section Unsubscribe

variable {subscriptionArn : Str}

/-- Each topic is updated where it is. -/
theorem forEach_without : ∀ {ts : List (Str × Topic)} {w : World}, UniqueBy Topic.name w.db.topics →
    (∀ e ∈ ts, ∃ stored, w.db.topics.get? e.1 = some stored ∧ e.2.name = stored.name) →
    (Prog.forEach (ts.map Prod.snd) fun topic => do
      let _ ← call (.updateTopic (topic.without subscriptionArn)) : SnsProg Unit).run (exec cfg rt) w =
      some (.ok (), w.after (ts.foldl (fun topics e => topics.insert e.1 (e.2.without subscriptionArn)) w.db.topics)
        ts.length)
  | [], _, _, _ => rfl
  | (k, topic) :: ts, w, hunique, hstored => by
    obtain ⟨stored, hget, hname⟩ := hstored _ (List.mem_cons_self ..)
    have hupdate : w.db.updateTopic (topic.without subscriptionArn) = some (_, _) := updateTopic_eq hunique hget hname
    have hafter : ∀ e ∈ ts, ∃ stored, (w.db.topics.insert k (topic.without subscriptionArn)).get? e.1 = some stored ∧
        e.2.name = stored.name := by
      intro e he
      obtain ⟨stored', hget', hname'⟩ := hstored e (List.mem_cons_of_mem _ he)
      rw [get?_insert]
      split
      · next hk =>
        refine ⟨_, rfl, ?_⟩
        rw [hk] at hget'
        obtain rfl := Option.some.inj (hget.symm.trans hget')
        exact hname'.trans hname.symm
      · exact ⟨stored', hget', hname'⟩
    have hrest : (Prog.forEach (ts.map Prod.snd) fun topic => do
        let _ ← call (.updateTopic (topic.without subscriptionArn)) : SnsProg Unit).run (exec cfg rt)
          (w.after (w.db.topics.insert k (topic.without subscriptionArn)) 1) = _ :=
      forEach_without (hunique.replace hget hname) hafter
    have hbody : (do let _ ← call (.updateTopic (topic.without subscriptionArn)) : SnsProg Unit).run (exec cfg rt) w =
        some (.ok (), w.after (w.db.topics.insert k (topic.without subscriptionArn)) 1) := by
      simp [Prog.run_perform_bind, exec, SnsCall.apply, hupdate, World.after]
    rw [List.map_cons, Prog.forEach, Prog.run_bind, hbody]
    refine hrest.trans ?_
    rw [after_after, List.length_cons, Nat.add_comm 1]
    rfl

theorem without_eq_self {topic : Topic} (h : ∀ s ∈ topic.subscriptions, s.subscriptionArn ≠ subscriptionArn) :
    topic.without subscriptionArn = topic := by
  have hkept : (topic.subscriptions.filter fun s => s.subscriptionArn ≠ subscriptionArn) = topic.subscriptions :=
    List.filter_eq_self.mpr fun s hs => decide_eq_true (h s hs)
  rw [Topic.without, hkept]

/-- The topics updated are those that have the ARN; the others have nothing to lose. -/
theorem foldl_without (topics : OrderedMap Str Topic) (subscriptionArn : Str) :
    (topics.entries.filter fun e => e.2.subscriptions.any fun s => s.subscriptionArn = subscriptionArn).foldl
      (fun topics e => topics.insert e.1 (e.2.without subscriptionArn)) topics =
    topics.mapVal fun _ topic => topic.without subscriptionArn := by
  refine (foldl_insert_eq_mapVal topics List.filter_sublist fun _ topic => topic.without subscriptionArn).trans ?_
  refine ext_get? fun k => ?_
  rw [get?_mapVal, get?_mapVal]
  refine Option.map_congr fun topic hget => ?_
  split
  · rfl
  · next hk =>
    refine (without_eq_self fun s hs harn => hk ?_).symm
    refine List.mem_map.mpr ⟨(k, topic), List.mem_filter.mpr ⟨get?_eq_some.mp hget, ?_⟩, rfl⟩
    exact List.any_eq_true.mpr ⟨s, hs, decide_eq_true harn⟩

/-- The subscriptions of the ARN are gone, in every topic. -/
theorem unsubscribe_run (hunique : UniqueBy Topic.name w.db.topics) (hne : subscriptionArn ≠ []) :
    ∃ n, (unsubscribe subscriptionArn).run (exec cfg rt) w = some (.ok subscriptionArn,
      w.after (w.db.topics.mapVal fun _ topic => topic.without subscriptionArn) n) := by
  let found := w.db.topics.entries.filter fun e =>
    e.2.subscriptions.any fun s => s.subscriptionArn = subscriptionArn
  have hlist : w.db.getTopicsBySubscriptionArn subscriptionArn = found.map Prod.snd := by
    rw [SnsMemoryDb.getTopicsBySubscriptionArn, OrderedMap.values, List.filter_map]
    rfl
  have hstored : ∀ e ∈ found, ∃ stored, (w.after w.db.topics 1).db.topics.get? e.1 = some stored ∧
      e.2.name = stored.name :=
    fun e he => ⟨e.2, get?_eq_some.mpr (List.mem_filter.mp he).1, rfl⟩
  have hloop : (Prog.forEach (found.map Prod.snd) fun topic => do
      let _ ← call (.updateTopic (topic.without subscriptionArn)) : SnsProg Unit).run (exec cfg rt)
        (w.after w.db.topics 1) = _ :=
    forEach_without (w := w.after w.db.topics 1) hunique hstored
  refine ⟨1 + found.length, ?_⟩
  have hcall : exec cfg rt (.getTopicsBySubscriptionArn subscriptionArn) w =
      some (found.map Prod.snd, w.after w.db.topics 1) := by
    rw [← hlist]
    rfl
  rw [unsubscribe, guarded, Prog.run_mapThrow, if_neg hne, Prog.run_perform_bind_some hcall, Prog.run_bind, hloop,
    after_after]
  simp only [found, World.after, foldl_without]
  rfl

theorem unsubscribe_nil : (unsubscribe []).run (exec cfg rt) w =
    some (.error (.serviceException (str "Subscription ARN missing")), w) := rfl

end Unsubscribe

/-! ### ARNs -/

theorem takeWhile_reverse {x u : Str} (hu : byte ':' ∉ u) :
    (x ++ byte ':' :: u).reverse.takeWhile (fun c => c ≠ byte ':') = u.reverse := by
  have hall : ∀ c ∈ u.reverse, (fun c => decide (c ≠ byte ':')) c = true := by
    intro c hc
    refine decide_eq_true ?_
    rintro rfl
    exact hu (List.mem_reverse.mp hc)
  rw [List.reverse_append, List.reverse_cons, List.append_assoc, List.takeWhile_append_of_pos hall]
  simp

/-- What follows the last colon can be read off. -/
theorem colon_suffix_inj {x y u v : Str} (hu : byte ':' ∉ u) (hv : byte ':' ∉ v)
    (h : x ++ byte ':' :: u = y ++ byte ':' :: v) : u = v := by
  have hreverse := congrArg (fun s => s.reverse.takeWhile fun c => c ≠ byte ':') h
  simp only [takeWhile_reverse hu, takeWhile_reverse hv] at hreverse
  exact List.reverse_injective hreverse

/-- The ARN of a subscription ends in its random part. -/
theorem createSNSSubscriptionArn_inj {region region' topicName topicName' u v : Str} (hu : byte ':' ∉ u)
    (hv : byte ':' ∉ v) (h : createSNSSubscriptionArn cfg region topicName u =
      createSNSSubscriptionArn cfg region' topicName' v) : u = v := by
  have hform : ∀ region topicName u, createSNSSubscriptionArn cfg region topicName u =
      createArn (str "sns") region cfg.accountId topicName ++ byte ':' :: u := by
    intro region topicName u
    simp [createSNSSubscriptionArn, createArn, str, byte]
  rw [hform, hform] at h
  exact colon_suffix_inj hu hv h

theorem createArn_length (service region accountId resourceId : Str) :
    resourceId.length < (createArn service region accountId resourceId).length := by
  have hcolon : (str ":").length = 1 := rfl
  simp only [createArn, List.length_append, hcolon]
  omega

theorem createArn_ne (service region accountId resourceId : Str) :
    createArn service region accountId resourceId ≠ resourceId := by
  intro h
  have hlt := createArn_length service region accountId resourceId
  rw [h] at hlt
  exact lt_irrefl _ hlt

theorem createArn_ne_nil (service region accountId resourceId : Str) :
    createArn service region accountId resourceId ≠ [] := by
  intro h
  have hlt := createArn_length service region accountId resourceId
  rw [h] at hlt
  exact Nat.not_lt_zero _ hlt

/-! ### The stored subscriptions -/

/-- A subscription that is stored in the topic of a key. -/
def StoredUnder (topics : OrderedMap Str Topic) (k : Str) (subscription : Subscription) : Prop :=
  ∃ topic, topics.get? k = some topic ∧ subscription ∈ topic.subscriptions

variable (cfg rt) in
/-- What requests for new topics and new pairs keep. -/
structure Held (s : HandleState) : Prop where
  topics : Catalogue Topic.name (fun k => ∃ i < s.world.sqs.calls, k = rt.uuid i) s.world.db.topics
  arn : ∀ k topic, s.world.db.topics.get? k = some topic →
    topic.topicArn = createArn (str "sns") topic.region cfg.accountId topic.topicName
  drawn : ∀ {k subscription}, StoredUnder s.world.db.topics k subscription → ∃ region topicName, ∃ i < s.world.sqs.calls,
    subscription.subscriptionArn = createSNSSubscriptionArn cfg region topicName (rt.uuid i)
  byArn : ∀ {k k' subscription subscription'}, StoredUnder s.world.db.topics k subscription →
    StoredUnder s.world.db.topics k' subscription' → subscription.subscriptionArn = subscription'.subscriptionArn →
    k = k' ∧ subscription = subscription'
  byPair : ∀ {k subscription subscription'}, StoredUnder s.world.db.topics k subscription →
    StoredUnder s.world.db.topics k subscription' → subscription.pair = subscription'.pair → subscription = subscription'
  handles : ∀ h ∈ s.handles, h.Stored s.world.db.topics

theorem held_initial : Held cfg rt {} where
  topics := catalogue_empty
  arn k topic hget := by simp at hget
  drawn h := by
    obtain ⟨topic, hget, _⟩ := h
    simp at hget
  byArn h := by
    obtain ⟨topic, hget, _⟩ := h
    simp at hget
  byPair h := by
    obtain ⟨topic, hget, _⟩ := h
    simp at hget
  handles h hh := by simp at hh

variable {s : HandleState}

/-- An ARN made from a draw yet to come is not stored. -/
theorem Held.fresh (hI : Held cfg rt s) (hcolon : ∀ i, byte ':' ∉ rt.uuid i) {k : Str} {subscription : Subscription}
    (hstored : StoredUnder s.world.db.topics k subscription) {n : Nat} (hn : s.world.sqs.calls ≤ n)
    (region topicName : Str) :
    subscription.subscriptionArn ≠ createSNSSubscriptionArn cfg region topicName (rt.uuid n) := by
  obtain ⟨region', topicName', i, hi, harn⟩ := hI.drawn hstored
  intro h
  have huuid := createSNSSubscriptionArn_inj (hcolon i) (hcolon n) (harn.symm.trans h)
  have := rt.uuid_inj huuid
  omega

/-- A state with the same subscriptions. -/
theorem Held.of_subscribed (hI : Held cfg rt s) {topics : OrderedMap Str Topic} {n : Nat} {handles : List Handle}
    (htopics : Catalogue Topic.name (fun k => ∃ i < s.world.sqs.calls + n, k = rt.uuid i) topics)
    (harn : ∀ k topic, topics.get? k = some topic →
      topic.topicArn = createArn (str "sns") topic.region cfg.accountId topic.topicName)
    (hsub : ∀ {k subscription}, StoredUnder topics k subscription → StoredUnder s.world.db.topics k subscription)
    (hhandles : ∀ h ∈ handles, h.Stored topics) :
    Held cfg rt { world := s.world.after topics n, handles := handles } where
  topics := htopics
  arn := harn
  drawn h := by
    obtain ⟨region, topicName, i, hi, heq⟩ := hI.drawn (hsub h)
    exact ⟨region, topicName, i, Nat.lt_add_right n hi, heq⟩
  byArn h h' := hI.byArn (hsub h) (hsub h')
  byPair h h' := hI.byPair (hsub h) (hsub h')
  handles := hhandles

theorem drawn_later {calls : Nat} (n : Nat) (k : Str) (h : ∃ i < calls, k = rt.uuid i) :
    ∃ i < calls + n, k = rt.uuid i := by
  obtain ⟨i, hi, heq⟩ := h
  exact ⟨i, Nat.lt_add_right n hi, heq⟩

/-- Nothing but calls. -/
theorem Held.same (hI : Held cfg rt s) (n : Nat) {handles : List Handle} (hsub : handles ⊆ s.handles) :
    Held cfg rt { world := s.world.after s.world.db.topics n, handles := handles } :=
  hI.of_subscribed (hI.topics.later (drawn_later n)) hI.arn id fun h hh => hI.handles h (hsub hh)

/-- A topic of a new name, which has no subscriptions yet. -/
theorem Held.addTopic (hI : Held cfg rt s) {topic : Topic} {i n : Nat} (hi : s.world.sqs.calls ≤ i)
    (hn : i < s.world.sqs.calls + n)
    (hnew : ∀ k stored, s.world.db.topics.get? k = some stored → stored.name ≠ topic.name)
    (harn : topic.topicArn = createArn (str "sns") topic.region cfg.accountId topic.topicName)
    (hempty : topic.subscriptions = []) :
    Held cfg rt { s with world := s.world.after (s.world.db.topics.insert (rt.uuid i) topic) n } := by
  have hfresh : ¬ ∃ j < s.world.sqs.calls, rt.uuid i = rt.uuid j := by
    rintro ⟨j, hj, heq⟩
    have := rt.uuid_inj heq
    omega
  have habsent : s.world.db.topics.get? (rt.uuid i) = none := by
    refine Option.eq_none_iff_forall_ne_some.mpr fun stored hstored => ?_
    exact hfresh (hI.topics.keys _ stored hstored)
  have hget : ∀ {k stored}, (s.world.db.topics.insert (rt.uuid i) topic).get? k = some stored →
      stored = topic ∨ s.world.db.topics.get? k = some stored := by
    intro k stored hstored
    rw [get?_insert] at hstored
    split at hstored
    · exact .inl (Option.some.inj hstored).symm
    · exact .inr hstored
  refine hI.of_subscribed (hI.topics.create id topic (drawn_later n) hfresh ⟨i, hn, rfl⟩ hnew).1 ?_ ?_ ?_
  · intro k stored hstored
    rcases hget hstored with rfl | hold
    · exact harn
    · exact hI.arn k stored hold
  · rintro k subscription ⟨stored, hstored, hmem⟩
    rcases hget hstored with rfl | hold
    · rw [hempty] at hmem
      exact absurd hmem List.not_mem_nil
    · exact ⟨stored, hold, hmem⟩
  · intro h hh
    obtain ⟨k, stored, hstored, hrest⟩ := hI.handles h hh
    have hne : k ≠ rt.uuid i := by
      rintro rfl
      exact absurd (habsent.symm.trans hstored) (by simp)
    exact ⟨k, stored, by rw [get?_insert_of_ne _ _ hne, hstored], hrest⟩

section NewSubscription

variable {k region topicName : Str} {topic : Topic} {subscription : Subscription} {i : Nat}

/-- What is subscribed once a topic has one subscription more. -/
theorem storedUnder_insert (hget : s.world.db.topics.get? k = some topic) {k' : Str} {subscription' : Subscription} :
    StoredUnder (s.world.db.topics.insert k { topic with
      oid := k, subscriptions := topic.subscriptions ++ [subscription] }) k' subscription' ↔
      StoredUnder s.world.db.topics k' subscription' ∨ (k' = k ∧ subscription' = subscription) := by
  rw [StoredUnder, StoredUnder, get?_insert]
  by_cases hk : k' = k
  · subst hk
    simp [hget]
  · simp [hk]

/-- A subscription for a new pair, under an ARN that was just drawn. -/
theorem Held.add (hI : Held cfg rt s) (hcolon : ∀ i, byte ':' ∉ rt.uuid i)
    (hget : s.world.db.topics.get? k = some topic) (hi : s.world.sqs.calls ≤ i) {n : Nat}
    (hn : i < s.world.sqs.calls + n)
    (harn : subscription.subscriptionArn = createSNSSubscriptionArn cfg region topicName (rt.uuid i))
    (hnew : ∀ stored ∈ topic.subscriptions, stored.pair ≠ subscription.pair) :
    Held cfg rt {
      world := s.world.after (s.world.db.topics.insert k { topic with
        oid := k, subscriptions := topic.subscriptions ++ [subscription] }) n,
      handles := s.handles ++ [{ topic := topic.name, pair := subscription.pair,
                                 arn := subscription.subscriptionArn }] } where
  topics := hI.topics.rewrite (drawn_later n) hget rfl
  arn := by
    intro k' stored hstored
    change (s.world.db.topics.insert k _).get? k' = some stored at hstored
    rw [get?_insert] at hstored
    split at hstored
    · obtain rfl := Option.some.inj hstored
      exact hI.arn k topic hget
    · exact hI.arn k' stored hstored
  drawn := by
    intro k' subscription' h
    rcases (storedUnder_insert hget).mp h with hold | ⟨rfl, rfl⟩
    · obtain ⟨region', topicName', j, hj, heq⟩ := hI.drawn hold
      exact ⟨region', topicName', j, Nat.lt_add_right n hj, heq⟩
    · exact ⟨region, topicName, i, hn, harn⟩
  byArn := by
    intro k₁ k₂ subscription₁ subscription₂ h₁ h₂ heq
    rcases (storedUnder_insert hget).mp h₁ with hold₁ | ⟨rfl, rfl⟩
    · rcases (storedUnder_insert hget).mp h₂ with hold₂ | ⟨rfl, rfl⟩
      · exact hI.byArn hold₁ hold₂ heq
      · exact absurd (heq.trans harn) (hI.fresh hcolon hold₁ hi region topicName)
    · rcases (storedUnder_insert hget).mp h₂ with hold₂ | ⟨rfl, rfl⟩
      · exact absurd (heq.symm.trans harn) (hI.fresh hcolon hold₂ hi region topicName)
      · exact ⟨rfl, rfl⟩
  byPair := by
    have hold : ∀ {subscription'}, StoredUnder s.world.db.topics k subscription' →
        subscription'.pair ≠ subscription.pair := by
      rintro subscription' ⟨stored, hstored, hmem⟩
      obtain rfl := Option.some.inj (hget.symm.trans hstored)
      exact hnew subscription' hmem
    intro k' subscription₁ subscription₂ h₁ h₂ heq
    rcases (storedUnder_insert hget).mp h₁ with hold₁ | ⟨rfl, rfl⟩
    · rcases (storedUnder_insert hget).mp h₂ with hold₂ | ⟨rfl, rfl⟩
      · exact hI.byPair hold₁ hold₂ heq
      · exact absurd heq (hold hold₁)
    · rcases (storedUnder_insert hget).mp h₂ with hold₂ | ⟨_, rfl⟩
      · exact absurd heq.symm (hold hold₂)
      · rfl
  handles := by
    intro h hh
    rcases List.mem_append.mp hh with hold | hnew
    · obtain ⟨k', stored, hstored, hname, subscription', hmem, hrest⟩ := hI.handles h hold
      by_cases hk : k' = k
      · subst hk
        obtain rfl := Option.some.inj (hget.symm.trans hstored)
        exact ⟨k', _, get?_insert_self .., hname, subscription', List.mem_append_left _ hmem, hrest⟩
      · exact ⟨k', stored, by rw [World.after, get?_insert_of_ne _ _ hk, hstored], hname, subscription', hmem, hrest⟩
    · obtain rfl := List.mem_singleton.mp hnew
      exact ⟨k, _, get?_insert_self .., rfl, subscription, by simp, rfl, rfl⟩

end NewSubscription

/-- All subscriptions of an ARN are taken out, with the handles of the ARN. -/
theorem Held.without (hI : Held cfg rt s) (n : Nat) (subscriptionArn : Str) :
    Held cfg rt {
      world := s.world.after (s.world.db.topics.mapVal fun _ topic => topic.without subscriptionArn) n,
      handles := s.handles.filter fun h => h.arn ≠ subscriptionArn } := by
  have hget : ∀ {k topic'}, (s.world.db.topics.mapVal fun _ topic => topic.without subscriptionArn).get? k =
      some topic' → ∃ topic, s.world.db.topics.get? k = some topic ∧ topic' = topic.without subscriptionArn := by
    intro k topic' h
    rw [get?_mapVal] at h
    obtain ⟨topic, htopic, heq⟩ := Option.map_eq_some_iff.mp h
    exact ⟨topic, htopic, heq.symm⟩
  refine hI.of_subscribed ⟨?_, ?_⟩ ?_ ?_ ?_
  · intro k k' v v' hv hv' hname
    obtain ⟨topic, htopic, rfl⟩ := hget hv
    obtain ⟨topic', htopic', rfl⟩ := hget hv'
    exact hI.topics.unique k k' topic topic' htopic htopic' hname
  · intro k v hv
    obtain ⟨topic, htopic, _⟩ := hget hv
    exact drawn_later n k (hI.topics.keys k topic htopic)
  · intro k v hv
    obtain ⟨topic, htopic, rfl⟩ := hget hv
    exact hI.arn k topic htopic
  · rintro k subscription ⟨v, hv, hmem⟩
    obtain ⟨topic, htopic, rfl⟩ := hget hv
    exact ⟨topic, htopic, (List.mem_filter.mp hmem).1⟩
  · intro h hh
    obtain ⟨hold, hne⟩ := List.mem_filter.mp hh
    obtain ⟨k, topic, htopic, hname, subscription, hmem, hpair, harn⟩ := hI.handles h hold
    refine ⟨k, topic.without subscriptionArn, by rw [get?_mapVal, htopic]; rfl, hname, subscription, ?_, hpair, harn⟩
    exact List.mem_filter.mpr ⟨hmem, by rw [harn]; exact hne⟩

/-! ### Runs -/

theorem topicNameExists_iff {db : SnsMemoryDb} {region topicName : Str} : db.topicNameExists region topicName = true ↔
    ∃ k topic, db.topics.get? k = some topic ∧ topic.name = (region, topicName) := by
  rw [SnsMemoryDb.topicNameExists, findIf_isSome]
  simp [Topic.name]

theorem Held.topicOf_nil (hI : Held cfg rt s) : s.world.topicOf [] = none := by
  refine findIf_none.mpr fun k topic hget => decide_eq_false ?_
  rw [hI.arn k topic hget]
  exact createArn_ne_nil _ _ _ _

/-- Requests for new topics and new pairs. -/
theorem Held.step (hcolon : ∀ i, byte ':' ∉ rt.uuid i) {e : HandleRequest} {t : HandleState}
    (hfresh : FreshRequest e s) (ht : handleStep cfg rt e s = some t) (hI : Held cfg rt s) : Held cfg rt t := by
  cases e with
  | createTopic request =>
    have hrun : (createTopic cfg request).run (exec cfg rt) s.world = some _ := createTopic_new hfresh
    rw [handleStep, hrun] at ht
    obtain rfl := Option.some.inj ht
    refine hI.addTopic (by omega) (by omega) (fun k stored hstored hname => ?_) rfl rfl
    exact Bool.eq_false_iff.mp hfresh (topicNameExists_iff.mpr ⟨k, stored, hstored, hname⟩)
  | subscribe request =>
    rcases hfound : s.world.topicOf request.topicArn with _ | ⟨k, topic⟩
    · obtain ⟨error, n, hrun⟩ : ∃ e n, (subscribe cfg request).run (exec cfg rt) s.world = some (.error e, _) :=
        subscribe_missing (.inr hfound)
      rw [handleStep, hrun] at ht
      obtain rfl := Option.some.inj ht
      exact hI.same n (by simp [newHandles])
    · have hne : request.topicArn ≠ [] := by
        intro hnil
        rw [hnil, hI.topicOf_nil] at hfound
        cases hfound
      have hrun : (subscribe cfg request).run (exec cfg rt) s.world = some _ :=
        subscribe_new hI.topics.unique hne hfound (hfresh k topic hfound)
      rw [handleStep, hrun] at ht
      obtain rfl := Option.some.inj ht
      simp only [newHandles, hfound]
      exact hI.add (i := s.world.sqs.calls + 2) hcolon (findIf_some hfound).1 (by omega) (by omega) rfl
        (hfresh k topic hfound)
  | unsubscribe subscriptionArn =>
    by_cases hne : subscriptionArn = []
    · subst hne
      rw [handleStep, unsubscribe_nil] at ht
      obtain rfl := Option.some.inj ht
      exact hI.same 0 (List.filter_subset_self _)
    · obtain ⟨n, hrun⟩ : ∃ n, (unsubscribe subscriptionArn).run (exec cfg rt) s.world = some (_, s.world.after _ n) :=
        unsubscribe_run hI.topics.unique hne
      rw [handleStep, hrun] at ht
      obtain rfl := Option.some.inj ht
      exact hI.without n subscriptionArn

/-- By ARN and by pair, the same subscription is taken out. -/
theorem Held.without_eq (hI : Held cfg rt s) {h : Handle} (hh : h ∈ s.handles) {k : Str} {topic : Topic}
    (hget : s.world.db.topics.get? k = some topic) : topic.without h.arn = h.removedFrom topic := by
  obtain ⟨k', owner, howner, hname, subscription, hmem, hpair, harn⟩ := hI.handles h hh
  rw [Handle.removedFrom]
  split
  · next htopic =>
    have hk : k = k' := hI.topics.unique k k' topic owner hget howner (htopic.trans hname.symm)
    subst hk
    obtain rfl := Option.some.inj (hget.symm.trans howner)
    have hsame : ∀ x ∈ topic.subscriptions, x.subscriptionArn = h.arn ↔ x.pair = h.pair := by
      intro x hx
      constructor
      · intro hxarn
        rw [(hI.byArn ⟨topic, hget, hx⟩ ⟨topic, hget, hmem⟩ (hxarn.trans harn.symm)).2, hpair]
      · intro hxpair
        rw [hI.byPair ⟨topic, hget, hx⟩ ⟨topic, hget, hmem⟩ (hxpair.trans hpair.symm), harn]
    rw [Topic.without]
    congr 1
    exact List.filter_congr fun x hx => decide_eq_decide.mpr (not_congr (hsame x hx))
  · next htopic =>
    refine without_eq_self fun x hx hxarn => htopic ?_
    have hk : k = k' := (hI.byArn ⟨topic, hget, hx⟩ ⟨owner, howner, hmem⟩ (hxarn.trans harn.symm)).1
    subst hk
    obtain rfl := Option.some.inj (hget.symm.trans howner)
    exact hname

/-- With new topics and new pairs, a step meets its obligation. -/
theorem Held.owed_of_fresh (hI : Held cfg rt s) {e : HandleRequest} (hfresh : FreshRequest e s) : Owed cfg rt e s := by
  cases e with
  | createTopic request =>
    intro k topic hget hname
    exact absurd (topicNameExists_iff.mpr ⟨k, topic, hget, hname⟩) (Bool.eq_false_iff.mp hfresh)
  | subscribe request =>
    intro k topic hfound stored hstored hpair
    exact absurd hpair (hfresh k topic hfound stored hstored)
  | unsubscribe subscriptionArn =>
    rintro h hh rfl
    have hne : h.arn ≠ [] := by
      obtain ⟨k, topic, hget, _, subscription, hmem, _, harn⟩ := hI.handles h hh
      obtain ⟨region, topicName, i, _, heq⟩ := hI.drawn ⟨topic, hget, hmem⟩
      rw [← harn, heq]
      exact createArn_ne_nil _ _ _ _
    obtain ⟨n, hrun⟩ : ∃ n, (unsubscribe h.arn).run (exec cfg rt) s.world = some (_, s.world.after _ n) :=
      unsubscribe_run hI.topics.unique hne
    refine ⟨hI.handles h hh, _, hrun, ext_get? fun k => ?_⟩
    change (s.world.db.topics.mapVal _).get? k = _
    rw [get?_mapVal, get?_mapVal]
    exact Option.map_congr fun topic hget => hI.without_eq hh hget

/-- An existing name is answered with another topic, an existing pair with another ARN. -/
theorem Held.fresh_of_owed (hI : Held cfg rt s) (hcolon : ∀ i, byte ':' ∉ rt.uuid i) {e : HandleRequest}
    (howed : Owed cfg rt e s) : FreshRequest e s := by
  cases e with
  | createTopic request =>
    refine Bool.eq_false_iff.mpr fun hexists => ?_
    obtain ⟨k, topic, hget, hname⟩ := topicNameExists_iff.mp hexists
    obtain ⟨w', hrun, _⟩ := howed k topic hget hname
    obtain ⟨w'', hrun'⟩ : ∃ w', (createTopic cfg request).run (exec cfg rt) s.world = some (.ok _, w') :=
      createTopic_existing hexists
    have hresponse := Except.ok.inj (Prod.mk.inj (Option.some.inj (hrun.symm.trans hrun'))).1
    have htopicName : topic.topicName = request.topicName := (Prod.mk.inj hname).2
    rcases hfind : s.world.db.topics.findIf fun _ topic =>
        decide (topic.region = request.region ∧ topic.topicArn = request.topicName) with _ | ⟨k', found⟩
    · rw [hfind] at hresponse
      have harn : topic.topicArn = [] := congrArg CreateTopicResponse.topicArn hresponse
      rw [hI.arn k topic hget] at harn
      exact createArn_ne_nil _ _ _ _ harn
    · rw [hfind] at hresponse
      obtain ⟨hfound, hp⟩ := findIf_some hfind
      have hname' : topic.topicName = found.topicName := congrArg CreateTopicResponse.name hresponse
      have harn : found.topicArn = found.topicName :=
        (of_decide_eq_true hp).2.trans (htopicName.symm.trans hname')
      rw [hI.arn k' found hfound] at harn
      exact createArn_ne _ _ _ _ harn
  | subscribe request =>
    intro k topic hfound stored hstored hpair
    obtain ⟨w', hrun, _⟩ := howed k topic hfound stored hstored hpair
    have hne : request.topicArn ≠ [] := by
      intro hnil
      rw [hnil, hI.topicOf_nil] at hfound
      cases hfound
    have hrun' : (subscribe cfg request).run (exec cfg rt) s.world = some (.ok _, _) :=
      subscribe_existing hne hfound hstored hpair
    have harn : stored.subscriptionArn = freshArn cfg rt s.world request topic :=
      Except.ok.inj (Prod.mk.inj (Option.some.inj (hrun.symm.trans hrun'))).1
    exact hI.fresh hcolon ⟨topic, (findIf_some hfound).1, hstored⟩ (by omega) _ _ harn
  | unsubscribe subscriptionArn => trivial

/-- A run that meets its obligations creates no topic again and subscribes no pair again. -/
theorem along_fresh_of_owed (hcolon : ∀ i, byte ':' ∉ rt.uuid i) {requests : List HandleRequest}
    (h : Along (handleStep cfg rt) (Owed cfg rt) requests {}) :
    Along (handleStep cfg rt) FreshRequest requests {} :=
  along_of_along (I := Held cfg rt) (fun howed ht hI => hI.step hcolon (hI.fresh_of_owed hcolon howed) ht)
    (fun howed hI => hI.fresh_of_owed hcolon howed) h held_initial

/-- The handles behave along a run exactly when no topic is created again and no pair is subscribed again. -/
theorem subscription_handles_iff (cfg : Configuration) (rt : Sqs.Runtime) (hcolon : ∀ i, byte ':' ∉ rt.uuid i)
    (requests : List HandleRequest) : Along (handleStep cfg rt) (Owed cfg rt) requests {} ↔
      Along (handleStep cfg rt) FreshRequest requests {} := by
  refine ⟨along_fresh_of_owed hcolon, fun h => ?_⟩
  exact along_of_along (I := Held cfg rt) (fun hfresh ht hI => hI.step hcolon hfresh ht)
    (fun hfresh hI => hI.owed_of_fresh hfresh) h held_initial

/-! ### A pair subscribed twice -/

def mailTopic : CreateTopicRequest := { region := str "eu", topicName := str "t" }

def mailTopicArn : Str := createArn (str "sns") (str "eu") Sqs.Env.sample.cfg.accountId (str "t")

def mailSubscribe : SubscribeRequest where
  region := str "eu"
  topicArn := mailTopicArn
  protocol := str "email"
  endpoint := str "a"

theorem counting_colon (tick i : Nat) : byte ':' ∉ (Sqs.Runtime.counting tick).uuid i := by
  intro h
  exact absurd (List.eq_of_mem_replicate h) (by decide)

theorem subscription_handles_once :
    Along (handleStep Sqs.Env.sample.cfg (.counting 20)) (Owed Sqs.Env.sample.cfg (.counting 20))
      [.createTopic mailTopic, .subscribe mailSubscribe,
        .unsubscribe (createSNSSubscriptionArn Sqs.Env.sample.cfg (str "eu") (str "t")
          ((Sqs.Runtime.counting 20).uuid 5)), .subscribe mailSubscribe] {} :=
  (subscription_handles_iff _ _ (counting_colon 20) _).mpr (by decide +kernel)

/-- The second `Subscribe` returns an ARN that is stored nowhere. -/
theorem second_handle_unknown :
    ¬ Along (handleStep Sqs.Env.sample.cfg (.counting 20)) (Owed Sqs.Env.sample.cfg (.counting 20))
      [.createTopic mailTopic, .subscribe mailSubscribe, .subscribe mailSubscribe] {} := by
  intro howed
  have hfresh := along_fresh_of_owed (counting_colon 20) howed
  revert hfresh
  decide +kernel

end AwsMock.Sns
