import AwsMock.Lib.Serial
import AwsMock.Sns.TopicTasks

/-!
# Topic updates

When no write of a request comes too late, the requests for a topic have the effect of some order of them, one after
the other: each commits with the call that reads that nothing is to be done, or with its write.
-/

namespace AwsMock.Sns

open Lib OrderedMap

/-! ### The invariant -/

/-- What a request has read of the topic is the topic, unless this is gone. -/
structure StageSound (db : SnsMemoryDb) (topicArn : Str) (name : Str × Str) (task : TopicTask) (stage : Stage) :
    Prop where
  own : ∀ read ∈ stage.left, task.Concerns topicArn read →
    read.topicArn = topicArn ∧ read.name = name ∨ db.contentOf topicArn = none
  other : ∀ read ∈ stage.left, ¬ task.Concerns topicArn read → read.topicArn ≠ topicArn ∧ read.name ≠ name
  once : stage.left.Pairwise fun a b => ¬ (task.Concerns topicArn a ∧ task.Concerns topicArn b)

variable {topicArn : Str} {name : Str × Str} {start : Option TopicContent} {order : List Nat} {x y : TopicPool}
  {i : Nat}

theorem StageSound.mono {db db' : SnsMemoryDb} {task : TopicTask} {stage : Stage}
    (h : StageSound db topicArn name task stage)
    (hgone : db.contentOf topicArn = none → db'.contentOf topicArn = none) :
    StageSound db' topicArn name task stage :=
  ⟨fun read hread hconcerns => (h.own read hread hconcerns).imp_right hgone, h.other, h.once⟩

theorem StageSound.none_left {db : SnsMemoryDb} {task : TopicTask} {stage : Stage} (h : stage.left = []) :
    StageSound db topicArn name task stage := by
  constructor <;> simp [h]

theorem StageSound.tail {db : SnsMemoryDb} {task : TopicTask} {stage stage' : Stage}
    (h : StageSound db topicArn name task stage) (hleft : stage'.left = stage.left.tail) :
    StageSound db topicArn name task stage' where
  own read hread := h.own read (List.mem_of_mem_tail (hleft ▸ hread))
  other read hread := h.other read (List.mem_of_mem_tail (hleft ▸ hread))
  once := hleft ▸ h.once.tail

/-- The `j`-th request has done to the topic what it does. -/
def HasDone (topicArn : Str) (x : TopicPool) (j : Nat) : Prop :=
  ∃ t, x.1[j]? = some t ∧ t.label.Done topicArn (x.2.stage j)

/-- What the `j`-th request makes of the topic, whatever it may still answer. -/
def Acts (x : TopicPool) (j : Nat) (before after : Option TopicContent) : Prop :=
  ∀ t answer, x.1[j]? = some t → t.label.Answers answer (x.2.stage j) →
    TopicTask.effect before (t.label, answer) = after

/-- Each thread follows its protocol, and the requests that have done their work explain the topic. -/
structure TopicSound (topicArn : Str) (name : Str × Str) (start : Option TopicContent) (order : List Nat)
    (x : TopicPool) : Prop where
  one : OneTopic x.2.world.db topicArn name
  on : ∀ (j : Nat) (t : TopicThread), x.1[j]? = some t → t.label.On topicArn
  complies : ∀ (j : Nat) (t : TopicThread), x.1[j]? = some t →
    t.prog.Complies t.label.rules (t.label.Ends topicArn) (x.2.stage j)
  stage : ∀ (j : Nat) (t : TopicThread), x.1[j]? = some t →
    StageSound x.2.world.db topicArn name t.label (x.2.stage j)
  committed : Committed (Acts x) (HasDone topicArn x) order start (x.2.world.db.contentOf topicArn)

theorem topicSound_start {cfg : Configuration} {tasks : List TopicTask} {w : World} (hone : OneTopic w.db topicArn name)
    (hon : ∀ task ∈ tasks, task.On topicArn) :
    TopicSound topicArn name (w.db.contentOf topicArn) [] (startTasks cfg tasks w) where
  one := hone
  on j t ht := by
    obtain ⟨task, htask, rfl⟩ := List.mem_map.mp (List.mem_of_getElem? ht)
    exact hon task htask
  complies j t ht := by
    obtain ⟨task, -, rfl⟩ := List.mem_map.mp (List.mem_of_getElem? ht)
    exact TopicTask.complies_task task
  stage j t ht := .none_left rfl
  committed := .initial (fun j ⟨t, _, hbegun, _⟩ => Bool.false_ne_true hbegun) _

variable {cfg : Configuration} {rt : Sqs.Runtime} {c : SnsCall}

/-- A call to the store, in the process. -/
theorem apply_of_exec {w w' : World} {r : c.Reply} (h : exec cfg rt c w = some (r, w')) (hc : ∀ c', c ≠ .sqs c') :
    c.apply rt w.sqs.calls w.db = some (r, w'.db) := by
  cases c with
  | sqs c' => exact absurd rfl (hc c')
  | _ =>
    simp only [exec, Option.map_eq_some_iff] at h
    obtain ⟨⟨r', db⟩, happly, heq⟩ := h
    cases heq
    exact happly

theorem db_of_exec_sqs {w w' : World} {c : Sqs.SqsCall} {r : c.Reply} (h : exec cfg rt (.sqs c) w = some (r, w')) :
    w'.db = w.db := by
  simp only [exec, Option.map_eq_some_iff, Prod.mk.injEq] at h
  obtain ⟨_, -, -, rfl⟩ := h
  rfl

/-- The `i`-th thread makes a call. -/
structure TopicGoes (cfg : Configuration) (rt : Sqs.Runtime) (i : Nat) (x y : TopicPool) (label : TopicTask)
    (c : SnsCall) (k : c.Reply → SnsProg Str) (r : c.Reply) : Prop where
  before : x.1[i]? = some ⟨label, .call c k⟩
  exec : exec cfg rt c x.2.world = some (r, y.2.world)
  after : y.1 = x.1.set i ⟨label, k r⟩
  stage : y.2.stage = Function.update x.2.stage i ((x.2.stage i).next c r)

theorem topicTurn_goes (h : topicTurn cfg rt i x = some y) :
    y = x ∨ ∃ label c k r, TopicGoes cfg rt i x y label c k r := by
  rcases Thread.turn_cases h with rfl | ⟨label, c, k, r, started, hi, hexec, hy⟩
  · exact .inl rfl
  · obtain ⟨x', hx', hgoes⟩ := Option.map_eq_some_iff.mp hexec
    simp only [Turn.goes.injEq] at hgoes
    obtain ⟨rfl, hs, rfl⟩ := hgoes
    refine .inr ⟨label, c, k, _, hi, ?_, by rw [hy, List.append_nil], by rw [← hs]⟩
    rw [hx', ← hs]

namespace TopicGoes

variable {label : TopicTask} {k : c.Reply → SnsProg Str} {r : c.Reply} (h : TopicGoes cfg rt i x y label c k r)

include h

theorem thread {j : Nat} {t : TopicThread} (ht : y.1[j]? = some t) :
    j = i ∧ t = ⟨label, k r⟩ ∨ j ≠ i ∧ x.1[j]? = some t := by
  rw [h.after] at ht
  rcases Thread.getElem?_moved (by rwa [List.append_nil]) with hself | hother | ⟨hnew, -⟩
  · exact .inl hself
  · exact .inr hother
  · cases hnew

theorem thread_self : y.1[i]? = some ⟨label, k r⟩ := by
  rw [h.after, ← List.append_nil (x.1.set i _)]
  exact Thread.getElem?_moved_self h.before

theorem thread_of_ne {j : Nat} {t : TopicThread} (hj : j ≠ i) (ht : x.1[j]? = some t) : y.1[j]? = some t := by
  rw [h.after, ← List.append_nil (x.1.set i _)]
  exact Thread.getElem?_moved_of_ne ht hj

theorem stage_self : y.2.stage i = (x.2.stage i).next c r := by rw [h.stage, Function.update_self]

theorem stage_of_ne {j : Nat} (hj : j ≠ i) : y.2.stage j = x.2.stage j := by rw [h.stage, Function.update_of_ne hj]

theorem hasDone_of_ne {j : Nat} (hj : j ≠ i) : HasDone topicArn y j ↔ HasDone topicArn x j := by
  unfold HasDone
  rw [h.stage_of_ne hj]
  refine exists_congr fun t => and_congr_left fun _ => ⟨fun ht => ?_, h.thread_of_ne hj⟩
  exact ((h.thread ht).resolve_left fun hself => hj hself.1).2

theorem hasDone_self : HasDone topicArn x i ↔ label.Done topicArn (x.2.stage i) := by
  constructor
  · rintro ⟨t, ht, hdone⟩
    obtain rfl := Option.some.inj (h.before.symm.trans ht)
    exact hdone
  · exact fun hdone => ⟨_, h.before, hdone⟩

theorem hasDone_after : HasDone topicArn y i ↔ label.Done topicArn ((x.2.stage i).next c r) := by
  rw [← h.stage_self]
  constructor
  · rintro ⟨t, ht, hdone⟩
    obtain rfl := Option.some.inj (h.thread_self.symm.trans ht)
    exact hdone
  · exact fun hdone => ⟨_, h.thread_self, hdone⟩

theorem acts_of_ne {j : Nat} (hj : j ≠ i) {before after : Option TopicContent} (hacts : Acts x j before after) :
    Acts y j before after := by
  intro t answer ht hanswers
  rw [h.stage_of_ne hj] at hanswers
  exact hacts t answer ((h.thread ht).resolve_left fun hself => hj hself.1).2 hanswers

/-- What a call that keeps the topic in order has to show. -/
theorem sound (hx : TopicSound topicArn name start order x) (hone : OneTopic y.2.world.db topicArn name)
    (hgone : x.2.world.db.contentOf topicArn = none → y.2.world.db.contentOf topicArn = none)
    (hstage : StageSound y.2.world.db topicArn name label ((x.2.stage i).next c r))
    {order' : List Nat}
    (hcommitted : Committed (Acts y) (HasDone topicArn y) order' start (y.2.world.db.contentOf topicArn)) :
    TopicSound topicArn name start order' y where
  one := hone
  on j t ht := by
    rcases h.thread ht with ⟨rfl, rfl⟩ | ⟨-, hold⟩
    · have hlabel : label.On topicArn := hx.on j _ h.before
      exact hlabel
    · exact hx.on j t hold
  complies j t ht := by
    rcases h.thread ht with ⟨rfl, rfl⟩ | ⟨hne, hold⟩
    · rw [h.stage_self]
      exact (hx.complies j _ h.before).2 r
    · rw [h.stage_of_ne hne]
      exact hx.complies j t hold
  stage j t ht := by
    rcases h.thread ht with ⟨rfl, rfl⟩ | ⟨hne, hold⟩
    · rw [h.stage_self]
      exact hstage
    · rw [h.stage_of_ne hne]
      exact (hx.stage j t hold).mono hgone
  committed := hcommitted

/-- The request has not done its work, or had done it before. -/
theorem sound_stay (hx : TopicSound topicArn name start order x) (hone : OneTopic y.2.world.db topicArn name)
    (hcontent : y.2.world.db.contentOf topicArn = x.2.world.db.contentOf topicArn)
    (hstage : StageSound y.2.world.db topicArn name label ((x.2.stage i).next c r))
    (hdone : label.Done topicArn ((x.2.stage i).next c r) ↔ label.Done topicArn (x.2.stage i))
    (hanswers : label.Done topicArn (x.2.stage i) → ∀ answer, label.Answers answer ((x.2.stage i).next c r) →
      label.Answers answer (x.2.stage i)) : TopicSound topicArn name start order y := by
  refine h.sound hx hone (fun hgone => hcontent.trans hgone) hstage ?_
  rw [hcontent]
  refine hx.committed.stay (fun j => ?_) fun j hj before after hacts => ?_
  · by_cases hne : j = i
    · rw [hne, h.hasDone_after, h.hasDone_self, hdone]
    · exact h.hasDone_of_ne hne
  · by_cases hne : j = i
    · subst hne
      intro t answer ht hanswer
      obtain rfl := Option.some.inj (h.thread_self.symm.trans ht)
      rw [h.stage_self] at hanswer
      have hold := hacts ⟨label, .call c k⟩ answer h.before
      exact hold (hanswers (h.hasDone_self.mp hj) answer hanswer)
    · exact h.acts_of_ne hne hacts

/-- The request does its work. -/
theorem sound_commit (hx : TopicSound topicArn name start order x) (hone : OneTopic y.2.world.db topicArn name)
    (hgone : x.2.world.db.contentOf topicArn = none → y.2.world.db.contentOf topicArn = none)
    (hstage : StageSound y.2.world.db topicArn name label ((x.2.stage i).next c r))
    (hbefore : ¬ label.Done topicArn (x.2.stage i)) (hafter : label.Done topicArn ((x.2.stage i).next c r))
    (heffect : ∀ answer, label.Answers answer ((x.2.stage i).next c r) →
      TopicTask.effect (x.2.world.db.contentOf topicArn) (label, answer) = y.2.world.db.contentOf topicArn) :
    TopicSound topicArn name start (order ++ [i]) y := by
  refine h.sound hx hone hgone hstage (hx.committed.commit (h.hasDone_self.not.mpr hbefore) (fun j => ?_)
    (fun j hj before after hacts => ?_) ?_)
  · by_cases hne : j = i
    · subst hne
      exact iff_of_true (h.hasDone_after.mpr hafter) (.inr rfl)
    · rw [h.hasDone_of_ne hne, or_iff_left hne]
  · refine h.acts_of_ne ?_ hacts
    rintro rfl
    exact hbefore (h.hasDone_self.mp hj)
  · intro t answer ht hanswer
    obtain rfl := Option.some.inj (h.thread_self.symm.trans ht)
    rw [h.stage_self] at hanswer
    exact heffect answer hanswer

omit h in
theorem law (h : TopicGoes cfg rt i x y label c k r) (hx : TopicSound topicArn name start order x) :
    label.rules.law (x.2.stage i) c := (hx.complies i _ h.before).1

omit h in
/-- A call that neither reads nor writes topics. -/
theorem sound_aside (h : TopicGoes cfg rt i x y label c k r) (hx : TopicSound topicArn name start order x)
    (hdb : y.2.world.db = x.2.world.db) (hnext : (x.2.stage i).next c r = x.2.stage i) :
    TopicSound topicArn name start order y := by
  have hstage := hx.stage i _ h.before
  refine h.sound_stay hx (hdb ▸ hx.one) (by rw [hdb]) ?_ (by rw [hnext]) fun _ answer hanswer => ?_
  · rw [hnext, hdb]
    exact hstage
  · rwa [hnext] at hanswer

omit h in
/-- `Subscribe` and `TagResource` read the topic. -/
theorem sound_getTopicByArn {arn : Str} {k : Topic → SnsProg Str} {topic : Topic}
    (h : TopicGoes cfg rt i x y label (.getTopicByArn arn) k topic) (hx : TopicSound topicArn name start order x) :
    ∃ order', TopicSound topicArn name start order' y := by
  obtain ⟨hfirst, hlooks⟩ := h.law hx
  have hon : label.On topicArn := hx.on i _ h.before
  obtain ⟨rfl, hconcerns⟩ : arn = topicArn ∧ ∀ read, label.Concerns topicArn read := by
    cases label with
    | subscribe request => exact ⟨hlooks.symm.trans hon, fun _ => trivial⟩
    | tagResource request => exact ⟨hlooks.symm.trans hon, fun _ => trivial⟩
    | unsubscribe | deleteTopic => exact hlooks.elim
  have hget := Option.some.inj (apply_of_exec h.exec fun c' => nofun)
  obtain ⟨hone, hcontent, hread⟩ := hx.one.getTopicByArn (rt.now x.2.world.sqs.calls)
  rw [hget] at hone hcontent hread
  have hbefore : ¬ label.Done arn (x.2.stage i) := by
    rw [hfirst]
    exact fun hdone => Bool.false_ne_true hdone.1
  have hstage : StageSound y.2.world.db arn name label ((x.2.stage i).next (.getTopicByArn arn) topic) := by
    refine ⟨fun read hmem _ => ?_, fun read _ hother => absurd (hconcerns read) hother, List.pairwise_singleton ..⟩
    obtain rfl := List.mem_singleton.mp hmem
    exact hread.symm.imp (fun hfound => hfound.2) fun hgone => hcontent.trans hgone.1
  by_cases hidle : label.Idle arn topic
  · -- there is a subscription for the pair, and `Subscribe` has nothing to do
    refine ⟨_, h.sound_commit hx hone (fun hgone => hcontent.trans hgone) hstage hbefore ⟨rfl, fun read hmem => ?_⟩
      fun answer _ => ?_⟩
    · obtain rfl := List.mem_singleton.mp hmem
      exact hidle
    · cases label with
      | subscribe request =>
        rcases hread with ⟨-, hnil⟩ | ⟨hfound, -⟩
        · have hidle : topic.subscriptions.any _ = true := hidle
          rw [hnil] at hidle
          cases hidle
        · rw [hcontent, hfound]
          exact congrArg some (if_pos hidle)
      | tagResource => exact hidle.elim
      | unsubscribe | deleteTopic => exact hlooks.elim
  · refine ⟨_, h.sound_stay hx hone hcontent hstage (iff_of_false (fun hdone => hidle ?_) hbefore)
      fun hdone => absurd hdone hbefore⟩
    exact hdone.2 topic (List.mem_singleton_self topic)

omit h in
/-- `Unsubscribe` reads the topics that have the subscription. -/
theorem sound_getTopicsBySubscriptionArn {subscriptionArn : Str} {k : List Topic → SnsProg Str} {topics : List Topic}
    (h : TopicGoes cfg rt i x y label (.getTopicsBySubscriptionArn subscriptionArn) k topics)
    (hx : TopicSound topicArn name start order x) : ∃ order', TopicSound topicArn name start order' y := by
  obtain ⟨hfirst, rfl⟩ := h.law hx
  have hget := Option.some.inj (apply_of_exec h.exec fun c' => nofun)
  obtain ⟨htopics, hdb⟩ := Prod.mk.inj hget
  have hstored : ∀ read, read ∈ topics ↔ (∃ k, x.2.world.db.topics.get? k = some read) ∧
      ∃ s ∈ read.subscriptions, s.subscriptionArn = subscriptionArn := by
    intro read
    rw [← htopics, SnsMemoryDb.getTopicsBySubscriptionArn, List.mem_filter, OrderedMap.values, List.mem_map]
    simp only [Prod.exists, exists_eq_right, get?_eq_some, List.any_eq_true, decide_eq_true_iff]
  have hbefore : ¬ (TopicTask.unsubscribe subscriptionArn).Done topicArn (x.2.stage i) := by
    rw [hfirst]
    exact fun hdone => Bool.false_ne_true hdone.1
  have hstage : StageSound y.2.world.db topicArn name (.unsubscribe subscriptionArn)
      ((x.2.stage i).next (.getTopicsBySubscriptionArn subscriptionArn) topics) := by
    refine ⟨fun read hmem harn => ?_, fun read hmem harn => ⟨harn, fun hname => harn ?_⟩, ?_⟩
    · obtain ⟨⟨k, hk⟩, -⟩ := (hstored read).mp hmem
      exact .inl ⟨harn, (hx.one.named k read hk).mp harn⟩
    · obtain ⟨⟨k, hk⟩, -⟩ := (hstored read).mp hmem
      exact (hx.one.named k read hk).mpr hname
    · exact htopics ▸ hx.one.getTopicsBySubscriptionArn subscriptionArn
  by_cases hidle : ∀ read ∈ topics, read.topicArn ≠ topicArn
  · -- the topic does not have the subscription
    refine ⟨_, h.sound_commit hx (hdb ▸ hx.one) (fun hgone => hdb ▸ hgone) hstage hbefore ⟨rfl, hidle⟩
      fun answer _ => ?_⟩
    rw [← hdb]
    rcases hcontent : x.2.world.db.contentOf topicArn with _ | content
    · rfl
    · obtain ⟨k, topic, hk, harn, rfl⟩ := hx.one.contentOf_eq_some.mp hcontent
      refine congrArg some (congrArg (fun subscriptions => { topic.content with subscriptions := subscriptions }) ?_)
      refine List.filter_eq_self.mpr fun s hs => decide_eq_true fun hsarn => ?_
      exact hidle topic ((hstored topic).mpr ⟨⟨k, hk⟩, s, hs, hsarn⟩) harn
  · refine ⟨_, h.sound_stay hx (hdb ▸ hx.one) (by rw [hdb]) hstage (iff_of_false (fun hdone => hidle hdone.2) hbefore)
      fun hdone => absurd hdone hbefore⟩

omit h in
/-- A record is written back, in time. -/
theorem sound_updateTopic {topic : Topic} {k : Topic → SnsProg Str} {r : Topic}
    (h : TopicGoes cfg rt i x y label (.updateTopic topic) k r) (hx : TopicSound topicArn name start order x)
    (htimely : Timely topicArn i x) : ∃ order', TopicSound topicArn name start order' y := by
  obtain ⟨hbegun, read, rest, hleft, hrewrites, honce⟩ := h.law hx
  obtain ⟨hname, harn⟩ := hrewrites.same_topic
  have hrun := apply_of_exec h.exec fun c' => nofun
  have hold : StageSound x.2.world.db topicArn name label (x.2.stage i) := hx.stage i _ h.before
  have hmem : read ∈ (x.2.stage i).left := hleft ▸ List.mem_cons_self
  have htail : ((x.2.stage i).next (.updateTopic topic) r).left = rest := congrArg List.tail hleft
  by_cases hconcerns : label.Concerns topicArn read
  · have hwrite := pendingWrite_eq_some.mpr ⟨⟨k, h.before⟩, congrArg List.head? hleft⟩
    obtain ⟨content, hcontent, hleaves⟩ := htimely _ hwrite hconcerns
    have hcontent : x.2.world.db.contentOf topicArn = some content := hcontent
    have hgone : x.2.world.db.contentOf topicArn ≠ none := by
      rw [hcontent]
      nofun
    obtain ⟨hreadarn, hreadname⟩ := (hold.own read hmem hconcerns).resolve_right hgone
    obtain ⟨hone, hafter⟩ := hx.one.updateTopic_self hrun (hname.trans hreadname) (harn.trans hreadarn)
    refine ⟨_, h.sound_commit hx hone (fun hnone => absurd hnone hgone)
      ((hold.mono fun hnone => absurd hnone hgone).tail rfl) (fun hdone => ?_) ⟨hbegun, ?_⟩ fun answer hanswer => ?_⟩
    · exact hrewrites.not_idle hconcerns (hdone.2 read hmem)
    · rw [htail]
      intro other hother
      cases label with
      | unsubscribe subscriptionArn =>
        have honly := hold.once
        rw [hleft] at honly
        exact fun hotherarn => (List.pairwise_cons.mp honly).1 other hother ⟨hconcerns, hotherarn⟩
      | _ =>
        rw [honce.1] at hother
        cases hother
    · rw [hcontent, hafter]
      exact hrewrites.effect hleaves (List.mem_append_right _ (List.mem_singleton_self topic)) hanswer
  · -- another topic, which only `Unsubscribe` comes across
    obtain ⟨hreadarn, hreadname⟩ := hold.other read hmem hconcerns
    obtain ⟨hone, hsame⟩ := hx.one.updateTopic_other hrun (hname.trans_ne hreadname) (harn.trans_ne hreadarn)
    cases label with
    | unsubscribe subscriptionArn =>
      refine ⟨_, h.sound_stay hx hone hsame ((hold.mono fun hnone => hsame.trans hnone).tail rfl) ?_
        fun _ _ _ => trivial⟩
      rw [TopicTask.Done, TopicTask.Done, htail, hleft, List.forall_mem_cons]
      exact and_congr_right fun _ => (and_iff_right hreadarn).symm
    | _ => exact absurd trivial hconcerns

omit h in
theorem sound_deleteTopic {region arn : Str} {k : Unit → SnsProg Str}
    (h : TopicGoes cfg rt i x y label (.deleteTopic region arn) k ()) (hx : TopicSound topicArn name start order x) :
    ∃ order', TopicSound topicArn name start order' y := by
  obtain ⟨hfirst, rfl⟩ := h.law hx
  obtain rfl : arn = topicArn := hx.on i _ h.before
  have hdb := (Prod.mk.inj (Option.some.inj (apply_of_exec h.exec fun c' => nofun))).2
  obtain ⟨hone, hcontent⟩ := hx.one.deleteTopic region
  rw [hdb] at hone hcontent
  refine ⟨_, h.sound_commit hx hone (fun hgone => ?_) (.none_left rfl) (fun hdone => ?_) ⟨rfl, nofun⟩ fun _ _ => ?_⟩
  · rw [hcontent, hgone]
    rfl
  · rw [hfirst] at hdone
    exact Bool.false_ne_true hdone.1
  · exact hcontent.symm

end TopicGoes

/-- One turn in time. -/
theorem TopicSound.step (hx : TopicSound topicArn name start order x) (htimely : Timely topicArn i x)
    (h : topicTurn cfg rt i x = some y) : ∃ order', TopicSound topicArn name start order' y := by
  rcases topicTurn_goes h with rfl | ⟨label, c, k, r, hgoes⟩
  · exact ⟨order, hx⟩
  · have hlaw := hgoes.law hx
    cases c with
    | getTopicByArn arn => exact hgoes.sound_getTopicByArn hx
    | getTopicsBySubscriptionArn subscriptionArn => exact hgoes.sound_getTopicsBySubscriptionArn hx
    | updateTopic topic => exact hgoes.sound_updateTopic hx htimely
    | deleteTopic region arn => exact hgoes.sound_deleteTopic hx
    | topicExists arn =>
      have hdb := (Prod.mk.inj (Option.some.inj (apply_of_exec hgoes.exec fun c' => nofun))).2
      exact ⟨order, hgoes.sound_aside hx hdb.symm rfl⟩
    | sqs c => exact ⟨order, hgoes.sound_aside hx (db_of_exec_sqs hgoes.exec) rfl⟩
    | topicNameExists | getTopicByName | createTopic | createMessage => exact hlaw.elim

theorem TopicSound.not_writesDeleted (hx : TopicSound topicArn name start order x) (htimely : Timely topicArn i x) :
    ¬ WritesDeleted topicArn i x := by
  rintro ⟨⟨label, topic, read⟩, hwrite, hconcerns, hmissing⟩
  obtain ⟨⟨k, hi⟩, hhead⟩ := pendingWrite_eq_some.mp hwrite
  obtain ⟨content, hcontent, -⟩ := htimely _ hwrite hconcerns
  have hcontent : x.2.world.db.contentOf topicArn = some content := hcontent
  obtain ⟨-, read', rest, hleft, hrewrites, -⟩ := (hx.complies i _ hi).1
  obtain rfl : read' = read := by
    rw [hleft] at hhead
    exact Option.some.inj hhead
  obtain ⟨k', stored, hget, harn, -⟩ := hx.one.contentOf_eq_some.mp hcontent
  have hgone : x.2.world.db.contentOf topicArn ≠ none := by
    rw [hcontent]
    nofun
  obtain ⟨-, hreadname⟩ := ((hx.stage i _ hi).own read' (hleft ▸ List.mem_cons_self) hconcerns).resolve_right hgone
  have hname : topic.name = name := hrewrites.same_topic.1.trans hreadname
  obtain ⟨hregion, htopicName⟩ := Prod.mk.inj (((hx.one.named k' stored hget).mp harn).trans hname.symm)
  rcases hfound : x.2.world.db.topics.findIf fun _ t =>
      decide (t.region = topic.region ∧ t.topicName = topic.topicName) with _ | ⟨k'', it⟩
  · exact absurd ⟨hregion, htopicName⟩ (of_decide_eq_false (findIf_none.mp hfound k' stored hget))
  · obtain ⟨hit, hitname⟩ := findIf_some hfound
    obtain ⟨hitregion, hittopicName⟩ := of_decide_eq_true hitname
    refine hmissing (k'', it) hfound ((hx.one.named k'' it hit).mpr ?_)
    exact (Prod.ext hitregion hittopicName : it.name = topic.name).trans hname

/-! ### Every run -/

/-- The request a thread has answered, with its answer. -/
def TopicThread.answered (t : TopicThread) : Option (TopicTask × Str) :=
  match t.prog with
  | .ret answer => some (t.label, answer)
  | _ => none

/-- The requests that have done their work are those that are answered, and in the order in which they did it they make
    the topic what it is. -/
theorem TopicSound.serialised (hx : TopicSound topicArn name start order x) (hended : Ended x) :
    Serialised topicArn start x := by
  have hdone : ∀ i, HasDone topicArn x i → ∃ t answer, x.1[i]? = some t ∧
      TopicThread.answered t = some (t.label, answer) ∧ t.label.Answers answer (x.2.stage i) := by
    rintro i ⟨⟨label, prog⟩, ht, hbegun, hidle⟩
    have hcomplies := hx.complies i _ ht
    cases prog with
    | ret answer => exact ⟨_, answer, ht, rfl, hcomplies.2⟩
    | throw e => exact Bool.noConfusion (hbegun.symm.trans hcomplies)
    | call c k => cases hended _ (List.mem_of_getElem? ht)
  have hmem : ∀ i, i ∈ order ↔ (x.1[i]?.bind TopicThread.answered).isSome = true := by
    intro i
    rw [hx.committed.mem]
    constructor
    · intro hi
      obtain ⟨t, answer, ht, hanswered, -⟩ := hdone i hi
      rw [ht, Option.bind_some, hanswered]
      rfl
    · intro hi
      obtain ⟨a, ha⟩ := Option.isSome_iff_exists.mp hi
      obtain ⟨⟨label, prog⟩, ht, hanswered⟩ := Option.bind_eq_some_iff.mp ha
      cases prog with
      | ret answer => exact ⟨_, ht, (hx.complies i _ ht).1⟩
      | throw | call => cases hanswered
  refine ⟨order.filterMap fun i => x.1[i]?.bind TopicThread.answered,
    filterMap_places_perm hx.committed.nodup hmem, ?_⟩
  rw [List.foldl_filterMap]
  refine (hx.committed.serial.foldl fun i hi before after hacts => ?_).symm
  obtain ⟨t, answer, ht, hanswered, hanswers⟩ := hdone i ((hx.committed.mem i).mp hi)
  rw [ht, Option.bind_some, hanswered]
  exact hacts t answer ht hanswers

/-- In every order of the calls of any such requests on a topic: as long as every write is in time, no deleted topic is
    written, and when all have ended the topic is what some order of the completed requests makes of it. -/
theorem topic_updates_serialised (cfg : Configuration) (rt : Sqs.Runtime) (topicArn : Str) (name : Str × Str)
    (tasks : List TopicTask) (hon : ∀ task ∈ tasks, task.On topicArn) (w : World)
    (hone : OneTopic w.db topicArn name) (sched : List Nat)
    (htimely : Along (topicTurn cfg rt) (Timely topicArn) sched (startTasks cfg tasks w)) :
    Along (topicTurn cfg rt) (fun i x => ¬ WritesDeleted topicArn i x) sched (startTasks cfg tasks w) ∧
    ∀ y, steps (topicTurn cfg rt) sched (startTasks cfg tasks w) = some y → Ended y →
      Serialised topicArn (w.db.contentOf topicArn) y := by
  let Kept (x : TopicPool) : Prop := ∃ order, TopicSound topicArn name (w.db.contentOf topicArn) order x
  have hstart : Kept (startTasks cfg tasks w) := ⟨[], topicSound_start hone hon⟩
  constructor
  · exact along_of_along (I := Kept) (fun htimely h ⟨_, hx⟩ => hx.step htimely h)
      (fun htimely ⟨_, hx⟩ => hx.not_writesDeleted htimely) htimely hstart
  · intro y hrun hended
    obtain ⟨order, hy⟩ := steps_along (I := Kept) (fun htimely h ⟨_, hx⟩ => hx.step htimely h) htimely hrun hstart
    exact hy.serialised hended

/-! ### Sample runs -/

/-- One topic with one subscription. -/
def mailStore : World where
  db := { topics := .ofList [(str "o", {
    region := str "eu", topicName := str "t", topicArn := str "a", created := 0, modified := 0,
    subscriptions := [⟨str "sms", str "n", str "s"⟩] })] }

theorem oneTopic_mailStore : OneTopic mailStore.db (str "a") (str "eu", str "t") := by
  have hget : ∀ {k topic}, mailStore.db.topics.get? k = some topic → k = str "o" ∧ topic.topicArn = str "a" ∧
      topic.name = (str "eu", str "t") := by
    intro k topic h
    cases List.mem_singleton.mp (mem_of_get?_ofList h)
    exact ⟨rfl, rfl, rfl⟩
  refine ⟨fun k topic h => ?_, fun k k' topic topic' h h' _ _ => (hget h).1.trans (hget h').1.symm⟩
  exact iff_of_true (hget h).2.1 (hget h).2.2

def mailTo (endpoint : Str) : TopicTask := .subscribe ⟨str "eu", str "a", str "email", endpoint⟩

def dropSms : TopicTask := .unsubscribe (str "s")

def tagMail : TopicTask := .tagResource ⟨str "eu", str "a", .ofList [(str "k", str "v")]⟩

def dropMail : TopicTask := .deleteTopic (str "eu") (str "a")

/-- Each request reads the topic after the one before it has written. -/
theorem topic_updates_serialised_in_turn :
    Along (topicTurn Sqs.Env.sample.cfg (.counting 20)) (fun i x => ¬ WritesDeleted (str "a") i x)
      [0, 1, 0, 0, 0, 1, 1, 1, 2, 2, 3, 3, 3]
      (startTasks Sqs.Env.sample.cfg [mailTo (str "x"), mailTo (str "y"), dropSms, tagMail] mailStore) ∧
    ∀ y, steps (topicTurn Sqs.Env.sample.cfg (.counting 20)) [0, 1, 0, 0, 0, 1, 1, 1, 2, 2, 3, 3, 3]
      (startTasks Sqs.Env.sample.cfg [mailTo (str "x"), mailTo (str "y"), dropSms, tagMail] mailStore) = some y →
      Ended y → Serialised (str "a") (mailStore.db.contentOf (str "a")) y :=
  topic_updates_serialised Sqs.Env.sample.cfg (.counting 20) (str "a") (str "eu", str "t")
    [mailTo (str "x"), mailTo (str "y"), dropSms, tagMail] (by simp [mailTo, dropSms, tagMail, TopicTask.On]) mailStore
    oneTopic_mailStore _ (by decide +kernel)

/-- Both requests read the topic before either writes it. -/
def crossedRun : Option TopicPool :=
  steps (topicTurn Sqs.Env.sample.cfg (.counting 20)) [0, 0, 1, 1, 0, 0, 1, 1]
    (startTasks Sqs.Env.sample.cfg [mailTo (str "x"), mailTo (str "y")] mailStore)

theorem crossedRun_isSome : crossedRun.isSome = true := by decide +kernel

def crossedEnd : TopicPool := crossedRun.get crossedRun_isSome

/-- No order of the two subscriptions leaves only one of them. -/
theorem crossedEnd_not_serialised : ¬ Serialised (str "a") (mailStore.db.contentOf (str "a")) crossedEnd := by
  rintro ⟨order, hperm, hcontent⟩
  have hanswers : (order.map Prod.snd).Nodup := (hperm.map _).nodup_iff.mpr (by decide +kernel)
  have hlength : order.length = 2 := hperm.length_eq.trans (by decide +kernel)
  obtain ⟨p, q, rfl⟩ := List.length_eq_two.mp hlength
  have hall : ∀ p ∈ completed crossedEnd, ∀ q ∈ completed crossedEnd, p.2 ≠ q.2 →
      crossedEnd.2.world.db.contentOf (str "a") ≠
        [p, q].foldl TopicTask.effect (mailStore.db.contentOf (str "a")) := by decide +kernel
  have hne : p.2 ≠ q.2 := by simpa using hanswers
  exact hall p (hperm.subset (by simp)) q (hperm.subset (by simp)) hne hcontent

/-- One of two subscriptions is lost, and a topic that is deleted between the two calls of a `Subscribe` is written. -/
theorem subscription_lost :
    (¬ ∀ y, steps (topicTurn Sqs.Env.sample.cfg (.counting 20)) [0, 0, 1, 1, 0, 0, 1, 1]
      (startTasks Sqs.Env.sample.cfg [mailTo (str "x"), mailTo (str "y")] mailStore) = some y → Ended y →
      Serialised (str "a") (mailStore.db.contentOf (str "a")) y) ∧
    ¬ Along (topicTurn Sqs.Env.sample.cfg (.counting 20)) (fun i x => ¬ WritesDeleted (str "a") i x)
      [0, 0, 0, 1, 1, 0] (startTasks Sqs.Env.sample.cfg [mailTo (str "x"), dropMail] mailStore) := by
  refine ⟨fun h => ?_, by decide +kernel⟩
  have hrun : crossedRun = some crossedEnd := (Option.some_get crossedRun_isSome).symm
  exact crossedEnd_not_serialised (h crossedEnd hrun (by decide +kernel))

end AwsMock.Sns
