import AwsMock.Sqs.Requests

/-!
# Reading queue attributes back

`CreateQueue`, `SetQueueAttributes` and `GetQueueAttributes` each have a table of attribute names. The values
that come back are those that were given where the tables agree and the value is written as it is read.
-/

namespace AwsMock.Sqs

open Lib

/-- The supported attributes. -/
inductive Attribute where
  | delaySeconds
  | maximumMessageSize
  | messageRetentionPeriod
  | visibilityTimeout
  | policy
  | redrivePolicy
  | receiveMessageWaitTimeSeconds
  deriving DecidableEq

def Attribute.name : Attribute → Str
  | delaySeconds => str "DelaySeconds"
  | maximumMessageSize => str "MaximumMessageSize"
  | messageRetentionPeriod => str "MessageRetentionPeriod"
  | visibilityTimeout => str "VisibilityTimeout"
  | policy => str "Policy"
  | redrivePolicy => str "RedrivePolicy"
  | receiveMessageWaitTimeSeconds => str "ReceiveMessageWaitTimeSeconds"

/-- The value of an attribute as it is reported. -/
def Attribute.value (poco : Poco) (a : QueueAttribute) : Attribute → Str
  | delaySeconds => toStr a.delaySeconds
  | maximumMessageSize => toStr a.maxMessageSize
  | messageRetentionPeriod => toStr a.messageRetentionPeriod
  | visibilityTimeout => toStr a.visibilityTimeout
  | policy => a.policy
  | redrivePolicy => redrivePolicyToJson poco a.redrivePolicy
  | receiveMessageWaitTimeSeconds => toStr a.receiveMessageWaitTime

/-- How the attributes are asked for. -/
inductive Reader where
  | all
  | named
  deriving DecidableEq

def Reader.names (reader : Reader) (n : Attribute) : List Str :=
  match reader with
  | all => [str "All"]
  | named => [n.name]

/-- What `GetQueueAttributes` reports for an attribute. -/
def reported (env : Env) (rt : Runtime) (region queueUrl : Str) (reader : Reader) (w : World) (n : Attribute) :
    Option (Option Str) :=
  match (getQueueAttributes env { region := region, queueUrl := queueUrl, attributeNames := reader.names n }).run
      (exec env.cfg rt) w with
  | some (.ok response, _) => some (response.attributes.lookup n.name)
  | _ => none

/-- A map of supported attributes, in any order. -/
structure Supported (attributes : List DtoQueueAttribute) : Prop where
  nodup : (attributes.map DtoQueueAttribute.attributeName).Nodup
  names : ∀ e ∈ attributes, ∃ n : Attribute, e.attributeName = n.name

/-- The value given for an attribute. -/
def SetQueueAttributesRequest.given (request : SetQueueAttributesRequest) (n : Attribute) : Option Str :=
  request.attributes.get? n.name

def valueOf (attributes : List DtoQueueAttribute) (n : Attribute) : Option Str :=
  (attributes.map fun a => (a.attributeName, a.attributeValue)).lookup n.name

/-- After `SetQueueAttributes` the given values are reported, and the ones before for the other names; a request
    that is rejected changes none. -/
def SetReadsBack (env : Env) (rt : Runtime) (w : World) (request : SetQueueAttributesRequest) (reader : Reader) : Prop :=
  ∃ r w', (setQueueAttributes env request).run (exec env.cfg rt) w = some (r, w') ∧ match r with
    | .ok _ => ∀ n : Attribute, reported env rt request.region request.queueUrl reader w' n =
      ((request.given n).map some).or (reported env rt request.region request.queueUrl reader w n)
    | .error _ => ∀ n : Attribute, reported env rt request.region request.queueUrl reader w' n =
      reported env rt request.region request.queueUrl reader w n

/-- What is reported of a queue. -/
def Reader.answer (reader : Reader) (poco : Poco) (a : QueueAttribute) (n : Attribute) : Option Str :=
  if reader = .all ∧ n = .redrivePolicy then none else some (n.value poco a)

/-- After `CreateQueue` the given values are reported, and the defaults for the other names; a request that is
    rejected leaves the store as it is. -/
def CreateReadsBack (env : Env) (rt : Runtime) (w : World) (request : CreateQueueRequest) (reader : Reader) : Prop :=
  ∃ r w', (createQueue env request).run (exec env.cfg rt) w = some (r, w') ∧ match r with
    | .ok _ => ∀ n : Attribute,
      reported env rt request.region (createSQSQueueUrl env.cfg request.queueName) reader w' n =
        ((valueOf request.attributes n).map some).or (some (reader.answer env.poco {} n))
    | .error _ => w'.db = w.db

/-! ### When values come back -/

/-- A number is reported as it was written. -/
def Canonical (v : Str) : Prop := ∀ k, stoi v = .ok k → toStr k = v

/-- A policy is reported as it was written. -/
def CanonicalPolicy (poco : Poco) (policy : RedrivePolicy) (v : Str) : Prop :=
  ∀ p, redrivePolicyFromJson poco v policy = .ok p → redrivePolicyToJson poco p = v

/-- `SetQueueAttributes` rejects the value. -/
def SetRejects (poco : Poco) (a : QueueAttribute) (v : Str) : Attribute → Prop
  | .messageRetentionPeriod | .visibilityTimeout => v ≠ [] ∧ ∀ k, stoi v ≠ .ok k
  | .redrivePolicy => v ≠ [] ∧ ∀ p, redrivePolicyFromJson poco v a.redrivePolicy ≠ .ok p
  | _ => False

/-- `SetQueueAttributes` sets the value as it is written, or the attribute has it already. -/
def SetKeeps (poco : Poco) (a : QueueAttribute) (v : Str) : Attribute → Prop
  | .messageRetentionPeriod | .visibilityTimeout => v ≠ [] ∧ Canonical v
  | .policy => v = [] → a.policy = []
  | .redrivePolicy => if v = [] then redrivePolicyToJson poco a.redrivePolicy = [] else CanonicalPolicy poco a.redrivePolicy v
  | n => v = n.value poco a

/-- `CreateQueue` rejects the value. -/
def CreateRejects (poco : Poco) (a : QueueAttribute) (v : Str) : Attribute → Prop
  | .delaySeconds | .messageRetentionPeriod | .visibilityTimeout => ∀ k, stoi v ≠ .ok k
  | .redrivePolicy => ∀ p, redrivePolicyFromJson poco v a.redrivePolicy ≠ .ok p
  | _ => False

/-- `CreateQueue` sets the value as it is written, or the attribute has it already. -/
def CreateKeeps (poco : Poco) (a : QueueAttribute) (v : Str) : Attribute → Prop
  | .delaySeconds | .messageRetentionPeriod | .visibilityTimeout => Canonical v
  | .policy => True
  | .redrivePolicy => CanonicalPolicy poco a.redrivePolicy v
  | n => v = n.value poco a

/-- The queue that `GetQueueByUrl` finds. -/
def SqsMemoryDb.firstByUrl (db : SqsMemoryDb) (queueUrl : Str) : Option (Str × Queue) :=
  db.queues.findIf fun _ queue => queue.queueUrl = queueUrl

/-- A queue with this URL that stands before the key: one of the same name in another region. -/
def SqsMemoryDb.earlier (db : SqsMemoryDb) (queueUrl key : Str) : Option Queue :=
  (db.firstByUrl queueUrl).bind fun e => if e.1 < key then some e.2 else none

variable {env : Env} {rt : Runtime} {w : World} {region queueUrl : Str} {reader : Reader} {n : Attribute}

/-! ### Reading -/

theorem lookup_named (poco : Poco) (queue : Queue) (n : Attribute) :
    ((namedQueueAttributes poco queue).filter fun a => checkAttribute [n.name] a.1).lookup n.name =
      some (n.value poco queue.attributes) := by
  cases n <;> rfl

theorem lookup_all (poco : Poco) (queue : Queue) (n : Attribute) :
    (allQueueAttributes queue).lookup n.name = Reader.all.answer poco queue.attributes n := by
  cases n <;> rfl

theorem not_all (n : Attribute) : checkAttribute [n.name] (str "all") = false := by
  cases n <;> rfl

theorem reported_eq {e : Str × Queue} (hexists : w.db.queueUrlExists region queueUrl = true)
    (hfound : w.db.firstByUrl queueUrl = some e) :
    reported env rt region queueUrl reader w n = some (reader.answer env.poco e.2.attributes n) := by
  have hget : ∀ now, (w.db.getQueueByUrl queueUrl now).1 = { e.2 with oid := e.1 } := by
    intro now
    rw [SqsMemoryDb.getQueueByUrl, ← SqsMemoryDb.firstByUrl, hfound]
    rfl
  unfold reported
  simp only [getQueueAttributes, Prog.run_perform_bind, exec, SqsCall.apply, Option.map_some, Option.bind_some, hexists,
    if_true, hget]
  cases reader with
  | all =>
    rw [Reader.names, if_pos (by decide)]
    exact congrArg some (lookup_all env.poco _ n)
  | named =>
    rw [Reader.names, if_neg (by rw [not_all]; decide)]
    exact congrArg some (lookup_named env.poco _ n)

/-! ### Setting -/

theorem toStr_ne_nil (n : Int) : toStr n ≠ [] := by
  rcases n with m | m
  · exact toStr_ne m
  · rw [toStr_negSucc]
    exact List.cons_ne_nil _ _

/-- Writing back a record of a queue keeps the queue found under its URL. -/
theorem queueUrlExists_insert {db : SqsMemoryDb} {k : Str} {q q' : Queue} (hq : db.queues.get? k = some q)
    (hsame : q.region = region → q.queueUrl = queueUrl → q'.region = region ∧ q'.queueUrl = queueUrl)
    (h : db.queueUrlExists region queueUrl = true) :
    SqsMemoryDb.queueUrlExists { db with queues := db.queues.insert k q' } region queueUrl = true := by
  obtain ⟨j, x, hget, hp⟩ := OrderedMap.findIf_isSome.mp h
  obtain ⟨hregion, hurl⟩ := of_decide_eq_true hp
  by_cases hj : j = k
  · subst hj
    obtain rfl : q = x := Option.some.inj (hq.symm.trans hget)
    exact OrderedMap.findIf_isSome.mpr ⟨j, q', by simp, decide_eq_true (hsame hregion hurl)⟩
  · exact OrderedMap.findIf_isSome.mpr ⟨j, x, by rw [OrderedMap.get?_insert_of_ne _ _ hj]; exact hget, hp⟩

/-- What `SetQueueAttributes` makes of a queue. -/
structure Assigned (poco : Poco) (given : String → Str) (q q' : Queue) : Prop where
  region : q'.region = q.region
  name : q'.name = q.name
  queueUrl : q'.queueUrl = q.queueUrl
  delaySeconds : q'.attributes.delaySeconds = q.attributes.delaySeconds
  maxMessageSize : q'.attributes.maxMessageSize = q.attributes.maxMessageSize
  receiveMessageWaitTime : q'.attributes.receiveMessageWaitTime = q.attributes.receiveMessageWaitTime
  policy : q'.attributes.policy = if given "Policy" ≠ [] then given "Policy" else q.attributes.policy
  redrivePolicy : ifGiven (given "RedrivePolicy") (fun body => redrivePolicyFromJson poco body q.attributes.redrivePolicy)
    q.attributes.redrivePolicy = .ok q'.attributes.redrivePolicy
  messageRetentionPeriod : ifGiven (given "MessageRetentionPeriod") stoi q.attributes.messageRetentionPeriod =
    .ok q'.attributes.messageRetentionPeriod
  visibilityTimeout : ifGiven (given "VisibilityTimeout") stoi q.attributes.visibilityTimeout =
    .ok q'.attributes.visibilityTimeout

variable {request : SetQueueAttributesRequest} {q q' : Queue} {poco : Poco}

theorem ifGiven_ok (value field : Str) :
    (ifGiven value .ok field : Except Error Str) = .ok (if value ≠ [] then value else field) := by
  unfold ifGiven
  split <;> rfl

theorem withAttributes_assigned (h : withAttributes poco request q = .ok q') : Assigned poco (attributeOf request) q q' := by
  unfold withAttributes at h
  obtain ⟨policy, hpolicy, h⟩ := except_bind_eq_ok.mp h
  obtain ⟨redrivePolicy, hredrivePolicy, h⟩ := except_bind_eq_ok.mp h
  obtain ⟨redriveAllowPolicy, -, h⟩ := except_bind_eq_ok.mp h
  obtain ⟨messageRetentionPeriod, hretention, h⟩ := except_bind_eq_ok.mp h
  obtain ⟨visibilityTimeout, hvisibility, h⟩ := except_bind_eq_ok.mp h
  obtain ⟨queueArn, -, h⟩ := except_bind_eq_ok.mp h
  rw [ifGiven_ok, Except.ok.injEq] at hpolicy
  cases h
  exact ⟨rfl, rfl, rfl, rfl, rfl, rfl, hpolicy.symm, hredrivePolicy, hretention, hvisibility⟩

/-- A request is rejected for one of the values that are parsed. -/
theorem withAttributes_rejects (h : ∀ q', withAttributes poco request q ≠ .ok q') :
    (∀ p, ifGiven (attributeOf request "RedrivePolicy")
      (fun body => redrivePolicyFromJson poco body q.attributes.redrivePolicy) q.attributes.redrivePolicy ≠ .ok p) ∨
    (∀ k, ifGiven (attributeOf request "MessageRetentionPeriod") stoi q.attributes.messageRetentionPeriod ≠ .ok k) ∨
    ∀ k, ifGiven (attributeOf request "VisibilityTimeout") stoi q.attributes.visibilityTimeout ≠ .ok k := by
  by_contra hnot
  simp only [not_or, not_forall, not_not] at hnot
  obtain ⟨⟨p, hp⟩, ⟨k, hk⟩, ⟨l, hl⟩⟩ := hnot
  unfold withAttributes at h
  simp only [ifGiven_ok, hp, hk, hl] at h
  exact h _ rfl

theorem attributeOf_given {n : Attribute} {name : String} (hname : n.name = str name) :
    attributeOf request name = (request.given n).getD [] := by
  rw [attributeOf, SetQueueAttributesRequest.given, hname]

/-- A parsed value is reported as it was given. -/
theorem ifGiven_stoi {v : Str} {old new : Int} (h : ifGiven v stoi old = .ok new) :
    toStr new = v ↔ v ≠ [] ∧ Canonical v := by
  unfold ifGiven at h
  split at h
  · next hne =>
    refine ⟨fun heq => ⟨hne, fun k hk => ?_⟩, fun hc => hc.2 new h⟩
    obtain rfl := Except.ok.inj (h.symm.trans hk)
    exact heq
  · next hnil => exact ⟨fun heq => absurd (heq ▸ not_not.mp hnil) (toStr_ne_nil new), fun hc => absurd hc.1 hnil⟩

/-- The values that `SetQueueAttributes` sets as they are written. -/
theorem Assigned.value_iff (h : Assigned poco (attributeOf request) q q') {v : Str} (hv : request.given n = some v) :
    n.value poco q'.attributes = v ↔ SetKeeps poco q.attributes v n := by
  have hgiven : ∀ {name : String}, n.name = str name → attributeOf request name = v := fun hname => by
    rw [attributeOf_given hname, hv, Option.getD_some]
  cases n with
  | delaySeconds => rw [Attribute.value, h.delaySeconds, eq_comm]; rfl
  | maximumMessageSize => rw [Attribute.value, h.maxMessageSize, eq_comm]; rfl
  | receiveMessageWaitTimeSeconds => rw [Attribute.value, h.receiveMessageWaitTime, eq_comm]; rfl
  | messageRetentionPeriod =>
    have hread := h.messageRetentionPeriod
    rw [hgiven rfl] at hread
    exact ifGiven_stoi hread
  | visibilityTimeout =>
    have hread := h.visibilityTimeout
    rw [hgiven rfl] at hread
    exact ifGiven_stoi hread
  | policy =>
    rw [Attribute.value, h.policy, hgiven rfl, SetKeeps]
    split
    · next hne => simp [hne]
    · next hnil => simp [not_not.mp hnil]
  | redrivePolicy =>
    have hread := h.redrivePolicy
    rw [hgiven rfl, ifGiven] at hread
    rw [Attribute.value, SetKeeps]
    split at hread
    · next hne =>
      rw [if_neg hne]
      refine ⟨fun heq p hp => ?_, fun hc => hc _ hread⟩
      obtain rfl := Except.ok.inj (hread.symm.trans hp)
      exact heq
    · next hnil =>
      rw [if_pos (not_not.mp hnil), not_not.mp hnil, ← Except.ok.inj hread]

/-- The other values stay. -/
theorem Assigned.value_same (h : Assigned poco (attributeOf request) q q') (hv : request.given n = none) :
    n.value poco q'.attributes = n.value poco q.attributes := by
  have hgiven : ∀ {name : String}, n.name = str name → attributeOf request name = [] := fun hname => by
    rw [attributeOf_given hname, hv, Option.getD_none]
  cases n with
  | delaySeconds => rw [Attribute.value, h.delaySeconds]; rfl
  | maximumMessageSize => rw [Attribute.value, h.maxMessageSize]; rfl
  | receiveMessageWaitTimeSeconds => rw [Attribute.value, h.receiveMessageWaitTime]; rfl
  | messageRetentionPeriod =>
    have hread := h.messageRetentionPeriod
    rw [hgiven rfl] at hread
    exact congrArg toStr (Except.ok.inj hread).symm
  | visibilityTimeout =>
    have hread := h.visibilityTimeout
    rw [hgiven rfl] at hread
    exact congrArg toStr (Except.ok.inj hread).symm
  | policy =>
    rw [Attribute.value, h.policy, hgiven rfl]
    rfl
  | redrivePolicy =>
    have hread := h.redrivePolicy
    rw [hgiven rfl] at hread
    exact congrArg (redrivePolicyToJson poco) (Except.ok.inj hread).symm

/-- The request is rejected exactly when one of its values is. -/
theorem withAttributes_error_iff : (∀ q', withAttributes poco request q ≠ .ok q') ↔
    ∃ n v, request.given n = some v ∧ SetRejects poco q.attributes v n := by
  constructor
  · intro h
    have hgiven : ∀ {name : String} {n : Attribute}, n.name = str name → attributeOf request name ≠ [] →
        request.given n = some (attributeOf request name) := by
      intro name n hname hne
      rw [attributeOf_given hname] at hne ⊢
      cases hv : request.given n with
      | none => rw [hv] at hne; exact absurd rfl hne
      | some v => rfl
    obtain hno | hno | hno := withAttributes_rejects h
    · rw [ifGiven] at hno
      split at hno
      · next hne => exact ⟨.redrivePolicy, _, hgiven rfl hne, hne, hno⟩
      · exact absurd rfl (hno _)
    · rw [ifGiven] at hno
      split at hno
      · next hne => exact ⟨.messageRetentionPeriod, _, hgiven rfl hne, hne, hno⟩
      · exact absurd rfl (hno _)
    · rw [ifGiven] at hno
      split at hno
      · next hne => exact ⟨.visibilityTimeout, _, hgiven rfl hne, hne, hno⟩
      · exact absurd rfl (hno _)
  · rintro ⟨n, v, hv, hrejects⟩ q' hok
    have hassigned := withAttributes_assigned hok
    have hgiven : ∀ {name : String}, n.name = str name → attributeOf request name = v := fun hname => by
      rw [attributeOf_given hname, hv, Option.getD_some]
    cases n with
    | redrivePolicy =>
      have hread := hassigned.redrivePolicy
      rw [hgiven rfl, ifGiven, if_pos hrejects.1] at hread
      exact hrejects.2 _ hread
    | messageRetentionPeriod =>
      have hread := hassigned.messageRetentionPeriod
      rw [hgiven rfl, ifGiven, if_pos hrejects.1] at hread
      exact hrejects.2 _ hread
    | visibilityTimeout =>
      have hread := hassigned.visibilityTimeout
      rw [hgiven rfl, ifGiven, if_pos hrejects.1] at hread
      exact hrejects.2 _ hread
    | delaySeconds | maximumMessageSize | policy | receiveMessageWaitTimeSeconds => exact hrejects

/-- A lookup leaves the queue it found the first one with its URL. -/
theorem getQueueByUrl_found {db : SqsMemoryDb} {e : Str × Queue} (hfound : db.firstByUrl queueUrl = some e)
    (hexists : db.queueUrlExists region queueUrl = true) (now : TimePoint) :
    ∃ db', db.getQueueByUrl queueUrl now = ({ e.2 with oid := e.1 }, db') ∧
      db'.queueUrlExists region queueUrl = true ∧ db'.firstByUrl queueUrl = some (e.1, { e.2 with oid := e.1 }) := by
  obtain ⟨hget, hp⟩ := OrderedMap.findIf_some hfound
  refine ⟨{ db with queues := db.queues.insert e.1 { e.2 with oid := e.1 } }, ?_, ?_, ?_⟩
  · rw [SqsMemoryDb.getQueueByUrl, ← SqsMemoryDb.firstByUrl, hfound]
    rfl
  · exact queueUrlExists_insert hget (fun hregion hurl => ⟨hregion, hurl⟩) hexists
  · exact OrderedMap.findIf_insert_front hp fun k' v' hget' hp' => OrderedMap.findIf_le hfound hget' hp'

/-- A queue written back under its name is the first one with its URL. -/
theorem updateQueue_found {db : SqsMemoryDb} {k : Str} (hfound : db.firstByUrl queueUrl = some (k, q))
    (hexists : db.queueUrlExists region queueUrl = true) (hregion : q'.region = q.region) (hname : q'.name = q.name)
    (hurl : q'.queueUrl = q.queueUrl) : ∃ db', db.updateQueue q' = some (q', db') ∧
      db'.queueUrlExists region queueUrl = true ∧ ∃ k', db'.firstByUrl queueUrl = some (k', q') := by
  obtain ⟨hget, hp⟩ := OrderedMap.findIf_some hfound
  have hq : q.queueUrl = queueUrl := of_decide_eq_true hp
  unfold SqsMemoryDb.updateQueue
  cases hit : db.queues.findIf fun _ x => x.region = q'.region ∧ x.name = q'.name with
  | none =>
    have hno := OrderedMap.findIf_none.mp hit k q hget
    simp [hregion, hname] at hno
  | some it =>
    obtain ⟨hget', hp'⟩ := OrderedMap.findIf_some hit
    have hle : it.1 ≤ k := OrderedMap.findIf_le hit hget (by simp [hregion, hname])
    refine ⟨_, rfl, ?_, it.1, OrderedMap.findIf_insert_front (decide_eq_true (hurl.trans hq))
      fun k' v' hget' hp' => hle.trans (OrderedMap.findIf_le hfound hget' hp')⟩
    exact queueUrlExists_insert hget' (fun hr _ => ⟨(of_decide_eq_true hp').1.symm.trans hr, hurl.trans hq⟩) hexists

theorem setQueueAttributes_run {e : Str × Queue} (hexists : w.db.queueUrlExists request.region request.queueUrl = true)
    (hfound : w.db.firstByUrl request.queueUrl = some e) :
    ∃ db', db'.queueUrlExists request.region request.queueUrl = true ∧ ∃ e', db'.firstByUrl request.queueUrl = some e' ∧
      match withAttributes env.poco request { e.2 with oid := e.1 } with
      | .ok q' => e'.2 = q' ∧ ∃ response, (setQueueAttributes env request).run (exec env.cfg rt) w =
          some (.ok response, ⟨db', w.calls + 3⟩)
      | .error error => e'.2 = { e.2 with oid := e.1 } ∧ (setQueueAttributes env request).run (exec env.cfg rt) w =
          some (.error error.toServiceException, ⟨db', w.calls + 2⟩) := by
  obtain ⟨db₁, hget, hexists₁, hfound₁⟩ := getQueueByUrl_found hfound hexists (rt.now (w.calls + 1))
  have hstart : (setQueueAttributes env request).run (exec env.cfg rt) w = ((do
      let queue ← .ofExcept (withAttributes env.poco request { e.2 with oid := e.1 })
      let _ ← call (.updateQueue queue)
      return { resource := str "sqs", requestId := request.requestId } : SqsProg SetQueueAttributesResponse).mapThrow
        Error.toServiceException).run (exec env.cfg rt) ⟨db₁, w.calls + 2⟩ := by
    rw [setQueueAttributes, Prog.run_perform_bind]
    simp only [exec, SqsCall.apply, Option.map_some, Option.bind_some, hexists, if_true, guarded, Prog.run_mapThrow,
      Prog.run_perform_bind, hget]
  rw [hstart, Prog.run_mapThrow]
  cases hw : withAttributes env.poco request { e.2 with oid := e.1 } with
  | error error => exact ⟨db₁, hexists₁, _, hfound₁, rfl, rfl⟩
  | ok q' =>
    have hassigned := withAttributes_assigned hw
    obtain ⟨db₂, hupdate, hexists₂, k', hfound₂⟩ := updateQueue_found hfound₁ hexists₁ hassigned.region hassigned.name
      hassigned.queueUrl
    refine ⟨db₂, hexists₂, _, hfound₂, rfl, ⟨str "sqs", request.requestId⟩, ?_⟩
    rw [Prog.ofExcept_ok_bind, Prog.run_perform_bind]
    simp only [exec, SqsCall.apply, hupdate, Option.map_some, Option.bind_some]
    rfl

theorem answer_eq_some {a : QueueAttribute} {v : Str} :
    reader.answer poco a n = some v ↔ ¬ (reader = .all ∧ n = .redrivePolicy) ∧ n.value poco a = v := by
  unfold Reader.answer
  split
  · next h => simp [h]
  · next h => simp [h]

/-- `SetQueueAttributes` is read back exactly when a value is rejected, or every value is kept and can be read. -/
theorem setReadsBack_iff {k : Str} (hexists : w.db.queueUrlExists request.region request.queueUrl = true)
    (hfound : w.db.firstByUrl request.queueUrl = some (k, q)) : SetReadsBack env rt w request reader ↔
      (∃ n v, request.given n = some v ∧ SetRejects env.poco q.attributes v n) ∨
      ∀ n v, request.given n = some v → SetKeeps env.poco q.attributes v n ∧ ¬ (reader = .all ∧ n = .redrivePolicy) := by
  obtain ⟨db', hexists', e', hfound', hrun⟩ := @setQueueAttributes_run env rt w request (k, q) hexists hfound
  have hrejects : (∀ q', withAttributes env.poco request { q with oid := k } ≠ .ok q') ↔ _ := withAttributes_error_iff
  cases hw : withAttributes env.poco request { q with oid := k } with
  | error error =>
    rw [hw] at hrun hrejects
    obtain ⟨hsame, hrun⟩ := hrun
    have hrejected : ∃ n v, request.given n = some v ∧ SetRejects env.poco q.attributes v n := hrejects.mp fun _ => nofun
    refine iff_of_true ⟨.error error.toServiceException, _, hrun, fun n => ?_⟩ (.inl hrejected)
    rw [reported_eq hexists hfound, reported_eq hexists' hfound', hsame]
  | ok q' =>
    rw [hw] at hrun hrejects
    obtain ⟨rfl, response, hrun⟩ := hrun
    have hassigned := withAttributes_assigned hw
    have hnone : ¬ ∃ n v, request.given n = some v ∧ SetRejects env.poco q.attributes v n := fun h => hrejects.mpr h _ rfl
    rw [or_iff_right hnone]
    have hreads : SetReadsBack env rt w request reader ↔ ∀ n, some (reader.answer env.poco e'.2.attributes n) =
        ((request.given n).map some).or (some (reader.answer env.poco q.attributes n)) := by
      constructor
      · rintro ⟨r, w', hrun', hall⟩ n
        cases hrun.symm.trans hrun'
        have hn := hall n
        rw [reported_eq hexists' hfound', reported_eq hexists hfound] at hn
        exact hn
      · intro hall
        refine ⟨_, _, hrun, fun n => ?_⟩
        rw [reported_eq hexists' hfound', reported_eq hexists hfound]
        exact hall n
    rw [hreads]
    refine forall_congr' fun n => ?_
    cases hv : request.given n with
    | none =>
      refine iff_of_true (congrArg some ?_) nofun
      rw [Reader.answer, Reader.answer, hassigned.value_same hv]
    | some v =>
      simp only [Option.map_some, Option.some_or, Option.some.injEq, forall_eq']
      rw [answer_eq_some, hassigned.value_iff hv, and_comm]

/-! ### Creating -/

/-- The attribute has the same content. -/
def Attribute.Agree (a a' : QueueAttribute) : Attribute → Prop
  | delaySeconds => a'.delaySeconds = a.delaySeconds
  | maximumMessageSize => a'.maxMessageSize = a.maxMessageSize
  | messageRetentionPeriod => a'.messageRetentionPeriod = a.messageRetentionPeriod
  | visibilityTimeout => a'.visibilityTimeout = a.visibilityTimeout
  | policy => a'.policy = a.policy
  | redrivePolicy => a'.redrivePolicy = a.redrivePolicy
  | receiveMessageWaitTimeSeconds => a'.receiveMessageWaitTime = a.receiveMessageWaitTime

variable {a a' a'' : QueueAttribute} {v : Str}

theorem Attribute.Agree.trans (h : n.Agree a a') (h' : n.Agree a' a'') : n.Agree a a'' := by
  cases n <;> exact Eq.trans h' h

theorem Attribute.Agree.value (h : n.Agree a a') : n.value poco a' = n.value poco a := by
  cases n <;> rw [Attribute.value, Attribute.value, h]

theorem Attribute.Agree.keeps (h : n.Agree a a') : CreateKeeps poco a' v n ↔ CreateKeeps poco a v n := by
  cases n with
  | maximumMessageSize | receiveMessageWaitTimeSeconds => exact iff_of_eq (congrArg (v = ·) h.value)
  | redrivePolicy => rw [CreateKeeps, h]; rfl
  | _ => rfl

theorem Attribute.Agree.rejects (h : n.Agree a a') : CreateRejects poco a' v n ↔ CreateRejects poco a v n := by
  cases n with
  | redrivePolicy => rw [CreateRejects, h]; rfl
  | _ => rfl

theorem Attribute.name_injective : Function.Injective Attribute.name := by
  intro n n' h
  cases n <;> cases n' <;> first | rfl | exact absurd h (by decide)

/-- What the table of `CreateQueue` does for the supported names. -/
def Attribute.assign (poco : Poco) (a : QueueAttribute) (v : Str) : Attribute → Except Error QueueAttribute
  | delaySeconds => (stoi v).map fun k => { a with delaySeconds := k }
  | messageRetentionPeriod => (stoi v).map fun k => { a with messageRetentionPeriod := k }
  | visibilityTimeout => (stoi v).map fun k => { a with visibilityTimeout := k }
  | policy => .ok { a with policy := v }
  | redrivePolicy => (redrivePolicyFromJson poco v a.redrivePolicy).map fun p => { a with redrivePolicy := p }
  | maximumMessageSize | receiveMessageWaitTimeSeconds => .ok a

theorem createQueueAttribute_name (n : Attribute) : createQueueAttribute poco a ⟨n.name, v⟩ = n.assign poco a v := by
  cases n <;> rfl

theorem except_map_eq_ok {E α β : Type} {x : Except E α} {f : α → β} {b : β} :
    x.map f = .ok b ↔ ∃ y, x = .ok y ∧ f y = b := by
  cases x with
  | error e => simp [Except.map]
  | ok y => simp [Except.map]

/-- An assigned value is reported as it was given if it is kept. -/
theorem assign_value (h : n.assign poco a v = .ok a') : n.value poco a' = v ↔ CreateKeeps poco a v n := by
  have hnumber : ∀ {k : Int}, stoi v = .ok k → (toStr k = v ↔ Canonical v) := fun {k} hk =>
    ⟨fun heq l hl => by rw [← Except.ok.inj (hk.symm.trans hl)]; exact heq, fun hc => hc k hk⟩
  cases n with
  | delaySeconds | messageRetentionPeriod | visibilityTimeout =>
    obtain ⟨k, hk, rfl⟩ := except_map_eq_ok.mp h
    exact hnumber hk
  | policy =>
    cases h
    exact iff_of_true rfl trivial
  | redrivePolicy =>
    obtain ⟨p, hp, rfl⟩ := except_map_eq_ok.mp h
    exact ⟨fun heq p' hp' => by rw [← Except.ok.inj (hp.symm.trans hp')]; exact heq, fun hc => hc p hp⟩
  | maximumMessageSize | receiveMessageWaitTimeSeconds =>
    cases h
    exact eq_comm

/-- The other attributes stay. -/
theorem assign_agree {n' : Attribute} (h : n.assign poco a v = .ok a') (hne : n' ≠ n) : n'.Agree a a' := by
  cases n with
  | delaySeconds | messageRetentionPeriod | visibilityTimeout =>
    obtain ⟨k, -, rfl⟩ := except_map_eq_ok.mp h
    cases n' <;> first | rfl | exact absurd rfl hne
  | redrivePolicy =>
    obtain ⟨p, -, rfl⟩ := except_map_eq_ok.mp h
    cases n' <;> first | rfl | exact absurd rfl hne
  | policy =>
    cases h
    cases n' <;> first | rfl | exact absurd rfl hne
  | maximumMessageSize | receiveMessageWaitTimeSeconds =>
    cases h
    cases n' <;> rfl

theorem assign_rejects : (∀ a', n.assign poco a v ≠ .ok a') ↔ CreateRejects poco a v n := by
  cases n with
  | delaySeconds | messageRetentionPeriod | visibilityTimeout =>
    simp only [Attribute.assign, CreateRejects, Ne, except_map_eq_ok, not_exists, not_and]
    exact ⟨fun h k hk => h _ k hk rfl, fun h _ k hk => absurd hk (h k)⟩
  | redrivePolicy =>
    simp only [Attribute.assign, CreateRejects, Ne, except_map_eq_ok, not_exists, not_and]
    exact ⟨fun h p hp => h _ p hp rfl, fun h _ p hp => absurd hp (h p)⟩
  | policy | maximumMessageSize | receiveMessageWaitTimeSeconds =>
    exact iff_of_false (fun h => h _ rfl) id

variable {es : List DtoQueueAttribute} {n₀ : Attribute}

theorem valueOf_cons_self : valueOf (⟨n.name, v⟩ :: es) n = some v := by
  simp [valueOf]

theorem valueOf_cons_of_ne (hne : n ≠ n₀) : valueOf (⟨n₀.name, v⟩ :: es) n = valueOf es n := by
  have hname : (n.name == n₀.name) = false := by simpa using fun h => hne (Attribute.name_injective h)
  simp [valueOf, List.lookup_cons, hname]

/-- The first attribute of a map and the rest. -/
theorem Supported.cons {e : DtoQueueAttribute} (h : Supported (e :: es)) :
    ∃ n v, e = ⟨n.name, v⟩ ∧ valueOf es n = none ∧ Supported es := by
  obtain ⟨n, hn⟩ := h.names e List.mem_cons_self
  obtain ⟨hnot, hnodup⟩ := List.nodup_cons.mp h.nodup
  refine ⟨n, e.attributeValue, ?_, ?_, hnodup, fun x hx => h.names x (List.mem_cons_of_mem _ hx)⟩
  · rw [← hn]
  · rw [valueOf, List.lookup_eq_none_iff]
    intro x hx
    obtain ⟨y, hy, rfl⟩ := List.mem_map.mp hx
    refine bne_iff_ne.mpr fun heq => hnot ?_
    rw [hn, heq]
    exact List.mem_map_of_mem hy

/-- What the loop over the attributes leaves. -/
theorem create_fold : ∀ {es : List DtoQueueAttribute} {a a' : QueueAttribute}, Supported es →
    es.foldlM (createQueueAttribute poco) a = .ok a' → ∀ n, (valueOf es n = none → n.Agree a a') ∧
      ∀ v, valueOf es n = some v → (n.value poco a' = v ↔ CreateKeeps poco a v n)
  | [], a, a', _, h, n => by
    cases h
    exact ⟨fun _ => by cases n <;> rfl, nofun⟩
  | e :: es, a, a', hes, h, n => by
    obtain ⟨n₀, v₀, rfl, hnone, hrest⟩ := hes.cons
    rw [List.foldlM_cons] at h
    obtain ⟨a₁, hassign, h⟩ := except_bind_eq_ok.mp h
    rw [createQueueAttribute_name] at hassign
    have ih := create_fold hrest h n
    by_cases hn : n = n₀
    · subst hn
      rw [valueOf_cons_self]
      refine ⟨nofun, fun v hv => ?_⟩
      cases hv
      rw [(ih.1 hnone).value, assign_value hassign]
    · rw [valueOf_cons_of_ne hn]
      have hagree := assign_agree hassign hn
      exact ⟨fun hv => hagree.trans (ih.1 hv), fun v hv => (ih.2 v hv).trans hagree.keeps⟩

/-- The loop ends early exactly when a value is rejected. -/
theorem create_fold_rejects : ∀ {es : List DtoQueueAttribute} {a : QueueAttribute}, Supported es →
    ((∀ a', es.foldlM (createQueueAttribute poco) a ≠ .ok a') ↔
      ∃ n v, valueOf es n = some v ∧ CreateRejects poco a v n)
  | [], a, _ => by
    refine iff_of_false (fun h => h a rfl) ?_
    rintro ⟨n, v, hv, -⟩
    cases hv
  | e :: es, a, hes => by
    obtain ⟨n₀, v₀, rfl, hnone, hrest⟩ := hes.cons
    by_cases hreject : CreateRejects poco a v₀ n₀
    · refine iff_of_true (fun a' h => ?_) ⟨n₀, v₀, valueOf_cons_self, hreject⟩
      rw [List.foldlM_cons, createQueueAttribute_name] at h
      obtain ⟨a₁, hassign, -⟩ := except_bind_eq_ok.mp h
      exact assign_rejects.mpr hreject a₁ hassign
    · obtain ⟨a₁, hassign⟩ : ∃ a₁, n₀.assign poco a v₀ = .ok a₁ := by
        by_contra hno
        exact hreject (assign_rejects.mp (not_exists.mp hno))
      have hfold : List.foldlM (createQueueAttribute poco) a (⟨n₀.name, v₀⟩ :: es) =
          es.foldlM (createQueueAttribute poco) a₁ := by
        rw [List.foldlM_cons, createQueueAttribute_name, hassign]
        rfl
      rw [hfold, create_fold_rejects hrest]
      constructor
      · rintro ⟨n, v, hv, hr⟩
        have hn : n ≠ n₀ := by rintro rfl; rw [hnone] at hv; cases hv
        exact ⟨n, v, (valueOf_cons_of_ne hn).trans hv, (assign_agree hassign hn).rejects.mp hr⟩
      · rintro ⟨n, v, hv, hr⟩
        by_cases hn : n = n₀
        · subst hn
          rw [valueOf_cons_self] at hv
          cases hv
          exact absurd hr hreject
        · exact ⟨n, v, (valueOf_cons_of_ne hn).symm.trans hv, (assign_agree hassign hn).rejects.mpr hr⟩

/-- A new queue is the first one with its URL, unless another stands before it. -/
theorem firstByUrl_insert {db : SqsMemoryDb} (key : Str) (hurl : q.queueUrl = queueUrl) :
    ∃ k, SqsMemoryDb.firstByUrl { db with queues := db.queues.insert key q } queueUrl =
      some (k, (db.earlier queueUrl key).getD q) := by
  have hfront : (∀ k' q', db.queues.get? k' = some q' → decide (q'.queueUrl = queueUrl) = true → key ≤ k') →
      SqsMemoryDb.firstByUrl { db with queues := db.queues.insert key q } queueUrl = some (key, q) :=
    fun h => OrderedMap.findIf_insert_front (decide_eq_true hurl) h
  unfold SqsMemoryDb.earlier
  cases hfound : db.firstByUrl queueUrl with
  | none =>
    refine ⟨key, hfront fun k' q' hget hp => ?_⟩
    rw [OrderedMap.findIf_none.mp hfound k' q' hget] at hp
    cases hp
  | some e =>
    rw [Option.bind_some]
    split
    · next hlt => exact ⟨e.1, OrderedMap.findIf_insert_behind hfound hlt⟩
    · next hle => exact ⟨key, hfront fun k' q' hget hp => (not_lt.mp hle).trans (OrderedMap.findIf_le hfound hget hp)⟩

theorem createQueue_run {request : CreateQueueRequest} (hnew : w.db.queueExists request.region request.queueName = false) :
    match request.attributes.foldlM (createQueueAttribute env.poco) {} with
    | .error error => (createQueue env request).run (exec env.cfg rt) w = some (.error error, ⟨w.db, w.calls + 1⟩)
    | .ok a => ∃ (q : Queue) (response : CreateQueueResponse),
        q.region = request.region ∧ q.queueUrl = createSQSQueueUrl env.cfg request.queueName ∧
        (∀ n : Attribute, n.Agree a q.attributes) ∧
        (createQueue env request).run (exec env.cfg rt) w = some (.ok response,
          ⟨{ w.db with queues := w.db.queues.insert (rt.uuid (w.calls + 2)) q }, w.calls + 3⟩) := by
  cases hfold : request.attributes.foldlM (createQueueAttribute env.poco) {} with
  | error error =>
    rw [createQueue, Prog.run_perform_bind]
    simp only [exec, SqsCall.apply, hnew, hfold, Option.map_some, Option.bind_some]
    rfl
  | ok a =>
    let q : Queue := {
      oid := rt.uuid (w.calls + 2), region := request.region, name := request.queueName, owner := request.owner
      queueUrl := createSQSQueueUrl env.cfg request.queueName, queueArn := createSQSQueueArn env.cfg request.queueName
      attributes := { a with queueArn := createSQSQueueArn env.cfg request.queueName }, tags := request.tags
      created := rt.now (w.calls + 1), modified := rt.now (w.calls + 1) }
    refine ⟨q, ⟨q.region, q.name, q.owner, q.queueUrl, q.queueArn⟩, rfl, rfl, fun n => by cases n <;> rfl, ?_⟩
    rw [createQueue, Prog.run_perform_bind]
    simp only [exec, SqsCall.apply, hnew, hfold, Option.map_some, Option.bind_some, Bool.false_eq_true, if_false,
      Prog.ofExcept_ok_bind, Prog.run_perform_bind, SqsMemoryDb.createQueue_eq]
    rfl

/-- `CreateQueue` is read back exactly when a value is rejected, or every value is kept and can be read; or the
    queue that is read instead has the values. -/
theorem createReadsBack_iff {request : CreateQueueRequest}
    (hnew : w.db.queueExists request.region request.queueName = false) (hsupported : Supported request.attributes) :
    CreateReadsBack env rt w request reader ↔
      (∃ n v, valueOf request.attributes n = some v ∧ CreateRejects env.poco {} v n) ∨
      match w.db.earlier (createSQSQueueUrl env.cfg request.queueName) (rt.uuid (w.calls + 2)) with
      | some other => ∀ n, reader.answer env.poco other.attributes n =
          (valueOf request.attributes n).or (reader.answer env.poco {} n)
      | none => ∀ n v, valueOf request.attributes n = some v →
          CreateKeeps env.poco {} v n ∧ ¬ (reader = .all ∧ n = .redrivePolicy) := by
  have hrun := @createQueue_run env rt w request hnew
  have hrejects := @create_fold_rejects env.poco request.attributes {} hsupported
  cases hfold : request.attributes.foldlM (createQueueAttribute env.poco) {} with
  | error error =>
    rw [hfold] at hrun hrejects
    exact iff_of_true ⟨_, _, hrun, rfl⟩ (.inl (hrejects.mp fun _ => nofun))
  | ok a =>
    rw [hfold] at hrun hrejects
    obtain ⟨q, response, hregion, hurl, hagree, hrun⟩ := hrun
    have hnone : ¬ ∃ n v, valueOf request.attributes n = some v ∧ CreateRejects env.poco {} v n :=
      fun h => hrejects.mpr h _ rfl
    rw [or_iff_right hnone]
    obtain ⟨k, hfound⟩ := @firstByUrl_insert (createSQSQueueUrl env.cfg request.queueName) q w.db (rt.uuid (w.calls + 2)) hurl
    have hexists : SqsMemoryDb.queueUrlExists { w.db with queues := w.db.queues.insert (rt.uuid (w.calls + 2)) q }
        request.region (createSQSQueueUrl env.cfg request.queueName) = true :=
      OrderedMap.findIf_isSome.mpr ⟨_, q, OrderedMap.get?_insert_self .., by simp [hregion, hurl]⟩
    have hreads : CreateReadsBack env rt w request reader ↔ ∀ n, reader.answer env.poco
        ((w.db.earlier (createSQSQueueUrl env.cfg request.queueName) (rt.uuid (w.calls + 2))).getD q).attributes n =
          (valueOf request.attributes n).or (reader.answer env.poco {} n) := by
      have hor : ∀ n, ((valueOf request.attributes n).map some).or (some (reader.answer env.poco {} n)) =
          some ((valueOf request.attributes n).or (reader.answer env.poco {} n)) := fun n => by
        cases valueOf request.attributes n <;> rfl
      constructor
      · rintro ⟨r, w', hrun', hall⟩ n
        cases hrun.symm.trans hrun'
        have hn := hall n
        rw [reported_eq hexists hfound, hor] at hn
        exact Option.some.inj hn
      · intro hall
        refine ⟨_, _, hrun, fun n => ?_⟩
        rw [reported_eq hexists hfound, hor]
        exact congrArg some (hall n)
    rw [hreads]
    cases w.db.earlier (createSQSQueueUrl env.cfg request.queueName) (rt.uuid (w.calls + 2)) with
    | some other => rfl
    | none =>
      rw [Option.getD_none]
      refine forall_congr' fun n => ?_
      obtain ⟨hother, hgiven⟩ := create_fold hsupported hfold n
      cases hv : valueOf request.attributes n with
      | none =>
        refine iff_of_true ?_ nofun
        rw [Option.none_or, Reader.answer, Reader.answer, (hagree n).value, (hother hv).value]
      | some v =>
        simp only [Option.some_or, Option.some.injEq, forall_eq']
        rw [answer_eq_some, (hagree n).value, hgiven v hv, and_comm]

/-! ### The result -/

/-- The attributes set on a queue, and those of a new one, are read back exactly when the three tables have their
    names and their values are reported as they were written. -/
theorem queueAttributes_readBack_iff (env : Env) (rt : Runtime) (w : World) (reader : Reader)
    (set : SetQueueAttributesRequest) (k : Str) (q : Queue)
    (hexists : w.db.queueUrlExists set.region set.queueUrl = true) (hfound : w.db.firstByUrl set.queueUrl = some (k, q))
    (create : CreateQueueRequest) (hnew : w.db.queueExists create.region create.queueName = false)
    (hsupported : Supported create.attributes) :
    (SetReadsBack env rt w set reader ↔ (∃ n v, set.given n = some v ∧ SetRejects env.poco q.attributes v n) ∨
      ∀ n v, set.given n = some v → SetKeeps env.poco q.attributes v n ∧ ¬ (reader = .all ∧ n = .redrivePolicy)) ∧
    (CreateReadsBack env rt w create reader ↔
      (∃ n v, valueOf create.attributes n = some v ∧ CreateRejects env.poco {} v n) ∨
      match w.db.earlier (createSQSQueueUrl env.cfg create.queueName) (rt.uuid (w.calls + 2)) with
      | some other => ∀ n, reader.answer env.poco other.attributes n =
          (valueOf create.attributes n).or (reader.answer env.poco {} n)
      | none => ∀ n v, valueOf create.attributes n = some v →
          CreateKeeps env.poco {} v n ∧ ¬ (reader = .all ∧ n = .redrivePolicy)) :=
  ⟨setReadsBack_iff hexists hfound, createReadsBack_iff hnew hsupported⟩

theorem canonical_toStr {k : Int} (h : IsInt k) : Canonical (toStr k) := by
  intro l hl
  rw [stoi_toStr h] at hl
  cases hl
  rfl

theorem toStr_ne_of_ne {k l : Int} (hk : IsInt k) (hl : IsInt l) (hne : k ≠ l) : toStr k ≠ toStr l := fun h =>
  hne (Except.ok.inj ((stoi_toStr hk).symm.trans ((congrArg stoi h).trans (stoi_toStr hl))))

/-- A process with one queue. -/
def queueAlone : World where
  db := { queues := .ofList [(str "k", { region := str "eu", name := str "old", queueUrl := str "http://old",
                                         created := 0, modified := 0 })] }

def setOld (name : String) (value : Int) : SetQueueAttributesRequest :=
  { region := str "eu", queueUrl := str "http://old", attributes := .ofList [(str name, toStr value)] }

def createNew (name : String) (value : Int) : CreateQueueRequest :=
  { region := str "eu", queueName := str "new", attributes := [⟨str name, toStr value⟩] }

theorem supported_createNew {name : String} {value : Int} (h : n.name = str name) :
    Supported (createNew name value).attributes :=
  ⟨List.pairwise_singleton _ _, fun e he => ⟨n, by rw [List.mem_singleton.mp he, h]⟩⟩

/-- A visibility timeout of 45 seconds set on a queue, and a new queue with a delay of 5 seconds. -/
theorem queueAttributes_readBack_numbers : SetReadsBack .sample (.counting 20) queueAlone (setOld "VisibilityTimeout" 45) .all ∧
    CreateReadsBack .sample (.counting 20) queueAlone (createNew "DelaySeconds" 5) .all := by
  have hiff := queueAttributes_readBack_iff .sample (.counting 20) queueAlone .all (setOld "VisibilityTimeout" 45) (str "k") _
    (by decide) rfl (createNew "DelaySeconds" 5) (by decide) (supported_createNew (n := .delaySeconds) rfl)
  refine ⟨hiff.1.mpr (.inr fun n v hv => ?_), hiff.2.mpr (.inr fun n v hv => ?_)⟩
  · cases n with
    | visibilityTimeout =>
      cases hv
      exact ⟨⟨toStr_ne_nil 45, canonical_toStr (by decide)⟩, by decide⟩
    | _ => cases hv
  · cases n with
    | delaySeconds =>
      cases hv
      exact ⟨canonical_toStr (by decide), by decide⟩
    | _ => cases hv

/-- A delay cannot be set on a queue, and a new queue ignores the wait time. -/
theorem queueAttributes_ignored : ¬ SetReadsBack .sample (.counting 20) queueAlone (setOld "DelaySeconds" 5) .named ∧
    ¬ CreateReadsBack .sample (.counting 20) queueAlone (createNew "ReceiveMessageWaitTimeSeconds" 5) .named := by
  constructor
  · intro h
    rcases (setReadsBack_iff (by decide) rfl).mp h with ⟨n, v, hv, hrejects⟩ | hall
    · cases n with
      | delaySeconds => exact hrejects
      | _ => cases hv
    · exact toStr_ne_of_ne (by decide) (by decide) (by decide) (hall .delaySeconds (toStr 5) rfl).1
  · intro h
    rcases (createReadsBack_iff (by decide) (supported_createNew (n := .receiveMessageWaitTimeSeconds) rfl)).mp h with
      ⟨n, v, hv, hrejects⟩ | hall
    · cases n with
      | receiveMessageWaitTimeSeconds => exact hrejects
      | _ => cases hv
    · exact toStr_ne_of_ne (by decide) (by decide) (by decide) (hall .receiveMessageWaitTimeSeconds (toStr 5) rfl).1

end AwsMock.Sqs
