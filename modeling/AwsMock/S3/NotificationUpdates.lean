import AwsMock.Dto.NotificationConfiguration
import AwsMock.S3.BucketDocument
import AwsMock.S3.Service

/-!
# Updates of the notifications of a bucket

`PutBucketNotificationConfiguration`, `PutBucketNotification` and `DeleteBucketNotifications` over the
in-memory buckets. The three loops over the configurations stop at the first one whose id is there already,
and a single notification replaces all others.
-/

namespace AwsMock.S3

open Lib OrderedMap

namespace BucketRecord

def hasNotification (bucket : BucketRecord) (eventName : Str) : Bool :=
  bucket.notifications.any fun notification => notification.event = eventName

end BucketRecord

/-- `HasQueueNotificationId`, `HasTopicNotificationId` and `HasLambdaNotificationId`. -/
def hasNotificationId (notifications : List Notification) (id : Str) : Bool :=
  notifications.any fun notification => notification.id = id

/-! ### The buckets -/

/-- The buckets of `S3MemoryDb` under their ids. -/
abbrev BucketStore := OrderedMap Str BucketRecord

namespace BucketStore

variable (store : BucketStore) (region name : Str)

def find : Option (Str × BucketRecord) := store.findIf fun _ bucket => bucket.isNamed region name

def bucketExists : Bool := (store.find region name).isSome

/-- The record found is given its key. -/
def getBucketByRegionName (now : TimePoint) : BucketRecord × BucketStore :=
  match store.find region name with
  | some (oid, bucket) => ({ bucket with oid := oid }, store.insert oid { bucket with oid := oid })
  | none => ({ created := now, modified := now }, store)

/-- Without a bucket of the name the end iterator is dereferenced. -/
def updateBucket (bucket : BucketRecord) : Option (BucketRecord × BucketStore) :=
  (store.find bucket.region bucket.name).map fun it => (bucket, store.insert it.1 bucket)

end BucketStore

/-- `allowedEventTypes["Created"]`. -/
def createdEvents : List Str :=
  [str "s3:ObjectCreated:Put", str "s3:ObjectCreated:Post", str "s3:ObjectCreated:Copy",
    str "s3:ObjectCreated:CompleteMultipartUpload"]

/-- `allowedEventTypes["Deleted"]`. -/
def deletedEvents : List Str := [str "s3:ObjectRemoved:Delete", str "s3:ObjectRemoved:DeleteMarkerCreated"]

/-- The events that a pattern stands for, or the event itself. -/
def allowedEvents (event : Str) : List Str :=
  if contains event (str "*") then
    if startsWith event (str "s3:ObjectCreated:") then createdEvents
    else if startsWith event (str "s3:ObjectRemoved:") then deletedEvents
    else []
  else [event]

/-- `CreateBucketNotification`: all notifications are cleared. -/
def BucketStore.createBucketNotification (store : BucketStore) (region name : Str)
    (bucketNotification : BucketNotification) (now : TimePoint) : Option (BucketRecord × BucketStore) :=
  let (internBucket, store) := store.getBucketByRegionName region name now
  store.updateBucket { internBucket with
    notifications := (allowedEvents bucketNotification.event).map fun event =>
      { bucketNotification with event := event } }

/-- `DeleteBucketNotifications`: one pass over the notifications for each event. -/
def BucketStore.deleteBucketNotifications (store : BucketStore) (region name : Str)
    (bucketNotification : BucketNotification) (now : TimePoint) : Option (BucketRecord × BucketStore) :=
  let (internBucket, store) := store.getBucketByRegionName region name now
  store.updateBucket { internBucket with
    notifications := (allowedEvents bucketNotification.event).foldl
      (fun notifications event => notifications.filter fun notification => event ≠ notification.event)
      internBucket.notifications }

/-! ### The service -/

/-- The notification that a configuration describes. -/
def toNotification (configuration : Dto.NotificationConfiguration) (id : Str) : Notification where
  id := id
  arn := configuration.arn
  events := configuration.events.map Dto.NotificationEventType.toString
  filterRules := configuration.filterRules.map fun rule => { name := rule.name.toString, value := rule.value }

/-- The common loop of the three functions: `uuid` are the random ids it draws. It ends at a configuration whose id
    is there. -/
def getNotificationConfigurations (uuid : Nat → Str) : Nat → List Notification → List Dto.NotificationConfiguration →
    List Notification
  | _, notifications, [] => notifications
  | n, notifications, configuration :: configurations =>
    if configuration.id ≠ [] ∧ hasNotificationId notifications configuration.id then notifications
    else if configuration.id = [] then
      getNotificationConfigurations uuid (n + 1) (notifications ++ [toNotification configuration (uuid n)])
        configurations
    else getNotificationConfigurations uuid n (notifications ++ [toNotification configuration configuration.id])
        configurations

def getQueueNotificationConfigurations (uuid : Nat → Str) (bucket : BucketRecord)
    (queueConfigurations : List Dto.NotificationConfiguration) : BucketRecord :=
  { bucket with queueNotifications :=
      getNotificationConfigurations uuid 0 bucket.queueNotifications queueConfigurations }

def getTopicNotificationConfigurations (uuid : Nat → Str) (bucket : BucketRecord)
    (topicConfigurations : List Dto.NotificationConfiguration) : BucketRecord :=
  { bucket with topicNotifications :=
      getNotificationConfigurations uuid 0 bucket.topicNotifications topicConfigurations }

def getLambdaNotificationConfigurations (uuid : Nat → Str) (bucket : BucketRecord)
    (lambdaConfigurations : List Dto.NotificationConfiguration) : BucketRecord :=
  { bucket with lambdaNotifications :=
      getNotificationConfigurations uuid 0 bucket.lambdaNotifications lambdaConfigurations }

/-- `PutBucketNotificationConfiguration`, with the queue configurations of the response. -/
def putBucketNotificationConfiguration (uuid : Target → Nat → Str) (now : TimePoint) (store : BucketStore)
    (request : Dto.PutBucketNotificationConfigurationRequest) :
    Option (Except S3Error (List Dto.NotificationConfiguration) × BucketStore) :=
  if store.bucketExists request.region request.bucket then
    let (bucket, store) := store.getBucketByRegionName request.region request.bucket now
    let bucket := if request.queueConfigurations = [] then bucket
      else getQueueNotificationConfigurations (uuid .queue) bucket request.queueConfigurations
    let bucket := if request.topicConfigurations = [] then bucket
      else getTopicNotificationConfigurations (uuid .topic) bucket request.topicConfigurations
    let bucket := if request.lambdaConfigurations = [] then bucket
      else getLambdaNotificationConfigurations (uuid .lambda) bucket request.lambdaConfigurations
    (store.updateBucket bucket).map fun r => (.ok request.queueConfigurations, r.2)
  else some (.error bucketDoesNotExist, store)

structure PutBucketNotificationRequest where
  region : Str
  bucket : Str
  lambdaArn : Str := []
  queueArn : Str := []
  notificationId : Str := []
  event : Str

/-- `CreateLambdaConfiguration`. -/
def createLambdaConfiguration (now : TimePoint) (store : BucketStore) (bucket : BucketRecord)
    (request : PutBucketNotificationRequest) : Option (BucketRecord × BucketStore) :=
  store.createBucketNotification bucket.region bucket.name
    { event := request.event, notificationId := request.notificationId, lambdaArn := request.lambdaArn } now

/-- `CreateQueueConfiguration`. -/
def createQueueConfiguration (now : TimePoint) (store : BucketStore) (bucket : BucketRecord)
    (request : PutBucketNotificationRequest) : Option (BucketRecord × BucketStore) :=
  store.createBucketNotification bucket.region bucket.name
    { event := request.event, notificationId := request.notificationId, queueArn := request.queueArn } now

def putBucketNotification (now : TimePoint) (store : BucketStore) (request : PutBucketNotificationRequest) :
    Option (Except S3Error Unit × BucketStore) :=
  if store.bucketExists request.region request.bucket then
    let (bucket, store) := store.getBucketByRegionName request.region request.bucket now
    if bucket.hasNotification request.event then
      some (.error (.notFoundException (str "Bucket notification exists already")), store)
    else if request.lambdaArn ≠ [] then
      (createLambdaConfiguration now store bucket request).map fun r => (.ok (), r.2)
    else if request.queueArn ≠ [] then
      (createQueueConfiguration now store bucket request).map fun r => (.ok (), r.2)
    else some (.ok (), store)
  else some (.error (.notFoundException (str "Bucket does not exist, name: " ++ request.bucket)), store)

/-! ### What an update owes -/

/-- The configurations of a request for a target. -/
def configurations (request : Dto.PutBucketNotificationConfigurationRequest) :
    Target → List Dto.NotificationConfiguration
  | .queue => request.queueConfigurations
  | .topic => request.topicConfigurations
  | .lambda => request.lambdaConfigurations

/-- The configuration has no id, or one that no notification has. -/
def IsNew (stored : List Notification) (configuration : Dto.NotificationConfiguration) : Prop :=
  configuration.id = [] ∨ hasNotificationId stored configuration.id = false

/-- The notification is what the configuration describes, under its id if it has one. -/
def Describes (configuration : Dto.NotificationConfiguration) (notification : Notification) : Prop :=
  notification = toNotification configuration notification.id ∧
    (configuration.id ≠ [] → notification.id = configuration.id)

instance (stored : List Notification) (c : Dto.NotificationConfiguration) : Decidable (IsNew stored c) :=
  inferInstanceAs (Decidable (_ ∨ _))

instance (c : Dto.NotificationConfiguration) (n : Notification) : Decidable (Describes c n) :=
  inferInstanceAs (Decidable (_ ∧ _))

/-- All notifications are kept, and every configuration that is new is there. -/
def Merged (stored merged : List Notification) (configurations : List Dto.NotificationConfiguration) : Prop :=
  stored <+: merged ∧ ∀ configuration ∈ configurations, IsNew stored configuration →
    ∃ notification ∈ merged, Describes configuration notification

variable (uuid : Target → Nat → Str) (now : TimePoint) (store : BucketStore)

/-- The request merges its configurations into the bucket, which is otherwise left. -/
def ConfigurationsPut (request : Dto.PutBucketNotificationConfigurationRequest) : Prop :=
  ∀ k bucket, store.find request.region request.bucket = some (k, bucket) →
    ∃ response store' bucket', putBucketNotificationConfiguration uuid now store request = some (.ok response, store') ∧
      store'.find request.region request.bucket = some (k, bucket') ∧ bucket'.notifications = bucket.notifications ∧
      ∀ target, Merged (bucket.toBucket.notifications target) (bucket'.toBucket.notifications target)
        (configurations request target)

/-- The buckets apart from the keys that lookups write. -/
def BucketStore.contents : OrderedMap Str BucketRecord := store.mapVal fun _ bucket => { bucket with oid := [] }

/-- A notification that is put and then deleted leaves the buckets as they were. -/
def AddedAndDeleted (request : PutBucketNotificationRequest) : Prop :=
  ∀ store', putBucketNotification now store request = some (.ok (), store') →
    ∃ bucket store'', store'.deleteBucketNotifications request.region request.bucket { event := request.event } now =
      some (bucket, store'') ∧ store''.contents = store.contents

/-! ### When it does -/

/-- The id that a configuration is stored under. -/
def storedId (uuid : Nat → Str) (n : Nat) (configuration : Dto.NotificationConfiguration) : Str :=
  if configuration.id = [] then uuid n else configuration.id

/-- The notifications of configurations that are all stored. -/
def described (uuid : Nat → Str) : Nat → List Dto.NotificationConfiguration → List Notification
  | _, [] => []
  | n, configuration :: configurations => toNotification configuration (storedId uuid n configuration) ::
      described uuid (if configuration.id = [] then n + 1 else n) configurations

/-- The place of the first configuration whose id is taken, by a notification or by a configuration before it. -/
def firstTaken (uuid : Nat → Str) : Nat → List Str → List Dto.NotificationConfiguration → Nat
  | _, _, [] => 0
  | n, ids, configuration :: configurations =>
    if configuration.id ≠ [] ∧ configuration.id ∈ ids then 0
    else firstTaken uuid (if configuration.id = [] then n + 1 else n) (ids ++ [storedId uuid n configuration])
      configurations + 1

/-- From the first configuration on whose id is taken, none is new, unless it is there by then. -/
def NoneSkipped (uuid : Nat → Str) (stored : List Notification)
    (configurations : List Dto.NotificationConfiguration) : Prop :=
  let place := firstTaken uuid 0 (stored.map Notification.id) configurations
  ∀ configuration ∈ configurations.drop place, IsNew stored configuration →
    ∃ notification ∈ stored ++ described uuid 0 (configurations.take place), Describes configuration notification

instance (uuid : Nat → Str) (stored : List Notification) (configurations : List Dto.NotificationConfiguration) :
    Decidable (NoneSkipped uuid stored configurations) :=
  inferInstanceAs (Decidable (∀ configuration ∈ configurations.drop _, _))

/-- The bucket has no other notifications, or nothing is put and none of the events is notified. -/
def NothingCleared (request : PutBucketNotificationRequest) : Prop :=
  ∀ k bucket, store.find request.region request.bucket = some (k, bucket) →
    bucket.hasNotification request.event = true ∨ bucket.notifications = [] ∨
      (request.lambdaArn = [] ∧ request.queueArn = [] ∧
        ∀ notification ∈ bucket.notifications, notification.event ∉ allowedEvents request.event)

/-! ### The loop over the configurations -/

section Loop

variable {uuid : Nat → Str} {n : Nat} {stored : List Notification} {cs : List Dto.NotificationConfiguration}

theorem hasNotificationId_iff {id : Str} : hasNotificationId stored id = true ↔ id ∈ stored.map Notification.id := by
  simp [hasNotificationId]

/-- The configurations before the first one whose id is taken are stored, in their order. -/
theorem getNotificationConfigurations_eq : ∀ {cs : List Dto.NotificationConfiguration} {n : Nat}
    {stored : List Notification}, getNotificationConfigurations uuid n stored cs =
      stored ++ described uuid n (cs.take (firstTaken uuid n (stored.map Notification.id) cs))
  | [], _, stored => by simp [getNotificationConfigurations, described]
  | c :: cs, n, stored => by
    simp only [getNotificationConfigurations, firstTaken, hasNotificationId_iff]
    by_cases htaken : c.id ≠ [] ∧ c.id ∈ stored.map Notification.id
    · rw [if_pos htaken, if_pos htaken, List.take_zero, described, List.append_nil]
    · rw [if_neg htaken, if_neg htaken, List.take_succ_cons, described]
      by_cases hid : c.id = []
      · rw [if_pos hid, getNotificationConfigurations_eq]
        simp [storedId, hid, toNotification]
      · rw [if_neg hid, getNotificationConfigurations_eq]
        simp [storedId, hid, toNotification]

/-- Each of them is there. -/
theorem exists_described : ∀ {cs : List Dto.NotificationConfiguration} {n : Nat} {c : Dto.NotificationConfiguration},
    c ∈ cs → ∃ notification ∈ described uuid n cs, Describes c notification
  | c' :: cs, n, c, hc => by
    rcases List.mem_cons.mp hc with rfl | hc
    · refine ⟨_, List.mem_cons_self, rfl, fun hid => ?_⟩
      simp [toNotification, storedId, hid]
    · obtain ⟨notification, hmem, h⟩ := exists_described hc
      exact ⟨notification, List.mem_cons_of_mem _ hmem, h⟩

theorem merged_iff : Merged stored (getNotificationConfigurations uuid 0 stored cs) cs ↔
    NoneSkipped uuid stored cs := by
  rw [getNotificationConfigurations_eq, Merged, NoneSkipped]
  constructor
  · rintro ⟨_, hall⟩ c hc hnew
    exact hall c (List.mem_of_mem_drop hc) hnew
  · intro hskipped
    refine ⟨List.prefix_append .., fun c hc hnew => ?_⟩
    rw [← List.take_append_drop (firstTaken uuid 0 (stored.map Notification.id) cs) cs] at hc
    rcases List.mem_append.mp hc with htaken | hleft
    · obtain ⟨notification, hmem, h⟩ := exists_described htaken
      exact ⟨notification, List.mem_append_right _ hmem, h⟩
    · exact hskipped c hleft hnew

end Loop

/-! ### The bucket in its store -/

section Store

variable {uuid : Target → Nat → Str} {now : TimePoint} {store : BucketStore} {region name k : Str}
  {bucket bucket' : BucketRecord}

theorem isNamed_of_find (h : store.find region name = some (k, bucket)) : bucket.isNamed region name = true :=
  (findIf_some h).2

/-- The bucket found is replaced by one of the same name. -/
theorem find_insert (h : store.find region name = some (k, bucket)) (hname : bucket'.isNamed region name = true) :
    BucketStore.find (store.insert k bucket') region name = some (k, bucket') :=
  findIf_insert_front hname fun _ _ hget hp => findIf_le h hget hp

theorem bucketExists_of_find (h : store.find region name = some (k, bucket)) :
    store.bucketExists region name = true := by
  rw [BucketStore.bucketExists, h]
  rfl

theorem getBucketByRegionName_of_find (h : store.find region name = some (k, bucket)) :
    store.getBucketByRegionName region name now =
      ({ bucket with oid := k }, store.insert k { bucket with oid := k }) := by
  rw [BucketStore.getBucketByRegionName, h]

/-- A bucket that was looked up is written back. -/
theorem updateBucket_of_find (h : store.find region name = some (k, bucket))
    (hname : bucket'.isNamed region name = true) :
    BucketStore.updateBucket (store.insert k { bucket with oid := k }) bucket' =
      some (bucket', store.insert k bucket') := by
  obtain ⟨hregion, hbucket⟩ := of_decide_eq_true hname
  have hfind : BucketStore.find (store.insert k { bucket with oid := k }) bucket'.region bucket'.name =
      some (k, { bucket with oid := k }) := by
    rw [hregion, hbucket]
    exact find_insert h (show bucket.toBucket.isNamed region name = true from isNamed_of_find h)
  rw [BucketStore.updateBucket, hfind, Option.map_some, insert_insert]

/-- Without configurations a loop changes nothing. -/
theorem skip_queueConfigurations (uuid : Nat → Str) (bucket : BucketRecord) (cs : List Dto.NotificationConfiguration) :
    (if cs = [] then bucket else getQueueNotificationConfigurations uuid bucket cs) =
      getQueueNotificationConfigurations uuid bucket cs := by
  cases cs <;> rfl

theorem skip_topicConfigurations (uuid : Nat → Str) (bucket : BucketRecord) (cs : List Dto.NotificationConfiguration) :
    (if cs = [] then bucket else getTopicNotificationConfigurations uuid bucket cs) =
      getTopicNotificationConfigurations uuid bucket cs := by
  cases cs <;> rfl

theorem skip_lambdaConfigurations (uuid : Nat → Str) (bucket : BucketRecord) (cs : List Dto.NotificationConfiguration) :
    (if cs = [] then bucket else getLambdaNotificationConfigurations uuid bucket cs) =
      getLambdaNotificationConfigurations uuid bucket cs := by
  cases cs <;> rfl

/-- The bucket after the request. -/
def BucketRecord.merged (uuid : Target → Nat → Str) (bucket : BucketRecord)
    (request : Dto.PutBucketNotificationConfigurationRequest) : BucketRecord :=
  { bucket with
    queueNotifications := getNotificationConfigurations (uuid .queue) 0 bucket.queueNotifications
      request.queueConfigurations
    topicNotifications := getNotificationConfigurations (uuid .topic) 0 bucket.topicNotifications
      request.topicConfigurations
    lambdaNotifications := getNotificationConfigurations (uuid .lambda) 0 bucket.lambdaNotifications
      request.lambdaConfigurations }

theorem notifications_merged (uuid : Target → Nat → Str) (bucket : BucketRecord)
    (request : Dto.PutBucketNotificationConfigurationRequest) (target : Target) :
    (bucket.merged uuid request).toBucket.notifications target =
      getNotificationConfigurations (uuid target) 0 (bucket.toBucket.notifications target)
        (configurations request target) := by
  cases target <;> rfl

theorem putBucketNotificationConfiguration_of_find {request : Dto.PutBucketNotificationConfigurationRequest}
    (h : store.find request.region request.bucket = some (k, bucket)) :
    putBucketNotificationConfiguration uuid now store request = some (.ok request.queueConfigurations,
      store.insert k ({ bucket with oid := k }.merged uuid request)) := by
  have hname : ({ bucket with oid := k }.merged uuid request : BucketRecord).isNamed request.region request.bucket =
      true := show bucket.toBucket.isNamed request.region request.bucket = true from isNamed_of_find h
  have hupdate := updateBucket_of_find h hname
  rw [putBucketNotificationConfiguration, if_pos (bucketExists_of_find h), getBucketByRegionName_of_find h]
  simp only [skip_queueConfigurations, skip_topicConfigurations, skip_lambdaConfigurations]
  exact congrArg (Option.map _) hupdate

/-- The configurations are put exactly where no new one is skipped. -/
theorem configurationsPut_iff {request : Dto.PutBucketNotificationConfigurationRequest} :
    ConfigurationsPut uuid now store request ↔ ∀ k bucket,
      store.find request.region request.bucket = some (k, bucket) → ∀ target,
        NoneSkipped (uuid target) (bucket.toBucket.notifications target) (configurations request target) := by
  refine forall₃_congr fun k bucket hfind => ?_
  have hrun : putBucketNotificationConfiguration uuid now store request = some (.ok _, _) :=
    putBucketNotificationConfiguration_of_find hfind
  have hfind' : BucketStore.find (store.insert k ({ bucket with oid := k }.merged uuid request)) request.region
      request.bucket = some (k, { bucket with oid := k }.merged uuid request) :=
    find_insert hfind (show bucket.toBucket.isNamed request.region request.bucket = true from isNamed_of_find hfind)
  have hmerged : ∀ target, Merged (bucket.toBucket.notifications target)
      (({ bucket with oid := k }.merged uuid request : BucketRecord).toBucket.notifications target)
      (configurations request target) ↔
        NoneSkipped (uuid target) (bucket.toBucket.notifications target) (configurations request target) := by
    intro target
    have htarget : ({ bucket with oid := k } : BucketRecord).toBucket.notifications target =
        bucket.toBucket.notifications target := by
      cases target <;> rfl
    rw [notifications_merged, htarget]
    exact merged_iff
  constructor
  · rintro ⟨response, store', bucket', hput, hfind'', _, h⟩ target
    rw [hrun] at hput
    cases hput
    rw [hfind'] at hfind''
    cases hfind''
    exact (hmerged target).mp (h target)
  · intro h
    exact ⟨_, _, _, hrun, hfind', rfl, fun target => (hmerged target).mpr (h target)⟩

/-! ### A single notification -/

/-- A bucket that was looked up, with other notifications. -/
def BucketRecord.renotified (bucket : BucketRecord) (k : Str) (notifications : List BucketNotification) :
    BucketRecord :=
  { bucket with oid := k, notifications := notifications }

theorem createBucketNotification_of_find (now : TimePoint) (notification : BucketNotification)
    (h : store.find region name = some (k, bucket)) :
    let created := bucket.renotified k
      ((allowedEvents notification.event).map fun event => { notification with event := event })
    store.createBucketNotification region name notification now = some (created, store.insert k created) := by
  rw [BucketStore.createBucketNotification, getBucketByRegionName_of_find h]
  exact updateBucket_of_find h (show bucket.toBucket.isNamed region name = true from isNamed_of_find h)

/-- One pass for each event takes out the notifications of all of them. -/
theorem foldl_filter_event : ∀ (events : List Str) (notifications : List BucketNotification),
    events.foldl (fun notifications event => notifications.filter fun notification => event ≠ notification.event)
      notifications = notifications.filter fun notification => notification.event ∉ events
  | [], notifications => by simp
  | event :: events, notifications => by
    rw [List.foldl_cons, foldl_filter_event, List.filter_filter]
    refine List.filter_congr fun notification _ => ?_
    simp only [List.mem_cons, not_or, ne_eq, Bool.decide_and, decide_not]
    rw [Bool.and_comm, decide_eq_decide.mpr (eq_comm : event = notification.event ↔ notification.event = event)]

theorem deleteBucketNotifications_of_find (now : TimePoint) (notification : BucketNotification)
    (h : store.find region name = some (k, bucket)) :
    let deleted := bucket.renotified k
      (bucket.notifications.filter fun n => n.event ∉ allowedEvents notification.event)
    store.deleteBucketNotifications region name notification now = some (deleted, store.insert k deleted) := by
  rw [BucketStore.deleteBucketNotifications, getBucketByRegionName_of_find h]
  simp only [foldl_filter_event]
  exact updateBucket_of_find h (show bucket.toBucket.isNamed region name = true from isNamed_of_find h)

/-- With other notifications the store is another one. -/
theorem contents_insert_iff {notifications : List BucketNotification} (hget : store.get? k = some bucket) :
    BucketStore.contents (store.insert k (bucket.renotified k notifications)) = store.contents ↔
      notifications = bucket.notifications := by
  constructor
  · intro h
    have hk := congrArg (fun m : OrderedMap Str BucketRecord => m.get? k) h
    simp only [BucketStore.contents, get?_mapVal, get?_insert_self, hget, Option.map_some, Option.some.injEq] at hk
    exact congrArg BucketRecord.notifications hk
  · rintro rfl
    exact mapVal_insert_of_eq hget rfl

/-- What a request that succeeds makes of the notifications. -/
theorem putBucketNotification_of_find (now : TimePoint) {request : PutBucketNotificationRequest}
    (h : store.find request.region request.bucket = some (k, bucket))
    (hnew : bucket.hasNotification request.event = false) :
    ∃ notifications, putBucketNotification now store request =
        some (.ok (), store.insert k (bucket.renotified k notifications)) ∧
      ((request.lambdaArn = [] ∧ request.queueArn = [] ∧ notifications = bucket.notifications) ∨
        (¬ (request.lambdaArn = [] ∧ request.queueArn = []) ∧
          ∀ notification ∈ notifications, notification.event ∈ allowedEvents request.event)) := by
  obtain ⟨hregion, hbucket⟩ := of_decide_eq_true (isNamed_of_find h)
  have hfind : BucketStore.find (store.insert k { bucket with oid := k }) bucket.region bucket.name =
      some (k, { bucket with oid := k }) := by
    have hbefore : store.find bucket.region bucket.name = some (k, bucket) := by
      rw [hregion, hbucket]
      exact h
    exact find_insert hbefore
      (show bucket.toBucket.isNamed bucket.region bucket.name = true from decide_eq_true ⟨rfl, rfl⟩)
  have hcreate : ∀ notification : BucketNotification, notification.event = request.event →
      ∃ b, BucketStore.createBucketNotification (store.insert k { bucket with oid := k }) bucket.region bucket.name
        notification now = some (b, store.insert k (bucket.renotified k
          ((allowedEvents request.event).map fun event => { notification with event := event }))) := by
    intro notification hevent
    have hrun := createBucketNotification_of_find now notification hfind
    simp only [insert_insert, hevent] at hrun
    exact ⟨_, hrun⟩
  have hevents : ∀ notification : BucketNotification, ∀ x ∈ (allowedEvents request.event).map fun event =>
      { notification with event := event }, x.event ∈ allowedEvents request.event := by
    intro notification x hx
    obtain ⟨event, hevent, rfl⟩ := List.mem_map.mp hx
    exact hevent
  rw [putBucketNotification, if_pos (bucketExists_of_find h), getBucketByRegionName_of_find h]
  simp only [show ({ bucket with oid := k } : BucketRecord).hasNotification request.event = false from hnew,
    Bool.false_eq_true, if_false]
  by_cases hlambda : request.lambdaArn = []
  · by_cases hqueue : request.queueArn = []
    · refine ⟨bucket.notifications, ?_, .inl ⟨hlambda, hqueue, rfl⟩⟩
      rw [if_neg (not_not.mpr hlambda), if_neg (not_not.mpr hqueue)]
      rfl
    · let created : BucketNotification :=
        { event := request.event, notificationId := request.notificationId, queueArn := request.queueArn }
      obtain ⟨b, hb⟩ := hcreate created rfl
      refine ⟨_, ?_, .inr ⟨fun h => hqueue h.2, hevents created⟩⟩
      rw [if_neg (not_not.mpr hlambda), if_pos hqueue]
      exact congrArg (Option.map _) hb
  · let created : BucketNotification :=
      { event := request.event, notificationId := request.notificationId, lambdaArn := request.lambdaArn }
    obtain ⟨b, hb⟩ := hcreate created rfl
    refine ⟨_, ?_, .inr ⟨fun h => hlambda h.1, hevents created⟩⟩
    rw [if_pos hlambda]
    exact congrArg (Option.map _) hb

/-- A notification that is put and deleted leaves no others, of which there must be none. -/
theorem addedAndDeleted_iff {request : PutBucketNotificationRequest} :
    AddedAndDeleted now store request ↔ NothingCleared store request := by
  rcases hfind : store.find request.region request.bucket with _ | ⟨k, bucket⟩
  · refine iff_of_true (fun store' hput => ?_) fun k bucket h => ?_
    · have hmissing : ¬ store.bucketExists request.region request.bucket = true := by
        rw [BucketStore.bucketExists, hfind]
        exact Bool.false_ne_true
      rw [putBucketNotification, if_neg hmissing] at hput
      cases hput
    · rw [hfind] at h
      cases h
  · have hcleared : NothingCleared store request ↔ bucket.hasNotification request.event = true ∨
        bucket.notifications = [] ∨ (request.lambdaArn = [] ∧ request.queueArn = [] ∧
          ∀ notification ∈ bucket.notifications, notification.event ∉ allowedEvents request.event) := by
      refine ⟨fun h => h k bucket hfind, fun h k' bucket' hfind' => ?_⟩
      obtain ⟨rfl, rfl⟩ := Prod.mk.inj (Option.some.inj (hfind.symm.trans hfind'))
      exact h
    rw [hcleared]
    rcases hnew : bucket.hasNotification request.event with _ | _
    · obtain ⟨notifications, hput, hcases⟩ := putBucketNotification_of_find now hfind hnew
      have hfind' : BucketStore.find (store.insert k (bucket.renotified k notifications)) request.region
          request.bucket = some (k, bucket.renotified k notifications) :=
        find_insert hfind (show bucket.toBucket.isNamed request.region request.bucket = true from isNamed_of_find hfind)
      have hdelete := deleteBucketNotifications_of_find now { event := request.event } hfind'
      simp only [insert_insert] at hdelete
      have hlaw : AddedAndDeleted now store request ↔
          (notifications.filter fun n => n.event ∉ allowedEvents request.event) = bucket.notifications := by
        rw [← contents_insert_iff (findIf_some hfind).1]
        constructor
        · intro h
          obtain ⟨b, store'', hdeleted, hsame⟩ := h _ hput
          rw [hdelete] at hdeleted
          cases hdeleted
          exact hsame
        · intro h store' hput'
          rw [hput] at hput'
          cases hput'
          exact ⟨_, _, hdelete, h⟩
      rw [hlaw]
      rcases hcases with ⟨hlambda, hqueue, rfl⟩ | ⟨harn, hevents⟩
      · rw [List.filter_eq_self]
        simp only [decide_eq_true_eq]
        constructor
        · exact fun h => .inr (.inr ⟨hlambda, hqueue, h⟩)
        · rintro (h | h | ⟨_, _, h⟩)
          · cases h
          · simp [h]
          · exact h
      · have hnone : (notifications.filter fun n => n.event ∉ allowedEvents request.event) = [] :=
          List.filter_eq_nil_iff.mpr fun n hn => by simpa using hevents n hn
        rw [hnone]
        constructor
        · exact fun h => .inr (.inl h.symm)
        · rintro (h | h | ⟨hlambda, hqueue, _⟩)
          · cases h
          · exact h.symm
          · exact absurd ⟨hlambda, hqueue⟩ harn
    · refine iff_of_true (fun store' hput => ?_) (.inl rfl)
      rw [putBucketNotification, if_pos (bucketExists_of_find hfind), getBucketByRegionName_of_find hfind] at hput
      simp only [show ({ bucket with oid := k } : BucketRecord).hasNotification request.event = true from hnew,
        if_true] at hput
      cases hput

end Store

/-- The updates do what they owe exactly where no new configuration is skipped and no other notification is
    cleared. -/
theorem notification_updates_iff (uuid : Target → Nat → Str) (now : TimePoint) (store : BucketStore)
    (request : Dto.PutBucketNotificationConfigurationRequest) (single : PutBucketNotificationRequest) :
    ConfigurationsPut uuid now store request ∧ AddedAndDeleted now store single ↔
      (∀ k bucket, store.find request.region request.bucket = some (k, bucket) → ∀ target,
        NoneSkipped (uuid target) (bucket.toBucket.notifications target) (configurations request target)) ∧
      NothingCleared store single :=
  and_congr configurationsPut_iff addedAndDeleted_iff

/-! ### A configuration that is skipped -/

/-- A bucket that is notified of objects under the id `a`, and of one event. -/
def notifiedBucket : BucketStore := .ofList [(str "1", {
  region := str "eu"
  name := str "b"
  queueNotifications := [{ id := str "a", arn := str "q", events := [str "ObjectCreated"] }]
  notifications := [{ event := str "s3:ObjectRemoved:Delete", queueArn := str "q" }]
  created := 0
  modified := 0 })]

def configurationOf (id : String) : Dto.NotificationConfiguration :=
  { id := str id, arn := str "q", events := [.objectRemoved] }

/-- The configuration `b` comes after `a`, which is there. -/
def configureBoth : Dto.PutBucketNotificationConfigurationRequest :=
  { region := str "eu", bucket := str "b", queueConfigurations := [configurationOf "a", configurationOf "b"] }

def putCreated : PutBucketNotificationRequest :=
  { region := str "eu", bucket := str "b", queueArn := str "q", event := str "s3:ObjectCreated:Put" }

/-- The notification `b` is not there, and the notification of removals is gone. -/
theorem configuration_skipped :
    ¬ ConfigurationsPut (fun _ => letters 'u') 0 notifiedBucket configureBoth ∧
      ¬ AddedAndDeleted 0 notifiedBucket putCreated := by
  constructor
  · intro h
    have hskipped := configurationsPut_iff.mp h _ _ rfl .queue
    revert hskipped
    decide +kernel
  · intro h
    have hcleared := addedAndDeleted_iff.mp h _ _ rfl
    revert hcleared
    decide +kernel

end AwsMock.S3
