import AwsMock.Core.Poco
import AwsMock.Sns.MemoryDb

/-!
# Old messages and counts

The pass of the `SNSWorker` over the in-memory store, and the counts of the store against those of the
MongoDB branch over the same records. `none` is undefined behaviour: an overflow, or a loop that moves on
from a record that it erased.
-/

namespace AwsMock.Sns

open Lib Sqs

/-- `Poco::Timestamp` holds microseconds. -/
def toTimestamp (time : TimePoint) : TimePoint := time.tdiv 1000 * 1000

/-- What was created before this time is older than `timeout` seconds. -/
def resetTime (timeout : Int) (now : TimePoint) : TimePoint := toTimestamp (now - seconds timeout)

def Message.olderThan (timeout : Int) (now : TimePoint) (message : Message) : Bool :=
  message.created < resetTime timeout now

namespace SnsMemoryDb

/-- The loop over the entries: one that an earlier round erased is not reached, and each round erases all old
    messages, the one that the loop stands on too. -/
def deleteLoop (old : Message → Bool) : List (Str × Message) → OrderedMap Str Message →
    Option (OrderedMap Str Message)
  | [], messages => some messages
  | (oid, _) :: rest, messages =>
    if (messages.get? oid).isNone then deleteLoop old rest messages
    else
      let messages := messages.eraseIf fun _ message => old message
      if (messages.get? oid).isSome then deleteLoop old rest messages else none

def deleteOldMessages (db : SnsMemoryDb) (timeout : Int) (now : TimePoint) : Option SnsMemoryDb :=
  (deleteLoop (Message.olderThan timeout now) db.messages.entries db.messages).map fun messages =>
    { db with messages := messages }

/-- All four branches count. -/
def countMessages (db : SnsMemoryDb) (region topicArn : Str) : Nat :=
  db.messages.values.foldl (fun count message =>
    if region ≠ [] ∧ message.region = region ∧ topicArn ≠ [] ∧ message.topicArn = topicArn then count + 1
    else if region ≠ [] ∧ message.region = region then count + 1
    else if topicArn ≠ [] ∧ message.topicArn = topicArn then count + 1
    else count + 1) 0

def countTopics (db : SnsMemoryDb) (region : Str) : Nat :=
  if region = [] then db.topics.size else (db.topics.values.filter fun topic => topic.region = region).length

end SnsMemoryDb

/-- A pass of the worker, with the configured timeout: `_messageTimeout *= 60 * 24` is meant to give seconds. -/
def runWorker (timeout : Int) (now : TimePoint) (db : SnsMemoryDb) : Option SnsMemoryDb :=
  if IsInt (timeout * (60 * 24)) then db.deleteOldMessages (timeout * (60 * 24)) now else none

/-- `SNSDatabase::CountTopics` of the in-memory branch does not pass the region on. -/
def countTopics (db : SnsMemoryDb) (_region : Str) : Nat := db.countTopics []

/-! ### The MongoDB branch -/

/-- The filter document of `CountMessages`. -/
def messageFilter (region topicArn : Str) (message : Message) : Bool :=
  if region ≠ [] ∧ topicArn ≠ [] then message.region = region ∧ message.topicArn = topicArn
  else if region ≠ [] then message.region = region
  else true

/-- `count_documents`. -/
def countDocuments {α : Type} (filter : α → Bool) (collection : List α) : Nat := (collection.filter filter).length

theorem countDocuments_eq_length_iff {α : Type} {filter : α → Bool} {collection : List α} :
    collection.length = countDocuments filter collection ↔ ∀ a ∈ collection, filter a = true := by
  rw [countDocuments, eq_comm, List.length_filter_eq_length_iff]

/-! ### The pass -/

namespace SnsMemoryDb

variable (db : SnsMemoryDb) (old : Message → Bool)

/-- Without an old message the loop erases nothing. -/
theorem deleteLoop_none_old {messages : OrderedMap Str Message}
    (hnone : messages.eraseIf (fun _ message => old message) = messages) :
    ∀ entries : List (Str × Message), deleteLoop old entries messages = some messages
  | [] => rfl
  | (oid, _) :: rest => by
    have hrest := deleteLoop_none_old hnone rest
    simp only [deleteLoop, hnone, hrest]
    cases messages.get? oid with
    | none => rfl
    | some m => rfl

/-- The first round decides: it erases all old messages, and must not erase its own. -/
theorem deleteLoop_eq_some {messages' : OrderedMap Str Message} :
    deleteLoop old db.messages.entries db.messages = some messages' ↔
      (∀ e, db.messages.entries.head? = some e → old e.2 = false) ∧
        messages' = db.messages.eraseIf fun _ message => old message := by
  cases hentries : db.messages.entries with
  | nil =>
    have hempty : (db.messages.eraseIf fun _ message => old message) = db.messages := by
      refine OrderedMap.entries_injective ?_
      rw [OrderedMap.entries_eraseIf, hentries]
      rfl
    rw [deleteLoop, hempty, Option.some.injEq, eq_comm (a := db.messages)]
    simp
  | cons e rest =>
    have hget : db.messages.get? e.1 = some e.2 := OrderedMap.get?_eq_some.mpr (by simp [hentries])
    have hgone : ((db.messages.eraseIf fun _ message => old message).eraseIf fun _ message => old message) =
        db.messages.eraseIf fun _ message => old message :=
      OrderedMap.eraseIf_eraseIf_of_imp _ fun _ _ _ h => h
    simp only [deleteLoop, hget, OrderedMap.get?_eraseIf, deleteLoop_none_old old hgone, List.head?_cons,
      Option.some.injEq, forall_eq']
    cases hold : old e.2
    · simp [hold, eq_comm (b := messages')]
    · simp [hold]

/-- What a pass has to leave: the topics, and the messages that are not older than the timeout. -/
def without (timeout : Int) (now : TimePoint) : SnsMemoryDb :=
  { db with messages := db.messages.eraseIf fun _ message => message.olderThan timeout now }

theorem deleteOldMessages_eq_some {timeout : Int} {now : TimePoint} {db' : SnsMemoryDb} :
    db.deleteOldMessages timeout now = some db' ↔
      (∀ e, db.messages.entries.head? = some e → e.2.olderThan timeout now = false) ∧
        db' = db.without timeout now := by
  unfold deleteOldMessages
  rw [Option.map_eq_some_iff]
  constructor
  · rintro ⟨messages, hloop, rfl⟩
    obtain ⟨hfirst, rfl⟩ := (db.deleteLoop_eq_some _).mp hloop
    exact ⟨hfirst, rfl⟩
  · rintro ⟨hfirst, rfl⟩
    exact ⟨_, (db.deleteLoop_eq_some _).mpr ⟨hfirst, rfl⟩, rfl⟩

/-- Two timeouts leave the same messages exactly when the same ones are older. -/
theorem without_eq_iff {s t : Int} {now : TimePoint} :
    db.without s now = db.without t now ↔
      ∀ e ∈ db.messages.entries, e.2.olderThan s now = e.2.olderThan t now := by
  have hentries : db.without s now = db.without t now ↔
      (db.messages.entries.filter fun e => !e.2.olderThan s now) =
        db.messages.entries.filter fun e => !e.2.olderThan t now := by
    constructor
    · exact fun h => congrArg (·.messages.entries) h
    · exact fun h => congrArg (fun messages => { db with messages := messages }) (OrderedMap.entries_injective h)
  rw [hentries]
  constructor
  · intro h e he
    have hmem : e ∈ (db.messages.entries.filter fun e => !e.2.olderThan s now) ↔
        e ∈ db.messages.entries.filter fun e => !e.2.olderThan t now := by rw [h]
    simpa [he] using hmem
  · intro h
    exact List.filter_congr fun e he => by rw [h e he]

end SnsMemoryDb

/-! ### Counts -/

theorem SnsMemoryDb.countMessages_eq_length (db : SnsMemoryDb) (region topicArn : Str) :
    db.countMessages region topicArn = db.messages.values.length := by
  have hall : ∀ (messages : List Message) (count : Nat),
      messages.foldl (fun count _ => count + 1) count = count + messages.length := by
    intro messages
    induction messages with
    | nil => intro count; rfl
    | cons message messages ih =>
      intro count
      rw [List.foldl_cons, ih, List.length_cons]
      omega
  unfold countMessages
  simp only [ite_self]
  rw [hall, Nat.zero_add]

theorem countTopics_eq_length (db : SnsMemoryDb) (region : Str) :
    countTopics db region = db.topics.values.length := by
  simp [countTopics, SnsMemoryDb.countTopics, OrderedMap.size, OrderedMap.values]

/-! ### The main result -/

/-- A pass with a timeout of `days` ends, and removes what is older. -/
def CleansUp (db : SnsMemoryDb) (days : Nat) (now : TimePoint) : Prop :=
  runWorker days now db = some (db.without (days * 86400) now)

instance (db : SnsMemoryDb) (days : Nat) (now : TimePoint) : Decidable (CleansUp db days now) :=
  inferInstanceAs (Decidable (_ = _))

/-- The timeout is taken in units of 1440 seconds, and the first record must not be old. -/
theorem cleansUp_iff (db : SnsMemoryDb) (days : Nat) (now : TimePoint) :
    CleansUp db days now ↔ IsInt (days * 1440) ∧
      (∀ e, db.messages.entries.head? = some e → e.2.olderThan (days * 1440) now = false) ∧
        ∀ e ∈ db.messages.entries, e.2.olderThan (days * 1440) now = e.2.olderThan (days * 86400) now := by
  unfold CleansUp runWorker
  split
  · next hint =>
    rw [db.deleteOldMessages_eq_some, eq_comm (a := db.without _ now), db.without_eq_iff]
    exact (and_iff_right hint).symm
  · next hint => simpa using fun h => absurd h hint

/-- Clean-up and counts against what they are for. -/
theorem clean_up_and_counts_iff (db : SnsMemoryDb) (days : Nat) (now : TimePoint) (region topicArn : Str) :
    (CleansUp db days now ↔ IsInt (days * 1440) ∧
      (∀ e, db.messages.entries.head? = some e → e.2.olderThan (days * 1440) now = false) ∧
        ∀ e ∈ db.messages.entries, e.2.olderThan (days * 1440) now = e.2.olderThan (days * 86400) now) ∧
    (db.countMessages region topicArn = countDocuments (messageFilter region topicArn) db.messages.values ↔
      ∀ message ∈ db.messages.values, messageFilter region topicArn message = true) ∧
    (countTopics db region = countDocuments (fun topic => topic.region = region) db.topics.values ↔
      ∀ topic ∈ db.topics.values, topic.region = region) := by
  rw [db.countMessages_eq_length, countTopics_eq_length, countDocuments_eq_length_iff,
    countDocuments_eq_length_iff]
  exact ⟨cleansUp_iff db days now, .rfl, by simp⟩

/-- Two messages, the second an hour old; the timeout is one day. -/
theorem message_of_an_hour_deleted :
    ¬ ∀ (db : SnsMemoryDb) (days : Nat) (now : TimePoint), CleansUp db days now := by
  intro h
  exact absurd (h {
    messages := ((∅ : OrderedMap Str Message).insert (str "1") { created := seconds 172800, modified := 0 }).insert
      (str "2") { created := seconds 169200, modified := 0 }
  } 1 (seconds 172800)) (by decide +kernel)

end AwsMock.Sns
