import AwsMock.Sqs.Service
import AwsMock.Sqs.Steps

/-!
# The retention step

`MessageRetention` of the in-memory store looks for delayed messages whose deadline has passed, whatever
the retention period is, and deletes the first that it finds from under its own loop.
-/

namespace AwsMock.Sqs

open Lib

variable {cfg : Configuration} {rt : Runtime} {w : World} {queueUrl : Str} {retentionPeriod : Int}

/-- The message was sent more than the retention period ago. -/
def Message.expired (retentionPeriod : Int) (now : TimePoint) (message : Message) : Bool :=
  message.created < now - seconds retentionPeriod

/-- The call ends, the queues stay, and of the messages those of the queue that are expired are gone. -/
def Retains (cfg : Configuration) (rt : Runtime) (w : World) (queueUrl : Str) (retentionPeriod : Int) : Prop :=
  ∃ w', exec cfg rt (.messageRetention queueUrl retentionPeriod) w = some ((), w') ∧ w'.db.queues = w.db.queues ∧
    ∀ k, w'.db.messages.get? k = (w.db.messages.get? k).filter fun message =>
      ¬ (message.queueUrl = queueUrl ∧ message.expired retentionPeriod (rt.now w.calls) = true)

/-- The message that the loop stops at. -/
def Message.overdue (now : TimePoint) (message : Message) : Prop :=
  message.status = .delayed ∧ message.reset < now

theorem messageRetention_eq_some {db db' : SqsMemoryDb} {clock : Str → TimePoint} :
    db.messageRetention queueUrl clock = some db' ↔ db' = db ∧ ∀ k message, db.messages.get? k = some message →
      message.queueUrl = queueUrl → ¬ message.overdue (clock k) := by
  unfold SqsMemoryDb.messageRetention
  cases hfound : db.messages.findIf _ with
  | some e =>
    obtain ⟨hget, hp⟩ := OrderedMap.findIf_some hfound
    obtain ⟨hurl, hoverdue⟩ := of_decide_eq_true hp
    simp only [false_iff, not_and, reduceCtorEq]
    exact fun _ h => h e.1 e.2 hget hurl hoverdue
  | none =>
    simp only [Option.some.injEq, eq_comm (a := db), iff_self_and]
    rintro rfl k message hget hurl hoverdue
    have hp := OrderedMap.findIf_none.mp hfound k message hget
    exact of_decide_eq_false hp ⟨hurl, hoverdue⟩

/-- The retention step of a queue does what it is for exactly when it has nothing to do: no message of the queue
    is expired, and none is delayed and past its deadline. -/
theorem messageRetention_iff (cfg : Configuration) (rt : Runtime) (w : World) (queueUrl : Str) (retentionPeriod : Int) :
    Retains cfg rt w queueUrl retentionPeriod ↔ ∀ k message, w.db.messages.get? k = some message →
      message.queueUrl = queueUrl → message.expired retentionPeriod (rt.now w.calls) = false ∧
        ¬ message.overdue (rt.clock w.calls k) := by
  constructor
  · rintro ⟨w', hexec, -, hmessages⟩ k message hget hurl
    obtain ⟨db', hdb, -⟩ := Option.map_eq_some_iff.mp (exec_eq_some.mp hexec).1
    obtain ⟨hsame, hoverdue⟩ := messageRetention_eq_some.mp hdb
    obtain rfl : db' = w'.db := by
      have happly := (exec_eq_some.mp hexec).1
      simp only [SqsCall.apply, hdb, Option.map_some, Option.some.injEq, Prod.mk.injEq] at happly
      exact happly.2
    -- nothing was removed, so nothing is expired
    have hkept := hmessages k
    rw [hsame, hget, eq_comm, Option.filter_eq_some_iff] at hkept
    have hnot := of_decide_eq_true hkept.2
    refine ⟨?_, hoverdue k message hget hurl⟩
    rw [Bool.eq_false_iff]
    exact fun hexpired => hnot ⟨hurl, hexpired⟩
  · intro h
    have hdb : w.db.messageRetention queueUrl (rt.clock w.calls) = some w.db :=
      messageRetention_eq_some.mpr ⟨rfl, fun k message hget hurl => (h k message hget hurl).2⟩
    refine ⟨⟨w.db, w.calls + 1⟩, exec_eq_some.mpr ⟨by simp only [SqsCall.apply, hdb, Option.map_some], rfl⟩, rfl, fun k => ?_⟩
    cases hget : w.db.messages.get? k with
    | none => rfl
    | some message =>
      rw [eq_comm, Option.filter_eq_some_iff]
      refine ⟨rfl, decide_eq_true ?_⟩
      rintro ⟨hurl, hexpired⟩
      rw [(h k message hget hurl).1] at hexpired
      cases hexpired

/-- A queue with a message that is older than the retention period. -/
def oldMessage : World where
  db := { messages := .ofList [(str "m", { oid := str "m", queueUrl := str "http://a", created := 0, modified := 0 })] }
  calls := 18000

/-- The message stays. -/
theorem messageRetention_keeps_expired : ¬ Retains Env.sample.cfg (.counting 20) oldMessage (str "http://a") 345600 := by
  intro h
  have hnone := (messageRetention_iff ..).mp h (str "m") _ rfl rfl
  exact absurd hnone.1 (by decide)

end AwsMock.Sqs
