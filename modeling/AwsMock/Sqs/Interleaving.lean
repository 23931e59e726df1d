import AwsMock.Sqs.Requests

/-!
# Interleaved store calls

What the calls of one party of an interleaving do by themselves, with the numbers they had in the run.
-/

namespace AwsMock.Sqs

open Lib

/-- The calls that have a result on every store. -/
def SqsCall.total : SqsCall → Bool
  | .updateMessage _ | .updateQueue _ | .messageRetention .. => false
  | _ => true

theorem SqsCall.total_apply (cfg : Configuration) (rt : Runtime) (n : Nat) (db : SqsMemoryDb)
    {c : SqsCall} (hc : c.total = true) : ∃ r, c.apply cfg rt n db = some r := by
  cases c with
  | updateMessage | updateQueue | messageRetention => cases hc
  | _ => exact ⟨_, rfl⟩

theorem exec_total {cfg : Configuration} {rt : Runtime} (w : World) {c : SqsCall}
    (hc : c.total = true) : ∃ r, exec cfg rt c w = some r := by
  obtain ⟨r, hr⟩ := c.total_apply cfg rt w.calls w.db hc
  exact ⟨(r.1, ⟨r.2, w.calls + 1⟩), exec_eq_some.mpr ⟨hr, rfl⟩⟩

/-- Execute calls that had these numbers in a run, without the other calls of the run. -/
def replay (cfg : Configuration) (rt : Runtime) : List (Nat × SqsCall) → SqsMemoryDb →
    Option SqsMemoryDb
  | [], db => some db
  | (n, c) :: cs, db => (c.apply cfg rt n db).bind fun r => replay cfg rt cs r.2

/-- The calls of the second program in a trace, with their numbers. -/
def othersOf (trace : List (Bool × SqsCall × World)) : List (Nat × SqsCall) :=
  trace.filterMap fun e => if e.1 then none else some (e.2.2.calls, e.2.1)

variable {cfg : Configuration} {rt : Runtime}

theorem replay_cons {n : Nat} {c : SqsCall} {cs : List (Nat × SqsCall)} {db : SqsMemoryDb}
    {r : c.Reply × SqsMemoryDb} (hr : c.apply cfg rt n db = some r) :
    replay cfg rt ((n, c) :: cs) db = replay cfg rt cs r.2 := by
  rw [replay, hr, Option.bind_some]

end AwsMock.Sqs
