import AwsMock.Sqs.DeletePrecision
import Mathlib.Data.List.Duplicate

/-!
# Batch deletes

`DeleteMessageBatch` returns at the first entry whose message does not exist. So a batch does what it
says in every order of its entries only if no order lets it return too early.
-/

namespace AwsMock.Sqs

open Lib

variable {cfg : Configuration} {rt : Runtime} {db : SqsMemoryDb} {w : World}

/-! ### The loop -/

def DeleteMessageBatchRequest.handles (request : DeleteMessageBatchRequest) : List Str :=
  request.deleteMessageBatchEntries.map DeleteMessageBatchEntry.receiptHandle

/-- The store after the loop over some handles. -/
def SqsMemoryDb.deleteUntilMissing (db : SqsMemoryDb) : List Str → SqsMemoryDb
  | [] => db
  | h :: hs => if db.messageExists h then (db.deleteMessage h).deleteUntilMissing hs else db

theorem deleteMessageEntries_run : ∀ (entries : List DeleteMessageBatchEntry) (w : World),
    ∃ n, (deleteMessageEntries entries).run (exec cfg rt) w = some (.ok (),
      ⟨w.db.deleteUntilMissing (entries.map DeleteMessageBatchEntry.receiptHandle), n⟩)
  | [], w => ⟨w.calls, rfl⟩
  | entry :: entries, w => by
    rw [deleteMessageEntries, Prog.run_perform_bind]
    simp only [exec, SqsCall.apply, Option.map_some, Option.bind_some, List.map_cons,
      SqsMemoryDb.deleteUntilMissing]
    split
    · exact deleteMessageEntries_run entries ⟨w.db.deleteMessage entry.receiptHandle, w.calls + 2⟩
    · exact ⟨w.calls + 1, rfl⟩

theorem deleteMessageBatch_run (request : DeleteMessageBatchRequest) (w : World) :
    ∃ n, (deleteMessageBatch request).run (exec cfg rt) w =
      some (.ok (), ⟨w.db.deleteUntilMissing request.handles, n⟩) := by
  obtain ⟨n, hrun⟩ := @deleteMessageEntries_run cfg rt request.deleteMessageBatchEntries w
  exact ⟨n, by rw [deleteMessageBatch, guarded, Prog.run_mapThrow, hrun]; rfl⟩

/-! ### What is asked for -/

/-- The store without the messages that have a listed handle. -/
def SqsMemoryDb.deleteListed (db : SqsMemoryDb) (handles : List Str) : SqsMemoryDb :=
  { db with messages := db.messages.eraseIf fun _ message => message.receiptHandle ∈ handles }

/-- The listed messages are gone, the other ones are as before, and so it is in every order of the
    entries. -/
def BatchDeletes (cfg : Configuration) (rt : Runtime) (w : World) (request : DeleteMessageBatchRequest) : Prop :=
  ∃ w', (deleteMessageBatch request).run (exec cfg rt) w = some (.ok (), w') ∧ w'.db.queues = w.db.queues ∧
    (∀ k m, w.db.messages.get? k = some m → m.receiptHandle ∈ request.handles → w'.db.messages.get? k = none) ∧
    (∀ k, (∀ m, w.db.messages.get? k = some m → m.receiptHandle ∉ request.handles) →
      w'.db.messages.get? k = w.db.messages.get? k) ∧
    ∀ entries, entries.Perm request.deleteMessageBatchEntries → ∃ w'',
      (deleteMessageBatch { request with deleteMessageBatchEntries := entries }).run (exec cfg rt) w =
        some (.ok (), w'') ∧ w''.db = w'.db

/-- No handle is known, or all are, and each is listed once or no other is listed. -/
def Complete (db : SqsMemoryDb) (handles : List Str) : Prop :=
  (∀ h ∈ handles, db.messageExists h = false) ∨
    (∀ h ∈ handles, db.messageExists h = true) ∧ (handles.Nodup ∨ ∀ h ∈ handles, ∀ h' ∈ handles, h = h')

instance (db : SqsMemoryDb) (handles : List Str) : Decidable (Complete db handles) :=
  inferInstanceAs (Decidable (_ ∨ _ ∧ (_ ∨ _)))

theorem deleteListed_congr {handles handles' : List Str} (h : ∀ x, x ∈ handles ↔ x ∈ handles') :
    db.deleteListed handles = db.deleteListed handles' := by
  simp only [SqsMemoryDb.deleteListed, h]

theorem Complete.perm {handles handles' : List Str} (hperm : handles.Perm handles') (h : Complete db handles) :
    Complete db handles' := by
  simp only [Complete, hperm.mem_iff, hperm.nodup_iff] at h
  exact h

/-- Erasing what is listed, one handle after the other. -/
theorem deleteListed_deleteMessage (db : SqsMemoryDb) (h : Str) (hs : List Str) :
    (db.deleteMessage h).deleteListed hs = db.deleteListed (h :: hs) := by
  simp only [SqsMemoryDb.deleteListed, SqsMemoryDb.deleteMessage, SqsMemoryDb.mk.injEq, true_and]
  refine OrderedMap.ext_get? fun k => ?_
  simp only [OrderedMap.get?_eraseIf, List.mem_cons]
  cases db.messages.get? k with
  | none => rfl
  | some m => by_cases hm : m.receiptHandle = h <;> simp [Option.filter, hm]

/-- A message is listed only if its handle is known. -/
theorem messageExists_of_get? {k : Str} {m : Message} (h : db.messages.get? k = some m) :
    db.messageExists m.receiptHandle = true := messageExists_iff.mpr ⟨k, m, h, rfl⟩

theorem deleteListed_unknown {hs : List Str} (h : ∀ x ∈ hs, db.messageExists x = false) : db.deleteListed hs = db := by
  refine congrArg (SqsMemoryDb.mk db.queues) (OrderedMap.ext_get? fun k => ?_)
  rw [OrderedMap.get?_eraseIf]
  cases hk : db.messages.get? k with
  | none => rfl
  | some m =>
    have hnot : m.receiptHandle ∉ hs := by
      intro hm
      have hexists := messageExists_of_get? hk
      rw [h _ hm] at hexists
      cases hexists
    simp [Option.filter, hnot]

/-- Deleting one handle leaves the others known or unknown. -/
theorem messageExists_deleteMessage {h h' : Str} :
    (db.deleteMessage h).messageExists h' = (decide (h' ≠ h) && db.messageExists h') := by
  rw [Bool.eq_iff_iff, Bool.and_eq_true, decide_eq_true_iff, messageExists_iff, messageExists_iff]
  simp only [SqsMemoryDb.deleteMessage, OrderedMap.get?_eraseIf, Option.filter_eq_some_iff]
  constructor
  · rintro ⟨k, m, ⟨hm, hne⟩, rfl⟩
    exact ⟨by simpa using hne, k, m, hm, rfl⟩
  · rintro ⟨hne, k, m, hm, rfl⟩
    exact ⟨k, m, ⟨hm, by simpa using hne⟩, rfl⟩

/-- A batch that is complete deletes what is listed. -/
theorem deleteUntilMissing_of_complete : ∀ {hs : List Str} {db : SqsMemoryDb}, Complete db hs →
    db.deleteUntilMissing hs = db.deleteListed hs
  | [], db, _ => (deleteListed_unknown fun _ h => by cases h).symm
  | h :: hs, db, hcomplete => by
    rw [SqsMemoryDb.deleteUntilMissing]
    rcases hcomplete with hnone | ⟨hall, hone⟩
    · rw [hnone h List.mem_cons_self, deleteListed_unknown hnone]
      rfl
    · rw [if_pos (hall h List.mem_cons_self), ← deleteListed_deleteMessage]
      refine deleteUntilMissing_of_complete ?_
      rcases hone with hnodup | hsame
      · obtain ⟨hnot, hnodup⟩ := List.nodup_cons.mp hnodup
        refine .inr ⟨fun x hx => ?_, .inl hnodup⟩
        rw [messageExists_deleteMessage, hall x (List.mem_cons_of_mem _ hx), Bool.and_true, decide_eq_true_iff]
        rintro rfl
        exact hnot hx
      · refine .inl fun x hx => ?_
        rw [messageExists_deleteMessage, hsame x (List.mem_cons_of_mem _ hx) h List.mem_cons_self]
        simp

/-- A handle that the batch stops before. -/
theorem deleteUntilMissing_of_unknown {h : Str} {hs : List Str} (hnone : db.messageExists h = false) :
    db.deleteUntilMissing (h :: hs) = db := by
  rw [SqsMemoryDb.deleteUntilMissing, hnone]
  rfl

/-- The batch stops at the second entry for one message. -/
theorem deleteUntilMissing_of_twice {h : Str} {hs : List Str} (hknown : db.messageExists h = true) :
    db.deleteUntilMissing (h :: h :: hs) = db.deleteMessage h := by
  rw [SqsMemoryDb.deleteUntilMissing, if_pos hknown, deleteUntilMissing_of_unknown]
  simp [messageExists_deleteMessage]

/-! ### The result -/

/-- After such a batch, in any order, no listed handle is known. -/
theorem BatchDeletes.unknown {request : DeleteMessageBatchRequest} (h : BatchDeletes cfg rt w request)
    {entries : List DeleteMessageBatchEntry} (hperm : entries.Perm request.deleteMessageBatchEntries) {x : Str}
    (hx : x ∈ request.handles) :
    (w.db.deleteUntilMissing (entries.map DeleteMessageBatchEntry.receiptHandle)).messageExists x = false := by
  obtain ⟨w', -, -, hgone, hkept, horder⟩ := h
  obtain ⟨w'', hrun, hdb⟩ := horder entries hperm
  obtain ⟨n, hrun'⟩ := @deleteMessageBatch_run cfg rt { request with deleteMessageBatchEntries := entries } w
  cases hrun'.symm.trans hrun
  rw [Bool.eq_false_iff]
  intro hexists
  obtain ⟨k, m, hm, rfl⟩ := messageExists_iff.mp hexists
  have hm : w'.db.messages.get? k = some m := hdb ▸ hm
  by_cases hlisted : ∀ m, w.db.messages.get? k = some m → m.receiptHandle ∉ request.handles
  · exact hlisted m ((hkept k hlisted).symm.trans hm) hx
  · push Not at hlisted
    obtain ⟨m', hm', hin⟩ := hlisted
    cases (hgone k m' hm' hin).symm.trans hm

theorem BatchDeletes.complete {request : DeleteMessageBatchRequest} (h : BatchDeletes cfg rt w request) :
    Complete w.db request.handles := by
  by_cases hall : ∀ x ∈ request.handles, w.db.messageExists x = true
  · refine .inr ⟨hall, ?_⟩
    by_contra hnot
    push Not at hnot
    obtain ⟨hdup, a, ha, b, hb, hab⟩ := hnot
    obtain ⟨x, hx⟩ := List.exists_duplicate_iff_not_nodup.mpr hdup
    obtain ⟨l, hl, htwice⟩ := List.sublist_map_iff.mp (List.duplicate_iff_sublist.mp hx)
    obtain ⟨y, hy, hyx⟩ : ∃ y ∈ request.handles, y ≠ x := by
      rcases eq_or_ne a x with rfl | hne
      · exact ⟨b, hb, hab.symm⟩
      · exact ⟨a, ha, hne⟩
    -- the two entries first, then the others
    obtain ⟨rest, hperm⟩ := hl.exists_perm_append
    have hknown := h.unknown hperm.symm hy
    rw [List.map_append, ← htwice, List.cons_append, List.cons_append, deleteUntilMissing_of_twice (hall x hx.mem),
      messageExists_deleteMessage, hall y hy, Bool.and_true, decide_eq_false_iff_not] at hknown
    exact hknown hyx
  · push Not at hall
    obtain ⟨u, hu, hnone⟩ := hall
    obtain ⟨entry, hentry, rfl⟩ := List.mem_map.mp hu
    refine .inl fun x hx => ?_
    have hunknown := h.unknown (List.perm_cons_erase hentry).symm hx
    rwa [List.map_cons, deleteUntilMissing_of_unknown (Bool.eq_false_iff.mpr hnone)] at hunknown

theorem Complete.batchDeletes {request : DeleteMessageBatchRequest} (h : Complete w.db request.handles) :
    BatchDeletes cfg rt w request := by
  obtain ⟨n, hrun⟩ := @deleteMessageBatch_run cfg rt request w
  rw [deleteUntilMissing_of_complete h] at hrun
  refine ⟨_, hrun, rfl, fun k m hm hin => ?_, fun k hk => ?_, fun entries hperm => ?_⟩
  · simp only [SqsMemoryDb.deleteListed, OrderedMap.get?_eraseIf, hm]
    simp [Option.filter, hin]
  · simp only [SqsMemoryDb.deleteListed, OrderedMap.get?_eraseIf]
    cases hm : w.db.messages.get? k with
    | none => rfl
    | some m => simp [Option.filter, hk m hm]
  · have hhandles := hperm.map DeleteMessageBatchEntry.receiptHandle
    obtain ⟨n', hrun'⟩ := @deleteMessageBatch_run cfg rt { request with deleteMessageBatchEntries := entries } w
    refine ⟨_, hrun', ?_⟩
    exact (deleteUntilMissing_of_complete (h.perm hhandles.symm)).trans (deleteListed_congr fun x => hhandles.mem_iff)

/-- A batch deletes what it lists and nothing else, in every order, exactly when none of its handles is known,
    or all are and each is listed once or is the only one. -/
theorem deleteMessageBatch_iff (cfg : Configuration) (rt : Runtime) (w : World) (request : DeleteMessageBatchRequest) :
    BatchDeletes cfg rt w request ↔ Complete w.db request.handles :=
  ⟨BatchDeletes.complete, Complete.batchDeletes⟩

/-- An unknown handle before the handle of a message keeps the message in the queue. -/
theorem deleteMessageBatch_unknown_handle : ∃ l, Reachable .sample (.counting 20) l ∧
    ¬ BatchDeletes Env.sample.cfg (.counting 20) l.world { queueUrl := str "http://a", deleteMessageBatchEntries :=
      [{ id := str "1", receiptHandle := str "gone" },
        { id := str "2", receiptHandle := (Runtime.counting 20).receiptHandle 7 [] }] } := by
  have queue : Reachable .sample (.counting 20) _ := .calls
    [.createQueue { queueUrl := str "http://a", created := 0, modified := 0 }]
    .initial (by simp) rfl
  have sent := queue.send { queueUrl := str "http://a" } rfl
  refine ⟨_, sent, fun h => ?_⟩
  have hcomplete := (deleteMessageBatch_iff ..).mp h
  revert hcomplete
  decide

end AwsMock.Sqs
