import AwsMock.Ftp.Conversation

/-!
# The replies on their way to the client

A text is posted to the strand, comes to the end of the queue, and is written when it is the first of the queue. One
invariant says where each of them is.
-/

namespace AwsMock.Ftp

open Lib

variable {cfg : Config} {e : FtpEvent} {c c' : ControlChannel} {db : UserDatabase} {event : ControlEvent}

/-- What a handler on the strand pushes. -/
def StrandTask.pushed? : StrandTask → Option Posted
  | push p => some p
  | written _ => none

/-- The write that a handler on the strand ends. -/
def StrandTask.written? : StrandTask → Option Bool
  | push _ => none
  | written error => some error

def texts (posted : List Posted) : Str := (posted.map Posted.text).flatten

/-- What was sent is whole texts in the order they were posted; the last one may still be in the queue, and it is cut off
    when a write fails. -/
inductive Sending (c : ControlChannel) : Prop where
  | whole (done : List Posted)
      (hposted : c.posted = done ++ c.commandOutputQueue ++ c.commandWriteStrand.filterMap StrandTask.pushed?)
      (hsent : c.sent = texts done) (hwritten : c.commandWriteStrand.filterMap StrandTask.written? = [])
      (hfailed : c.failed = false) (hwriting : c.writing = !c.commandOutputQueue.isEmpty)
  | written (done rest : List Posted) (first : Posted) (hqueue : c.commandOutputQueue = first :: rest)
      (hposted : c.posted = done ++ c.commandOutputQueue ++ c.commandWriteStrand.filterMap StrandTask.pushed?)
      (hsent : c.sent = texts done ++ first.text)
      (hwritten : c.commandWriteStrand.filterMap StrandTask.written? = [false])
      (hfailed : c.failed = false) (hwriting : c.writing = false)
  | cut (done rest : List Posted) (first : Posted) (n : Nat) (hqueue : c.commandOutputQueue = first :: rest)
      (hposted : c.posted = done ++ c.commandOutputQueue ++ c.commandWriteStrand.filterMap StrandTask.pushed?)
      (hsent : c.sent = texts done ++ first.text.take n)
      (hwritten : ∀ error ∈ c.commandWriteStrand.filterMap StrandTask.written?, error = true)
      (hfailed : c.failed = true) (hwriting : c.writing = false)

theorem filterMap_pushed (ps : List Posted) : (ps.map StrandTask.push).filterMap StrandTask.pushed? = ps := by
  rw [List.filterMap_map]
  exact List.filterMap_some

theorem filterMap_written (ps : List Posted) : (ps.map StrandTask.push).filterMap StrandTask.written? = [] := by
  rw [List.filterMap_map]
  exact List.filterMap_none ps

/-- Nothing was posted, and nothing happened on the strand. -/
structure SameOutput (c c' : ControlChannel) : Prop where
  posted : c'.posted = c.posted
  queue : c'.commandOutputQueue = c.commandOutputQueue
  strand : c'.commandWriteStrand = c.commandWriteStrand
  sent : c'.sent = c.sent
  failed : c'.failed = c.failed
  writing : c'.writing = c.writing

theorem Sending.of_same (hc : Sending c) (h : SameOutput c c') : Sending c' := by
  cases hc with
  | whole done hp hs hw hf hr =>
    exact .whole done (by rw [h.posted, hp, h.queue, h.strand]) (h.sent.trans hs) (by rw [h.strand, hw])
      (h.failed.trans hf) (by rw [h.writing, h.queue, hr])
  | written done rest first hq hp hs hw hf hr =>
    exact .written done rest first (h.queue.trans hq) (by rw [h.posted, hp, h.queue, h.strand]) (h.sent.trans hs)
      (by rw [h.strand, hw]) (h.failed.trans hf) (h.writing.trans hr)
  | cut done rest first n hq hp hs hw hf hr =>
    exact .cut done rest first n (h.queue.trans hq) (by rw [h.posted, hp, h.queue, h.strand]) (h.sent.trans hs)
      (by rw [h.strand]; exact hw) (h.failed.trans hf) (h.writing.trans hr)

theorem Sending.post (hc : Sending c) (ps : List Posted) : Sending (c.post ps) := by
  have hpushed : (c.commandWriteStrand ++ ps.map StrandTask.push).filterMap StrandTask.pushed? =
      c.commandWriteStrand.filterMap StrandTask.pushed? ++ ps := by
    rw [List.filterMap_append, filterMap_pushed]
  have hwritten : (c.commandWriteStrand ++ ps.map StrandTask.push).filterMap StrandTask.written? =
      c.commandWriteStrand.filterMap StrandTask.written? := by
    rw [List.filterMap_append, filterMap_written, List.append_nil]
  cases hc with
  | whole done hp hs hw hf hr =>
    refine .whole done ?_ hs (hwritten.trans hw) hf hr
    rw [ControlChannel.post, hpushed, hp, ← List.append_assoc]
  | written done rest first hq hp hs hw hf hr =>
    refine .written done rest first hq ?_ hs (hwritten.trans hw) hf hr
    rw [ControlChannel.post, hpushed, hp, ← List.append_assoc]
  | cut done rest first n hq hp hs hw hf hr =>
    refine .cut done rest first n hq ?_ hs (hwritten ▸ hw) hf hr
    rw [ControlChannel.post, hpushed, hp, ← List.append_assoc]

theorem texts_append (done ps : List Posted) : texts (done ++ ps) = texts done ++ texts ps := by
  simp [texts]

theorem texts_concat (done : List Posted) (p : Posted) : texts (done ++ [p]) = texts done ++ p.text := by
  simp [texts]

/-- A text comes to the end of the queue. -/
theorem Sending.push {tasks : List StrandTask} {p : Posted} (hc : Sending c)
    (hstrand : c.commandWriteStrand = .push p :: tasks) :
    Sending (ControlChannel.runTask { c with commandWriteStrand := tasks } (.push p)) := by
  have hqueue : ∀ done : List Posted, done ++ c.commandOutputQueue ++ (p :: tasks.filterMap StrandTask.pushed?) =
      done ++ (c.commandOutputQueue ++ [p]) ++ tasks.filterMap StrandTask.pushed? := by
    intro done
    simp
  cases hc with
  | whole done hp hs hw hf hr =>
    rw [hstrand] at hp hw
    refine .whole done (hp.trans (hqueue done)) hs hw hf ?_
    simp [ControlChannel.runTask, hr]
  | written done rest first hq hp hs hw hf hr =>
    rw [hstrand] at hp hw
    refine .written done (rest ++ [p]) first ?_ (hp.trans (hqueue done)) hs hw hf ?_
    · simp [ControlChannel.runTask, hq]
    · simp [ControlChannel.runTask, hq, hr]
  | cut done rest first n hq hp hs hw hf hr =>
    rw [hstrand] at hp hw
    refine .cut done (rest ++ [p]) first n ?_ (hp.trans (hqueue done)) hs hw hf ?_
    · simp [ControlChannel.runTask, hq]
    · simp [ControlChannel.runTask, hq, hr]

/-- The first text leaves the queue, unless its write has failed. -/
theorem Sending.ended {tasks : List StrandTask} {error : Bool} (hc : Sending c)
    (hstrand : c.commandWriteStrand = .written error :: tasks) :
    Sending (ControlChannel.runTask { c with commandWriteStrand := tasks } (.written error)) := by
  have hhead : (StrandTask.written error :: tasks).filterMap StrandTask.written? =
      error :: tasks.filterMap StrandTask.written? := rfl
  cases hc with
  | whole done hp hs hw hf hr =>
    rw [hstrand, hhead] at hw
    cases hw
  | written done rest first hq hp hs hw hf hr =>
    rw [hstrand, hhead] at hw
    obtain ⟨rfl, htasks⟩ := List.cons.inj hw
    refine .whole (done ++ [first]) ?_ (by rw [texts_concat]; exact hs) htasks hf ?_
    · rw [hstrand, hq] at hp
      simpa [ControlChannel.runTask, hq, List.filterMap_cons, StrandTask.pushed?] using hp
    · simp [ControlChannel.runTask]
  | cut done rest first n hq hp hs hw hf hr =>
    rw [hstrand, hhead, List.forall_mem_cons] at hw
    obtain ⟨rfl, hw⟩ := hw
    rw [hstrand] at hp
    exact .cut done rest first n hq hp hs hw hf hr

/-- What an event does to the texts: they are left, more are posted, the strand runs a handler, or a write ends. -/
theorem step_output (h : ControlChannel.step cfg event c = some c') :
    SameOutput c c' ∨ (∃ d ps, SameOutput c d ∧ c' = d.post ps) ∨
      (∃ task tasks, c.commandWriteStrand = task :: tasks ∧
        c' = ControlChannel.runTask { c with commandWriteStrand := tasks } task) ∨
      ∃ error first rest, c.writing = true ∧ c.commandOutputQueue = first :: rest ∧
        c' = c.endWrite first error := by
  have hhandle : ∀ {e : FtpEvent} {d c' : ControlChannel}, SameOutput c d → ControlChannel.handle cfg e d = some c' →
      ∃ d ps, SameOutput c d ∧ c' = ControlChannel.post d ps := by
    intro e d c' hd h
    obtain ⟨q, texts, -, rfl, -⟩ := handle_eq_some h
    exact ⟨{ d with process := q }, _, ⟨hd.posted, hd.queue, hd.strand, hd.sent, hd.failed, hd.writing⟩, rfl⟩
  have hsame : SameOutput c c := ⟨rfl, rfl, rfl, rfl, rfl, rfl⟩
  unfold ControlChannel.step at h
  split at h
  · cases h
  cases event with
  | arrive data =>
    dsimp only at h
    split at h
    · cases h
      exact .inl ⟨rfl, rfl, rfl, rfl, rfl, rfl⟩
    · cases h
  | read host =>
    dsimp only at h
    split at h
    · next line rest hcut =>
      exact .inr (.inl (hhandle (d := { c with commandInputStream := rest }) ⟨rfl, rfl, rfl, rfl, rfl, rfl⟩ h))
    · cases h
  | closed =>
    dsimp only at h
    split at h
    · exact .inr (.inl (hhandle (d := { c with gone := true }) ⟨rfl, rfl, rfl, rfl, rfl, rfl⟩ h))
    · cases h
  | accepted i error => exact .inr (.inl (hhandle hsame h))
  | ended i host => exact .inr (.inl (hhandle hsame h))
  | other m =>
    cases h
    exact .inr (.inl ⟨c, _, hsame, rfl⟩)
  | strand =>
    dsimp only at h
    split at h
    · next task tasks hstrand =>
      cases h
      exact .inr (.inr (.inl ⟨task, tasks, hstrand, rfl⟩))
    · cases h
  | wrote error =>
    dsimp only at h
    split at h
    · next first rest hwriting hqueue =>
      cases h
      exact .inr (.inr (.inr ⟨error, first, rest, hwriting, hqueue, rfl⟩))
    · cases h

/-- The first text of the queue was written, or cut off. -/
theorem Sending.wrote {first : Posted} {rest : List Posted} (hc : Sending c) (hwriting : c.writing = true)
    (hqueue : c.commandOutputQueue = first :: rest) (error : Option Nat) :
    Sending (c.endWrite first error) := by
  cases hc with
  | whole done hp hs hw hf hr =>
    have hpushed : (c.commandWriteStrand ++ [StrandTask.written error.isSome]).filterMap StrandTask.pushed? =
        c.commandWriteStrand.filterMap StrandTask.pushed? := by
      simp [List.filterMap_cons, StrandTask.pushed?]
    have hwritten : (c.commandWriteStrand ++ [StrandTask.written error.isSome]).filterMap StrandTask.written? =
        [error.isSome] := by
      simp [hw, StrandTask.written?]
    cases error with
    | none =>
      exact .written done rest first hqueue (by rw [ControlChannel.endWrite, hpushed, hp])
        (congrArg (· ++ first.text) hs) hwritten (by rw [ControlChannel.endWrite, hf]; rfl) rfl
    | some n =>
      refine .cut done rest first n hqueue (by rw [ControlChannel.endWrite, hpushed, hp])
        (congrArg (· ++ first.text.take n) hs) ?_ (by rw [ControlChannel.endWrite, hf]; rfl) rfl
      rw [ControlChannel.endWrite, hwritten]
      exact List.forall_mem_singleton.mpr rfl
  | written done rest first hq hp hs hw hf hr => rw [hr] at hwriting; cases hwriting
  | cut done rest first n hq hp hs hw hf hr => rw [hr] at hwriting; cases hwriting

theorem Sending.step (hc : Sending c) (h : ControlChannel.step cfg event c = some c') : Sending c' := by
  obtain hsame | ⟨d, ps, hsame, rfl⟩ | ⟨task, tasks, hstrand, rfl⟩ | ⟨error, first, rest, hwriting, hqueue, rfl⟩ :=
    step_output h
  · exact hc.of_same hsame
  · exact (hc.of_same hsame).post ps
  · cases task with
    | push p => exact hc.push hstrand
    | written error => exact hc.ended hstrand
  · exact hc.wrote hwriting hqueue error

theorem sending_start (db : UserDatabase) : Sending (ControlChannel.start db) :=
  .whole [] rfl rfl rfl rfl rfl

/-- After a write has failed nothing is sent. -/
theorem failed_step (hc : Sending c) (hfailed : c.failed = true) (h : ControlChannel.step cfg event c = some c') :
    c'.sent = c.sent ∧ c'.failed = true := by
  obtain hsame | ⟨d, ps, hsame, rfl⟩ | ⟨task, tasks, -, rfl⟩ | ⟨error, first, rest, hwriting, -, rfl⟩ := step_output h
  · exact ⟨hsame.sent, hsame.failed.trans hfailed⟩
  · exact ⟨hsame.sent, hsame.failed.trans hfailed⟩
  · obtain ⟨-, -, -, -, -, hsent, hsame⟩ := runTask_same { c with commandWriteStrand := tasks } task
    exact ⟨hsent, hsame.trans hfailed⟩
  · -- a queue that was given up is not written
    cases hc with
    | whole done hp hs hw hf hr => rw [hf] at hfailed; cases hfailed
    | written done rest first hq hp hs hw hf hr => rw [hr] at hwriting; cases hwriting
    | cut done rest first n hq hp hs hw hf hr => rw [hr] at hwriting; cases hwriting

theorem failed_steps {more : List ControlEvent} (hc : Sending c) (hfailed : c.failed = true)
    (h : steps (ControlChannel.step cfg) more c = some c') : c'.sent = c.sent :=
  (steps_inv (I := fun d => Sending d ∧ d.failed = true ∧ d.sent = c.sent)
    (fun h hd => ⟨hd.1.step h, (failed_step hd.1 hd.2.1 h).2, (failed_step hd.1 hd.2.1 h).1.trans hd.2.2⟩) h
    ⟨hc, hfailed, rfl⟩).2.2

/-- In every run the client is sent whole texts, in the order in which they were posted: a beginning of all that was
    posted, and all of it when the strand rests and no write has failed. After a write that failed nothing is sent. -/
theorem sent_in_order {cfg : Config} {db : UserDatabase} {events : List ControlEvent} {c : ControlChannel}
    (hrun : steps (ControlChannel.step cfg) events (ControlChannel.start db) = some c) :
    c.sent <+: texts c.posted ∧
      (c.failed = false → ∃ n, c.sent = texts (c.posted.take n)) ∧
      (c.failed = false → c.writing = false → c.commandWriteStrand = [] → c.sent = texts c.posted) ∧
      (c.failed = true → ∀ more c', steps (ControlChannel.step cfg) more c = some c' → c'.sent = c.sent) := by
  have hc : Sending c := steps_inv (I := Sending) (fun h hc => hc.step h) hrun (sending_start db)
  refine ⟨?_, ?_, ?_, fun hfailed more c' h => failed_steps hc hfailed h⟩
  · cases hc with
    | whole done hp hs hw hf hr =>
      rw [hp, hs, List.append_assoc, texts_append]
      exact List.prefix_append ..
    | written done rest first hq hp hs hw hf hr =>
      rw [hp, hs, hq, List.append_assoc, texts_append, List.prefix_append_right_inj]
      exact List.prefix_append ..
    | cut done rest first n hq hp hs hw hf hr =>
      rw [hp, hs, hq, List.append_assoc, texts_append, List.prefix_append_right_inj]
      exact (List.take_prefix n first.text).trans (List.prefix_append ..)
  · intro hfailed
    cases hc with
    | whole done hp hs hw hf hr => exact ⟨done.length, by rw [hs, hp, List.append_assoc, List.take_left]⟩
    | written done rest first hq hp hs hw hf hr =>
      refine ⟨(done ++ [first]).length, ?_⟩
      have hfirst : done ++ first :: rest = done ++ [first] ++ rest := List.append_cons ..
      rw [hs, ← texts_concat, hp, hq, hfirst, List.append_assoc (done ++ [first]), List.take_left]
    | cut done rest first n hq hp hs hw hf hr => rw [hf] at hfailed; cases hfailed
  · intro hfailed hwriting hstrand
    cases hc with
    | whole done hp hs hw hf hr =>
      have hempty : c.commandOutputQueue = [] := by simpa [hwriting] using hr
      rw [hs, hp, hstrand, hempty, List.filterMap_nil, List.append_nil, List.append_nil]
    | written done rest first hq hp hs hw hf hr => rw [hstrand] at hw; cases hw
    | cut done rest first n hq hp hs hw hf hr => rw [hf] at hfailed; cases hfailed

theorem chunks_sent : ∃ c,
    steps (ControlChannel.step .sample) chunks (ControlChannel.start (addUsers (str "/data") [anonymous])) = some c ∧
    c.sent <+: texts c.posted ∧
      (c.failed = false → ∃ n, c.sent = texts (c.posted.take n)) ∧
      (c.failed = false → c.writing = false → c.commandWriteStrand = [] → c.sent = texts c.posted) ∧
      (c.failed = true → ∀ more c', steps (ControlChannel.step .sample) more c = some c' → c'.sent = c.sent) := by
  have hrun : steps (ControlChannel.step .sample) chunks
      (ControlChannel.start (addUsers (str "/data") [anonymous])) = some _ := rfl
  exact ⟨_, hrun, sent_in_order hrun⟩

end AwsMock.Ftp
