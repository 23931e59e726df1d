import AwsMock.Ftp.Delivery

/-!
# When a transfer ends

Each event costs a part of what a transfer can still lead to, unless the reads of its file end in an error: such a file
never ends, and is read on and on.
-/

namespace AwsMock.Ftp

open Lib

/-- The events of the transfers that are accepted already. -/
def DataEvent.Continues : DataEvent → Prop
  | accepted _ | refused => False
  | completed _ _ | post _ | file | buffer => True

theorem DataEvent.Succeeds.continues {e : DataEvent} (h : e.Succeeds) : e.Continues := by
  cases e <;> first | exact h | trivial

/-! How many events a post, a handler or a file can still lead to. -/

def Post.cost : Post → Nat
  | read => 2
  | add _ => 11

def FileTask.cost : FileTask → Nat
  | read _ => 1
  | add .. => 11

def BufferTask.cost : BufferTask → Nat
  | add .. => 10
  | write .. => 3
  | written .. => 1
  | fetch _ => 2
  | next .. => 4

def Download.cost (t : Download) : Nat :=
  (if t.eof then 0 else 23 * (t.rest.length / chunkSize + 1)) + (t.posting.map Post.cost).sum

namespace DataChannel

variable {k : Nat} {content : Str} {said : List FtpReplyCode} {c d : DataChannel} {t : Download} {f : Option Nat}
  {unsent : List (Option Str)} {adds fadds : List Addition} {js : List Nat} {live : Bool}

def cost (c : DataChannel) : Nat :=
  (c.transfers.map Download.cost).sum + (c.fileStrand.map FileTask.cost).sum +
    (c.bufferStrand.map BufferTask.cost).sum + 6 * c.dataBuffer.length + 2 * c.writing.length

/-- No file is left whose reads end in an error. -/
def Ends (c : DataChannel) : Prop := ∀ t ∈ c.transfers, t.faulty = true → t.eof = true

theorem sum_map_set {ts : List Download} {i : Nat} {t : Download} (t' : Download) (h : ts[i]? = some t) :
    ((ts.set i t').map Download.cost).sum + t.cost = (ts.map Download.cost).sum + t'.cost := by
  induction ts generalizing i with
  | nil => simp at h
  | cons u ts ih =>
    rcases i with _ | i
    · cases h
      simp only [List.set_cons_zero, List.map_cons, List.sum_cons]
      omega
    · have hrest := ih (i := i) h
      simp only [List.set_cons_succ, List.map_cons, List.sum_cons]
      omega

theorem Ends.set {ts : List Download} {i : Nat} {t' : Download} (h : ∀ t ∈ ts, t.faulty = true → t.eof = true)
    (ht' : t'.faulty = true → t'.eof = true) : ∀ t ∈ ts.set i t', t.faulty = true → t.eof = true := by
  intro t ht
  rcases List.mem_or_eq_of_mem_set ht with ht | rfl
  · exact h t ht
  · exact ht'

/-- Where a file ends, a read of it costs a chunk. -/
theorem cost_read {i : Nat} {tasks : List FileTask} (h : c.Ends) (hstrand : c.fileStrand = .read i :: tasks) :
    (c.readDataFromFileAndSend i tasks).cost < c.cost ∧ (c.readDataFromFileAndSend i tasks).Ends := by
  unfold readDataFromFileAndSend
  split
  · refine ⟨?_, h⟩
    simp only [cost, hstrand, List.map_cons, List.sum_cons, FileTask.cost]
    omega
  · next t ht =>
    split
    · refine ⟨?_, h⟩
      simp only [cost, hstrand, List.map_cons, List.sum_cons, FileTask.cost]
      omega
    · next hopen =>
      have hends := h t (List.mem_of_getElem? ht)
      have hfaulty : t.faulty = false := by
        rw [← Bool.not_eq_true]
        exact fun hfaulty => hopen (hends hfaulty)
      refine ⟨?_, Ends.set h (by simp [hfaulty])⟩
      have hsum := sum_map_set { t with
        rest := t.rest.drop chunkSize, eof := decide (t.rest.length < chunkSize) && !t.faulty } ht
      simp only [cost, hstrand]
      by_cases hlt : t.rest.length < chunkSize
      · simp only [hfaulty, hlt, decide_true, Bool.not_false, Bool.and_self, if_true, Download.cost, hopen,
          Bool.false_eq_true, if_false, Nat.div_eq_of_lt hlt] at hsum ⊢
        simp only [List.map_append, List.map_cons, List.map_nil, List.sum_append, List.sum_cons, List.sum_nil,
          FileTask.cost]
        omega
      · have hchunk : (t.rest.length - chunkSize) / chunkSize + 1 = t.rest.length / chunkSize := by
          rw [← Nat.add_div_right _ (by decide), Nat.sub_add_cancel (by omega)]
        simp only [hfaulty, hlt, decide_false, Bool.false_and, Bool.false_eq_true, if_false, Download.cost, hopen,
          List.length_drop] at hsum ⊢
        simp only [List.map_append, List.map_cons, List.map_nil, List.sum_append, List.sum_cons, List.sum_nil,
          FileTask.cost]
        omega

theorem cost_buffer (h : c.runBuffer = some d) : d.cost < c.cost ∧ d.transfers = c.transfers := by
  unfold runBuffer at h
  split at h
  · cases h
  · next i data fetchMore tasks hstrand =>
    cases h
    refine ⟨?_, rfl⟩
    simp only [cost, addDataToBufferAndSend, hstrand, List.map_cons, List.sum_cons, BufferTask.cost, List.length_append,
      List.length_cons, List.length_nil]
    split
    · simp only [List.map_append, List.map_cons, List.map_nil, List.sum_append, List.sum_cons, List.sum_nil,
        BufferTask.cost]
      omega
    · omega
  · next i fetchMore tasks hstrand =>
    unfold writeDataToSocket at h
    split at h
    · cases h
    · next data buffer hbuffer =>
      cases h
      refine ⟨?_, rfl⟩
      simp only [cost, hstrand, List.map_cons, List.sum_cons, BufferTask.cost, List.length_append,
        List.length_cons, List.length_nil]
      omega
    · next buffer hbuffer =>
      cases h
      refine ⟨?_, rfl⟩
      simp only [cost, hstrand, hbuffer, List.map_cons, List.sum_cons, BufferTask.cost, List.length_cons]
      omega
  · next i fetchMore error tasks hstrand =>
    split at h
    · cases h
    · next buffer hbuffer =>
      cases h
      refine ⟨?_, rfl⟩
      simp only [cost, hstrand, hbuffer, List.map_cons, List.sum_cons, BufferTask.cost, List.length_cons]
      split
      · omega
      · simp only [List.map_cons, List.sum_cons, BufferTask.cost]
        omega
  · next fetchMore tasks hstrand =>
    cases h
    refine ⟨?_, rfl⟩
    rcases fetchMore with _ | j
    · simp [cost, hstrand, BufferTask.cost]
    · simp [cost, hstrand, BufferTask.cost, FileTask.cost]
      omega
  · next i fetchMore tasks hstrand =>
    cases h
    refine ⟨?_, rfl⟩
    simp only [cost, hstrand, List.map_cons, List.sum_cons, BufferTask.cost]
    split
    · omega
    · simp only [List.map_append, List.map_cons, List.map_nil, List.sum_append, List.sum_cons, List.sum_nil,
        BufferTask.cost]
      omega

/-- What only changes fields that `g` does not read. -/
theorem map_modify_of_same {α : Type} {g : Download → α} {f : Download → Download} (h : ∀ t, g (f t) = g t)
    (ts : List Download) (i : Nat) : (ts.modify i f).map g = ts.map g := by
  refine List.ext_getElem? fun j => ?_
  rw [List.getElem?_map, List.getElem?_map, List.getElem?_modify]
  rcases ts[j]? with _ | t
  · rfl
  · by_cases hij : i = j
    · simp [hij, h]
    · simp [hij]

theorem cost_step {e : DataEvent} (h : c.Ends) (he : e.Continues) (hc : step e c = some d) :
    d.cost < c.cost ∧ d.Ends := by
  rcases e with source | _ | i | _ | _ | ⟨m, error⟩
  · exact he.elim
  · exact he.elim
  · obtain ⟨t, ht, hc⟩ := Option.bind_eq_some_iff.mp hc
    have hends := h t (List.mem_of_getElem? ht)
    unfold post at hc
    split at hc
    · cases hc
    · next posts hposting =>
      cases hc
      refine ⟨?_, Ends.set h hends⟩
      have hsum := sum_map_set { t with posting := posts } ht
      simp only [Download.cost, hposting, List.map_cons, List.sum_cons, Post.cost] at hsum
      simp only [cost, List.map_append, List.map_cons, List.map_nil, List.sum_append, List.sum_cons, List.sum_nil,
        FileTask.cost]
      omega
    · next data posts hposting =>
      cases hc
      refine ⟨?_, Ends.set h hends⟩
      have hsum := sum_map_set { t with posting := posts } ht
      simp only [Download.cost, hposting, List.map_cons, List.sum_cons, Post.cost] at hsum
      simp only [cost, List.map_append, List.map_cons, List.map_nil, List.sum_append, List.sum_cons, List.sum_nil,
        BufferTask.cost]
      omega
  · simp only [step] at hc
    split at hc
    · cases hc
    · next i tasks hstrand =>
      cases hc
      exact cost_read h hstrand
    · next i data fetchMore tasks hstrand =>
      cases hc
      refine ⟨?_, h⟩
      simp only [cost, hstrand, List.map_append, List.map_cons, List.map_nil, List.sum_append, List.sum_cons,
        List.sum_nil, FileTask.cost, BufferTask.cost]
      omega
  · obtain ⟨hcost, htransfers⟩ := cost_buffer hc
    exact ⟨hcost, by rw [Ends, htransfers]; exact h⟩
  · simp only [step, complete] at hc
    split at hc
    · cases hc
    · next w hw =>
      split at hc
      · cases hc
      · cases hc
        obtain ⟨hm, -⟩ := List.getElem?_eq_some_iff.mp hw
        have hlength := List.length_eraseIdx_of_lt hm
        have hsum := map_modify_of_same (g := Download.cost) (f := fun t =>
          { t with sent := t.sent ++ w.data.take (error.getD w.data.length) }) (fun _ => rfl) c.transfers w.i
        refine ⟨?_, fun t' ht' => ?_⟩
        · simp only [cost, hsum, hlength, List.map_append, List.map_cons, List.map_nil, List.sum_append, List.sum_cons,
            List.sum_nil, BufferTask.cost]
          omega
        · have hflags := map_modify_of_same (g := fun t => (t.faulty, t.eof)) (f := fun t =>
            { t with sent := t.sent ++ w.data.take (error.getD w.data.length) }) (fun _ => rfl) c.transfers w.i
          have hmem : (t'.faulty, t'.eof) ∈ c.transfers.map fun t => (t.faulty, t.eof) := by
            rw [← hflags]
            exact List.mem_map_of_mem ht'
          obtain ⟨t, ht, hsame⟩ := List.mem_map.mp hmem
          obtain ⟨hfaulty, heof⟩ := Prod.mk.inj hsame
          rw [← hfaulty, ← heof]
          exact h t ht

/-- A run is not longer than what it started with costs. -/
theorem length_le_cost {es : List DataEvent} (h : c.Ends) (hes : ∀ e ∈ es, e.Continues)
    (hrun : Lib.steps step es c = some d) : es.length ≤ c.cost := by
  induction es generalizing c with
  | nil => exact Nat.zero_le _
  | cons e es ih =>
    obtain ⟨u, hu, hud⟩ := steps_cons_eq_some.mp hrun
    obtain ⟨hcost, hends⟩ := cost_step h (hes e List.mem_cons_self) hu
    have hle := ih hends (fun e' he' => hes e' (List.mem_cons_of_mem _ he')) hud
    rw [List.length_cons]
    omega

/-! ### Files that do not end -/

/-- A chain of writes that is not idle has something on the strand that can run. -/
theorem Flow.buffer_enabled (h : Flow k content said c t f unsent adds fadds js live) (hne : c.bufferStrand ≠ []) :
    ∃ d, step .buffer c = some d := by
  have hchain := h.chain
  simp only [step, runBuffer]
  generalize hstrand : c.bufferStrand = strand at hchain hne
  generalize hbuffer : c.dataBuffer = buffer at hchain
  generalize hwriting : c.writing = writing at hchain
  cases hchain with
  | idle adds =>
    rcases adds with _ | ⟨a, adds⟩
    · exact absurd rfl hne
    · exact ⟨_, rfl⟩
  | write adds adds' data buffer =>
    rcases adds with _ | ⟨a, adds⟩
    · rcases data with _ | data <;>
        exact ⟨_, by simp only [bufferAdds_nil, List.nil_append, writeDataToSocket, hbuffer]; rfl⟩
    · exact ⟨_, rfl⟩
  | writing adds data buffer =>
    rcases adds with _ | ⟨a, adds⟩
    · exact absurd rfl hne
    · exact ⟨_, rfl⟩
  | written adds adds' data =>
    rcases adds with _ | ⟨a, adds⟩
    · exact ⟨_, rfl⟩
    · exact ⟨_, rfl⟩
  | fetch adds => exact ⟨_, rfl⟩
  | next adds => exact ⟨_, rfl⟩

/-- Something happens as long as the file has not ended. -/
theorem Flow.enabled (h : Flow k content said c t f unsent adds fadds js live) (hopen : t.eof = false) :
    ∃ e d, DataEvent.Succeeds e ∧ step e c = some d := by
  by_cases hstrand : c.bufferStrand = []
  · by_cases hfile : c.fileStrand = []
    · have hfiles := h.file
      rw [hfile] at hfiles
      obtain ⟨hfadds, hjs⟩ := List.append_eq_nil_iff.mp hfiles.symm
      obtain rfl := List.map_eq_nil_iff.mp hfadds
      obtain rfl := List.map_eq_nil_iff.mp hjs
      obtain ⟨-, -, hmore⟩ := h.reading hopen
      have hchain := h.chain
      rw [hstrand] at hchain
      rcases hwriting : c.writing with _ | ⟨w, writing⟩
      · rw [hwriting] at hchain
        obtain ⟨-, rfl, rfl, rfl⟩ := hchain.rest
        -- only the handler of the connection goes on
        have hread : .read ∈ t.posting := by simpa using hmore
        rcases hposting : t.posting with _ | ⟨p, posts⟩
        · rw [hposting] at hread
          cases hread
        · cases p <;> exact ⟨.post k, _, trivial, by simp only [step, h.transfer, Option.bind_some, post, hposting]; rfl⟩
      · exact ⟨.completed 0 none, _, rfl, by simp [step, complete, hwriting]; rfl⟩
    · rcases hfiles : c.fileStrand with _ | ⟨task, tasks⟩
      · exact absurd hfiles hfile
      · cases task <;> exact ⟨.file, _, trivial, by simp only [step, hfiles]; rfl⟩
  · obtain ⟨d, hd⟩ := h.buffer_enabled hstrand
    exact ⟨.buffer, d, trivial, hd⟩

/-- The reads of the `k`-th file end in an error. -/
def Endless (k : Nat) (c : DataChannel) : Prop :=
  ∃ t, c.transfers[k]? = some t ∧ t.faulty = true ∧ t.eof = false

theorem Endless.set {i : Nat} {t t' : Download} (h : Endless k c) (ht : c.transfers[i]? = some t)
    (htransfers : d.transfers = c.transfers.set i t') (hfaulty : t'.faulty = t.faulty)
    (heof : t.faulty = true → t.eof = false → t'.eof = false) : Endless k d := by
  obtain ⟨u, hu, hufaulty, hueof⟩ := h
  rcases eq_or_ne i k with rfl | hi
  · rw [ht] at hu
    cases hu
    exact ⟨t', by rw [htransfers]; exact getElem?_set_self' ht, hfaulty.trans hufaulty, heof hufaulty hueof⟩
  · exact ⟨u, by rw [htransfers, List.getElem?_set_ne hi]; exact hu, hufaulty, hueof⟩

theorem Endless.step {e : DataEvent} (h : Endless k c) (he : e.Succeeds) (hc : DataChannel.step e c = some d) :
    Endless k d := by
  rcases e with source | _ | i | _ | _ | ⟨m, error⟩
  · exact he.elim
  · exact he.elim
  · obtain ⟨t, ht, hc⟩ := Option.bind_eq_some_iff.mp hc
    unfold post at hc
    split at hc
    · cases hc
    · cases hc
      exact h.set ht rfl rfl fun _ heof => heof
    · cases hc
      exact h.set ht rfl rfl fun _ heof => heof
  · simp only [DataChannel.step] at hc
    split at hc
    · cases hc
    · cases hc
      unfold readDataFromFileAndSend
      split
      · exact h
      · next t ht =>
        split
        · exact h
        · exact h.set ht rfl rfl fun hfaulty _ => by simp [hfaulty]
    · cases hc
      exact h
  · obtain ⟨-, htransfers⟩ := cost_buffer hc
    obtain ⟨t, ht, hflags⟩ := h
    exact ⟨t, by rw [htransfers]; exact ht, hflags⟩
  · simp only [DataChannel.step, complete] at hc
    split at hc
    · cases hc
    · next w hw =>
      split at hc
      · cases hc
      · cases hc
        obtain ⟨t, ht, hflags⟩ := h
        by_cases hi : w.i = k
        · subst hi
          exact ⟨{ t with sent := t.sent ++ w.data.take (error.getD w.data.length) }, by
            rw [List.getElem?_modify_eq, ht]; rfl, hflags⟩
        · exact ⟨t, by rw [List.getElem?_modify_ne _ _ hi]; exact ht, hflags⟩

/-- Such a transfer goes on for any number of events. -/
theorem exists_run {n : Nat} (h : Flows k content said c) (hendless : Endless k c) :
    ∃ es d, (∀ e ∈ es, DataEvent.Succeeds e) ∧ Lib.steps step es c = some d ∧ es.length = n := by
  induction n generalizing c with
  | zero => exact ⟨[], c, by simp, rfl, rfl⟩
  | succ n ih =>
    obtain ⟨e, u, he, hu⟩ : ∃ e u, DataEvent.Succeeds e ∧ step e c = some u := by
      obtain ⟨t, ht, -, hopen⟩ := hendless
      obtain ⟨t', f, unsent, adds, fadds, js, live, hflow⟩ := h
      rw [hflow.transfer] at ht
      cases ht
      exact hflow.enabled hopen
    obtain ⟨es, d, hes, hrun, hlength⟩ := ih (h.step he hu) (hendless.step he hu)
    refine ⟨e :: es, d, ?_, steps_cons_eq_some.mpr ⟨u, hu, hrun⟩, by rw [List.length_cons, hlength]⟩
    intro e' he'
    rcases List.mem_cons.mp he' with rfl | he'
    · exact he
    · exact hes e' he'

end DataChannel

end AwsMock.Ftp
