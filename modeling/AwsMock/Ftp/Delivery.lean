import AwsMock.Ftp.DataChannel

/-!
# What a client receives

A connection that is accepted when the ones before it have come to rest. As long as no write fails, what was sent,
what is buffered or posted and what the file still has are the content, in this order.
-/

namespace AwsMock.Ftp

open Lib

/-- Its file has ended, and its handler has nothing to post but reads. -/
def Download.Stale (t : Download) : Prop := t.eof = true ∧ ∀ p ∈ t.posting, p = .read

/-- The data of a post. -/
def Post.data? : Post → Option (Option Str)
  | read => none
  | add data => some data

/-- What an `add` is given: the data, and what fetches more. -/
abbrev Addition := Option Str × Option Nat

/-- The posts of some additions for a connection. -/
def fileAdds (k : Nat) (adds : List Addition) : List FileTask := adds.map fun a => .add k a.1 a.2

def bufferAdds (k : Nat) (adds : List Addition) : List BufferTask := adds.map fun a => .add k a.1 a.2

@[simp] theorem bufferAdds_nil (k : Nat) : bufferAdds k [] = [] := rfl

@[simp] theorem bufferAdds_cons (k : Nat) (a : Addition) (adds : List Addition) :
    bufferAdds k (a :: adds) = .add k a.1 a.2 :: bufferAdds k adds := rfl

@[simp] theorem bufferAdds_append (k : Nat) (adds adds' : List Addition) :
    bufferAdds k (adds ++ adds') = bufferAdds k adds ++ bufferAdds k adds' := List.map_append

@[simp] theorem fileAdds_nil (k : Nat) : fileAdds k [] = [] := rfl

@[simp] theorem fileAdds_cons (k : Nat) (a : Addition) (adds : List Addition) :
    fileAdds k (a :: adds) = .add k a.1 a.2 :: fileAdds k adds := rfl

namespace DataChannel

/-- Nothing but reads of files that have ended is left to do. -/
structure Settled (c : DataChannel) : Prop where
  transfers : ∀ t ∈ c.transfers, t.Stale
  reads : ∃ js : List Nat, c.fileStrand = js.map .read
  buffer : c.bufferStrand = []
  writing : c.writing = []

/-- Nothing is left to do. -/
structure AtRest (c : DataChannel) : Prop where
  posting : ∀ t ∈ c.transfers, t.posting = []
  file : c.fileStrand = []
  buffer : c.bufferStrand = []
  writing : c.writing = []

/-- Where the writes stand: what is on the strand of the buffer, in the buffer and being written, with what of it is not
    sent yet, what is still to be added, and whether the chain of writes goes on to fetch more. -/
inductive Chain (k : Nat) (f : Option Nat) :
    List BufferTask → List (Option Str) → List Writing → List (Option Str) → List Addition → Bool → Prop
  | idle (adds : List Addition) : Chain k f (bufferAdds k adds) [] [] [] adds false
  | write (adds adds' : List Addition) (data : Option Str) (buffer : List (Option Str)) :
      Chain k f (bufferAdds k adds ++ .write k f :: bufferAdds k adds') (data :: buffer) [] (data :: buffer)
        (adds ++ adds') true
  | writing (adds : List Addition) (data : Str) (buffer : List (Option Str)) :
      Chain k f (bufferAdds k adds) (some data :: buffer) [⟨k, data, f⟩] (some data :: buffer) adds true
  | written (adds adds' : List Addition) (data : Option Str) (buffer : List (Option Str)) :
      Chain k f (bufferAdds k adds ++ .written k f false :: bufferAdds k adds') (data :: buffer) [] buffer
        (adds ++ adds') true
  | fetch (adds : List Addition) (buffer : List (Option Str)) :
      Chain k f (.fetch f :: .next k f :: bufferAdds k adds) buffer [] buffer adds true
  | next (adds : List Addition) (buffer : List (Option Str)) :
      Chain k f (.next k f :: bufferAdds k adds) buffer [] buffer adds false

/-- How far a transfer is: the file is being read, it has ended and its end is not sent yet, or all is answered. -/
inductive Stage (content : Str) (said : List FtpReplyCode) :
    List FtpReplyCode → Download → List (Option Str) → Prop
  | reading {t : Download} (chunks : List Str) (heof : t.eof = false)
      (h : content = t.sent ++ chunks.flatten ++ t.rest) : Stage content said said t (chunks.map some)
  | ending {t : Download} (chunks : List Str) (heof : t.eof = true) (h : content = t.sent ++ chunks.flatten) :
      Stage content said said t (chunks.map some ++ [none])
  | done {t : Download} (heof : t.eof = true) (h : content = t.sent) :
      Stage content said (said ++ [.closingDataConnection]) t []

/-- What reads on while the file has not ended. -/
structure Reading (k : Nat) (f : Option Nat) (t : Download) (adds fadds : List Addition) (js : List Nat)
    (live : Bool) : Prop where
  fetch : f = some k
  fetches : ∀ a ∈ adds ++ fadds, a.2 = some k
  more : live = true ∨ adds ≠ [] ∨ fadds ≠ [] ∨ k ∈ js ∨ .read ∈ t.posting

/-- The transfer over the `k`-th connection, of which no write has failed. -/
structure Flow (k : Nat) (content : Str) (said : List FtpReplyCode) (c : DataChannel) (t : Download)
    (f : Option Nat) (unsent : List (Option Str)) (adds fadds : List Addition) (js : List Nat)
    (live : Bool) : Prop where
  transfer : c.transfers[k]? = some t
  stale : ∀ i t', i ≠ k → c.transfers[i]? = some t' → t'.Stale
  chain : Chain k f c.bufferStrand c.dataBuffer c.writing unsent adds live
  file : c.fileStrand = fileAdds k fadds ++ js.map .read
  posting : (∀ p ∈ t.posting, p = .read) ∨ t.eof = true ∧ fadds = []
  stage : Stage content said c.said t
    (unsent ++ adds.map Prod.fst ++ fadds.map Prod.fst ++ t.posting.filterMap Post.data?)
  reading : t.eof = false → Reading k f t adds fadds js live

def Flows (k : Nat) (content : Str) (said : List FtpReplyCode) (c : DataChannel) : Prop :=
  ∃ t f unsent adds fadds js live, Flow k content said c t f unsent adds fadds js live

end DataChannel

/-- The events of the transfers that are accepted already, as long as the writes succeed. -/
def DataEvent.Succeeds : DataEvent → Prop
  | accepted _ | refused => False
  | completed _ error => error = none
  | post _ | file | buffer => True

namespace DataChannel

variable {k : Nat} {content : Str} {said : List FtpReplyCode} {c d : DataChannel} {t : Download} {f : Option Nat}
  {unsent : List (Option Str)} {adds fadds : List Addition} {js : List Nat} {live : Bool}

/-! ### One event of a transfer -/

theorem getElem?_set_self' {ts : List Download} {i : Nat} {t t' : Download} (h : ts[i]? = some t) :
    (ts.set i t')[i]? = some t' := by
  obtain ⟨hi, -⟩ := List.getElem?_eq_some_iff.mp h
  rw [List.getElem?_set_self hi]

/-- The other connections are the old ones. -/
theorem stale_set {ts : List Download} {t' : Download} (h : ∀ i t, i ≠ k → ts[i]? = some t → t.Stale) :
    ∀ i t, i ≠ k → (ts.set k t')[i]? = some t → t.Stale := by
  intro i t hi ht
  rw [List.getElem?_set_ne (Ne.symm hi)] at ht
  exact h i t hi ht

/-- A stage does not depend on what the handler has still to post. -/
theorem Stage.posted {said' : List FtpReplyCode} {posts : List Post} {pending : List (Option Str)}
    (h : Stage content said said' t pending) : Stage content said said' { t with posting := posts } pending := by
  cases h with
  | reading chunks heof h => exact .reading chunks heof h
  | ending chunks heof h => exact .ending chunks heof h
  | done heof h => exact .done heof h

/-- Data that is posted to the strand is added after all other. -/
theorem Chain.post {strand : List BufferTask} {buffer : List (Option Str)} {writing : List Writing} {a : Addition}
    (h : Chain k f strand buffer writing unsent adds live) :
    Chain k f (strand ++ [.add k a.1 a.2]) buffer writing unsent (adds ++ [a]) live := by
  have happend : ∀ adds, bufferAdds k adds ++ [.add k a.1 a.2] = bufferAdds k (adds ++ [a]) := by simp
  cases h with
  | idle adds =>
    rw [happend]
    exact .idle _
  | write adds adds' data buffer =>
    rw [List.append_assoc, List.cons_append, happend, List.append_assoc]
    exact .write adds (adds' ++ [a]) data _
  | writing adds data buffer =>
    rw [happend]
    exact .writing _ data _
  | written adds adds' data buffer =>
    rw [List.append_assoc, List.cons_append, happend, List.append_assoc]
    exact .written adds (adds' ++ [a]) data _
  | fetch adds buffer =>
    rw [List.cons_append, List.cons_append, happend]
    exact .fetch _ _
  | next adds buffer =>
    rw [List.cons_append, happend]
    exact .next _ _

/-- The handler of an old connection has only reads to post. -/
theorem Flow.post_other (h : Flow k content said c t f unsent adds fadds js live) {i : Nat} {t' : Download}
    (hi : i ≠ k) (ht' : c.transfers[i]? = some t') (hc : c.post i t' = some d) : Flows k content said d := by
  obtain ⟨heof, hreads⟩ := h.stale i t' hi ht'
  unfold post at hc
  split at hc
  · cases hc
  · next posts hposting =>
    cases hc
    refine ⟨t, f, unsent, adds, fadds, js ++ [i], live, ?_, ?_, h.chain, ?_, h.posting, h.stage, fun hopen => ?_⟩
    · rw [List.getElem?_set_ne hi]
      exact h.transfer
    · intro j t'' hj ht''
      rcases eq_or_ne j i with rfl | hji
      · rw [getElem?_set_self' ht'] at ht''
        cases ht''
        exact ⟨heof, fun p hp => hreads p (by rw [hposting]; exact List.mem_cons_of_mem _ hp)⟩
      · rw [List.getElem?_set_ne (Ne.symm hji)] at ht''
        exact h.stale j t'' hj ht''
    · simp [h.file]
    · obtain ⟨hf, hadds, hmore⟩ := h.reading hopen
      refine ⟨hf, hadds, ?_⟩
      rcases hmore with h | h | h | h | h
      · exact .inl h
      · exact .inr (.inl h)
      · exact .inr (.inr (.inl h))
      · exact .inr (.inr (.inr (.inl (List.mem_append_left _ h))))
      · exact .inr (.inr (.inr (.inr h)))
  · next data posts hposting =>
    have := hreads (.add data) (by rw [hposting]; exact List.mem_cons_self)
    cases this

/-- The handler of the connection itself makes its next post. -/
theorem Flow.post_self (h : Flow k content said c t f unsent adds fadds js live) (hc : c.post k t = some d) :
    Flows k content said d := by
  unfold post at hc
  split at hc
  · cases hc
  · next posts hposting =>
    cases hc
    refine ⟨{ t with posting := posts }, f, unsent, adds, fadds, js ++ [k], live, getElem?_set_self' h.transfer,
      stale_set h.stale, h.chain, by simp [h.file], ?_, ?_, fun hopen => ?_⟩
    · refine h.posting.imp_left fun hreads p hp => hreads p ?_
      rw [hposting]
      exact List.mem_cons_of_mem _ hp
    · have hstage := h.stage
      rw [hposting, List.filterMap_cons_none (by rfl)] at hstage
      exact hstage.posted
    · obtain ⟨hf, hadds, -⟩ := h.reading hopen
      exact ⟨hf, hadds, .inr (.inr (.inr (.inl (List.mem_append_right _ List.mem_cons_self))))⟩
  · next data posts hposting =>
    cases hc
    have hmem : Post.add data ∈ t.posting := by
      rw [hposting]
      exact List.mem_cons_self
    obtain hreads | ⟨heof, rfl⟩ := h.posting
    · cases hreads _ hmem
    · refine ⟨{ t with posting := posts }, f, unsent, adds ++ [(data, none)], [], js, live,
        getElem?_set_self' h.transfer, stale_set h.stale, h.chain.post (a := (data, none)), h.file,
        .inr ⟨heof, rfl⟩, ?_, fun hopen => ?_⟩
      · have hstage := h.stage
        rw [hposting, List.filterMap_cons_some (b := data) (by rfl)] at hstage
        simpa using hstage.posted
      · rw [heof] at hopen
        cases hopen

/-- A read of a file that has ended does nothing. -/
theorem readDataFromFileAndSend_eof {i : Nat} {tasks : List FileTask}
    (h : ∀ t, c.transfers[i]? = some t → t.eof = true) :
    c.readDataFromFileAndSend i tasks = { c with fileStrand := tasks } := by
  unfold readDataFromFileAndSend
  split
  · rfl
  · next t ht => rw [if_pos (h t ht)]

/-- A read of the file: the next chunk is posted, and after the last one the end. -/
theorem Flow.read (h : Flow k content said c t f unsent adds [] (k :: js) live) (hopen : t.eof = false) :
    Flows k content said (c.readDataFromFileAndSend k (js.map .read)) := by
  obtain ⟨hf, hadds, -⟩ := h.reading hopen
  have hreads : ∀ p ∈ t.posting, p = .read := by
    refine h.posting.resolve_right fun hend => ?_
    rw [hend.1] at hopen
    cases hopen
  have hnone : t.posting.filterMap Post.data? = [] := by
    rw [List.filterMap_eq_nil_iff]
    intro p hp
    rw [hreads p hp]
    rfl
  have hstage := h.stage
  rw [hnone, List.append_nil, List.map_nil, List.append_nil] at hstage
  obtain ⟨chunks, -, hpending, hcontent, hsaid⟩ : ∃ chunks : List Str, t.eof = false ∧
      unsent ++ adds.map Prod.fst = chunks.map some ∧ content = t.sent ++ chunks.flatten ++ t.rest ∧ c.said = said := by
    generalize hsaid : c.said = said' at hstage
    generalize hpending : unsent ++ adds.map Prod.fst = pending at hstage
    cases hstage with
    | reading chunks heof hcontent => exact ⟨chunks, heof, rfl, hcontent, rfl⟩
    | ending chunks heof => rw [hopen] at heof; cases heof
    | done heof => rw [hopen] at heof; cases heof
  unfold readDataFromFileAndSend
  simp only [h.transfer, hopen, Bool.false_eq_true, if_false]
  rcases heof : decide (t.rest.length < chunkSize) && !t.faulty with _ | _
  · -- there may be more
    refine ⟨{ t with rest := t.rest.drop chunkSize, eof := false }, f, unsent, adds,
      [(some (t.rest.take chunkSize), some k)], js, live, getElem?_set_self' h.transfer, stale_set h.stale, h.chain, rfl,
      .inl hreads, ?_, fun _ => ⟨hf, ?_, .inr (.inr (.inl (List.cons_ne_nil _ _)))⟩⟩
    · have hreading : Stage content said said { t with rest := t.rest.drop chunkSize, eof := false }
          ((chunks ++ [t.rest.take chunkSize]).map some) := by
        refine .reading _ rfl ?_
        simp [hcontent]
      simpa [hnone, hpending, hsaid] using hreading
    · intro a ha
      rcases List.mem_append.mp ha with ha | ha
      · exact hadds a (List.mem_append_left _ ha)
      · rw [List.mem_singleton.mp ha]
  · -- the end of the file
    have hlt : t.rest.length < chunkSize := by simpa using (Bool.and_eq_true_iff.mp heof).1
    refine ⟨{ t with rest := t.rest.drop chunkSize, eof := true }, f, unsent, adds,
      [(some (t.rest.take chunkSize), none), (none, none)], js, live, getElem?_set_self' h.transfer, stale_set h.stale,
      h.chain, rfl, .inl hreads, ?_, nofun⟩
    have hending : Stage content said said { t with rest := t.rest.drop chunkSize, eof := true }
        ((chunks ++ [t.rest.take chunkSize]).map some ++ [none]) := by
      refine .ending _ rfl ?_
      rw [List.take_of_length_le hlt.le]
      simp [hcontent]
    simpa [hnone, hpending, hsaid] using hending

/-- The strand of the files runs on. -/
theorem Flow.file_step (h : Flow k content said c t f unsent adds fadds js live) (hc : step .file c = some d) :
    Flows k content said d := by
  have hfile := h.file
  rcases fadds with _ | ⟨a, fadds⟩
  · rcases js with _ | ⟨j, js⟩
    · simp [step, hfile] at hc
    · simp only [step, hfile, fileAdds_nil, List.nil_append, List.map_cons, Option.some.injEq] at hc
      subst hc
      by_cases hend : ∀ t, c.transfers[j]? = some t → t.eof = true
      · -- nothing to read
        rw [readDataFromFileAndSend_eof hend]
        refine ⟨t, f, unsent, adds, [], js, live, h.transfer, h.stale, h.chain, rfl, h.posting, h.stage, fun hopen => ?_⟩
        obtain ⟨hf, hadds, hmore⟩ := h.reading hopen
        refine ⟨hf, hadds, ?_⟩
        rcases hmore with h' | h' | h' | h' | h'
        · exact .inl h'
        · exact .inr (.inl h')
        · exact .inr (.inr (.inl h'))
        · rcases List.mem_cons.mp h' with rfl | h'
          · rw [hend t h.transfer] at hopen
            cases hopen
          · exact .inr (.inr (.inr (.inl h')))
        · exact .inr (.inr (.inr (.inr h')))
      · -- only the file of this transfer has not ended
        obtain ⟨t', ht', hopen⟩ : ∃ t', c.transfers[j]? = some t' ∧ t'.eof = false := by
          simpa using hend
        have hj : j = k := by
          by_contra hj
          rw [(h.stale j t' hj ht').1] at hopen
          cases hopen
        subst hj
        rw [h.transfer] at ht'
        cases ht'
        exact h.read hopen
  · simp only [step, hfile, fileAdds_cons, List.cons_append, Option.some.injEq] at hc
    subst hc
    refine ⟨t, f, unsent, adds ++ [a], fadds, js, live, h.transfer, h.stale, h.chain.post, rfl, ?_, ?_, fun hopen => ?_⟩
    · exact h.posting.imp_right fun hend => absurd hend.2 (List.cons_ne_nil _ _)
    · simpa using h.stage
    · obtain ⟨hf, hadds, -⟩ := h.reading hopen
      refine ⟨hf, fun b hb => hadds b (by simpa using hb), .inr (.inl (by simp))⟩

/-- A read follows, in whatever way the chain of writes goes on. -/
theorem Reading.goesOn {f' : Option Nat} {adds' : List Addition} (h : Reading k f t adds fadds js live) (hf : f' = f)
    (hadds : ∀ a ∈ adds', a ∈ adds) : Reading k f' t adds' fadds js true := by
  refine ⟨hf.trans h.fetch, fun a ha => ?_, .inl rfl⟩
  rcases List.mem_append.mp ha with ha | ha
  · exact h.fetches a (List.mem_append_left _ (hadds a ha))
  · exact h.fetches a (List.mem_append_right _ ha)

/-- The chain of writes goes on, with the same data still to be sent. -/
theorem Flow.chained (h : Flow k content said c t f unsent adds fadds js live) {f' : Option Nat}
    {unsent' : List (Option Str)} {adds' : List Addition} {l : List Nat} {live' : Bool}
    (htransfers : d.transfers = c.transfers) (hsaid : d.said = c.said)
    (hchain : Chain k f' d.bufferStrand d.dataBuffer d.writing unsent' adds' live')
    (hfile : d.fileStrand = fileAdds k fadds ++ l.map .read)
    (hpending : unsent' ++ adds'.map Prod.fst = unsent ++ adds.map Prod.fst)
    (hreading : Reading k f t adds fadds js live → Reading k f' t adds' fadds l live') : Flows k content said d := by
  refine ⟨t, f', unsent', adds', fadds, l, live', ?_, ?_, hchain, hfile, h.posting, ?_,
    fun hopen => hreading (h.reading hopen)⟩
  · rw [htransfers]
    exact h.transfer
  · rw [htransfers]
    exact h.stale
  · rw [hsaid, hpending]
    exact h.stage

/-- The end of the transmission is the last that is sent. -/
theorem Stage.finish {said' : List FtpReplyCode} (pending : List (Option Str))
    (h : Stage content said said' t (none :: pending)) :
    pending = [] ∧ t.eof = true ∧ Stage content said (said' ++ [.closingDataConnection]) t [] := by
  generalize hpending : none :: pending = pending' at h
  cases h with
  | reading chunks heof h =>
    rcases chunks with _ | ⟨chunk, chunks⟩ <;> cases hpending
  | ending chunks heof h =>
    rcases chunks with _ | ⟨chunk, chunks⟩
    · cases hpending
      exact ⟨rfl, heof, .done heof (by simpa using h)⟩
    · cases hpending
  | done heof h => cases hpending

theorem Flow.buffer_step (h : Flow k content said c t f unsent adds fadds js live) (hc : step .buffer c = some d) :
    Flows k content said d := by
  have hchain := h.chain
  simp only [step, runBuffer] at hc
  generalize hstrand : c.bufferStrand = strand at hchain hc
  generalize hbuffer : c.dataBuffer = buffer at hchain hc
  generalize hwriting : c.writing = writing at hchain
  cases hchain with
  | idle adds =>
    rcases adds with _ | ⟨a, adds⟩
    · cases hc
    · -- an idle chain starts
      cases hc
      simp only [addDataToBufferAndSend, hbuffer, if_true, List.nil_append]
      refine h.chained rfl rfl (by simpa [hwriting] using .write adds [] a.1 []) h.file (by simp) fun hreading => ?_
      refine ⟨hreading.fetches a (by simp), fun b hb => hreading.fetches b (by simp at hb ⊢; tauto), .inl rfl⟩
  | write adds adds' data buffer =>
    rcases adds with _ | ⟨a, adds⟩
    · rcases data with _ | data
      · -- all is sent
        simp only [bufferAdds_nil, List.nil_append, writeDataToSocket, hbuffer, Option.some.injEq] at hc
        subst hc
        obtain ⟨hnil, heof, hdone⟩ := Stage.finish (buffer ++ (([] ++ adds').map Prod.fst) ++
          fadds.map Prod.fst ++ t.posting.filterMap Post.data?) (by simpa using h.stage)
        simp only [List.append_eq_nil_iff, List.nil_append, List.map_eq_nil_iff] at hnil
        obtain ⟨⟨⟨rfl, rfl⟩, rfl⟩, hposting⟩ := hnil
        refine ⟨t, f, [], [], [], js, false, h.transfer, h.stale, ?_, h.file, h.posting, by simpa [hposting] using hdone,
          fun hopen => ?_⟩
        · simpa [hwriting] using Chain.idle []
        · rw [heof] at hopen
          cases hopen
      · -- the next write starts
        simp only [bufferAdds_nil, List.nil_append, writeDataToSocket, hbuffer, Option.some.injEq] at hc
        subst hc
        refine h.chained rfl rfl (by simpa [hwriting, hbuffer] using .writing adds' data buffer) h.file rfl
          fun hreading => hreading.goesOn rfl fun _ hb => hb
    · cases hc
      simp only [addDataToBufferAndSend, hbuffer, List.cons_ne_nil, if_false, List.cons_append]
      refine h.chained rfl rfl (by simpa [hwriting] using .write adds adds' data (buffer ++ [a.1])) h.file (by simp)
        fun hreading => hreading.goesOn rfl fun _ hb => List.mem_cons_of_mem _ hb
  | writing adds data buffer =>
    rcases adds with _ | ⟨a, adds⟩
    · cases hc
    · cases hc
      simp only [addDataToBufferAndSend, hbuffer, List.cons_ne_nil, if_false, List.cons_append]
      refine h.chained rfl rfl (by simpa [hwriting] using .writing adds data (buffer ++ [a.1])) h.file (by simp)
        fun hreading => hreading.goesOn rfl fun _ hb => List.mem_cons_of_mem _ hb
  | written adds adds' data =>
    rcases adds with _ | ⟨a, adds⟩
    · cases hc
      refine h.chained rfl rfl (by simpa [hwriting] using .fetch adds' unsent) h.file rfl
        fun hreading => hreading.goesOn rfl fun _ hb => hb
    · cases hc
      simp only [addDataToBufferAndSend, hbuffer, List.cons_ne_nil, if_false, List.cons_append]
      refine h.chained rfl rfl (by simpa [hwriting] using .written adds adds' data (unsent ++ [a.1])) h.file (by simp)
        fun hreading => hreading.goesOn rfl fun _ hb => List.mem_cons_of_mem _ hb
  | fetch adds =>
    cases hc
    refine h.chained rfl rfl (by simpa [hwriting, hbuffer] using .next adds _) (l := js ++ f.toList)
      (by simp [h.file]) rfl fun hreading => ?_
    obtain ⟨rfl, hfetches, -⟩ := hreading
    exact ⟨rfl, hfetches, .inr (.inr (.inr (.inl (by simp))))⟩
  | next adds =>
    cases hc
    rcases unsent with _ | ⟨data, buffer⟩
    · have hidle : Chain k f (bufferAdds k adds) [] c.writing [] adds false := by simpa [hwriting] using .idle adds
      exact h.chained rfl rfl (by simpa [hbuffer] using hidle) h.file rfl id
    · simp only [List.cons_ne_nil, if_false]
      refine h.chained rfl rfl (by simpa [hwriting, hbuffer] using .write adds [] data buffer) h.file (by simp)
        fun hreading => hreading.goesOn rfl (by simp)

/-- The front of the buffer was sent. -/
theorem Stage.sent {said' : List FtpReplyCode} {data : Str} {pending : List (Option Str)}
    (h : Stage content said said' t (some data :: pending)) :
    Stage content said said' { t with sent := t.sent ++ data } pending := by
  generalize hpending : some data :: pending = pending' at h
  cases h with
  | reading chunks heof h =>
    rcases chunks with _ | ⟨chunk, chunks⟩
    · cases hpending
    · cases hpending
      exact .reading chunks heof (by simpa using h)
  | ending chunks heof h =>
    rcases chunks with _ | ⟨chunk, chunks⟩
    · cases hpending
    · cases hpending
      exact .ending chunks heof (by simpa using h)
  | done heof h => cases hpending

theorem Flow.completed_step (h : Flow k content said c t f unsent adds fadds js live) {m : Nat}
    (hc : step (.completed m none) c = some d) : Flows k content said d := by
  have hchain := h.chain
  simp only [step, complete] at hc
  generalize hstrand : c.bufferStrand = strand at hchain hc
  generalize hbuffer : c.dataBuffer = buffer at hchain
  generalize hwriting : c.writing = writing at hchain hc
  cases hchain with
  | writing adds data buffer =>
    rcases m with _ | m
    · simp only [List.getElem?_cons_zero, Option.getD_none, Nat.not_lt_zero, if_false, Option.some.injEq,
        List.take_length, List.eraseIdx_cons_zero, Option.isSome_none] at hc
      subst hc
      refine ⟨{ t with sent := t.sent ++ data }, f, buffer, adds, fadds, js, true, ?_, fun i t' hi ht' => ?_,
        ?_, h.file, h.posting, ?_, fun hopen => ?_⟩
      · rw [List.getElem?_modify_eq, h.transfer]
        rfl
      · dsimp only at ht'
        rw [List.getElem?_modify_ne _ _ (Ne.symm hi)] at ht'
        exact h.stale i t' hi ht'
      · have hwritten : Chain k f (bufferAdds k adds ++ .written k f false :: bufferAdds k []) (some data :: buffer) []
          buffer (adds ++ []) true := .written adds [] (some data) buffer
        simpa [hbuffer] using hwritten
      · exact Stage.sent (by simpa using h.stage)
      · obtain ⟨hf, hfetches, -⟩ := h.reading hopen
        exact ⟨hf, hfetches, .inl rfl⟩
    · simp at hc
  | idle adds => simp at hc
  | write adds adds' data buffer => simp at hc
  | written adds adds' data => simp at hc
  | fetch adds => simp at hc
  | next adds => simp at hc

theorem Flows.step {e : DataEvent} (h : Flows k content said c) (he : e.Succeeds) (hc : DataChannel.step e c = some d) :
    Flows k content said d := by
  obtain ⟨t, f, unsent, adds, fadds, js, live, h⟩ := h
  rcases e with source | _ | i | _ | _ | ⟨m, error⟩
  · exact he.elim
  · exact he.elim
  · obtain ⟨t', ht', hc⟩ := Option.bind_eq_some_iff.mp hc
    rcases eq_or_ne i k with rfl | hi
    · rw [h.transfer] at ht'
      cases ht'
      exact h.post_self hc
    · exact h.post_other hi ht' hc
  · exact h.file_step hc
  · exact h.buffer_step hc
  · cases he
    exact h.completed_step hc

theorem Flows.steps {es : List DataEvent} (h : Flows k content said c) (hes : ∀ e ∈ es, e.Succeeds)
    (hrun : Lib.steps DataChannel.step es c = some d) : Flows k content said d := by
  induction es generalizing c with
  | nil =>
    cases hrun
    exact h
  | cons e es ih =>
    obtain ⟨u, hu, hud⟩ := steps_cons_eq_some.mp hrun
    exact ih (h.step (hes e List.mem_cons_self) hu) (fun e' he' => hes e' (List.mem_cons_of_mem _ he')) hud

/-! ### The beginning and the end of a transfer -/

/-- A connection is accepted when all else has come to rest and nothing is buffered. -/
theorem flows_accept (hc : c.Settled) (hbuffer : c.dataBuffer = []) (source : Source) :
    Flows c.transfers.length source.content c.said (c.accept source) := by
  obtain ⟨js, hjs⟩ := hc.reads
  have htransfer : (c.accept source).transfers[c.transfers.length]? = some source.download := List.getElem?_concat_length
  have hstale : ∀ i t', i ≠ c.transfers.length → (c.accept source).transfers[i]? = some t' → t'.Stale := by
    intro i t' hi ht'
    rcases List.mem_append.mp (List.mem_of_getElem? ht') with hmem | hmem
    · exact hc.transfers t' hmem
    · rcases Nat.lt_or_gt_of_ne hi with hlt | hgt
      · rw [accept, List.getElem?_append_left hlt] at ht'
        exact hc.transfers t' (List.mem_of_getElem? ht')
      · rw [accept, List.getElem?_append_right hgt.le, List.getElem?_eq_none (by simp; omega)] at ht'
        cases ht'
  have hchain : Chain c.transfers.length (some c.transfers.length) (c.accept source).bufferStrand
      (c.accept source).dataBuffer (c.accept source).writing [] [] false := by
    simpa [accept, hc.buffer, hc.writing, hbuffer] using .idle []
  rcases source with ⟨content, faulty⟩ | text
  · refine ⟨_, _, _, _, [], js, _, htransfer, hstale, hchain, by simpa [accept] using hjs, .inl ?_,
      .reading [] rfl (by simp [Source.download, Source.content]), fun _ => ⟨rfl, by simp, ?_⟩⟩
    · simp [Source.download]
    · simp [Source.download]
  · exact ⟨_, _, _, _, [], js, _, htransfer, hstale, hchain, by simpa [accept] using hjs, .inr ⟨rfl, rfl⟩,
      .ending [text] rfl (by simp [Source.download, Source.content]), nofun⟩

/-- The content was sent over the `k`-th connection, and then its end was answered. -/
def Delivered (k : Nat) (content : Str) (said : List FtpReplyCode) (c : DataChannel) : Prop :=
  (∃ t, c.transfers[k]? = some t ∧ t.sent = content) ∧ c.said = said ++ [.closingDataConnection]

/-- A chain of writes has nothing to send when nothing is on the strand or written. -/
theorem Chain.rest {buffer : List (Option Str)} (h : Chain k f [] buffer [] unsent adds live) :
    buffer = [] ∧ unsent = [] ∧ adds = [] ∧ live = false := by
  generalize hstrand : ([] : List BufferTask) = strand at h
  generalize hwriting : ([] : List Writing) = writing at h
  cases h with
  | idle adds =>
    rcases adds with _ | ⟨a, adds⟩
    · exact ⟨rfl, rfl, rfl, rfl⟩
    · cases hstrand
  | write adds adds' => simp at hstrand
  | writing adds => cases hwriting
  | written adds adds' => simp at hstrand
  | fetch adds => cases hstrand
  | next adds => cases hstrand

/-- When all is at rest, the content was sent. -/
theorem Flows.delivered (h : Flows k content said c) (hrest : c.AtRest) :
    Delivered k content said c ∧ c.dataBuffer = [] := by
  obtain ⟨t, f, unsent, adds, fadds, js, live, h⟩ := h
  have hchain := h.chain
  rw [hrest.buffer, hrest.writing] at hchain
  obtain ⟨hbuffer, rfl, rfl, rfl⟩ := hchain.rest
  have hfile := h.file
  rw [hrest.file] at hfile
  obtain ⟨hfadds, hjs⟩ := List.append_eq_nil_iff.mp hfile.symm
  obtain rfl := List.map_eq_nil_iff.mp hfadds
  obtain rfl := List.map_eq_nil_iff.mp hjs
  have hposting := hrest.posting t (List.mem_of_getElem? h.transfer)
  have hstage := h.stage
  generalize hsaid : c.said = said' at hstage
  simp only [hposting, List.map_nil, List.filterMap_nil, List.append_nil] at hstage
  generalize hpending : ([] : List (Option Str)) = pending at hstage
  cases hstage with
  | reading chunks heof hcontent =>
    obtain ⟨-, -, hmore⟩ := h.reading heof
    simp [hposting] at hmore
  | ending chunks heof hcontent => simp at hpending
  | done heof hcontent => exact ⟨⟨⟨t, h.transfer, hcontent.symm⟩, hsaid⟩, hbuffer⟩

/-- What is sent is always the beginning of the content. -/
theorem Flows.sent_prefix (h : Flows k content said c) : ∃ t, c.transfers[k]? = some t ∧ t.sent <+: content := by
  obtain ⟨t, f, unsent, adds, fadds, js, live, h⟩ := h
  refine ⟨t, h.transfer, ?_⟩
  have hstage := h.stage
  generalize unsent ++ adds.map Prod.fst ++ fadds.map Prod.fst ++ t.posting.filterMap Post.data? = pending at hstage
  generalize c.said = said' at hstage
  cases hstage with
  | reading chunks heof hcontent =>
    rw [hcontent, List.append_assoc]
    exact List.prefix_append _ _
  | ending chunks heof hcontent =>
    rw [hcontent]
    exact List.prefix_append _ _
  | done heof hcontent =>
    exact hcontent ▸ List.prefix_rfl

/-! ### A buffer that nothing is written from -/

/-- Something is buffered, and nothing on the strand will write it. -/
structure Stuck (c : DataChannel) : Prop where
  buffer : c.dataBuffer ≠ []
  strand : ∀ task ∈ c.bufferStrand, ∃ i data fetchMore, task = .add i data fetchMore
  writing : c.writing = []

/-- Since then nothing was sent over a connection, and no transfer was answered. -/
structure Silent (c d : DataChannel) : Prop where
  sent : ∃ n, d.transfers.map Download.sent = c.transfers.map Download.sent ++ List.replicate n []
  said : d.said.count .closingDataConnection = c.said.count .closingDataConnection

theorem Silent.refl (c : DataChannel) : Silent c c := ⟨⟨0, by simp⟩, rfl⟩

theorem Silent.trans {b : DataChannel} (h : Silent b c) (h' : Silent c d) : Silent b d := by
  obtain ⟨⟨n, hn⟩, hsaid⟩ := h
  obtain ⟨⟨m, hm⟩, hsaid'⟩ := h'
  refine ⟨⟨n + m, ?_⟩, hsaid'.trans hsaid⟩
  rw [hm, hn, List.append_assoc, List.replicate_append_replicate]

theorem map_sent_set {ts : List Download} {i : Nat} {t t' : Download} (h : ts[i]? = some t) (hsent : t'.sent = t.sent) :
    (ts.set i t').map Download.sent = ts.map Download.sent := by
  have hmap : (ts.map Download.sent)[i]? = some t.sent := by rw [List.getElem?_map, h]; rfl
  rw [List.map_set, hsent]
  obtain ⟨hi, hget⟩ := List.getElem?_eq_some_iff.mp hmap
  rw [← hget, List.set_getElem_self]

/-- What leaves the sockets and the answers alone. -/
theorem Silent.same (hsent : d.transfers.map Download.sent = c.transfers.map Download.sent) (hsaid : d.said = c.said) :
    Silent c d := ⟨⟨0, by simp [hsent]⟩, by rw [hsaid]⟩

theorem Stuck.step {e : DataEvent} (h : c.Stuck) (hc : DataChannel.step e c = some d) : d.Stuck ∧ Silent c d := by
  obtain ⟨hbuffer, hstrand, hwriting⟩ := h
  have hadd : ∀ i data fetchMore, ∀ task ∈ c.bufferStrand ++ [BufferTask.add i data fetchMore],
      ∃ i data fetchMore, task = .add i data fetchMore := by
    intro i data fetchMore task htask
    rcases List.mem_append.mp htask with htask | htask
    · exact hstrand task htask
    · exact ⟨i, data, fetchMore, List.mem_singleton.mp htask⟩
  rcases e with source | _ | i | _ | _ | ⟨m, error⟩
  · cases hc
    refine ⟨⟨hbuffer, hstrand, hwriting⟩, ⟨1, ?_⟩, rfl⟩
    cases source <;> simp [accept, Source.download]
  · cases hc
    exact ⟨⟨hbuffer, hstrand, hwriting⟩, ⟨0, by simp⟩, by simp⟩
  · obtain ⟨t, ht, hc⟩ := Option.bind_eq_some_iff.mp hc
    unfold post at hc
    split at hc
    · cases hc
    · cases hc
      exact ⟨⟨hbuffer, hstrand, hwriting⟩, .same (map_sent_set ht rfl) rfl⟩
    · cases hc
      exact ⟨⟨hbuffer, hadd _ _ _, hwriting⟩, .same (map_sent_set ht rfl) rfl⟩
  · simp only [DataChannel.step] at hc
    split at hc
    · cases hc
    · cases hc
      unfold readDataFromFileAndSend
      split
      · exact ⟨⟨hbuffer, hstrand, hwriting⟩, .same rfl rfl⟩
      · next t ht =>
        split
        · exact ⟨⟨hbuffer, hstrand, hwriting⟩, .same rfl rfl⟩
        · exact ⟨⟨hbuffer, hstrand, hwriting⟩, .same (map_sent_set ht rfl) rfl⟩
    · cases hc
      exact ⟨⟨hbuffer, hadd _ _ _, hwriting⟩, .same rfl rfl⟩
  · simp only [DataChannel.step, runBuffer] at hc
    split at hc
    · cases hc
    · next i data fetchMore tasks htasks =>
      cases hc
      refine ⟨⟨by simp [addDataToBufferAndSend], ?_, hwriting⟩, .same rfl rfl⟩
      intro task htask
      simp only [addDataToBufferAndSend, if_neg hbuffer] at htask
      exact hstrand task (by rw [htasks]; exact List.mem_cons_of_mem _ htask)
    -- nothing else is on the strand
    all_goals
      next htasks =>
        obtain ⟨i, data, fetchMore, htask⟩ := hstrand _ (by rw [htasks]; exact List.mem_cons_self)
        cases htask
  · simp [DataChannel.step, complete, hwriting] at hc

theorem Stuck.steps {es : List DataEvent} (h : c.Stuck) (hrun : Lib.steps DataChannel.step es c = some d) :
    d.Stuck ∧ Silent c d := by
  induction es generalizing c with
  | nil =>
    cases hrun
    exact ⟨h, .refl _⟩
  | cons e es ih =>
    obtain ⟨u, hu, hud⟩ := steps_cons_eq_some.mp hrun
    obtain ⟨hstuck, hsilent⟩ := h.step hu
    obtain ⟨hstuck', hsilent'⟩ := ih hstuck hud
    exact ⟨hstuck', hsilent.trans hsilent'⟩

theorem Settled.stuck (hc : c.Settled) (hbuffer : c.dataBuffer ≠ []) : c.Stuck :=
  ⟨hbuffer, by simp [hc.buffer], hc.writing⟩

/-- The events of a file of one chunk. -/
def oneChunk : List DataEvent :=
  [.post 0, .file, .post 0, .file, .buffer, .file, .post 0, .buffer, .completed 0 none, .buffer, .buffer, .file, .file,
    .buffer, .buffer, .buffer]

/-- The first file of a session. -/
def firstFile : DataChannel := ({} : DataChannel).accept (.file (str "abc") false)

/-- The events of an empty list that is sent over the `k`-th connection. -/
def emptyList (k : Nat) : List DataEvent :=
  [.accepted (.list []), .post k, .post k, .buffer, .buffer, .buffer, .completed 0 none, .buffer, .buffer, .buffer,
    .buffer]

theorem emptyList_answered (hc : c.Settled) (hbuffer : c.dataBuffer = []) :
    ∃ d, Lib.steps step (emptyList c.transfers.length) c = some d ∧ d.said = c.said ++ [.closingDataConnection] := by
  simp [emptyList, Lib.steps, step, accept, post, Source.download, runBuffer, addDataToBufferAndSend, writeDataToSocket,
    complete, hc.buffer, hc.writing, hbuffer]

/-- A list whose write failed before its end was written. -/
def failedList : DataChannel := { transfers := [{ sent := str "a" }], dataBuffer := [none] }

end DataChannel

end AwsMock.Ftp
