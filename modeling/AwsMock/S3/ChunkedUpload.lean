import AwsMock.S3.Requests

/-!
# Chunked uploads

An `aws-chunked` body announces each chunk by its size and signature, and ends with an empty chunk. The
unversioned path of `PutObject` takes its first chunk up to a NUL; the versioned path takes the body as
it is.
-/

namespace AwsMock.S3

open Lib

/-- A chunk: its announced size in hexadecimal digits, its signature and its data. -/
structure Chunk where
  size : Str
  signature : Str
  data : Str
  size_ne : size ≠ []
  size_hex : ∀ c ∈ size, isHexDigit c
  size_eq : hexValue size = data.length
  signature_line : byte '\n' ∉ signature

def Chunk.encode (chunk : Chunk) : Str :=
  chunk.size ++ str ";chunk-signature=" ++ chunk.signature ++ str "\r\n" ++ chunk.data ++ str "\r\n"

/-- An encoding of a content. -/
structure Chunked (content : Str) where
  chunks : List Chunk
  last : Chunk
  data_ne : ∀ chunk ∈ chunks, chunk.data ≠ []
  last_data : last.data = []
  joined : chunks.flatMap Chunk.data = content

namespace Chunked

variable {content : Str}

def body (e : Chunked content) : Str := e.chunks.flatMap Chunk.encode ++ e.last.encode

/-- The chunk a reader meets first. -/
def first (e : Chunked content) : Chunk := e.chunks.headD e.last

theorem body_eq (e : Chunked content) : ∃ more, e.body = e.first.encode ++ more := by
  unfold body first
  rcases e.chunks with _ | ⟨chunk, chunks⟩
  · exact ⟨[], by simp⟩
  · exact ⟨chunks.flatMap Chunk.encode ++ e.last.encode, by simp⟩

/-- The first chunk is all of the content when it is the only one. -/
theorem first_data_eq_iff (e : Chunked content) :
    e.first.data = content ↔ e.chunks.length ≤ 1 := by
  have hjoined := e.joined
  have hne := e.data_ne
  unfold first
  rcases hchunks : e.chunks with _ | ⟨chunk, _ | ⟨chunk', chunks⟩⟩
  · rw [hchunks] at hjoined
    simp [← hjoined, e.last_data]
  · rw [hchunks] at hjoined
    simp [← hjoined]
  · rw [hchunks] at hjoined hne
    have hchunk' := List.length_pos_iff.mpr (hne chunk' (by simp))
    simp only [List.headD_cons, List.length_cons, Nat.reduceLeDiff, iff_false]
    intro h
    have hlength := congrArg List.length (h.trans hjoined.symm)
    simp only [List.flatMap_cons, List.length_append] at hlength
    omega

theorem first_length_le (e : Chunked content) : e.first.data.length ≤ content.length := by
  have hjoined := e.joined
  unfold first
  rcases hchunks : e.chunks with _ | ⟨chunk, chunks⟩
  · simp [e.last_data]
  · rw [hchunks] at hjoined
    simp [← hjoined]

end Chunked

theorem Chunk.length_encode (chunk : Chunk) : chunk.data.length < chunk.encode.length := by
  simp only [encode, List.length_append]
  have : (str "\r\n").length = 2 := rfl
  omega

/-- The chunk lines make every encoding longer than its content. -/
theorem Chunked.length_body {content : Str} (e : Chunked content) :
    content.length < e.body.length := by
  have hsum : ∀ chunks : List Chunk,
      (chunks.flatMap Chunk.data).length ≤ (chunks.flatMap Chunk.encode).length := by
    intro chunks
    induction chunks with
    | nil => simp
    | cons chunk chunks ih =>
      have := chunk.length_encode
      simp only [List.flatMap_cons, List.length_append]
      omega
  have hlast := e.last.length_encode
  have := hsum e.chunks
  rw [e.joined] at this
  simp only [body, List.length_append]
  omega

/-- A content as a client sends it: plain, or in chunks. -/
structure Payload where
  content : Str
  chunked : Option (Chunked content) := none

namespace Payload

def body (payload : Payload) : Str :=
  match payload.chunked with
  | some e => e.body
  | none => payload.content

/-- Chunks are received as the content they encode. -/
def Received (payload : Payload) : Prop := ∀ e, payload.chunked = some e →
  e.chunks.length ≤ 1 ∧ payload.content.length < 2147483648 ∧ 0 ∉ payload.content

end Payload

/-! ### The first line -/

theorem stripLineEndings_digits {ds : Str} (hds : ∀ c ∈ ds, isHexDigit c) (rest : Str) :
    stripLineEndings (ds ++ byte ';' :: rest) = ds ++ byte ';' :: stripLineEndings rest := by
  have hkeep : stripLineEndings ds = ds := List.filter_eq_self.mpr fun c hc => by
    obtain ⟨-, -, -, hn, hr⟩ := isHexDigit_facts (hds c hc)
    simp [hn, hr]
  rw [stripLineEndings, List.filter_append, List.filter_cons_of_pos (by decide)]
  exact congrArg (· ++ _) hkeep

/-- The line of a chunk, without the newline that ends it. -/
def Chunk.line (chunk : Chunk) : Str :=
  chunk.size ++ str ";chunk-signature=" ++ chunk.signature ++ str "\r"

theorem Chunk.encode_eq (chunk : Chunk) :
    chunk.encode = chunk.line ++ byte '\n' :: (chunk.data ++ str "\r\n") := by
  simp [encode, line, str, List.append_assoc]

theorem Chunk.hexToInt_line (chunk : Chunk) : hexToInt (stripLineEndings chunk.line) =
    if 18446744073709551616 ≤ chunk.data.length then .error (str "stoul")
    else .ok ((chunk.data.length : Int).bmod 4294967296) := by
  have hline : chunk.line = chunk.size ++ byte ';' ::
      (str "chunk-signature=" ++ chunk.signature ++ str "\r") := by
    simp [line, str, List.append_assoc]
  rw [hline, stripLineEndings_digits chunk.size_hex, hexToInt,
    stoul16_digits chunk.size_ne chunk.size_hex, chunk.size_eq]
  split <;> rfl

theorem Chunk.line_newline (chunk : Chunk) : ∀ c ∈ chunk.line, c ≠ byte '\n' := by
  intro c hc
  simp only [line, List.mem_append] at hc
  rcases hc with ((hc | hc) | hc) | hc
  · exact (isHexDigit_facts (chunk.size_hex c hc)).2.2.2.1
  · rintro rfl
    exact absurd hc (by decide)
  · rintro rfl
    exact chunk.signature_line hc
  · rintro rfl
    exact absurd hc (by decide)

/-- The first line of a body that starts with a chunk, and what follows it. -/
theorem firstLine_eq (chunk : Chunk) (more : Str) :
    (chunk.encode ++ more).takeWhile (· ≠ byte '\n') = chunk.line ∧
      (chunk.encode ++ more).drop (chunk.line.length + 1) = chunk.data ++ (str "\r\n" ++ more) := by
  have hbody : chunk.encode ++ more =
      chunk.line ++ byte '\n' :: (chunk.data ++ (str "\r\n" ++ more)) := by
    simp [chunk.encode_eq, List.append_assoc]
  rw [hbody]
  constructor
  · rw [List.takeWhile_append_of_pos (by simpa using chunk.line_newline)]
    simp
  · rw [List.drop_append, List.drop_of_length_le (by omega)]
    simp

/-! ### What is stored -/

/-- The record a call puts into the store. -/
def S3Call.puts : S3Call → Option Object
  | .createObject object | .updateObject object => some object
  | _ => none

/-- A record of a key is put into the store whose data file has a content. -/
def Puts (region bucket key content : Str) (c : S3Call) (w : World) : Prop :=
  ∃ object, c.puts = some object ∧ object.isAt region bucket key ∧
    w.files.get? object.internalName = some content

/-- `PutObject` with a chunked body stores a content. -/
def Stores (env : Env) (rt : Runtime) (request : PutObjectRequest) (body content : Str) (w : World) :
    Prop :=
  (putObject env request body true).Makes (exec env rt)
    (Puts request.region request.bucket request.key content) w

variable {env : Env} {rt : Runtime} {content : Str}

/-- The conversion of a size to `int`. -/
theorem toInt_size (n : Nat) : (n : Int).bmod 4294967296 ≤ n ∧ (n : Int).bmod 4294967296 < 2147483648 ∧
    (n < 2147483648 → (n : Int).bmod 4294967296 = n) := by
  rw [Int.bmod_eq_emod]
  split <;> omega

/-- What is read of a chunked body: the first chunk, as far as its size fits into an `int`, up to a
    NUL. -/
theorem receiveContent_run (e : Chunked content) (w : World) :
    (receiveContent e.body true).run (exec env rt) w =
      if 18446744073709551616 ≤ e.first.data.length then some (.error (.stdException (str "stoul")), w)
      else if (e.first.data.length : Int).bmod 4294967296 < 0 then none
      else some (.ok ((e.first.data.take
        ((e.first.data.length : Int).bmod 4294967296).toNat).takeWhile (· ≠ 0)),
          { w with calls := w.calls + 1 }) := by
  obtain ⟨more, hbody⟩ := e.body_eq
  obtain ⟨hline, hrest⟩ := firstLine_eq e.first more
  simp only [receiveContent, hbody, hline, hrest, e.first.hexToInt_line, if_true]
  by_cases hbig : 18446744073709551616 ≤ e.first.data.length
  · simp only [hbig, if_true]
    rfl
  · simp only [hbig, if_false]
    have hsize := (toInt_size e.first.data.length).1
    generalize (e.first.data.length : Int).bmod 4294967296 = size at hsize
    by_cases hneg : size < 0
    · simp [Prog.run_perform_bind, exec, S3Call.apply, hneg]
    · have hle : size.toNat ≤ e.first.data.length := by omega
      have hbuffer : ((List.range size.toNat).map (rt.stack w.calls)).drop size.toNat = [] :=
        List.drop_of_length_le (by simp)
      simp [Prog.run_perform_bind, exec, S3Call.apply, hneg, List.take_append_of_le_length hle,
        Nat.min_eq_left hle, hbuffer]

/-- The content is read when it is one chunk of a size an `int` holds, without a NUL. -/
theorem receiveContent_ok_iff (e : Chunked content) (w : World) :
    (∃ w', (receiveContent e.body true).run (exec env rt) w = some (.ok content, w')) ↔
      e.chunks.length ≤ 1 ∧ content.length < 2147483648 ∧ 0 ∉ content := by
  obtain ⟨hsize, hlt, hfits⟩ := toInt_size e.first.data.length
  have hfirst := e.first_length_le
  rw [receiveContent_run]
  constructor
  · rintro ⟨w', h⟩
    by_cases hbig : 18446744073709551616 ≤ e.first.data.length
    · simp [hbig] at h
    by_cases hneg : (e.first.data.length : Int).bmod 4294967296 < 0
    · simp [hbig, hneg] at h
    simp only [hbig, hneg, if_false, Option.some.injEq, Prod.mk.injEq, Except.ok.injEq] at h
    generalize (e.first.data.length : Int).bmod 4294967296 = size at h hsize hlt hneg
    -- The content read is no longer than the size taken from the first line.
    have hsub := List.takeWhile_sublist (· ≠ 0) (l := e.first.data.take size.toNat)
    have hall := List.all_takeWhile (p := (· ≠ 0)) (l := e.first.data.take size.toNat)
    rw [h.1] at hsub hall
    have hle := hsub.length_le
    rw [List.length_take] at hle
    have hdata : e.first.data = content := by
      have htake := hsub.eq_of_length (by rw [List.length_take]; omega)
      rw [List.take_of_length_le (by omega)] at htake
      exact htake.symm
    refine ⟨e.first_data_eq_iff.mp hdata, by omega, fun hnul => ?_⟩
    simpa using List.all_eq_true.mp hall 0 hnul
  · rintro ⟨hone, hlength, hnul⟩
    have hdata := e.first_data_eq_iff.mpr hone
    rw [hdata] at hsize hlt hfits ⊢
    rw [hfits hlength, if_neg (by omega), if_neg (by omega)]
    refine ⟨_, congrArg some (Prod.ext (congrArg Except.ok ?_) rfl)⟩
    rw [Int.toNat_natCast, List.take_length]
    have hkeep : ∀ c ∈ content, decide (c ≠ 0) := by
      intro c hc
      simp only [decide_eq_true_eq]
      rintro rfl
      exact hnul hc
    have hwhile : (content ++ []).takeWhile (fun c => decide (c ≠ 0)) = content ++ [] :=
      List.takeWhile_append_of_pos hkeep
    simpa using hwhile

section Puts

variable {region bucket key : Str}

theorem not_puts {c : S3Call} {w : World} (hc : c.puts = none) : ¬ Puts region bucket key content c w := by
  rintro ⟨object, hputs, -⟩
  rw [hc] at hputs
  cases hputs

theorem not_makes_puts {α : Type} {p : S3Prog α} (hp : p.Only fun c => c.puts = none) {w : World} :
    ¬ p.Makes (exec env rt) (Puts region bucket key content) w :=
  hp.not_makes (P := Puts region bucket key content) fun _ _ hc => not_puts hc

theorem checkNotifications_puts (region bucket key : Str) (size : Int) (event : Str) :
    (checkNotifications region bucket key size event).Only fun c => c.puts = none :=
  checkNotifications_only (P := fun c => c.puts = none) (fun _ _ => rfl) rfl (fun _ _ _ => rfl) _ _ _ _ _

/-- A hash task that is started leaves the files as they are. -/
theorem makes_startHashing {α : Type} {algorithm : Str} {object : Object} {f : Unit → S3Prog α}
    {w : World} {P : Prop}
    (h : ∀ calls, (f ()).Makes (exec env rt) (Puts region bucket key content) { w with calls := calls } ↔ P) :
    (startHashing algorithm object >>= f).Makes (exec env rt) (Puts region bucket key content) w ↔ P := by
  unfold startHashing Prog.when
  split
  · exact (Prog.makes_perform_bind (not_puts rfl) rfl).trans (h _)
  · exact h w.calls

/-- Whether it creates the record or replaces one, the record is put into the store. -/
theorem makes_createOrUpdateObject {α : Type} {object : Object} {f : Object → S3Prog α} {w : World}
    (hf : ∀ object, (f object).Only fun c => c.puts = none) :
    (createOrUpdateObject object >>= f).Makes (exec env rt) (Puts region bucket key content) w ↔
      object.isAt region bucket key ∧ w.files.get? object.internalName = some content := by
  rw [Prog.makes_bind, or_iff_left]
  swap
  · rintro ⟨a, s', -, h⟩
    exact not_makes_puts (hf a) h
  unfold createOrUpdateObject
  rw [Prog.makes_perform_bind (not_puts rfl) rfl]
  split
  all_goals simp [Prog.Makes, Prog.perform, Puts, S3Call.puts]

/-- What an unversioned put stores is what it receives. -/
theorem saveUnversionedObject_makes (request : PutObjectRequest) (entity : Bucket) (body : Str)
    (chunkEncoding : Bool) (w : World) :
    (saveUnversionedObject env request entity body chunkEncoding).Makes (exec env rt)
      (Puts request.region request.bucket request.key content) w ↔
    ∃ w', (receiveContent body chunkEncoding).run (exec env rt) { w with calls := w.calls + 1 } =
      some (.ok content, w') := by
  have hreceive : ∀ w, ¬ (receiveContent body chunkEncoding).Makes (exec env rt)
      (Puts request.region request.bucket request.key content) w := fun w =>
    not_makes_puts (receiveContent_only (P := fun c => c.puts = none) (fun _ => rfl) _ _)
  unfold saveUnversionedObject
  rw [Prog.makes_perform_bind (not_puts rfl) rfl, Prog.makes_bind, or_iff_right (hreceive _)]
  calc
    _ ↔ ∃ received w', (receiveContent body chunkEncoding).run (exec env rt)
        { w with calls := w.calls + 1 } = some (.ok received, w') ∧ received = content := by
      refine exists_congr fun received => exists_congr fun w' => and_congr_right fun _ => ?_
      rw [Prog.makes_perform_bind (not_puts rfl) rfl, Prog.makes_perform_bind (not_puts rfl) rfl,
        Prog.makes_perform_bind (not_puts rfl) rfl, Prog.makes_perform_bind (not_puts rfl) rfl]
      refine makes_startHashing fun calls => ?_
      rw [makes_createOrUpdateObject]
      · simp [Object.isAt]
      · intro object
        exact Prog.only_bind (checkEncryption_only (P := fun c => c.puts = none) (fun _ _ => rfl) _ _)
          fun _ => Prog.only_bind (checkNotifications_puts _ _ _ _ _) fun _ => Prog.only_pure _
    _ ↔ _ := by
      constructor
      · rintro ⟨received, w', hrun, rfl⟩
        exact ⟨w', hrun⟩
      · rintro ⟨w', hrun⟩
        exact ⟨content, w', hrun, rfl⟩

/-- A versioned put stores its body, if it stores anything. -/
theorem saveVersionedObject_makes {request : PutObjectRequest} {entity : Bucket} {body : Str} {w : World}
    (h : (saveVersionedObject env request entity body).Makes (exec env rt)
      (Puts request.region request.bucket request.key content) w) : body = content := by
  unfold saveVersionedObject at h
  rw [Prog.makes_perform_bind (not_puts rfl) rfl, Prog.makes_perform_bind (not_puts rfl) rfl,
    Prog.makes_perform_bind (not_puts rfl) rfl, Prog.makes_perform_bind (not_puts rfl) rfl,
    Prog.makes_perform_bind (not_puts rfl) rfl] at h
  dsimp only at h
  split at h
  · rw [Prog.makes_bind] at h
    rcases h with h | ⟨a, s', -, h⟩
    · unfold createVersion at h
      rw [Prog.makes_perform_bind (not_puts rfl) rfl, Prog.makes_perform_bind (not_puts rfl) rfl,
        Prog.makes_perform_bind (not_puts rfl) rfl] at h
      rcases h with ⟨object, hputs, -, hfile⟩ | ⟨r, -, h⟩
      · cases hputs
        simpa using hfile
      · refine absurd h (not_makes_puts (Prog.only_bind (Prog.only_pure _) fun object => ?_))
        exact Prog.only_bind (startHashing_only (P := fun c => c.puts = none) (fun _ _ => rfl) _ _)
          fun _ => Prog.only_bind (checkEncryption_only (P := fun c => c.puts = none) (fun _ _ => rfl) _ _)
            fun _ => Prog.only_bind (checkNotifications_puts _ _ _ _ _) fun _ => Prog.only_pure _
    · exact absurd h (not_makes_puts (Prog.only_bind (Prog.only_perform rfl) fun _ => Prog.only_pure _))
  · refine absurd h (not_makes_puts ?_)
    exact Prog.only_bind (Prog.only_perform rfl) fun _ => Prog.only_bind (Prog.only_ofExcept _) fun _ =>
      Prog.only_bind (Prog.only_pure _) fun _ => Prog.only_bind (Prog.only_perform rfl) fun _ =>
        Prog.only_pure _

end Puts

variable {request : PutObjectRequest} {w : World} {k : Str} {bucket : Bucket}

/-- The put finds its bucket, and takes one of two paths. -/
theorem stores_iff (env : Env) (rt : Runtime) (body content : Str)
    (h : (w.db.buckets.findIf fun _ b => b.isNamed request.region request.bucket) = some (k, bucket)) :
    ∃ (entity : Bucket) (v : World), entity.isVersioned = bucket.isVersioned ∧ (Stores env rt request body content w ↔
      (if entity.isVersioned then saveVersionedObject env request entity body
        else saveUnversionedObject env request entity body true).Makes (exec env rt)
          (Puts request.region request.bucket request.key content) v) := by
  have hexists : w.db.bucketExists request.region request.bucket = true := by
    rw [S3MemoryDb.bucketExists, h]
    rfl
  have hlookup : w.db.getBucketByRegionName request.region request.bucket (rt.now (w.calls + 1)) =
      w.db.fetchBucket (rt.now (w.calls + 1)) (some (k, bucket)) := by
    rw [S3MemoryDb.getBucketByRegionName, h]
  refine ⟨{ bucket with oid := k }, { w with
    db := (w.db.fetchBucket (rt.now (w.calls + 1)) (some (k, bucket))).2
    calls := w.calls + 1 + 1 }, rfl, ?_⟩
  unfold Stores putObject
  rw [Prog.makes_perform_bind (not_puts rfl) rfl]
  simp only [hexists, if_true]
  rw [guarded, Prog.makes_mapThrow, Prog.makes_perform_bind (not_puts rfl) rfl]
  simp only [hlookup]
  rfl

/-- One chunk for each byte. -/
def Chunked.bytewise (content : Str) : Chunked content where
  chunks := content.map fun c => ⟨str "1", str "s", [c], by decide, List.all_eq_true.mp rfl, rfl, by decide⟩
  last := ⟨str "0", str "s", [], by decide, List.all_eq_true.mp rfl, rfl, by decide⟩
  data_ne := by simp
  last_data := rfl
  joined := by simp [List.flatMap_map]

def sampleBucket (versionStatus : BucketVersionStatus) : Bucket where
  region := str "eu"
  name := str "b"
  versionStatus := versionStatus
  created := 0
  modified := 0

/-- A store with one bucket. -/
def oneBucket (versionStatus : BucketVersionStatus) : World where
  db := { buckets := OrderedMap.insert ∅ (str "i") (sampleBucket versionStatus) }

def sampleRequest : PutObjectRequest where
  region := str "eu"
  bucket := str "b"
  key := str "k"

theorem find_oneBucket (versionStatus : BucketVersionStatus) :
    ((oneBucket versionStatus).db.buckets.findIf fun _ b =>
      b.isNamed sampleRequest.region sampleRequest.bucket) =
        some (str "i", sampleBucket versionStatus) := rfl

end AwsMock.S3
