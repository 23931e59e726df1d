import AwsMock.Lib.Bytes

/-!
# Ranged reads

`AbstractHandler::SendRangeResponse` over the memory-mapped file that all ranged reads share. The files
do not change here: `files` gives the content of a file by its name.
-/

namespace AwsMock.Common

open Lib

/-- `Core::MemoryMappedFile`, a singleton: `membuffer` is what was mapped last. -/
structure MemoryMappedFile where
  membuffer : Str := []
  fileSize : Int := 0
  mapped : Bool := false
  deriving DecidableEq, Repr

namespace MemoryMappedFile

/-- `OpenFile`: an empty file cannot be mapped. -/
def openFile (files : Str → Option Str) (filename : Str) (m : MemoryMappedFile) :
    Bool × MemoryMappedFile :=
  match files filename with
  | none => (false, { m with fileSize := -1 })
  | some [] => (false, { m with fileSize := 0 })
  | some content => (true, { membuffer := content, fileSize := content.length, mapped := true })

def closeFile (m : MemoryMappedFile) : MemoryMappedFile := { m with mapped := false }

/-- What the memory of the buffer, and what follows it, holds after `ReadChunk`; `memory` is what it
    held before. `none`: `memcpy` of a negative length, or from before the mapping, is undefined. -/
def readChunk (start length : Int) (memory : Str) (m : MemoryMappedFile) : Option Str :=
  let length := if start + length > m.fileSize then m.fileSize - start else length
  if start < 0 ∨ length < 0 then none
  else some ((m.membuffer.drop start.toNat).take length.toNat ++ memory.drop length.toNat)

end MemoryMappedFile

/-- `SendRangeResponse`: the body of the response, or the message of a `ServiceException`. `memory` is
    what the memory holds from the start of the `new char[size]` on; `ostream << buffer` takes the
    buffer for a C string, and is undefined when none starts there. -/
def sendRangeResponse (files : Str → Option Str) (memory fileName : Str) (min max size totalSize : Int)
    (m : MemoryMappedFile) : Option (Except Str Str × MemoryMappedFile) :=
  let opened := if m.mapped then (true, m) else m.openFile files fileName
  if opened.1 then do
    let buffer ← opened.2.readChunk min size memory
    let body ← cString buffer
    some (.ok body, if max = totalSize - 1 then opened.2.closeFile else opened.2)
  else some (.error (str "Could not open memory mapped file, filename: " ++ fileName), opened.2)

/-- A ranged `GetObject` of a stored object: the file and the size that `GetObject` returns for it,
    and the range of the request. -/
structure RangeRequest (files : Str → Option Str) where
  filename : Str
  content : Str
  stored : files filename = some content
  min : Nat
  max : Nat
  min_le_max : min ≤ max
  max_lt_size : max < content.length

/-- What the object has at `min..max`. -/
def RangeRequest.range {files : Str → Option Str} (r : RangeRequest files) : Str :=
  (r.content.drop r.min).take (r.max - r.min + 1)

/-- The response to a ranged `GetObject`, with the size `GetRange` computes. -/
def getRange {files : Str → Option Str} (r : RangeRequest files) (memory : Str) (m : MemoryMappedFile) :
    Option (Except Str Str × MemoryMappedFile) :=
  sendRangeResponse files memory r.filename r.min r.max (r.max - r.min + 1) r.content.length m

/-- The responses to requests one after the other, each with what its memory holds. -/
def responses {files : Str → Option Str} :
    List (RangeRequest files × Str) → MemoryMappedFile → Option (List (Except Str Str))
  | [], _ => some []
  | (r, memory) :: rest, m => do
    let answer ← getRange r memory m
    let others ← responses rest answer.2
    some (answer.1 :: others)

/-- The file mapped while a request is served. -/
def served {files : Str → Option Str} (r : RangeRequest files) (m : MemoryMappedFile) : Str :=
  if m.mapped then m.membuffer else r.content

/-- The mapping a request leaves behind: it stays until someone reads the last byte. -/
def remaining {files : Str → Option Str} (r : RangeRequest files) (m : MemoryMappedFile) :
    MemoryMappedFile :=
  { membuffer := served r m, fileSize := (served r m).length, mapped := r.max + 1 ≠ r.content.length }

/-- What the mapped file has of the range. -/
def copied {files : Str → Option Str} (r : RangeRequest files) (m : MemoryMappedFile) : Str :=
  ((served r m).drop r.min).take (r.max - r.min + 1)

/-- The mapped file, completed by what the memory held, agrees with the object on the range; the range
    has no NUL, and behind the buffer there is one. -/
def Readable {files : Str → Option Str} (r : RangeRequest files) (memory : Str) (m : MemoryMappedFile) :
    Prop :=
  r.min ≤ (served r m).length ∧
    copied r m ++ (memory.drop (copied r m).length).take (r.max - r.min + 1 - (copied r m).length) =
      r.range ∧
    0 ∉ r.range ∧ memory[r.max - r.min + 1]? = some 0

/-- Every request is readable when it is served. -/
def AllReadable {files : Str → Option Str} :
    List (RangeRequest files × Str) → MemoryMappedFile → Prop
  | [], _ => True
  | (r, memory) :: rest, m => Readable r memory m ∧ AllReadable rest (remaining r m)

/-- The size kept with a mapping is the size of the mapped file. -/
def MemoryMappedFile.Consistent (m : MemoryMappedFile) : Prop :=
  m.mapped → m.fileSize = m.membuffer.length

variable {files : Str → Option Str}

theorem remaining_consistent (r : RangeRequest files) (m : MemoryMappedFile) :
    (remaining r m).Consistent :=
  fun _ => rfl

theorem RangeRequest.length_range (r : RangeRequest files) : r.range.length = r.max - r.min + 1 := by
  have h1 := r.min_le_max
  have h2 := r.max_lt_size
  simp only [RangeRequest.range, List.length_take, List.length_drop]
  omega

/-- `ReadChunk` copies what the mapped file has of the range, and leaves the rest of the memory. -/
theorem readChunk_eq {m : MemoryMappedFile} (hm : m.fileSize = m.membuffer.length) (start length : Nat)
    (memory : Str) :
    m.readChunk start length memory =
      let copied := (m.membuffer.drop start).take length
      if start ≤ m.membuffer.length then some (copied ++ memory.drop copied.length) else none := by
  simp only [MemoryMappedFile.readChunk, hm, List.length_take, List.length_drop, Int.toNat_natCast]
  by_cases hstart : start ≤ m.membuffer.length
  · rw [if_pos hstart]
    by_cases hlong : (start : Int) + length > m.membuffer.length
    · rw [if_pos hlong, if_neg (by omega)]
      have hcopied : ((m.membuffer.length : Int) - start).toNat = m.membuffer.length - start := by omega
      have hall : (m.membuffer.drop start).length ≤ length := by
        rw [List.length_drop]
        omega
      rw [hcopied, List.take_of_length_le hall, ← List.length_drop, List.take_length,
        Nat.min_eq_right hall]
    · rw [if_neg hlong, if_neg (by omega), Int.toNat_natCast, Nat.min_eq_left (by omega)]
  · rw [if_neg hstart, if_pos (by rw [if_pos (by omega)]; omega)]

/-- The mapping a request reads from: the one left by an earlier request, or its own file. -/
theorem opened_eq (r : RangeRequest files) {m : MemoryMappedFile} (hm : m.Consistent) :
    (if m.mapped then (true, m) else m.openFile files r.filename) =
      (true, { membuffer := served r m, fileSize := (served r m).length, mapped := true }) := by
  rcases m with ⟨membuffer, fileSize, _ | _⟩
  · rcases hcontent : r.content with _ | ⟨c, content⟩
    · have := r.max_lt_size
      simp [hcontent] at this
    · simp [MemoryMappedFile.openFile, r.stored, served, hcontent]
  · have hsize : fileSize = membuffer.length := hm rfl
    simp [served, hsize]

/-- What a request does, apart from the C string it takes the buffer for. -/
theorem getRange_eq (r : RangeRequest files) (memory : Str) {m : MemoryMappedFile}
    (hm : m.Consistent) :
    getRange r memory m =
      if r.min ≤ (served r m).length then
        (cString (copied r m ++ memory.drop (copied r m).length)).map
          fun body => (.ok body, remaining r m)
      else none := by
  have hmax := r.min_le_max
  have hlen : (r.max : Int) - r.min + 1 = ((r.max - r.min + 1 : Nat) : Int) := by omega
  simp only [getRange, sendRangeResponse, opened_eq r hm, if_true, hlen]
  rw [readChunk_eq (by rfl)]
  dsimp only [copied]
  split
  · have hclose : (if (r.max : Int) = r.content.length - 1 then
          MemoryMappedFile.closeFile ⟨served r m, (served r m).length, true⟩
        else ⟨served r m, (served r m).length, true⟩) = remaining r m := by
      by_cases hlast : r.max + 1 = r.content.length
      · rw [if_pos (by omega)]
        simp [remaining, MemoryMappedFile.closeFile, hlast]
      · rw [if_neg (by omega)]
        simp [remaining, hlast]
    rw [hclose, Option.map_eq_bind]
    rfl
  · rfl

/-- A list that starts with `xs` and then `a`. -/
theorem prefix_concat_iff {xs ys : Str} {a : UInt8} :
    xs ++ [a] <+: ys ↔ ys.take xs.length = xs ∧ ys[xs.length]? = some a := by
  constructor
  · rintro ⟨rest, rfl⟩
    simp
  · rintro ⟨htake, hget⟩
    obtain ⟨hlt, hget⟩ := List.getElem?_eq_some_iff.mp hget
    refine ⟨ys.drop (xs.length + 1), ?_⟩
    conv_rhs => rw [← List.take_append_drop xs.length ys, List.drop_eq_getElem_cons hlt, hget, htake]
    simp

/-- The buffer is the C string of the range exactly when the request is readable. -/
theorem cString_buffer_iff (r : RangeRequest files) (memory : Str) (m : MemoryMappedFile) :
    r.min ≤ (served r m).length ∧
        cString (copied r m ++ memory.drop (copied r m).length) = some r.range ↔
      Readable r memory m := by
  have hcopied : (copied r m).length ≤ r.max - r.min + 1 := by
    rw [copied, List.length_take]
    omega
  have hnext : (copied r m ++ memory.drop (copied r m).length)[r.max - r.min + 1]? =
      memory[r.max - r.min + 1]? := by
    rw [List.getElem?_append_right hcopied, List.getElem?_drop, Nat.add_sub_cancel' hcopied]
  rw [cString_eq_some, prefix_concat_iff, r.length_range, List.take_append,
    List.take_of_length_le hcopied, hnext]
  unfold Readable
  tauto

/-- The response to a request is the range it asked for exactly when the request is readable. -/
theorem getRange_exact_iff (r : RangeRequest files) (memory : Str) {m : MemoryMappedFile}
    (hm : m.Consistent) :
    getRange r memory m = some (.ok r.range, remaining r m) ↔ Readable r memory m := by
  rw [getRange_eq r memory hm, ← cString_buffer_iff]
  split
  · next hle => simp [hle]
  · next hle => simp [hle]

/-- A request that is answered leaves the same mapping, whatever the answer. -/
theorem getRange_remaining {r : RangeRequest files} {memory : Str} {m : MemoryMappedFile}
    (hm : m.Consistent) {answer} (h : getRange r memory m = some answer) : answer.2 = remaining r m := by
  rw [getRange_eq r memory hm] at h
  split at h
  · obtain ⟨body, _, rfl⟩ := Option.map_eq_some_iff.mp h
    rfl
  · cases h

/-- From any mapping: all responses are exact when and only when every request is readable. -/
theorem responses_exact_from : ∀ (requests : List (RangeRequest files × Str)) {m : MemoryMappedFile},
    m.Consistent →
    (responses requests m = some (requests.map fun r => .ok r.1.range) ↔ AllReadable requests m)
  | [], _, _ => by simp [responses, AllReadable]
  | (r, memory) :: rest, m, hm => by
    rw [AllReadable, ← getRange_exact_iff r memory hm,
      ← responses_exact_from rest (remaining_consistent r m)]
    rw [responses]
    constructor
    · intro h
      obtain ⟨answer, ha, h⟩ := Option.bind_eq_some_iff.mp h
      obtain ⟨others, ho, h⟩ := Option.bind_eq_some_iff.mp h
      have hrem := getRange_remaining hm ha
      obtain ⟨answer, n⟩ := answer
      subst hrem
      cases h
      exact ⟨ha, ho⟩
    · rintro ⟨ha, ho⟩
      rw [ha]
      simp [ho]

/-- From the start of the program, the bodies of all ranged reads are the bytes asked for exactly when
    every request is readable at its time. -/
theorem ranged_reads_iff (requests : List (RangeRequest files × Str)) :
    responses requests {} = some (requests.map fun r => .ok r.1.range) ↔ AllReadable requests {} :=
  responses_exact_from requests fun h => nomatch h

/-- Two objects of three bytes. -/
def twoObjects (filename : Str) : Option Str :=
  if filename = str "a" then some (str "abc") else if filename = str "b" then some (str "xyz") else none

/-- A read of the first two bytes of each; nobody reads a last byte. -/
def firstBytes : List (RangeRequest twoObjects × Str) :=
  [(⟨str "a", str "abc", rfl, 0, 1, by decide, by decide⟩, List.replicate 8 0),
   (⟨str "b", str "xyz", rfl, 0, 1, by decide, by decide⟩, List.replicate 8 0)]

/-- The second read is answered with the bytes of the first object, which is still mapped. -/
theorem ranged_reads_shared :
    ¬ responses firstBytes {} = some (firstBytes.map fun r => .ok r.1.range) := by
  have hfirst : responses firstBytes {} = some [.ok (str "ab"), .ok (str "ab")] := rfl
  rw [hfirst]
  simp [firstBytes, RangeRequest.range, str]
  decide

end AwsMock.Common
