import Mathlib.Algebra.Group.Nat.Defs
import Mathlib.Data.List.TakeWhile
import AwsMock.Common.RangeResponse
import AwsMock.Core.HttpUtils
import AwsMock.Lib.Split

/-!
# The range of a `GetObject` request

`S3Handler::GetRange`, and the chunk of the object that is read for the range: the object's file is mapped,
and what is put in front of the buffer is taken for the response.
-/

namespace AwsMock.S3Handler

open Lib

/-! ### The handler -/

/-- `GetRange`; the numbers are those that are there before. -/
def getRange (request : HttpRequest) (min max size : Int) : Outcome Error (Int × Int × Int) :=
  if ¬ hasHeader request (str "Range") then return (min, max, size)
  else do
    let rangeStr := getHeaderValue request (str "Range") []
    let parts ← .get (split (byte '=') rangeStr) 1
    let min ← .ofExcept (stol (← .get (split (byte '-') parts) 0))
    let max ← .ofExcept (stol (← .get (split (byte '-') parts) 1))
    return (min, max, max - min + 1)

/-- The mapping of an object's file. -/
def mappedFile (content : Str) : Common.MemoryMappedFile :=
  { membuffer := content, fileSize := content.length, mapped := true }

/-- What a request with a range selects of an object: the range and its size, and the bytes that
    `SendRangeResponse` reads. -/
def selection (request : HttpRequest) (content : Str) : Outcome Error (Int × Int × Int × Str) := do
  let (min, max, size) ← getRange request 0 0 0
  match (mappedFile content).readChunk min size [] with
  | some chunk => return (min, max, size, chunk)
  | none => .undefined

/-! ### Byte ranges -/

/-- One or more digits. -/
structure Digits where
  text : Str
  ne_nil : text ≠ []
  digit : ∀ c ∈ text, isDigit c

def Digits.value (d : Digits) : Nat := digitsValue d.text

/-- A single byte range. -/
inductive ByteRange where
  | fromTo (first last : Digits) (le : first.value ≤ last.value)
  | startingAt (first : Digits)
  | suffix (length : Digits)

namespace ByteRange

def text : ByteRange → Str
  | fromTo first last _ => first.text ++ byte '-' :: last.text
  | .startingAt first => first.text ++ [byte '-']
  | suffix length => byte '-' :: length.text

/-- The first and the last byte of an object of `s` bytes, when the range can be satisfied. -/
def bounds (s : Nat) : ByteRange → Option (Nat × Nat)
  | fromTo first last _ => if first.value < s then some (first.value, min last.value (s - 1)) else none
  | .startingAt first => if first.value < s then some (first.value, s - 1) else none
  | suffix length => if length.value = 0 then none else some (s - min length.value s, s - 1)

end ByteRange

/-- An object that is not empty; its size is a `long`. -/
structure StoredObject where
  content : Str
  ne_nil : content ≠ []
  long : content.length < 2 ^ 63

/-- A request with the range. -/
def rangeRequest (request : HttpRequest) (range : ByteRange) : HttpRequest :=
  { request with fields := (str "Range", str "bytes=" ++ range.text) :: request.fields }

/-- The bytes of the range are selected; for a range that cannot be satisfied, nothing is read that is not
    in the object. -/
def Selects (request : HttpRequest) (object : StoredObject) (range : ByteRange) : Prop :=
  match range.bounds object.content.length with
  | some (first, last) => selection (rangeRequest request range) object.content =
      .returns (first, last, last - first + 1, (object.content.drop first).take (last - first + 1))
  | none => (selection (rangeRequest request range) object.content).Defined

/-- The ranges the code gets right for an object of `s` bytes: those that end in the object, those that
    start right behind it, those that start behind the object and have a number that is no `long`, and the
    last zero bytes. -/
def Supported (s : Nat) : ByteRange → Prop
  | .fromTo first last _ => last.value < s ∨ first.value = s ∨ s < first.value ∧ 2 ^ 63 ≤ last.value
  | .startingAt first => 2 ^ 63 ≤ first.value
  | .suffix length => length.value = 0

/-! ### Reading the header -/

theorem notMem_digits {d : Digits} {c : UInt8} (h : isDigit c = false) : c ∉ d.text := by
  intro hmem
  have := d.digit c hmem
  simp [h] at this

/-- The text of a range has no equals sign, and is not empty. -/
theorem text_plain (range : ByteRange) : byte '=' ∉ range.text ∧ range.text ≠ [] := by
  have hdigits : ∀ d : Digits, byte '=' ∉ d.text := fun d => notMem_digits rfl
  have hdash : byte '=' ≠ byte '-' := by decide
  cases range with
  | fromTo first last le => simp [ByteRange.text, hdigits, hdash]
  | startingAt first => simp [ByteRange.text, hdigits, hdash]
  | suffix length => simp [ByteRange.text, hdigits, hdash]

/-- What `GetRange` makes of the text of a range. -/
theorem getRange_rangeRequest (request : HttpRequest) (range : ByteRange) (min max size : Int) :
    getRange (rangeRequest request range) min max size = (do
      let min ← .ofExcept (stol (← .get (split (byte '-') range.text) 0))
      let max ← .ofExcept (stol (← .get (split (byte '-') range.text) 1))
      return (min, max, max - min + 1)) := by
  obtain ⟨hplain, hne⟩ := text_plain range
  have hfound : (rangeRequest request range).findField (str "Range") =
      some (str "Range", str "bytes=" ++ range.text) := rfl
  have hheader : hasHeader (rangeRequest request range) (str "Range") = true := by
    rw [hasHeader, hfound]
    rfl
  have hvalue : getHeaderValue (rangeRequest request range) (str "Range") [] = str "bytes=" ++ range.text := by
    simp [getHeaderValue, HttpRequest.field, hfound]
  have hsplit : split (byte '=') (str "bytes=" ++ range.text) = [str "bytes", range.text] := by
    have hhead := split_append (d := byte '=') (t := str "bytes") (by decide) range.text
    rw [split_last hplain hne] at hhead
    exact hhead
  simp only [getRange, hheader, hvalue, hsplit, not_true_eq_false, if_false]
  rfl

/-- Digits are read as their number, when it is a `long`. -/
theorem stol_digits (d : Digits) :
    (d.value < 2 ^ 63 → stol d.text = .ok d.value) ∧
      (2 ^ 63 ≤ d.value → stol d.text = .error (.stdException (str "stol"))) := by
  obtain ⟨c, cs, hcons⟩ := List.exists_cons_of_ne_nil d.ne_nil
  have hc : isDigit c := d.digit c (by rw [hcons]; exact List.mem_cons_self ..)
  obtain ⟨hspace, hminus, hplus⟩ := isDigit_facts hc
  have hdrop : d.text.dropWhile isSpace = d.text := by rw [hcons]; simp [hspace]
  have hsign : signOf d.text = (1, d.text) := by rw [hcons]; simp [signOf, hminus, hplus]
  have htake : d.text.takeWhile isDigit = d.text := by
    rw [List.takeWhile_eq_self_iff]
    exact d.digit
  simp only [stol, hdrop, hsign, htake, d.ne_nil, if_false, Int.one_mul]
  change (digitsValue d.text < 2 ^ 63 → _) ∧ (2 ^ 63 ≤ digitsValue d.text → _)
  constructor
  · intro h
    rw [if_pos ⟨by omega, by omega⟩]
    rfl
  · intro h
    rw [if_neg (by omega)]

/-! ### The three forms -/

theorem readChunk_mapped (content : Str) (start length : Nat) :
    (mappedFile content).readChunk start length [] =
      if start ≤ content.length then some ((content.drop start).take length) else none := by
  rw [Common.readChunk_eq rfl]
  simp [mappedFile]

variable (request : HttpRequest) (object : StoredObject)

/-- A range with two numbers is passed on as it is, when both are `long`. -/
theorem selection_fromTo (first last : Digits) (le : first.value ≤ last.value) :
    selection (rangeRequest request (.fromTo first last le)) object.content =
      if last.value < 2 ^ 63 then
        if first.value ≤ object.content.length then
          .returns (first.value, last.value, last.value - first.value + 1,
            (object.content.drop first.value).take (last.value - first.value + 1))
        else .undefined
      else .throws (.stdException (str "stol")) := by
  have hsplit : split (byte '-') (ByteRange.fromTo first last le).text = [first.text, last.text] := by
    have hfirst : byte '-' ∉ first.text := notMem_digits rfl
    have hlast : byte '-' ∉ last.text := notMem_digits rfl
    rw [ByteRange.text, split_append hfirst, split_last hlast last.ne_nil]
  have hfirst := stol_digits first
  have hlast := stol_digits last
  rw [selection, getRange_rangeRequest, hsplit]
  by_cases hlong : last.value < 2 ^ 63
  · have hsize : (last.value : Int) - first.value + 1 = ((last.value - first.value + 1 : Nat) : Int) := by
      omega
    have hnumbers : (do
        let min ← Outcome.ofExcept (stol (← .get [first.text, last.text] 0))
        let max ← Outcome.ofExcept (stol (← .get [first.text, last.text] 1))
        return (min, max, max - min + 1) : Outcome Error (Int × Int × Int)) =
          .returns (first.value, last.value, last.value - first.value + 1) := by
      simp [Outcome.get, hfirst.1 (by omega), hlast.1 hlong, Outcome.ofExcept]
    rw [hnumbers, Outcome.returns_bind, if_pos hlong, hsize]
    simp only [readChunk_mapped]
    by_cases hin : first.value ≤ object.content.length
    · rw [if_pos hin, if_pos hin]
      rfl
    · rw [if_neg hin, if_neg hin]
  · rw [if_neg hlong]
    rcases Nat.lt_or_ge first.value (2 ^ 63) with hsmall | hbig
    · simp [Outcome.get, hfirst.1 hsmall, hlast.2 (by omega), Outcome.ofExcept]
    · simp [Outcome.get, hfirst.2 hbig, Outcome.ofExcept]

/-- The end of a range that has none is taken from a vector of one token. -/
theorem selection_startingAt (first : Digits) :
    selection (rangeRequest request (.startingAt first)) object.content =
      if first.value < 2 ^ 63 then .undefined else .throws (.stdException (str "stol")) := by
  have hsplit : split (byte '-') (ByteRange.startingAt first).text = [first.text] := by
    have hfirst : byte '-' ∉ first.text := notMem_digits rfl
    rw [ByteRange.text, split_append hfirst, split_nil]
  rw [selection, getRange_rangeRequest, hsplit]
  split
  · next hsmall => simp [Outcome.get, (stol_digits first).1 hsmall, Outcome.ofExcept]
  · next hbig => simp [Outcome.get, (stol_digits first).2 (by omega), Outcome.ofExcept]

/-- A suffix has an empty token for its start, which is no number. -/
theorem selection_suffix (length : Digits) :
    selection (rangeRequest request (.suffix length)) object.content =
      .throws (.stdException (str "stol")) := by
  have hsplit : split (byte '-') (ByteRange.suffix length).text = [[], length.text] := by
    have hlength : byte '-' ∉ length.text := notMem_digits rfl
    have hhead := split_append (d := byte '-') (t := []) (by simp) length.text
    rw [split_last hlength length.ne_nil] at hhead
    exact hhead
  have hempty : stol [] = .error (.stdException (str "stol")) := rfl
  rw [selection, getRange_rangeRequest, hsplit]
  simp [Outcome.get, hempty, Outcome.ofExcept]

/-- The ranges that are selected as they should be. -/
theorem range_selected_iff (range : ByteRange) :
    Selects request object range ↔ Supported object.content.length range := by
  have hlong := object.long
  have hpos : 0 < object.content.length := List.length_pos_iff.mpr object.ne_nil
  cases range with
  | fromTo first last le =>
    simp only [Selects, Supported, ByteRange.bounds]
    rw [selection_fromTo]
    by_cases hin : first.value < object.content.length
    · rw [if_pos hin]
      simp only [if_pos hin.le]
      by_cases hlast : last.value < 2 ^ 63
      · rw [if_pos hlast]
        constructor
        · intro h
          have hsame : (last.value : Int) = (min last.value (object.content.length - 1) : Nat) := by
            simpa using congrArg (fun x => x.2.1) (Outcome.returns.inj h)
          omega
        · intro h
          have hsame : min last.value (object.content.length - 1) = last.value := by omega
          rw [hsame]
      · rw [if_neg hlast]
        refine iff_of_false (by simp) (by omega)
    · rw [if_neg hin]
      by_cases hlast : last.value < 2 ^ 63
      · rw [if_pos hlast, Outcome.defined_ite]
        simp
        omega
      · rw [if_neg hlast]
        refine iff_of_true (Outcome.defined_throws _) (by omega)
  | startingAt first =>
    simp only [Selects, Supported, ByteRange.bounds]
    rw [selection_startingAt]
    by_cases hin : first.value < object.content.length
    · rw [if_pos hin, if_pos (by omega)]
      refine iff_of_false (by simp) (by omega)
    · rw [if_neg hin]
      by_cases hsmall : first.value < 2 ^ 63
      · rw [if_pos hsmall]
        refine iff_of_false (by simp) (by omega)
      · rw [if_neg hsmall]
        refine iff_of_true (Outcome.defined_throws _) (by omega)
  | suffix length =>
    simp only [Selects, Supported, ByteRange.bounds]
    rw [selection_suffix]
    by_cases hzero : length.value = 0
    · rw [if_pos hzero]
      refine iff_of_true (Outcome.defined_throws _) hzero
    · rw [if_neg hzero]
      refine iff_of_false (by simp) hzero

/-- An object of three bytes, from which `bytes=0-9` and `bytes=-2` are read. -/
theorem range_not_clamped :
    selection (rangeRequest { method := .get, target := str "/b/k" }
        (.fromTo ⟨str "0", by decide, by decide +kernel⟩ ⟨str "9", by decide, by decide +kernel⟩
          (by decide))) (str "abc") = .returns (0, 9, 10, str "abc") ∧
    selection (rangeRequest { method := .get, target := str "/b/k" }
        (.suffix ⟨str "2", by decide, by decide +kernel⟩)) (str "abc") = .throws (.stdException (str "stol")) ∧
    ¬ Selects { method := .get, target := str "/b/k" } ⟨str "abc", by decide, by decide +kernel⟩
        (.suffix ⟨str "2", by decide, by decide +kernel⟩) := by
  refine ⟨by decide +kernel, by decide +kernel, fun h => ?_⟩
  have hbounds : ByteRange.bounds (str "abc").length (.suffix ⟨str "2", by decide, by decide +kernel⟩) =
      some (1, 2) := by decide +kernel
  simp only [Selects, hbounds] at h
  cases h

end AwsMock.S3Handler
