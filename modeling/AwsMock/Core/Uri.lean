import AwsMock.Core.NumberUtils
import AwsMock.Core.StringUtils
import AwsMock.Lib.Outcome
import AwsMock.Lib.Split

/-!
# URIs

The codec of `Poco::URI`, which is not part of the repository, and the functions of `StringUtils` that
cut and decode URIs.
-/

namespace AwsMock

open Lib

def hexDigit (n : Nat) : UInt8 := UInt8.ofNat (if n < 10 then 48 + n else 55 + n)

/-- The escape of a byte, in uppercase. -/
def percent (c : UInt8) : Str := [byte '%', hexDigit (c.toNat / 16), hexDigit (c.toNat % 16)]

def isAlphaNumeric (c : UInt8) : Bool := isDigit c ∨ 65 ≤ c ∧ c ≤ 90 ∨ 97 ≤ c ∧ c ≤ 122

/-- The characters `Poco::URI::encode` always leaves alone. -/
def isUnreserved (c : UInt8) : Bool := isAlphaNumeric c ∨ c ∈ str "-_.~"

/-- The characters `Poco::URI::encode` escapes. -/
def isEscaped (reserved : Str) (c : UInt8) : Bool :=
  ¬ isUnreserved c ∧ (c ≤ 32 ∨ 127 ≤ c ∨ c ∈ str "%<>\x7b\x7d|\\\"^`" ∨ c ∈ reserved)

/-- `encode(str, reserved, encodedStr)` and `decode(str, decodedStr, true)`: plus signs are spaces only
    behind a question mark. A malformed escape throws a `URISyntaxException`. -/
structure PocoUri where
  encode : Str → Str → Str
  decode : Str → Except Str Str
  encode_eq : ∀ s reserved,
    encode s reserved = s.flatMap fun c => if isEscaped reserved c then percent c else [c]
  decode_nil : decode [] = .ok []
  decode_cons : ∀ {c} s, c ≠ byte '%' → c ≠ byte '?' → decode (c :: s) = (decode s).map (c :: ·)
  decode_percent : ∀ {hi lo} s, isHexDigit hi → isHexDigit lo →
    decode (byte '%' :: hi :: lo :: s) =
      (decode s).map (UInt8.ofNat (16 * hexDigitValue hi + hexDigitValue lo) :: ·)

/-- Decoding, behind a question mark or not. -/
def decodeUri (inQuery : Bool) : Str → Except Str Str
  | [] => .ok []
  | c :: cs =>
    if c = byte '%' then
      match cs with
      | hi :: lo :: rest =>
        if isHexDigit hi ∧ isHexDigit lo then
          (decodeUri inQuery rest).map
            (UInt8.ofNat (16 * hexDigitValue hi + hexDigitValue lo) :: ·)
        else .error (str "URI encoding: not a hex digit")
      | [_] => .error (str "URI encoding: two hex digits must follow percent sign")
      | [] => .error (str "URI encoding: no hex digit following percent sign")
    else
      let inQuery := inQuery || c = byte '?'
      (decodeUri inQuery cs).map ((if inQuery && c = byte '+' then byte ' ' else c) :: ·)

/-- The codec. -/
def PocoUri.standard : PocoUri where
  encode s reserved := s.flatMap fun c => if isEscaped reserved c then percent c else [c]
  decode := decodeUri false
  encode_eq _ _ := rfl
  decode_nil := rfl
  decode_cons s hpercent hquery := by rw [decodeUri.eq_def]; simp [hpercent, hquery]
  decode_percent s hhi hlo := by rw [decodeUri, if_pos rfl, if_pos ⟨hhi, hlo⟩]

/-! ### `StringUtils` -/

/-- `s.find(t)`. -/
def find (t : Str) : Str → Option Nat
  | [] => if t = [] then some 0 else none
  | c :: s => if t.isPrefixOf (c :: s) then some 0 else (find t s).map (· + 1)

/-- `SubStringUntil`. -/
def subStringUntil (string delimiter : Str) : Str :=
  match find delimiter string with
  | some i => string.take i
  | none => string

/-- `SubStringAfter`: one character of the delimiter is skipped. -/
def subStringAfter (string delimiter : Str) : Str :=
  match find delimiter string with
  | some i => string.drop (i + 1)
  | none => []

/-- `Join`: the separator is a slash, whatever the delimiter is. -/
def joinFrom (vec : List Str) (startIndex : Nat) : Str := join (byte '/') (vec.drop startIndex)

/-- `Poco::replace(s, from, to)`. -/
def replaceByte (s : Str) (src dst : UInt8) : Str := s.map fun c => if c = src then dst else c

variable (uri : PocoUri)

def urlEncode (input : Str) : Str := uri.encode input (str "!*'();:@&=+$,?#[] ")

/-- `UrlDecode`. -/
def urlDecode (input : Str) : Outcome Error Str := do
  let decoded ← .ofExcept (pocoTry (uri.decode input))
  return replaceByte decoded (byte '+') (byte ' ')

/-- `IsUrlEncoded`: the empty string is taken for encoded. -/
def isUrlEncoded (value : Str) : Outcome Error Bool := do
  let decoded ← urlDecode uri value
  return !equals decoded value

/-! ### Finding a character -/

theorem contains_single {s : Str} {c : UInt8} : contains s [c] = true ↔ c ∈ s := by
  induction s with
  | nil => simp [contains]
  | cons b s ih =>
    have hcons : contains (b :: s) [c] = (c == b || contains s [c]) := by
      simp [contains, List.isPrefixOf]
    rw [hcons, Bool.or_eq_true, ih, List.mem_cons]
    simp

theorem find_single_append {c : UInt8} (rest : Str) : ∀ {s : Str}, c ∉ s →
    find [c] (s ++ c :: rest) = some s.length
  | [], _ => by simp [find, List.isPrefixOf]
  | b :: s, h => by
    obtain ⟨hb, hs⟩ := not_or.mp (mt List.mem_cons.mpr h)
    simp [find, List.isPrefixOf, hb, find_single_append rest hs]

theorem find_single_none {c : UInt8} : ∀ {s : Str}, c ∉ s → find [c] s = none
  | [], _ => by simp [find]
  | b :: s, h => by
    obtain ⟨hb, hs⟩ := not_or.mp (mt List.mem_cons.mpr h)
    simp [find, List.isPrefixOf, hb, find_single_none hs]

theorem subStringUntil_append {c : UInt8} {s : Str} (h : c ∉ s) (rest : Str) :
    subStringUntil (s ++ c :: rest) [c] = s := by
  simp [subStringUntil, find_single_append rest h]

theorem subStringUntil_self {c : UInt8} {s : Str} (h : c ∉ s) : subStringUntil s [c] = s := by
  simp [subStringUntil, find_single_none h]

theorem subStringAfter_append {c : UInt8} {s : Str} (h : c ∉ s) (rest : Str) :
    subStringAfter (s ++ c :: rest) [c] = rest := by
  simp only [subStringAfter, find_single_append rest h]
  rw [← List.drop_drop, List.drop_left]
  rfl

theorem replaceByte_eq_self {a b : UInt8} (hne : b ≠ a) {s : Str} : replaceByte s a b = s ↔ a ∉ s := by
  induction s with
  | nil => simp [replaceByte]
  | cons c s ih =>
    rw [replaceByte] at ih
    rw [replaceByte, List.map_cons, List.cons.injEq, ih, List.mem_cons, not_or]
    refine and_congr_left fun _ => ?_
    split
    · next hc => simp [hc, hne]
    · next hc => simp [Ne.symm hc]

/-! ### Decoding what was encoded -/

theorem hexDigit_value {n : Nat} (h : n < 16) :
    isHexDigit (hexDigit n) = true ∧ hexDigitValue (hexDigit n) = n := by
  have hall : ∀ n < 16, isHexDigit (hexDigit n) = true ∧ hexDigitValue (hexDigit n) = n := by decide
  exact hall n h

/-- Where every byte is escaped or kept as a byte that means itself, decoding reads the bytes back. -/
theorem decode_flatMap {f : UInt8 → Str} {g : UInt8 → UInt8}
    (hf : ∀ c, f c = percent c ∧ g c = c ∨ f c = [g c] ∧ g c ≠ byte '%' ∧ g c ≠ byte '?') (s : Str) :
    uri.decode (s.flatMap f) = .ok (s.map g) := by
  induction s with
  | nil => exact uri.decode_nil
  | cons c s ih =>
    rw [List.flatMap_cons, List.map_cons]
    rcases hf c with ⟨hescape, hg⟩ | ⟨hkeep, hpercent, hquery⟩
    · have hc : c.toNat < 256 := c.toNat_lt
      obtain ⟨hhi, hhiValue⟩ := hexDigit_value (n := c.toNat / 16) (by omega)
      obtain ⟨hlo, hloValue⟩ := hexDigit_value (n := c.toNat % 16) (by omega)
      have hvalue : UInt8.ofNat (16 * (c.toNat / 16) + c.toNat % 16) = c := by
        rw [Nat.div_add_mod, UInt8.ofNat_toNat]
      rw [hescape, hg, percent, List.cons_append, List.cons_append, List.cons_append, List.nil_append,
        uri.decode_percent _ hhi hlo, ih, hhiValue, hloValue, hvalue]
      rfl
    · rw [hkeep, List.singleton_append, uri.decode_cons _ hpercent hquery, ih]
      rfl

/-! ### `UrlEncode` keeps the unreserved characters and the slash -/

def isPathPlain (c : UInt8) : Bool := isUnreserved c ∨ c = byte '/'

def pathByte (c : UInt8) : Str := if isPathPlain c then [c] else percent c

theorem urlEncode_eq (s : Str) : urlEncode uri s = s.flatMap pathByte := by
  rw [urlEncode, uri.encode_eq]
  congr 1
  funext c
  have hescape : ∀ n < 256, isEscaped (str "!*'();:@&=+$,?#[] ") (UInt8.ofNat n) =
      !isPathPlain (UInt8.ofNat n) := by decide +kernel
  have hc := hescape c.toNat c.toNat_lt
  rw [UInt8.ofNat_toNat] at hc
  rw [hc, pathByte]
  cases isPathPlain c <;> rfl

theorem urlEncode_append (s t : Str) : urlEncode uri (s ++ t) = urlEncode uri s ++ urlEncode uri t := by
  simp only [urlEncode_eq, List.flatMap_append]

theorem mem_pathByte {b c : UInt8} (h : c ∈ pathByte b) :
    c = b ∧ isPathPlain b ∨ c = byte '%' ∨ ∃ n < 16, c = hexDigit n := by
  have hb : b.toNat < 256 := b.toNat_lt
  unfold pathByte at h
  split at h
  · next hplain => exact .inl ⟨List.mem_singleton.mp h, hplain⟩
  · simp only [percent, List.mem_cons, List.not_mem_nil, or_false] at h
    rcases h with rfl | rfl | rfl
    · exact .inr (.inl rfl)
    · exact .inr (.inr ⟨_, by omega, rfl⟩)
    · exact .inr (.inr ⟨_, by omega, rfl⟩)

/-- A character that is escaped, and no part of an escape, does not occur. -/
theorem notMem_urlEncode {c : UInt8} (hc : isPathPlain c = false) (hpercent : c ≠ byte '%') (s : Str) :
    c ∉ urlEncode uri s := by
  have hdigit : ∀ n < 16, isPathPlain (hexDigit n) = true := by decide
  rw [urlEncode_eq]
  intro h
  obtain ⟨b, -, hb⟩ := List.mem_flatMap.mp h
  rcases mem_pathByte hb with ⟨rfl, hplain⟩ | rfl | ⟨n, hn, rfl⟩
  · exact absurd hplain (by simp [hc])
  · exact hpercent rfl
  · exact absurd (hdigit n hn) (by simp [hc])

theorem decode_urlEncode (s : Str) : uri.decode (urlEncode uri s) = .ok s := by
  have hbyte : ∀ c, pathByte c = percent c ∧ id c = c ∨
      pathByte c = [id c] ∧ id c ≠ byte '%' ∧ id c ≠ byte '?' := by
    intro c
    by_cases hplain : isPathPlain c
    · refine .inr ⟨if_pos hplain, ?_, ?_⟩ <;> rintro rfl <;> exact absurd hplain (by decide)
    · exact .inl ⟨if_neg hplain, rfl⟩
  rw [urlEncode_eq, decode_flatMap uri hbyte, List.map_id]

/-- Decoding takes plus signs for blanks. -/
theorem urlDecode_urlEncode (s : Str) :
    urlDecode uri (urlEncode uri s) = .returns (replaceByte s (byte '+') (byte ' ')) := by
  rw [urlDecode, decode_urlEncode]
  rfl

theorem urlEncode_injective {s t : Str} (h : urlEncode uri s = urlEncode uri t) : s = t := by
  have hdecode := (decode_urlEncode uri s).symm.trans (h ▸ decode_urlEncode uri t)
  exact Except.ok.inj hdecode

end AwsMock
