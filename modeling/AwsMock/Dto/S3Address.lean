import Mathlib.Data.List.Infix
import AwsMock.Dto.ClientCommand

/-!
# S3 addresses

A bucket and a key in the target of a path style request, and in the host name and the target of a
virtual host request, and what the code reads from both.
-/

namespace AwsMock

open Lib

/-- The names a bucket can have. -/
structure BucketName where
  text : Str
  length : 3 ≤ text.length ∧ text.length ≤ 63
  plain : ∀ c ∈ text, isDigit c ∨ 97 ≤ c ∧ c ≤ 122 ∨ c = byte '-' ∨ c = byte '.'
  ends : ∀ c, text.head? = some c ∨ text.getLast? = some c → isAlphaNumeric c

/-- What surrounds an address: the host of path style requests, what follows `.s3.` in the host of
    virtual host ones, and the rest of the request. -/
structure S3Site where
  method : Verb := .get
  endpoint : Str
  suffix : Str
  query : Option Str := none
  fields : List (Str × Str) := []
  body : Str := []

variable (lib : PocoUri) (site : S3Site) (bucket : BucketName) (key : Str)

/-- The target of a path. -/
def S3Site.target (path : Str) : Str :=
  byte '/' :: path ++ match site.query with
    | none => []
    | some query => byte '?' :: query

def pathStyleRequest : HttpRequest where
  method := site.method
  target := site.target (urlEncode lib bucket.text ++ byte '/' :: urlEncode lib key)
  fields := (str "Host", site.endpoint) :: site.fields
  body := site.body

def virtualHostRequest : HttpRequest where
  method := site.method
  target := site.target (urlEncode lib key)
  fields := (str "Host", bucket.text ++ str ".s3." ++ site.suffix) :: site.fields
  body := site.body

/-! ### Slashes and plus signs -/

/-- A path without a slash at its end. -/
def dropSlash (s : Str) : Str := if s.getLast? = some (byte '/') then s.dropLast else s

/-- What becomes of a key. -/
def readKey (key : Str) : Str := replaceByte (dropSlash key) (byte '+') (byte ' ')

theorem dropSlash_slash (s : Str) : dropSlash (s ++ [byte '/']) = s := by simp [dropSlash]

theorem dropSlash_of_ne {s : Str} (h : s.getLast? ≠ some (byte '/')) : dropSlash s = s := if_neg h

/-- An escape has no slash. -/
theorem slash_pathByte {c : UInt8} (h : byte '/' ∈ pathByte c) : c = byte '/' := by
  have hdigit : ∀ n < 16, byte '/' ≠ hexDigit n := by decide
  rcases mem_pathByte h with ⟨hc, -⟩ | hc | ⟨n, hn, hc⟩
  · exact hc.symm
  · exact absurd hc (by decide)
  · exact absurd hc (hdigit n hn)

theorem dropSlash_urlEncode : dropSlash (urlEncode lib key) = urlEncode lib (dropSlash key) := by
  rcases List.eq_nil_or_concat key with rfl | ⟨k, c, rfl⟩
  · have hnil : urlEncode lib [] = [] := urlEncode_eq lib []
    rw [dropSlash_of_ne (s := []) (by simp), hnil, dropSlash_of_ne (by simp)]
  · have hbyte : urlEncode lib [c] = pathByte c := by simp [urlEncode_eq]
    rw [List.concat_eq_append]
    by_cases hc : c = byte '/'
    · subst hc
      rw [dropSlash_slash, urlEncode_append, hbyte]
      exact dropSlash_slash _
    · have hne : pathByte c ≠ [] := by
        unfold pathByte percent
        split <;> simp
      rw [dropSlash_of_ne (s := k ++ [c]) (by simpa using hc), urlEncode_append, hbyte]
      refine dropSlash_of_ne fun hlast => hc (slash_pathByte ?_)
      rw [List.getLast?_append_of_ne_nil _ hne] at hlast
      exact List.mem_of_getLast? hlast

/-- A key is read back when it has no plus sign and no slash at its end. -/
theorem readKey_eq_self {key : Str} : readKey key = key ↔
    byte '+' ∉ key ∧ key.getLast? ≠ some (byte '/') := by
  rcases List.eq_nil_or_concat key with rfl | ⟨k, c, rfl⟩
  · simp [readKey, dropSlash, replaceByte]
  · rw [List.concat_eq_append]
    by_cases hc : c = byte '/'
    · subst hc
      rw [readKey, dropSlash_slash]
      refine iff_of_false (fun h => ?_) (by simp)
      have hlength := congrArg List.length h
      simp [replaceByte] at hlength
    · have hlast : (k ++ [c]).getLast? ≠ some (byte '/') := by simpa using hc
      rw [readKey, dropSlash_of_ne hlast, replaceByte_eq_self (by decide), and_iff_left hlast]

/-! ### What is read -/

/-- The path of a target, without its slash and its query. -/
theorem getBasePath_target {path : Str} (h : byte '?' ∉ path) : getBasePath (site.target path) = path := by
  have hpath : byte '?' ∉ byte '/' :: path := by simp [h, show byte '?' ≠ byte '/' by decide]
  have huntil : subStringUntil (site.target path) (str "?") = byte '/' :: path := by
    unfold S3Site.target
    cases site.query with
    | none =>
      rw [List.append_nil]
      exact subStringUntil_self hpath
    | some query => exact subStringUntil_append hpath query
  rw [getBasePath, huntil]
  rfl

/-- All segments of an encoded path, joined and decoded. -/
theorem getPathParametersFromIndex_zero : getPathParametersFromIndex lib
    (site.target (urlEncode lib key)) 0 = .returns (readKey key) := by
  rw [getPathParametersFromIndex, getBasePath_target site (notMem_urlEncode lib (by decide) (by decide) key),
    joinFrom, List.drop_zero, join_split]
  change urlDecode lib (dropSlash (urlEncode lib key)) = _
  rw [dropSlash_urlEncode, urlDecode_urlEncode]
  rfl

theorem bucket_plain {c : UInt8} (hc : c ∈ bucket.text) :
    isPathPlain c ∧ c ≠ byte '/' ∧ c ≠ byte '+' := by
  have hall : ∀ n < 256, (isDigit (UInt8.ofNat n) ∨ 97 ≤ UInt8.ofNat n ∧ UInt8.ofNat n ≤ 122 ∨
      UInt8.ofNat n = byte '-' ∨ UInt8.ofNat n = byte '.') → isPathPlain (UInt8.ofNat n) ∧
        UInt8.ofNat n ≠ byte '/' ∧ UInt8.ofNat n ≠ byte '+' := by decide +kernel
  have := hall c.toNat c.toNat_lt
  rw [UInt8.ofNat_toNat] at this
  exact this (bucket.plain c hc)

theorem urlEncode_bucket : urlEncode lib bucket.text = bucket.text := by
  have hkeep : ∀ s : Str, (∀ c ∈ s, isPathPlain c) → s.flatMap pathByte = s := by
    intro s hs
    induction s with
    | nil => rfl
    | cons c s ih =>
      rw [List.flatMap_cons, ih fun d hd => hs d (List.mem_cons_of_mem _ hd), pathByte,
        if_pos (hs c (List.mem_cons_self ..))]
      rfl
  rw [urlEncode_eq, hkeep _ fun c hc => (bucket_plain bucket hc).1]

/-- A bucket and a key are encoded as the path of both. -/
theorem urlEncode_path : urlEncode lib bucket.text ++ byte '/' :: urlEncode lib key =
    urlEncode lib (bucket.text ++ byte '/' :: key) := by
  have hslash : urlEncode lib (byte '/' :: key) = byte '/' :: urlEncode lib key := by
    rw [urlEncode_eq, urlEncode_eq, List.flatMap_cons]
    rfl
  rw [urlEncode_append, hslash]

theorem contains_append (s t u : Str) : contains (s ++ (t ++ u)) t = true := by
  rw [contains, List.any_eq_true]
  exact ⟨t ++ u, (List.mem_tails _ _).mpr (List.suffix_append _ _),
    List.isPrefixOf_iff_prefix.mpr (List.prefix_append _ _)⟩

theorem isS3HostStyle_path : isS3HostStyle (pathStyleRequest lib site bucket key) =
    contains site.endpoint (str ".s3.") := by
  have hfind : (pathStyleRequest lib site bucket key).findField (str "Host") =
      some (str "Host", site.endpoint) := rfl
  simp [isS3HostStyle, hasHeader, HttpRequest.field, hfind]

theorem virtualHost_field : (virtualHostRequest lib site bucket key).field (str "Host") =
    bucket.text ++ (str ".s3." ++ site.suffix) := by
  have hfind : (virtualHostRequest lib site bucket key).findField (str "Host") =
      some (str "Host", bucket.text ++ str ".s3." ++ site.suffix) := rfl
  rw [HttpRequest.field, hfind, ← List.append_assoc]
  rfl

theorem isS3HostStyle_virtualHost : isS3HostStyle (virtualHostRequest lib site bucket key) = true := by
  have hheader : hasHeader (virtualHostRequest lib site bucket key) (str "Host") = true := rfl
  simp only [isS3HostStyle, virtualHost_field, hheader, contains_append]
  rfl

/-- A path style request is read as one, unless its host looks like a virtual host. -/
theorem pathStyle_key : getS3ObjectKey lib (pathStyleRequest lib site bucket key) =
    .returns (if contains site.endpoint (str ".s3.") then readKey (bucket.text ++ byte '/' :: key)
      else readKey key) := by
  have hslash : byte '/' ∉ bucket.text := fun h => (bucket_plain bucket h).2.1 rfl
  rw [getS3ObjectKey, isS3HostStyle_path]
  split
  · next hhost =>
    change getPathParametersFromIndex lib
      (site.target (urlEncode lib bucket.text ++ byte '/' :: urlEncode lib key)) 0 = _
    rw [urlEncode_path, getPathParametersFromIndex_zero]
  · next hhost =>
    change getPathParametersFromIndex lib
      (site.target (urlEncode lib bucket.text ++ byte '/' :: urlEncode lib key)) 1 = _
    have hquery : byte '?' ∉ urlEncode lib bucket.text ++ byte '/' :: urlEncode lib key := by
      rw [urlEncode_path]
      exact notMem_urlEncode lib (by decide) (by decide) _
    rw [getPathParametersFromIndex, getBasePath_target site hquery, urlEncode_bucket,
      split_append hslash, joinFrom, List.drop_succ_cons, List.drop_zero, join_split]
    change urlDecode lib (dropSlash (urlEncode lib key)) = _
    rw [dropSlash_urlEncode, urlDecode_urlEncode]
    rfl

theorem pathStyle_bucket (h : contains site.endpoint (str ".s3.") = false) :
    getS3BucketName lib (pathStyleRequest lib site bucket key) = .returns bucket.text := by
  have hslash : byte '/' ∉ bucket.text := fun h => (bucket_plain bucket h).2.1 rfl
  have hplus : byte '+' ∉ bucket.text := fun h => (bucket_plain bucket h).2.2 rfl
  have hquery : byte '?' ∉ urlEncode lib bucket.text ++ byte '/' :: urlEncode lib key := by
    rw [urlEncode_path]
    exact notMem_urlEncode lib (by decide) (by decide) _
  have hsplit : split (byte '/') (getBasePath (pathStyleRequest lib site bucket key).target) =
      bucket.text :: split (byte '/') (urlEncode lib key) := by
    change split _ (getBasePath
      (site.target (urlEncode lib bucket.text ++ byte '/' :: urlEncode lib key))) = _
    rw [getBasePath_target site hquery, urlEncode_bucket, split_append hslash]
  rw [getS3BucketName, isS3HostStyle_path, h, if_neg (by decide), getPathParameter, hsplit]
  change decodeValue lib bucket.text = _
  rw [decodeValue_eq, ← urlEncode_bucket lib bucket, urlDecode_urlEncode,
    (replaceByte_eq_self (by decide)).mpr hplus, urlEncode_bucket]

theorem virtualHost_key : getS3ObjectKey lib (virtualHostRequest lib site bucket key) =
    .returns (readKey key) := by
  rw [getS3ObjectKey, isS3HostStyle_virtualHost, if_pos rfl]
  exact getPathParametersFromIndex_zero lib site key

/-- The bucket of a virtual host ends at the first dot. -/
theorem virtualHost_bucket : getS3BucketName lib (virtualHostRequest lib site bucket key) =
    .returns bucket.text ↔ byte '.' ∉ bucket.text := by
  rw [getS3BucketName, isS3HostStyle_virtualHost, if_pos rfl, virtualHost_field, Outcome.pure_eq,
    Outcome.returns.injEq]
  constructor
  · intro h hdot
    obtain ⟨s, t, htext, hs⟩ := List.eq_append_cons_of_mem hdot
    have hhost : bucket.text ++ (str ".s3." ++ site.suffix) =
        s ++ byte '.' :: (t ++ (str ".s3." ++ site.suffix)) := by
      rw [htext, List.append_assoc, List.cons_append]
    have huntil : s = bucket.text := by
      rw [hhost] at h
      exact (subStringUntil_append hs _).symm.trans h
    have hlength := congrArg List.length (huntil.trans htext)
    simp at hlength
  · intro hdot
    exact subStringUntil_append hdot (str "s3." ++ site.suffix)

/-! ### The round trip -/

/-- Both styles give the bucket and the key back. -/
structure RoundTrips : Prop where
  pathBucket : getS3BucketName lib (pathStyleRequest lib site bucket key) = .returns bucket.text
  pathKey : getS3ObjectKey lib (pathStyleRequest lib site bucket key) = .returns key
  hostBucket : getS3BucketName lib (virtualHostRequest lib site bucket key) = .returns bucket.text
  hostKey : getS3ObjectKey lib (virtualHostRequest lib site bucket key) = .returns key

/-- The addresses that come back: the endpoint is no virtual host, the bucket has no dot, the key no plus
    sign and no slash at its end. -/
def Addressable : Prop :=
  contains site.endpoint (str ".s3.") = false ∧ byte '.' ∉ bucket.text ∧
    byte '+' ∉ key ∧ key.getLast? ≠ some (byte '/')

/-- The path of a bucket and a key is longer than the key, whatever is lost of it. -/
theorem readKey_path_ne : readKey (bucket.text ++ byte '/' :: key) ≠ key := by
  intro h
  have hlength := congrArg List.length h
  have hbucket := bucket.length.1
  have hdrop : ∀ s : Str, s.length ≤ (dropSlash s).length + 1 := by
    intro s
    unfold dropSlash
    split
    · rw [List.length_dropLast]
      omega
    · omega
  have := hdrop (bucket.text ++ byte '/' :: key)
  simp only [readKey, replaceByte, List.length_map, List.length_append, List.length_cons] at hlength this
  omega

theorem roundTrips_iff : RoundTrips lib site bucket key ↔ Addressable site bucket key := by
  constructor
  · intro h
    have hendpoint : contains site.endpoint (str ".s3.") = false := by
      by_contra hhost
      have hpath := h.pathKey
      rw [pathStyle_key, if_pos (by simpa using hhost), Outcome.returns.injEq] at hpath
      exact readKey_path_ne bucket key hpath
    have hkey := h.hostKey
    rw [virtualHost_key, Outcome.returns.injEq, readKey_eq_self] at hkey
    exact ⟨hendpoint, (virtualHost_bucket lib site bucket key).mp h.hostBucket, hkey⟩
  · rintro ⟨hendpoint, hdot, hkey⟩
    have hread := readKey_eq_self.mpr hkey
    refine ⟨pathStyle_bucket lib site bucket key hendpoint, ?_,
      (virtualHost_bucket lib site bucket key).mpr hdot, ?_⟩
    · rw [pathStyle_key, hendpoint, if_neg (by decide), hread]
    · rw [virtualHost_key, hread]

/-- Two keys of a bucket come back in both styles, and are told apart, exactly when both are
    addressable. -/
theorem s3_address_round_trip (key' : Str) :
    (RoundTrips lib site bucket key ∧ RoundTrips lib site bucket key' ∧
      (key ≠ key' → getS3ObjectKey lib (pathStyleRequest lib site bucket key) ≠
          getS3ObjectKey lib (pathStyleRequest lib site bucket key') ∧
        getS3ObjectKey lib (virtualHostRequest lib site bucket key) ≠
          getS3ObjectKey lib (virtualHostRequest lib site bucket key'))) ↔
      Addressable site bucket key ∧ Addressable site bucket key' := by
  rw [roundTrips_iff, roundTrips_iff]
  refine ⟨fun h => ⟨h.1, h.2.1⟩, fun h => ⟨h.1, h.2, fun hne => ?_⟩⟩
  have hkey := (roundTrips_iff lib site bucket key).mpr h.1
  have hkey' := (roundTrips_iff lib site bucket key').mpr h.2
  rw [hkey.pathKey, hkey'.pathKey, hkey.hostKey, hkey'.hostKey, ne_eq, Outcome.returns.injEq]
  exact ⟨hne, hne⟩

/-- The bucket `my-bucket`. -/
def myBucket : BucketName where
  text := str "my-bucket"
  length := by decide
  plain c hc := by
    have hall : ∀ c ∈ str "my-bucket",
        (decide (isDigit c ∨ 97 ≤ c ∧ c ≤ 122 ∨ c = byte '-' ∨ c = byte '.')) = true :=
      List.all_eq_true.mp rfl
    exact of_decide_eq_true (hall c hc)
  ends c hc := by
    rcases hc with hc | hc <;> cases hc <;> decide

/-- Keys that do not come back: `a+b` is read as `a b` and `dir/` as `dir`. -/
theorem keys_not_read_back :
    getS3ObjectKey .standard (pathStyleRequest .standard { endpoint := str "localhost:4566", suffix := [] }
        myBucket (str "a+b")) = .returns (str "a b") ∧
      getS3ObjectKey .standard (virtualHostRequest .standard { endpoint := [], suffix := str "localhost" }
        myBucket (str "dir/")) = .returns (str "dir") ∧
      ¬ RoundTrips .standard { endpoint := str "localhost:4566", suffix := str "localhost" } myBucket
        (str "a+b") := by
  refine ⟨?_, ?_, fun h => ?_⟩
  · rw [pathStyle_key]
    decide +kernel
  · rw [virtualHost_key]
    decide +kernel
  · have hkey := h.hostKey
    rw [virtualHost_key] at hkey
    exact absurd hkey (by decide)

end AwsMock
