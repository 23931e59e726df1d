import AwsMock.Core.QueryParameters
import AwsMock.Dto.S3Address

/-!
# The command of an S3 request

`FromRequest` asks for six names in the target. A key is part of the target, so a request without a query
can have a name found in its key.
-/

namespace AwsMock

open Lib

variable (lib : PocoUri)

/-- How an object key stands in the target of a request: the library decodes it, and to a key that is
    not empty. -/
structure KeyText where
  text : Str
  plain : byte '?' ∉ text
  decoded : ∃ key, key ≠ [] ∧ lib.decode (dropSlash text) = .ok key

/-- Where the bucket of a request stands. -/
inductive AddressStyle where
  | path
  | virtualHost
  deriving DecidableEq

variable {lib} (site : S3Site) (bucket : BucketName)

/-- A request on an object. -/
def objectRequest (key : KeyText lib) : AddressStyle → HttpRequest
  | .path =>
    { method := site.method, target := site.target (bucket.text ++ byte '/' :: key.text),
      fields := (str "Host", site.endpoint) :: site.fields, body := site.body }
  | .virtualHost =>
    { method := site.method, target := site.target key.text,
      fields := (str "Host", bucket.text ++ str ".s3." ++ site.suffix) :: site.fields, body := site.body }

/-- The names `FromRequest` asks for when there is a key. -/
def consultedNames : List Str :=
  [str "uploads", str "uploadId", str "partNumber", str "notification", str "versioning", str "encryption"]

/-- The command a request is given; `none` in it stands for a command that is not set. -/
def selectedCommand (lib : PocoUri) (request : HttpRequest) (region user randomId : Str) :
    Outcome Error (Option S3CommandType) := do
  return (← s3ClientCommandFromRequest lib request region user randomId).command

/-! ### Buckets and keys -/

variable {key key' : KeyText lib}

theorem KeyText.text_ne_nil (key : KeyText lib) : key.text ≠ [] := by
  intro hnil
  obtain ⟨k, hk, hdecode⟩ := key.decoded
  have hempty : dropSlash key.text = [] := by rw [hnil]; rfl
  rw [hempty, lib.decode_nil] at hdecode
  exact hk (Except.ok.inj hdecode).symm

theorem dropSlash_append {s : Str} (t : Str) (hne : s ≠ []) : dropSlash (t ++ s) = t ++ dropSlash s := by
  unfold dropSlash
  rw [List.getLast?_append_of_ne_nil _ hne]
  split
  · exact List.dropLast_append_of_ne_nil hne
  · rfl

/-- What stands in front of a key and needs no decoding stays. -/
theorem decode_plain_append (s : Str) : ∀ {t : Str}, (∀ c ∈ t, c ≠ byte '%' ∧ c ≠ byte '?') →
    lib.decode (t ++ s) = (lib.decode s).map (t ++ ·)
  | [], _ => by cases h : lib.decode s <;> simp [Except.map, h]
  | c :: t, hplain => by
      have hc := hplain c (List.mem_cons_self ..)
      rw [List.cons_append, lib.decode_cons _ hc.1 hc.2,
        decode_plain_append s fun d hd => hplain d (List.mem_cons_of_mem _ hd)]
      cases lib.decode s <;> rfl

theorem bucket_slash_plain : ∀ c ∈ bucket.text ++ [byte '/'], c ≠ byte '%' ∧ c ≠ byte '?' := by
  have hall : ∀ n < 256, isPathPlain (UInt8.ofNat n) →
      UInt8.ofNat n ≠ byte '%' ∧ UInt8.ofNat n ≠ byte '?' := by decide +kernel
  intro c hc
  have hplain : isPathPlain c := by
    rcases List.mem_append.mp hc with h | h
    · exact (bucket_plain bucket h).1
    · rw [List.mem_singleton.mp h]
      rfl
  have := hall c.toNat c.toNat_lt
  rw [UInt8.ofNat_toNat] at this
  exact this hplain

theorem notMem_path (key : KeyText lib) : byte '?' ∉ bucket.text ++ byte '/' :: key.text := by
  intro hmem
  rw [← List.singleton_append, ← List.append_assoc] at hmem
  rcases List.mem_append.mp hmem with h | h
  · exact (bucket_slash_plain bucket _ h).2 rfl
  · exact key.plain h

/-- The path of a request, without its query. -/
def requestPath (key : KeyText lib) : AddressStyle → Str
  | .path => bucket.text ++ byte '/' :: key.text
  | .virtualHost => key.text

theorem objectRequest_target (style : AddressStyle) :
    (objectRequest site bucket key style).target = site.target (requestPath bucket key style) := by
  cases style <;> rfl

theorem getBasePath_objectRequest (style : AddressStyle) :
    getBasePath (objectRequest site bucket key style).target = requestPath bucket key style := by
  rw [objectRequest_target]
  refine getBasePath_target site ?_
  cases style with
  | path => exact notMem_path bucket key
  | virtualHost => exact key.plain

theorem objectRequest_fields (key key' : KeyText lib) (style : AddressStyle) :
    (objectRequest site bucket key style).fields = (objectRequest site bucket key' style).fields := by
  cases style <;> rfl

theorem isS3HostStyle_objectRequest (key key' : KeyText lib) (style : AddressStyle) :
    isS3HostStyle (objectRequest site bucket key style) =
      isS3HostStyle (objectRequest site bucket key' style) := by
  cases style <;> rfl

theorem urlDecode_nonempty {s k : Str} (h : lib.decode s = .ok k) (hne : k ≠ []) :
    ∃ k', k' ≠ [] ∧ urlDecode lib s = .returns k' := by
  refine ⟨replaceByte k (byte '+') (byte ' '), by simpa [replaceByte] using hne, ?_⟩
  simp [urlDecode, h, pocoTry, Outcome.ofExcept]

/-- A key is read as some key, whatever the host is taken for. -/
theorem key_of_objectRequest (key : KeyText lib) (style : AddressStyle) :
    ∃ k, k ≠ [] ∧ getS3ObjectKey lib (objectRequest site bucket key style) = .returns k := by
  obtain ⟨k, hk, hdecode⟩ := key.decoded
  have hslash : byte '/' ∉ bucket.text := fun h => (bucket_plain bucket h).2.1 rfl
  have hpath : lib.decode (dropSlash (bucket.text ++ byte '/' :: key.text)) =
      .ok (bucket.text ++ [byte '/'] ++ k) := by
    rw [← List.singleton_append, ← List.append_assoc, dropSlash_append _ key.text_ne_nil,
      decode_plain_append _ (bucket_slash_plain bucket), hdecode]
    rfl
  unfold getS3ObjectKey
  rw [getPathParametersFromIndex, getBasePath_objectRequest]
  cases style with
  | path =>
    split
    · rw [joinFrom, List.drop_zero, join_split]
      exact urlDecode_nonempty hpath (by simp)
    · rw [requestPath, split_append hslash, joinFrom, List.drop_succ_cons, List.drop_zero, join_split]
      exact urlDecode_nonempty hdecode hk
  | virtualHost =>
    have hhost : isS3HostStyle (objectRequest site bucket key .virtualHost) = true :=
      isS3HostStyle_virtualHost lib site bucket []
    rw [hhost, if_pos rfl, joinFrom, List.drop_zero, join_split]
    exact urlDecode_nonempty hdecode hk

/-- The bucket does not depend on the key. -/
theorem bucket_of_objectRequest (key key' : KeyText lib) (style : AddressStyle) :
    getS3BucketName lib (objectRequest site bucket key style) =
      getS3BucketName lib (objectRequest site bucket key' style) := by
  have hslash : byte '/' ∉ bucket.text := fun h => (bucket_plain bucket h).2.1 rfl
  unfold getS3BucketName
  rw [isS3HostStyle_objectRequest site bucket key key']
  cases style with
  | path =>
    split
    · rfl
    · rw [getPathParameter, getPathParameter, getBasePath_objectRequest, getBasePath_objectRequest,
        requestPath, requestPath, split_append hslash, split_append hslash]
      rfl
  | virtualHost =>
    have hhost : isS3HostStyle (objectRequest site bucket key' .virtualHost) = true :=
      isS3HostStyle_virtualHost lib site bucket []
    rw [hhost, if_pos rfl, if_pos rfl]
    rfl

/-! ### The command -/

section Command

/-- Two commands that differ in the target and the key at most. -/
def SameButKey (c c' : S3ClientCommand) : Prop := ∃ url key, c' = { c with url := url, key := key }

variable {c c' : S3ClientCommand}

/-- The branches ask of a key only whether there is one. -/
theorem getCommandFromUserAgent_key (userAgent : UserAgent) (hsame : SameButKey c c')
    (hk : c.key ≠ []) (hk' : c'.key ≠ []) :
    getCommandFromUserAgent userAgent c = getCommandFromUserAgent userAgent c' := by
  obtain ⟨url, key, rfl⟩ := hsame
  replace hk' : key ≠ [] := hk'
  simp [getCommandFromUserAgent, hk, hk']

theorem getCommandFromMethod_key (target target' : Str) (hsame : SameButKey c c')
    (hk : c.key ≠ []) (hk' : c'.key ≠ []) :
    (do return (← getCommandFromMethod lib target c).command) =
      (do return (← getCommandFromMethod lib target' c').command :
        Outcome Error (Option S3CommandType)) := by
  obtain ⟨url, key, rfl⟩ := hsame
  replace hk' : key ≠ [] := hk'
  cases hmethod : c.method with
  | get => simp [getCommandFromMethod, hmethod, hk, hk']
  | put =>
    simp only [getCommandFromMethod, hmethod, hk, hk', and_false, if_false, ne_eq, not_false_eq_true,
      and_true]
    split_ifs <;> rfl
  | post =>
    simp only [getCommandFromMethod, hmethod, hk, hk', ne_eq, not_false_eq_true, and_true]
    split_ifs <;> rfl
  | delete =>
    simp only [getCommandFromMethod, hmethod, hk, hk', and_false, if_false, ne_eq, not_false_eq_true,
      and_true]
    split_ifs <;> rfl
  | head => simp [getCommandFromMethod, hmethod]
  | other name => simp [getCommandFromMethod, hmethod]

variable {r r' : HttpRequest} (hfields : r.fields = r'.fields)

include hfields

theorem hasHeader_congr (name : Str) : hasHeader r name = hasHeader r' name := by
  rw [hasHeader, hasHeader, HttpRequest.findField, HttpRequest.findField, hfields]

theorem field_congr (name : Str) : r.field name = r'.field name := by
  rw [HttpRequest.field, HttpRequest.field, HttpRequest.findField, HttpRequest.findField, hfields]

theorem userAgentFromRequest_congr : userAgentFromRequest r = userAgentFromRequest r' := by
  have hwords : userAgentWords r = userAgentWords r' := by
    rw [userAgentWords, userAgentWords, field_congr hfields]
  have hcontent : withContentType r = withContentType r' := by
    funext userAgent
    rw [withContentType, withContentType, hasHeader_congr hfields, field_congr hfields]
  rw [userAgentFromRequest, userAgentFromRequest, hwords, hcontent, hasHeader_congr hfields]

theorem getContentLength_congr : getContentLength r = getContentLength r' := by
  rw [getContentLength, getContentLength, hasHeader_congr hfields, field_congr hfields]

theorem getContentType_congr : getContentType r = getContentType r' := by
  rw [getContentType, getContentType, field_congr hfields]

theorem getHeaderValue_congr (name defaultValue : Str) :
    getHeaderValue r name defaultValue = getHeaderValue r' name defaultValue := by
  rw [getHeaderValue, getHeaderValue, hasHeader_congr hfields, field_congr hfields]

end Command

/-- The parameters of a target are those of its query. -/
theorem targetParameters_target {path : Str} (h : byte '?' ∉ path) :
    targetParameters (site.target path) =
      match site.query with
      | some query => split (byte '&') query
      | none => [] := by
  have hpath : byte '?' ∉ byte '/' :: path := by simp [h, show byte '?' ≠ byte '/' by decide]
  unfold targetParameters S3Site.target
  cases site.query with
  | none =>
    have hnone : contains (byte '/' :: path ++ []) (str "?") = false := by
      rw [List.append_nil, Bool.eq_false_iff]
      exact fun hmem => hpath (contains_single.mp hmem)
    rw [hnone]
    rfl
  | some query =>
    have hmem : contains (byte '/' :: path ++ byte '?' :: query) (str "?") = true :=
      contains_single.mpr (List.mem_append_right _ (List.mem_cons_self ..))
    rw [hmem, if_pos rfl]
    exact congrArg (split (byte '&')) (subStringAfter_append hpath query)

theorem notMem_requestPath (key : KeyText lib) (style : AddressStyle) :
    byte '?' ∉ requestPath bucket key style := by
  cases style with
  | path => exact notMem_path bucket key
  | virtualHost => exact key.plain

/-- Two targets with the same parameters, in which the names are found there, give one command. -/
theorem selectedCommand_congr (style : AddressStyle) (region user randomId : Str)
    (hfinds : ∀ n ∈ consultedNames, FindsInQuery lib (objectRequest site bucket key style).target n)
    (hfinds' : ∀ n ∈ consultedNames, FindsInQuery lib (objectRequest site bucket key' style).target n) :
    selectedCommand lib (objectRequest site bucket key style) region user randomId =
      selectedCommand lib (objectRequest site bucket key' style) region user randomId := by
  have hfields := objectRequest_fields site bucket key key' style
  have hparameters : targetParameters (objectRequest site bucket key style).target =
      targetParameters (objectRequest site bucket key' style).target := by
    rw [objectRequest_target, objectRequest_target,
      targetParameters_target site (notMem_requestPath bucket key style),
      targetParameters_target site (notMem_requestPath bucket key' style)]
  have hhas : ∀ n ∈ consultedNames, hasQueryParameter (objectRequest site bucket key style).target n =
      hasQueryParameter (objectRequest site bucket key' style).target n := by
    intro n hn
    rw [(hfinds n hn).has, (hfinds' n hn).has, hparameters]
  have hvalue : ∀ n ∈ consultedNames,
      getQueryParameterValueByName lib (objectRequest site bucket key style).target n =
        getQueryParameterValueByName lib (objectRequest site bucket key' style).target n := by
    intro n hn
    rw [(hfinds n hn).value, (hfinds' n hn).value, hparameters]
  have hmethod : (objectRequest site bucket key style).method = (objectRequest site bucket key' style).method := by
    cases style <;> rfl
  obtain ⟨k, hk, hkey⟩ := key_of_objectRequest site bucket key style
  obtain ⟨k', hk', hkey'⟩ := key_of_objectRequest site bucket key' style
  unfold selectedCommand s3ClientCommandFromRequest
  rw [userAgentFromRequest_congr hfields, getContentLength_congr hfields,
    bucket_of_objectRequest site bucket key key', hkey, hkey']
  simp only [bind_assoc, Outcome.returns_bind]
  refine bind_congr fun userAgent => bind_congr fun contentLength => bind_congr fun bucketText => ?_
  unfold s3ClientCommandOf
  simp only [bind_assoc]
  rw [hhas (str "uploads") (by decide), hvalue (str "uploadId") (by decide),
    hhas (str "partNumber") (by decide), hhas (str "notification") (by decide),
    hhas (str "versioning") (by decide), hhas (str "encryption") (by decide)]
  refine bind_congr fun uploads => bind_congr fun uploadId => bind_congr fun partNumber =>
    bind_congr fun notificationRequest => bind_congr fun versionRequest =>
      bind_congr fun encryptionRequest => ?_
  rw [hmethod, getContentType_congr hfields, getHeaderValue_congr hfields,
    hasHeader_congr hfields, hasHeader_congr hfields]
  split
  · exact congrArg Outcome.returns (getCommandFromUserAgent_key userAgent ⟨_, _, rfl⟩ hk hk')
  · exact getCommandFromMethod_key _ _ ⟨_, _, rfl⟩ hk hk'

/-- A name is found in the query of a target, so are the names asked for in the targets of two keys,
    and the keys are given one command: exactly when nothing of these targets is mistaken for a name. -/
theorem command_from_query (uri name : Str) (key key' : KeyText lib) (style : AddressStyle)
    (region user randomId : Str) :
    (FindsInQuery lib uri name ∧
        (∀ n ∈ consultedNames, FindsInQuery lib (objectRequest site bucket key style).target n ∧
          FindsInQuery lib (objectRequest site bucket key' style).target n) ∧
        selectedCommand lib (objectRequest site bucket key style) region user randomId =
          selectedCommand lib (objectRequest site bucket key' style) region user randomId) ↔
      Unmistaken uri name ∧ ∀ n ∈ consultedNames,
        Unmistaken (objectRequest site bucket key style).target n ∧
          Unmistaken (objectRequest site bucket key' style).target n := by
  constructor
  · rintro ⟨hfinds, hconsulted, -⟩
    refine ⟨(findsInQuery_iff lib).mp hfinds, fun n hn => ?_⟩
    obtain ⟨hkey, hkey'⟩ := hconsulted n hn
    exact ⟨(findsInQuery_iff lib).mp hkey, (findsInQuery_iff lib).mp hkey'⟩
  · rintro ⟨hname, hconsulted⟩
    have hkey : ∀ n ∈ consultedNames, FindsInQuery lib (objectRequest site bucket key style).target n :=
      fun n hn => (findsInQuery_iff lib).mpr (hconsulted n hn).1
    have hkey' : ∀ n ∈ consultedNames, FindsInQuery lib (objectRequest site bucket key' style).target n :=
      fun n hn => (findsInQuery_iff lib).mpr (hconsulted n hn).2
    exact ⟨(findsInQuery_iff lib).mpr hname, fun n hn => ⟨hkey n hn, hkey' n hn⟩,
      selectedCommand_congr site bucket style region user randomId hkey hkey'⟩

/-- A key whose text needs no decoding. -/
def plainKey (text : Str) (hplain : ∀ c ∈ text, c ≠ byte '%' ∧ c ≠ byte '?')
    (hne : dropSlash text ≠ []) : KeyText .standard where
  text := text
  plain h := (hplain _ h).2 rfl
  decoded := by
    have hsub : ∀ c ∈ dropSlash text, c ≠ byte '%' ∧ c ≠ byte '?' := by
      intro c hc
      unfold dropSlash at hc
      split at hc
      · exact hplain c (List.dropLast_subset _ hc)
      · exact hplain c hc
    have hdecode : PocoUri.standard.decode (dropSlash text ++ []) =
        (PocoUri.standard.decode []).map (dropSlash text ++ ·) := decode_plain_append [] hsub
    rw [List.append_nil, PocoUri.standard.decode_nil] at hdecode
    exact ⟨_, by simpa using hne, hdecode⟩

/-- Storing an object `a&uploads` is taken for the upload of a part. -/
theorem key_selects_command :
    selectedCommand .standard
        (objectRequest { method := .put, endpoint := str "localhost", suffix := [] } myBucket
          (plainKey (str "a&uploads") (by decide +kernel) (by decide)) .path) [] [] [] =
      .returns (some .uploadPart) ∧
    selectedCommand .standard
        (objectRequest { method := .put, endpoint := str "localhost", suffix := [] } myBucket
          (plainKey (str "a") (by decide +kernel) (by decide)) .path) [] [] [] =
      .returns (some .putObject) ∧
    ¬ FindsInQuery .standard (str "/my-bucket/a&uploads") (str "uploads") := by
  refine ⟨by decide +kernel, by decide +kernel, fun h => ?_⟩
  exact absurd h.has (by decide +kernel)

end AwsMock
