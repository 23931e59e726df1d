import AwsMock.Core.Authorization
import AwsMock.Core.CryptoUtils
import AwsMock.Lib.Lines

/-!
# Signatures

`AwsUtils::AddAuthorizationHeader` and `AwsUtils::VerifySignature`.
-/

namespace AwsMock

open Lib

/-! ### Time -/

/-- The broken-down UTC time. -/
structure Tm where
  year : Nat
  month : Nat
  day : Nat
  hour : Nat
  minute : Nat
  second : Nat
  deriving DecidableEq

/-- `std::gmtime` of the seconds since the epoch: the days are counted in eras of 400 years that start
    in March. -/
def gmtime (t : Nat) : Tm :=
  let days := t / 86400 + 719468
  let dayOfEra := days % 146097
  let yearOfEra := (dayOfEra - dayOfEra / 1460 + dayOfEra / 36524 - dayOfEra / 146096) / 365
  let dayOfYear := dayOfEra - (365 * yearOfEra + yearOfEra / 4 - yearOfEra / 100)
  let fromMarch := (5 * dayOfYear + 2) / 153
  let month := if fromMarch < 10 then fromMarch + 3 else fromMarch - 9
  { year := 400 * (days / 146097) + yearOfEra + if month ≤ 2 then 1 else 0
    month := month
    day := dayOfYear - (153 * fromMarch + 2) / 5 + 1
    hour := t % 86400 / 3600
    minute := t % 3600 / 60
    second := t % 60 }

def twoDigits (n : Nat) : Str := [UInt8.ofNat (48 + n / 10 % 10), UInt8.ofNat (48 + n % 10)]

/-- `GetDateString`: `%Y%m%d`. -/
def getDateString (t : Nat) : Str :=
  let tm := gmtime t
  toStr tm.year ++ twoDigits tm.month ++ twoDigits tm.day

/-- `GetISODateString`: `%FT%TZ`. -/
def getISODateString (t : Nat) : Str :=
  let tm := gmtime t
  toStr tm.year ++ str "-" ++ twoDigits tm.month ++ str "-" ++ twoDigits tm.day ++ str "T" ++
    twoDigits tm.hour ++ str ":" ++ twoDigits tm.minute ++ str ":" ++ twoDigits tm.second ++ str "Z"

theorem twoDigits_digits {n : Nat} {c : UInt8} (hc : c ∈ twoDigits n) : isDigit c := by
  have hdigit : ∀ k < 10, isDigit (UInt8.ofNat (48 + k)) := by decide
  simp only [twoDigits, List.mem_cons, List.not_mem_nil, or_false] at hc
  rcases hc with rfl | rfl
  · exact hdigit _ (by omega)
  · exact hdigit _ (by omega)

theorem getDateString_digits (t : Nat) : (getDateString t).all isDigit := by
  refine List.all_eq_true.mpr fun c hc => ?_
  simp only [getDateString, List.mem_append] at hc
  rcases hc with (hyear | hmonth) | hday
  · exact toStr_digits hyear
  · exact twoDigits_digits hmonth
  · exact twoDigits_digits hday

theorem getISODateString_noNewline (t : Nat) : byte '\n' ∉ getISODateString t := by
  have hyear : byte '\n' ∉ toStr (gmtime t).year := fun h => absurd (toStr_digits h) (by decide)
  have htwo : ∀ n, byte '\n' ∉ twoDigits n := fun n h => absurd (twoDigits_digits h) (by decide)
  have hliteral : byte '\n' ∉ str "-" ∧ byte '\n' ∉ str "T" ∧ byte '\n' ∉ str ":" ∧
      byte '\n' ∉ str "Z" := by decide
  simp only [getISODateString, List.mem_append, not_or]
  simp [hyear, htwo, hliteral]

example : getISODateString 1709164799 = str "2024-02-28T23:59:59Z" := by decide +kernel

/-! ### Requests -/

/-- The methods `http::to_string` knows beside the five that are told apart. -/
def standardMethods : List Str :=
  [str "CONNECT", str "OPTIONS", str "TRACE", str "COPY", str "LOCK", str "MKCOL", str "MOVE",
    str "PROPFIND", str "PROPPATCH", str "SEARCH", str "UNLOCK", str "BIND", str "REBIND",
    str "UNBIND", str "ACL", str "REPORT", str "MKACTIVITY", str "CHECKOUT", str "MERGE",
    str "M-SEARCH", str "NOTIFY", str "SUBSCRIBE", str "UNSUBSCRIBE", str "PATCH", str "PURGE",
    str "MKCALENDAR", str "LINK", str "UNLINK"]

/-- `http::to_string`. -/
def Verb.text : Verb → Str
  | .get => str "GET"
  | .put => str "PUT"
  | .post => str "POST"
  | .delete => str "DELETE"
  | .head => str "HEAD"
  | .other name => if standardMethods.contains name then name else str "<unknown>"

/-- The method is one of the enumeration. -/
def Verb.Standard : Verb → Prop
  | .other name => standardMethods.contains name = true
  | _ => True

/-- `request.set(name, value)`: the fields with the name are removed, and one is added at the end. -/
def HttpRequest.set (request : HttpRequest) (name value : Str) : HttpRequest :=
  { request with
    fields := request.fields.filter (fun field => ¬ equalsIgnoreCase field.1 name) ++ [(name, value)] }

namespace HttpRequest

variable {request : HttpRequest} {name name' value : Str}

@[simp] theorem set_method : (request.set name value).method = request.method := rfl

@[simp] theorem set_target : (request.set name value).target = request.target := rfl

@[simp] theorem set_body : (request.set name value).body = request.body := rfl

theorem findField_set_self (h : equalsIgnoreCase name name') :
    (request.set name value).findField name' = some (name, value) := by
  have hremoved : (request.fields.filter fun field => ¬ equalsIgnoreCase field.1 name).find?
      (fun field => equalsIgnoreCase field.1 name') = none := by
    refine List.find?_eq_none.mpr fun field hfield heq => ?_
    simp only [List.mem_filter, equalsIgnoreCase, decide_eq_true_eq] at hfield h heq
    exact hfield.2 (heq.trans h.symm)
  rw [findField, set, List.find?_append, hremoved, Option.none_or, List.find?_singleton, if_pos h]

theorem findField_set_of_ne (h : equalsIgnoreCase name name' = false) :
    (request.set name value).findField name' = request.findField name' := by
  have hkept : (request.fields.filter fun field => ¬ equalsIgnoreCase field.1 name).find?
      (fun field => equalsIgnoreCase field.1 name') = request.findField name' := by
    rw [List.find?_filter, findField]
    congr 1
    funext field
    by_cases hfield : equalsIgnoreCase field.1 name' = true
    · simp only [equalsIgnoreCase, decide_eq_true_eq, decide_eq_false_iff_not] at hfield h ⊢
      simp [hfield, Ne.symm h]
    · simp [hfield]
  rw [findField, set, List.find?_append, hkept, List.find?_singleton, if_neg (by simp [h]), Option.or_none]

theorem mem_set {field : Str × Str} (h : field ∈ (request.set name value).fields) :
    field = (name, value) ∨ field ∈ request.fields := by
  rcases List.mem_append.mp h with hold | hnew
  · exact .inr (List.mem_filter.mp hold).1
  · exact .inl (List.mem_singleton.mp hnew)

end HttpRequest

/-- `Trim`: only blanks are removed. -/
def trim (s : Str) : Str := (s.dropWhile (· = byte ' ')).rdropWhile (· = byte ' ')

/-! ### What is signed -/

variable (crypto : Crypto) (lib : PocoUri)

def getSha256FromString (content : Str) : Str := hexEncode (crypto.sha256 content)

/-- `GetCanonicalQueryParameters`. -/
def getCanonicalQueryParameters (path : Str) : Outcome Error Str := do
  let queryParameters ← getQueryParameters path
  let canonicalParameters := queryParameters.entries.flatMap fun parameter =>
    parameter.1 ++ str "=" ++ parameter.2 ++ str "&"
  return if contains canonicalParameters (str "&") then canonicalParameters.dropLast
    else canonicalParameters

def canonicalHeader (header value : Str) : Str := toLower header ++ str ":" ++ trim value ++ str "\n"

/-- `GetCanonicalHeaders` of a request: the headers are looked up whatever their case. -/
def getCanonicalHeaders (request : HttpRequest) (keys : AuthorizationHeaderKeys) : Str :=
  (split (byte ';') keys.signedHeaders).flatMap fun header =>
    if hasHeader request header then canonicalHeader header (getHeaderValue request header []) else []

/-- `GetCanonicalHeaders` of a map: the headers are looked up as they are spelled. -/
def getCanonicalMapHeaders (headers : OrderedMap Str Str) (keys : AuthorizationHeaderKeys) : Str :=
  (split (byte ';') keys.signedHeaders).flatMap fun header =>
    match headers.get? header with
    | some value => canonicalHeader header value
    | none => []

/-- The six lines of a canonical request, one of which holds a line for each header. -/
def canonicalLines (method url query headers signedHeaders payload : Str) : Str :=
  method ++ str "\n" ++ url ++ str "\n" ++ query ++ str "\n" ++ headers ++ str "\n" ++ signedHeaders ++
    str "\n" ++ payload

/-- `GetCanonicalRequest` of a request. -/
def getCanonicalRequest (request : HttpRequest) (keys : AuthorizationHeaderKeys) :
    Outcome Error Str := do
  let query ← getCanonicalQueryParameters request.target
  return canonicalLines request.method.text (urlEncode lib request.target) query
    (getCanonicalHeaders request keys) keys.signedHeaders (getSha256FromString crypto request.body)

/-- `GetCanonicalRequest` of a method, a path, a map and a payload. -/
def getCanonicalMapRequest (method path : Str) (headers : OrderedMap Str Str) (payload : Str)
    (keys : AuthorizationHeaderKeys) : Outcome Error Str := do
  let query ← getCanonicalQueryParameters path
  return canonicalLines method (urlEncode lib path) query (getCanonicalMapHeaders headers keys)
    keys.signedHeaders (getSha256FromString crypto payload)

def getStringToSign (canonicalRequest : Str) (keys : AuthorizationHeaderKeys) : Str :=
  keys.signingVersion ++ str "\n" ++ keys.isoDateTime ++ str "\n" ++ keys.scope ++ str "\n" ++
    getSha256FromString crypto canonicalRequest

def getSignature (keys : AuthorizationHeaderKeys) (stringToSign : Str) : Str :=
  let digest := crypto.hmacSha256 (str "AWS4" ++ keys.secretAccessKey) keys.dateTime
  let digest := crypto.hmacSha256 digest keys.region
  let digest := crypto.hmacSha256 digest keys.module
  let digest := crypto.hmacSha256 digest keys.requestVersion
  let digest := crypto.hmacSha256 digest stringToSign
  hexEncode digest

/-! ### Signing -/

/-- The properties that signing reads, and the name of the machine. -/
structure SigningConfiguration where
  region : Str
  accessKeyId : Str
  secretAccessKey : Str
  hostName : Str

/-- The keys for a date and a time that were read from the clock. -/
def signingKeys (cfg : SigningConfiguration) (dateString isoDateString module signedHeaders : Str) :
    AuthorizationHeaderKeys :=
  let requestVersion := str "aws4_request"
  { signingVersion := str "AWS4-HMAC-SHA256", secretAccessKey := cfg.secretAccessKey,
    dateTime := dateString, isoDateTime := isoDateString,
    scope := dateString ++ str "/" ++ cfg.region ++ str "/" ++ module ++ str "/" ++ requestVersion,
    region := cfg.region, module := module, requestVersion := requestVersion,
    signedHeaders := signedHeaders }

@[simp] theorem signingKeys_signedHeaders (cfg : SigningConfiguration)
    (dateString isoDateString module signedHeaders : Str) :
    (signingKeys cfg dateString isoDateString module signedHeaders).signedHeaders = signedHeaders := rfl

/-- The value of the `Authorization` header. -/
def authorizationText (accessKeyId : Str) (keys : AuthorizationHeaderKeys) (signature : Str) : Str :=
  str "AWS4-HMAC-SHA256 Credential=" ++ accessKeyId ++ str "/" ++ keys.dateTime ++ str "/" ++
    keys.region ++ str "/" ++ keys.module ++ str "/" ++ keys.requestVersion ++ str ",SignedHeaders=" ++
    keys.signedHeaders ++ str ",Signature=" ++ signature

/-- The headers that are set before a request is signed; the clock reads `t`. -/
def setMandatoryHeaders (cfg : SigningConfiguration) (t : Nat) (contentType payload : Str)
    (request : HttpRequest) : HttpRequest :=
  ((((request.set (str "Host") cfg.hostName).set (str "Content-Type") contentType).set
    (str "x-amz-content-sha256") (getSha256FromString crypto payload)).set
    (str "x-amz-date") (getISODateString t)).set (str "x-amz-security-token") cfg.secretAccessKey

/-- `AddAuthorizationHeader` of a request; the clock is read three times. -/
def addAuthorizationHeader (cfg : SigningConfiguration) (t₁ t₂ t₃ : Nat) (request : HttpRequest)
    (module contentType signedHeaders payload : Str) : Outcome Error HttpRequest := do
  let request := setMandatoryHeaders crypto cfg t₁ contentType payload request
  let keys := signingKeys cfg (getDateString t₂) (getISODateString t₃) module signedHeaders
  let canonicalRequest ← getCanonicalRequest crypto lib request keys
  let signature := getSignature crypto keys (getStringToSign crypto canonicalRequest keys)
  return request.set (str "Authorization") (authorizationText cfg.accessKeyId keys signature)

/-- A header of the map that is set only when it is missing. -/
def insertMissing (headers : OrderedMap Str Str) (name value : Str) : OrderedMap Str Str :=
  if (headers.get? name).isSome then headers else headers.insert name value

/-- The headers that are put into a map before it is signed. -/
def insertMandatoryHeaders (cfg : SigningConfiguration) (t : Nat) (contentType payload : Str)
    (headers : OrderedMap Str Str) : OrderedMap Str Str :=
  (insertMissing (((insertMissing headers (str "Host") cfg.hostName).insert (str "Content-Type")
    contentType).insert (str "x-amz-content-sha256") (getSha256FromString crypto payload))
    (str "x-amz-date") (getISODateString t)).insert (str "x-amz-security-token") cfg.secretAccessKey

/-- `AddAuthorizationHeader` of a method, a path and a map of headers. -/
def addMapAuthorizationHeader (cfg : SigningConfiguration) (t₁ t₂ t₃ : Nat) (method path : Str)
    (headers : OrderedMap Str Str) (module contentType signedHeaders payload : Str) :
    Outcome Error (OrderedMap Str Str) := do
  let headers := insertMandatoryHeaders crypto cfg t₁ contentType payload headers
  let keys := signingKeys cfg (getDateString t₂) (getISODateString t₃) module signedHeaders
  let canonicalRequest ← getCanonicalMapRequest crypto lib method path headers payload keys
  let signature := getSignature crypto keys (getStringToSign crypto canonicalRequest keys)
  return headers.insert (str "Authorization") (authorizationText cfg.accessKeyId keys signature)

/-! ### Verifying -/

variable (pattern : AuthorizationPattern)

/-- The keys of a match. -/
def keysOfMatch (signingVersion secretAccessKey isoDateTime : Str) (m : AuthorizationMatch) :
    AuthorizationHeaderKeys :=
  let requestVersion := str "aws4_request"
  { signingVersion := signingVersion,
    secretAccessKey := if secretAccessKey = [] then str "none" else secretAccessKey,
    dateTime := m.dateTime, isoDateTime := isoDateTime,
    scope := m.dateTime ++ str "/" ++ m.region ++ str "/" ++ m.module ++ str "/" ++ requestVersion,
    region := m.region, module := m.module, requestVersion := requestVersion,
    signedHeaders := m.signedHeaders, signature := m.signature }

/-- The date of a request; the clock reads `now` when it has none. -/
def isoDateTimeOf (now : Nat) (request : HttpRequest) : Str :=
  if hasHeader request (str "x-amz-date") then getHeaderValue request (str "x-amz-date") []
  else getISODateString now

/-- `AwsUtils::GetAuthorizationKeys`: a header that does not match gives no keys. -/
def getAuthorizationKeys (now : Nat) (request : HttpRequest) (secretAccessKey : Str) :
    Outcome Error AuthorizationHeaderKeys := do
  let authorizationHeader := request.field (str "Authorization")
  let signingVersion ← .get (split (byte ' ') authorizationHeader) 0
  match pattern.search authorizationHeader with
  | none => return {}
  | some m => return keysOfMatch signingVersion secretAccessKey (isoDateTimeOf now request) m

def verifySignature (now : Nat) (request : HttpRequest) (secretAccessKey : Str) :
    Outcome Error Bool := do
  let keys ← getAuthorizationKeys pattern now request secretAccessKey
  let canonicalRequest ← getCanonicalRequest crypto lib request keys
  let signature := getSignature crypto keys (getStringToSign crypto canonicalRequest keys)
  return equals signature keys.signature

/-! ### When a signature is accepted -/

/-- The keys a request is verified with, for a match of its header. -/
def verifyKeys (now : Nat) (request : HttpRequest) (secretAccessKey : Str) (m : AuthorizationMatch) :
    AuthorizationHeaderKeys :=
  keysOfMatch ((split (byte ' ') (request.field (str "Authorization"))).getD 0 []) secretAccessKey
    (isoDateTimeOf now request) m

/-- The canonical request, for its query. -/
def canonicalOf (request : HttpRequest) (query : Str) (keys : AuthorizationHeaderKeys) : Str :=
  canonicalLines request.method.text (urlEncode lib request.target) query
    (getCanonicalHeaders request keys) keys.signedHeaders (getSha256FromString crypto request.body)

/-- The signature of a request, for its query. -/
def signatureOf (request : HttpRequest) (query : Str) (keys : AuthorizationHeaderKeys) : Str :=
  getSignature crypto keys (getStringToSign crypto (canonicalOf crypto lib request query keys) keys)

theorem getSignature_ne (keys : AuthorizationHeaderKeys) (stringToSign : Str) :
    getSignature crypto keys stringToSign ≠ [] :=
  hexEncode_ne (crypto.hmacSha256_ne _ _)

/-- A request is accepted when its header matches, its query can be read, and the signature is the one of
    the header. -/
theorem verifySignature_eq_true {now : Nat} {request : HttpRequest} {secretAccessKey : Str} :
    verifySignature crypto lib pattern now request secretAccessKey = .returns true ↔
      ∃ m query, pattern.search (request.field (str "Authorization")) = some m ∧
        getCanonicalQueryParameters request.target = .returns query ∧
        signatureOf crypto lib request query (verifyKeys now request secretAccessKey m) = m.signature := by
  rw [verifySignature, getAuthorizationKeys]
  simp only [Outcome.get_bind []]
  rcases hsearch : pattern.search (request.field (str "Authorization")) with _ | m
  · simp only [Outcome.pure_eq, Outcome.returns_bind, getCanonicalRequest, bind_assoc]
    split
    · cases getCanonicalQueryParameters request.target <;> simp [equals]
    · simp
  · have hne : request.field (str "Authorization") ≠ [] := by
      obtain ⟨-, before, first, second, after, -, heq⟩ := pattern.search_matches hsearch
      rw [heq]
      simp [AuthorizationMatch.text, str]
    have hwords := List.length_pos_iff.mpr ((split_ne_nil (d := byte ' ')).mpr hne)
    rw [if_pos hwords]
    simp only [Outcome.pure_eq, Outcome.returns_bind, getCanonicalRequest, bind_assoc]
    rcases hquery : getCanonicalQueryParameters request.target with query | e | _
    · simp only [Outcome.returns_bind, Outcome.returns.injEq, equals, decide_eq_true_eq,
        Option.some.injEq, exists_and_left, exists_eq_left', ne_eq]
      constructor
      · rintro ⟨-, -, heq⟩
        exact heq
      · intro heq
        have hsignature := getSignature_ne crypto (verifyKeys now request secretAccessKey m)
          (getStringToSign crypto (canonicalOf crypto lib request query
            (verifyKeys now request secretAccessKey m)) (verifyKeys now request secretAccessKey m))
        exact ⟨hsignature, fun hnil => hsignature (heq.trans hnil), heq⟩
    · simp
    · simp

/-! ### What a text determines -/

theorem Verb.text_noNewline (verb : Verb) : byte '\n' ∉ verb.text := by
  have hstandard : ∀ name ∈ standardMethods, byte '\n' ∉ name := by decide
  rcases verb with _ | _ | _ | _ | _ | name
  iterate 5 decide
  rw [Verb.text]
  split
  · next h => exact hstandard name (List.contains_iff_mem.mp h)
  · decide

theorem Verb.text_injective {verb verb' : Verb} (hverb : verb.Standard) (hverb' : verb'.Standard)
    (h : verb.text = verb'.text) : verb = verb' := by
  have hstandard : ∀ name ∈ standardMethods, name ≠ str "GET" ∧ name ≠ str "PUT" ∧
      name ≠ str "POST" ∧ name ≠ str "DELETE" ∧ name ≠ str "HEAD" := by decide
  have hother : ∀ {name}, (Verb.other name).Standard → (Verb.other name).text = name := by
    exact fun hname => if_pos hname
  have hfive : ∀ {name}, (Verb.other name).Standard → ∀ {verb : Verb},
      (∀ n, verb ≠ .other n) → (Verb.other name).text ≠ verb.text := by
    intro name hname verb hne
    rw [hother hname]
    obtain ⟨hget, hput, hpost, hdelete, hhead⟩ := hstandard name (List.contains_iff_mem.mp hname)
    rcases verb with _ | _ | _ | _ | _ | n
    · exact hget
    · exact hput
    · exact hpost
    · exact hdelete
    · exact hhead
    · exact absurd rfl (hne n)
  by_cases ho : ∃ name, verb = .other name
  · obtain ⟨name, rfl⟩ := ho
    by_cases ho' : ∃ name, verb' = .other name
    · obtain ⟨name', rfl⟩ := ho'
      rw [hother hverb, hother hverb'] at h
      rw [h]
    · exact absurd h (hfive hverb fun n hn => ho' ⟨n, hn⟩)
  · by_cases ho' : ∃ name, verb' = .other name
    · obtain ⟨name', rfl⟩ := ho'
      exact absurd h.symm (hfive hverb' fun n hn => ho ⟨n, hn⟩)
    · rcases verb with _ | _ | _ | _ | _ | n <;> rcases verb' with _ | _ | _ | _ | _ | n' <;>
        first | rfl | exact absurd h (by decide) | exact absurd ⟨_, rfl⟩ ho | exact absurd ⟨_, rfl⟩ ho'

theorem sha256_noNewline (content : Str) : byte '\n' ∉ getSha256FromString crypto content :=
  notMem_hexEncode (by decide)

/-- The method and the target are the first two lines; with the query known, the others are found from the
    end. -/
theorem canonicalLines_inj {method method' url url' query query' headers headers' signed signed' payload
    payload' : Str} (hmethod : byte '\n' ∉ method) (hmethod' : byte '\n' ∉ method')
    (hurl : byte '\n' ∉ url) (hurl' : byte '\n' ∉ url') (hsigned : byte '\n' ∉ signed)
    (hsigned' : byte '\n' ∉ signed') (hpayload : byte '\n' ∉ payload) (hpayload' : byte '\n' ∉ payload')
    (h : canonicalLines method url query headers signed payload =
      canonicalLines method' url' query' headers' signed' payload') :
    method = method' ∧ url = url' ∧
      (query = query' → headers = headers' ∧ signed = signed' ∧ payload = payload') := by
  have hnewline : str "\n" = [byte '\n'] := by decide
  simp only [canonicalLines, hnewline, List.append_assoc, List.cons_append, List.nil_append] at h
  obtain ⟨hm, hrest⟩ := append_cons_inj hmethod hmethod' h
  obtain ⟨hu, hrest⟩ := append_cons_inj hurl hurl' hrest
  refine ⟨hm, hu, fun hquery => ?_⟩
  rw [hquery] at hrest
  have htail := (List.cons.inj (List.append_cancel_left hrest)).2
  have hgroup : ∀ a b c : Str, a ++ byte '\n' :: (b ++ byte '\n' :: c) =
      (a ++ byte '\n' :: b) ++ byte '\n' :: c := by simp
  rw [hgroup, hgroup] at htail
  obtain ⟨hrest, hp⟩ := append_cons_inj_last hpayload hpayload' htail
  obtain ⟨hh, hs⟩ := append_cons_inj_last hsigned hsigned' hrest
  exact ⟨hh, hs, hp⟩

/-- The version and the date are the first two lines, the digest the last one. -/
theorem getStringToSign_inj {canonicalRequest canonicalRequest' : Str}
    {keys keys' : AuthorizationHeaderKeys} (hversion : keys.signingVersion = keys'.signingVersion)
    (hdate : byte '\n' ∉ keys.isoDateTime) (hdate' : byte '\n' ∉ keys'.isoDateTime)
    (h : getStringToSign crypto canonicalRequest keys = getStringToSign crypto canonicalRequest' keys') :
    keys.isoDateTime = keys'.isoDateTime ∧ keys.scope = keys'.scope ∧
      getSha256FromString crypto canonicalRequest = getSha256FromString crypto canonicalRequest' := by
  have hnewline : str "\n" = [byte '\n'] := by decide
  simp only [getStringToSign, hnewline, hversion, List.append_assoc, List.cons_append, List.nil_append] at h
  have htail := (List.cons.inj (List.append_cancel_left h)).2
  obtain ⟨hi, htail⟩ := append_cons_inj hdate hdate' htail
  obtain ⟨hscope, hdigest⟩ := append_cons_inj_last (sha256_noNewline crypto _)
    (sha256_noNewline crypto _) htail
  exact ⟨hi, hscope, hdigest⟩

/-! ### Headers as lines -/

/-- The value that is signed for a name. -/
def signedValue (request : HttpRequest) (name : Str) : Option Str :=
  (request.findField name).map fun field => trim field.2

/-- Lowering adds lowercase letters only. -/
theorem notMem_toLower {s : Str} {c : UInt8} (hc : c < 97) (h : c ∉ s) : c ∉ toLower s := by
  intro hmem
  obtain ⟨b, hb, heq⟩ := List.mem_map.mp hmem
  unfold toLowerByte at heq
  split at heq
  · next hupper =>
    have hlt := UInt8.lt_iff_toNat_lt.mp hc
    have hge := UInt8.le_iff_toNat_le.mp hupper.1
    have hle := UInt8.le_iff_toNat_le.mp hupper.2
    rw [← heq, UInt8.toNat_add] at hlt
    simp at hlt hge hle
    omega
  · exact h (heq ▸ hb)

theorem mem_trim {s : Str} {c : UInt8} (hc : c ∈ trim s) : c ∈ s :=
  (List.dropWhile_suffix _).subset ((List.rdropWhile_prefix _ _).subset hc)

/-- The lines of the canonical headers, one for each name that has a value. -/
def headerLines (value : Str → Option Str) (names : List Str) : List Str :=
  names.filterMap (labelled (byte ':') toLower value)

theorem flatMap_canonicalHeader (value : Str → Option Str) (names : List Str) :
    (names.flatMap fun name => match value name with
      | some v => canonicalHeader name v
      | none => []) = unlines (byte '\n') (headerLines (fun name => (value name).map trim) names) := by
  induction names with
  | nil => rfl
  | cons name names ih =>
    have hcolon : str ":" = [byte ':'] := by decide
    have hnewline : str "\n" = [byte '\n'] := by decide
    rcases hvalue : value name with _ | v
    · simpa [hvalue, headerLines, labelled] using ih
    · simpa [hvalue, headerLines, labelled, canonicalHeader, hcolon, hnewline] using ih

theorem getCanonicalHeaders_eq (request : HttpRequest) (keys : AuthorizationHeaderKeys) :
    getCanonicalHeaders request keys = unlines (byte '\n')
      (headerLines (signedValue request) (split (byte ';') keys.signedHeaders)) := by
  rw [show signedValue request = fun name => ((request.findField name).map Prod.snd).map trim from
    funext fun name => by simp [signedValue, Function.comp_def]]
  rw [← flatMap_canonicalHeader, getCanonicalHeaders]
  refine List.flatMap_congr fun name _ => ?_
  rcases hfind : request.findField name with _ | field
  · simp [hasHeader, hfind]
  · simp [hasHeader, getHeaderValue, HttpRequest.field, hfind]

theorem getCanonicalMapHeaders_eq (headers : OrderedMap Str Str) (keys : AuthorizationHeaderKeys) :
    getCanonicalMapHeaders headers keys = unlines (byte '\n')
      (headerLines (fun name => (headers.get? name).map trim) (split (byte ';') keys.signedHeaders)) := by
  rw [← flatMap_canonicalHeader]
  rfl

/-! ### Digests without collisions -/

section CollisionFree

variable {crypto} (hfree : crypto.CollisionFree)

include hfree

theorem getSha256FromString_injective : Function.Injective (getSha256FromString crypto) :=
  hexEncode_injective.comp hfree.sha256_injective

theorem hmacSha256_inj {key key' message message' : Str}
    (h : crypto.hmacSha256 key message = crypto.hmacSha256 key' message') :
    stripZeros key = stripZeros key' ∧ message = message' :=
  hfree.hmacSha256_injective (congrArg stripZeros h)

/-- The signature determines the text that was signed. -/
theorem getSignature_inj {keys keys' : AuthorizationHeaderKeys} {stringToSign stringToSign' : Str}
    (h : getSignature crypto keys stringToSign = getSignature crypto keys' stringToSign') :
    stringToSign = stringToSign' :=
  (hmacSha256_inj hfree (hexEncode_injective h)).2

/-- And the secret, up to zero bytes at its end. -/
theorem getSignature_secret {keys keys' : AuthorizationHeaderKeys} {stringToSign stringToSign' : Str}
    (h : getSignature crypto keys stringToSign = getSignature crypto keys' stringToSign') :
    stripZeros (str "AWS4" ++ keys.secretAccessKey) = stripZeros (str "AWS4" ++ keys'.secretAccessKey) := by
  have hversion := (hmacSha256_inj hfree (hexEncode_injective h)).1
  have hmodule := (hfree.hmacSha256_injective hversion).1
  have hregion := (hfree.hmacSha256_injective hmodule).1
  have hdate := (hfree.hmacSha256_injective hregion).1
  exact (hfree.hmacSha256_injective hdate).1

end CollisionFree

end AwsMock
