import AwsMock.Core.AuthorizationText
import AwsMock.Core.QueryParameters

/-!
# Signing and verifying

When a request that was signed is accepted. The verifier reads the headers of the request that is sent,
whatever their case, and the date from its header; the signer reads the clock, and the second overload reads
its map as it is spelled.
-/

namespace AwsMock

open Lib

variable {crypto : Crypto} {lib : PocoUri} {pattern : AuthorizationPattern}

/-! ### Queries -/

/-- Each parameter of the query has a name and a value. -/
def ReadableQuery (target : Str) : Prop :=
  contains target (str "?") → ∀ parameter ∈ queryParameters target,
    2 ≤ (split (byte '=') parameter).length

/-- The canonical query exists when every parameter can be read. -/
theorem getCanonicalQueryParameters_returns {target : Str} :
    (∃ query, getCanonicalQueryParameters target = .returns query) ↔ ReadableQuery target := by
  simp only [ReadableQuery, two_le_length_split]
  unfold getCanonicalQueryParameters
  rcases getQueryParameters_cases target with ⟨hvalues, parameters, hreturns⟩ | ⟨hvalues, hundefined⟩
  · rw [hreturns]
    exact iff_of_true ⟨_, rfl⟩ hvalues
  · rw [hundefined]
    exact iff_of_false (by simp) hvalues

/-! ### The names of the signed headers -/

theorem join_plain {names : List Str} (hnames : ∀ name ∈ names, isToken name) :
    byte '=' ∉ join (byte ';') names ∧ byte '\n' ∉ join (byte ';') names := by
  constructor <;> intro h
  · rcases mem_join h with heq | ⟨name, hname, hmem⟩
    · exact absurd heq (by decide)
    · exact notMem_token (hnames name hname) (by decide) hmem
  · rcases mem_join h with heq | ⟨name, hname, hmem⟩
    · exact absurd heq (by decide)
    · exact notMem_token (hnames name hname) (by decide) hmem

theorem split_join_names {names : List Str} (hnames : ∀ name ∈ names, isToken name) :
    split (byte ';') (join (byte ';') names) = names := by
  refine split_join (fun name hname => notMem_token (hnames name hname) (by decide)) fun hlast => ?_
  have hempty := hnames [] (List.mem_of_getLast? hlast)
  exact absurd hempty (by decide)

/-! ### A request that was signed -/

/-- What a signer has read, and the request that is sent. The request may have other values of the headers
    than the signer has seen. -/
structure Signing where
  cfg : SigningConfiguration
  dateRead : Nat
  isoDateRead : Nat
  module : Str
  names : List Str
  values : Str → Option Str
  query : Str
  sent : HttpRequest

namespace Signing

variable (crypto lib) (s : Signing)

def keys : AuthorizationHeaderKeys :=
  signingKeys s.cfg (getDateString s.dateRead) (getISODateString s.isoDateRead) s.module
    (join (byte ';') s.names)

def canonicalRequest : Str :=
  canonicalLines s.sent.method.text (urlEncode lib s.sent.target) s.query
    (unlines (byte '\n') (headerLines s.values s.names)) s.keys.signedHeaders
    (getSha256FromString crypto s.sent.body)

def signature : Str :=
  getSignature crypto s.keys (getStringToSign crypto (s.canonicalRequest crypto lib) s.keys)

/-- What the verifier should find in the header. -/
def header : AuthorizationMatch where
  accessKeyId := s.cfg.accessKeyId
  dateTime := s.keys.dateTime
  region := s.keys.region
  module := s.keys.module
  signedHeaders := s.keys.signedHeaders
  signature := s.signature crypto lib

/-- The request carries the signature in its header. -/
structure IsSent : Prop where
  query : getCanonicalQueryParameters s.sent.target = .returns s.query
  authorization : s.sent.field (str "Authorization") =
    authorizationText s.cfg.accessKeyId s.keys (s.signature crypto lib)

/-- What the signer and the verifier have to agree on. -/
structure Agrees (now : Nat) : Prop where
  accessKeyId : s.cfg.accessKeyId ≠ []
  region : AuthorizationMatch.isName s.cfg.region
  module : AuthorizationMatch.isName s.module
  secret : s.cfg.secretAccessKey ≠ []
  date : (getDateString s.dateRead).length = 8
  isoDate : isoDateTimeOf now s.sent = getISODateString s.isoDateRead
  headers : ∀ name ∈ s.names, s.values name = signedValue s.sent name

/-- An alphanumeric key and header names. -/
structure Names : Prop where
  accessKeyId : s.cfg.accessKeyId.all isAlphaNumeric
  names : ∀ name ∈ s.names, isToken name

variable {crypto lib s} (hnames : s.Names)

include hnames

theorem header_plain (hregion : AuthorizationMatch.isName s.cfg.region)
    (hmodule : AuthorizationMatch.isName s.module) : (s.header crypto lib).Plain where
  accessKeyId := hnames.accessKeyId
  dateTime := getDateString_digits s.dateRead
  region := hregion
  module := hmodule
  signedHeaders := join_plain hnames.names
  signature := ⟨notMem_hexEncode (by decide), notMem_hexEncode (by decide)⟩

omit hnames in
theorem IsSent.signedText (hsent : s.IsSent crypto lib) :
    s.sent.field (str "Authorization") = (s.header crypto lib).signedText := by
  rw [hsent.authorization, AuthorizationMatch.authorizationText_eq rfl]
  rfl

omit hnames in
/-- The verifier's keys for the signer's header, where both agree on the date. -/
theorem verifyKeys_header {now : Nat} (hsent : s.IsSent crypto lib) (h : s.Agrees now) :
    verifyKeys now s.sent s.cfg.secretAccessKey (s.header crypto lib) =
      { s.keys with signature := s.signature crypto lib } := by
  rw [verifyKeys, hsent.signedText, AuthorizationMatch.signingVersion_signedText, h.isoDate, keysOfMatch,
    if_neg h.secret]
  rfl

/-- A signer and a verifier that agree compute the same signature. -/
theorem IsSent.accepted {now : Nat} (hsent : s.IsSent crypto lib) (h : s.Agrees now) :
    verifySignature crypto lib pattern now s.sent s.cfg.secretAccessKey = .returns true := by
  have hplain : (s.header crypto lib).Plain := header_plain hnames h.region h.module
  have hwf := hplain.wellFormed_iff.mpr ⟨h.accessKeyId, h.date⟩
  have hheaders : getCanonicalHeaders s.sent { s.keys with signature := s.signature crypto lib } =
      unlines (byte '\n') (headerLines s.values s.names) := by
    rw [getCanonicalHeaders_eq]
    refine congrArg _ ?_
    rw [show split (byte ';') s.keys.signedHeaders = s.names from split_join_names hnames.names]
    exact List.filterMap_congr fun name hname => by rw [labelled, labelled, h.headers name hname]
  refine (verifySignature_eq_true crypto lib pattern).mpr ⟨s.header crypto lib, s.query, ?_, hsent.query, ?_⟩
  · rw [hsent.signedText]
    exact hplain.search_signedText hwf pattern
  · rw [verifyKeys_header hsent h, signatureOf, canonicalOf, hheaders]
    rfl

/-- A request that is accepted was signed by a signer that agrees: the digests determine what was signed,
    and what was signed holds everything but the secret, which the keys are derived from. -/
theorem IsSent.agrees (hfree : crypto.CollisionFree) {now : Nat} (hsent : s.IsSent crypto lib)
    (himp : ∀ name ∈ s.names, (s.values name).isSome → (signedValue s.sent name).isSome)
    (hvalues : ∀ name ∈ s.names, ∀ v, s.values name = some v → byte '\n' ∉ v)
    (hfields : ∀ field ∈ s.sent.fields, field.2 = s.sent.field (str "Authorization") ∨ byte '\n' ∉ field.2)
    (hdate : byte '\n' ∉ isoDateTimeOf now s.sent)
    (haccepted : verifySignature crypto lib pattern now s.sent s.cfg.secretAccessKey = .returns true) :
    s.Agrees now := by
  obtain ⟨m, query, hsearch, hquery, hsignature⟩ :=
    (verifySignature_eq_true crypto lib pattern).mp haccepted
  obtain rfl : query = s.query := Outcome.returns.inj (hquery.symm.trans hsent.query)
  have hmatch := pattern.search_matches hsearch
  -- the signature is what stands behind the last equal sign
  have hown : s.signature crypto lib = m.signature := by
    rw [hsent.signedText] at hmatch
    refine (hmatch.signature_eq (notMem_hexEncode (by decide)) (notMem_hexEncode (by decide)) ?_).symm
    rw [← hsignature]
    exact notMem_hexEncode (by decide)
  have hsame := hown.trans hsignature.symm
  have hversion : s.keys.signingVersion =
      (verifyKeys now s.sent s.cfg.secretAccessKey m).signingVersion := by
    simp only [verifyKeys, hsent.signedText, AuthorizationMatch.signingVersion_signedText]
    rfl
  obtain ⟨hiso, hscope, hdigest⟩ := getStringToSign_inj crypto hversion
    (getISODateString_noNewline s.isoDateRead) hdate (getSignature_inj hfree hsame)
  have hplainNames := join_plain hnames.names
  obtain ⟨-, -, hrest⟩ := canonicalLines_inj s.sent.method.text_noNewline s.sent.method.text_noNewline
    (notMem_urlEncode lib (by decide) (by decide) _) (notMem_urlEncode lib (by decide) (by decide) _)
    hplainNames.2 hmatch.1.2.2.2.2.1 (sha256_noNewline crypto _) (sha256_noNewline crypto _)
    (getSha256FromString_injective hfree hdigest)
  obtain ⟨hheaders, hsignedHeaders, -⟩ := hrest rfl
  obtain ⟨hd, hr, hm⟩ := hmatch.1.scope_inj (getDateString_digits s.dateRead) hscope
  have hplain : (s.header crypto lib).Plain :=
    header_plain hnames (hr ▸ hmatch.1.2.2.1) (hm ▸ hmatch.1.2.2.2.1)
  have hheader : m = s.header crypto lib := hplain.eq_of_matches (hsent.signedText ▸ hmatch)
  obtain ⟨hkey, hlength⟩ := hplain.wellFormed_iff.mp (hheader ▸ hmatch.1)
  refine ⟨hkey, hplain.region, hplain.module, fun hnil => ?_, hlength, hiso.symm, ?_⟩
  · have hsecret := getSignature_secret hfree hsame
    simp only [verifyKeys, keysOfMatch, hnil, if_true] at hsecret
    rw [show s.keys.secretAccessKey = [] from hnil] at hsecret
    exact absurd hsecret (by decide)
  · have hsplit : split (byte ';') m.signedHeaders = s.names := by
      rw [hheader]
      exact split_join_names hnames.names
    have hsentValue : ∀ name ∈ s.names, ∀ v, signedValue s.sent name = some v → byte '\n' ∉ v := by
      intro name _ v hv
      obtain ⟨field, hfind, rfl⟩ := Option.map_eq_some_iff.mp hv
      rcases hfields field (List.mem_of_find?_eq_some hfind) with hfield | hfield
      · rw [hfield, hsent.signedText]
        exact fun hmem => hplain.signedText_noNewline (mem_trim hmem)
      · exact fun hmem => hfield (mem_trim hmem)
    have hkeyLine : ∀ name ∈ s.names, byte '\n' ∉ toLower name := fun name hname =>
      notMem_toLower (by decide) (notMem_token (hnames.names name hname) (by decide))
    rw [getCanonicalHeaders_eq, show (verifyKeys now s.sent s.cfg.secretAccessKey m).signedHeaders =
      m.signedHeaders from rfl, hsplit] at hheaders
    have hlines := unlines_injective
      (notMem_labelled (by decide) (fun name hname _ _ => hkeyLine name hname) hvalues)
      (notMem_labelled (by decide) (fun name hname _ _ => hkeyLine name hname) hsentValue) hheaders
    exact labelled_eq_of_imp himp hlines

omit hnames in
/-- A request with the text of its signature in its header. -/
theorem isSent_of_text {method : Verb} {target body headers : Str} (hmethod : s.sent.method = method)
    (htarget : s.sent.target = target) (hbody : s.sent.body = body)
    (hheaders : headers = unlines (byte '\n') (headerLines s.values s.names))
    (hquery : getCanonicalQueryParameters target = .returns s.query)
    (hauthorization : s.sent.field (str "Authorization") = authorizationText s.cfg.accessKeyId s.keys
      (getSignature crypto s.keys (getStringToSign crypto (canonicalLines method.text (urlEncode lib target)
        s.query headers s.keys.signedHeaders (getSha256FromString crypto body)) s.keys))) :
    s.IsSent crypto lib := by
  subst hmethod htarget hbody hheaders
  exact ⟨hquery, hauthorization⟩

end Signing

/-! ### The claim -/

/-- What both overloads need: names that the pattern of the verifier takes, a secret, a year of four digits
    and a query that can be read. -/
structure CredentialFits (cfg : SigningConfiguration) (t₂ : Nat) (module target : Str) : Prop where
  accessKeyId : cfg.accessKeyId ≠ []
  region : AuthorizationMatch.isName cfg.region
  module : AuthorizationMatch.isName module
  secret : cfg.secretAccessKey ≠ []
  date : (getDateString t₂).length = 8
  query : ReadableQuery target

/-- A header that is not `Authorization`, whatever its case. -/
def OtherName (name : Str) : Prop := equalsIgnoreCase (str "Authorization") name = false

section Claim

variable (crypto lib pattern) (cfg : SigningConfiguration) (t₁ t₂ t₃ now : Nat) (module contentType : Str)
  (names : List Str) (payload : Str)

/-- The verifier accepts what the first overload has signed. -/
def RequestAccepted (request : HttpRequest) : Prop :=
  (do let sent ← addAuthorizationHeader crypto lib cfg t₁ t₂ t₃ request module contentType
        (join (byte ';') names) payload
      verifySignature crypto lib pattern now sent cfg.secretAccessKey) = .returns true

/-- The first and the third reading of the clock print the same, and `Authorization` is not signed. -/
structure RequestFits (request : HttpRequest) : Prop where
  credential : CredentialFits cfg t₂ module request.target
  clock : getISODateString t₁ = getISODateString t₃
  other : ∀ name ∈ names, OtherName name

/-- The request of a map of headers. -/
def mapRequest (method : Verb) (path : Str) (headers : OrderedMap Str Str) (payload : Str) : HttpRequest where
  method := method
  target := path
  fields := headers.entries
  body := payload

/-- The verifier accepts what the second overload has signed. -/
def MapAccepted (method : Verb) (path : Str) (headers : OrderedMap Str Str) : Prop :=
  (do let sent ← addMapAuthorizationHeader crypto lib cfg t₁ t₂ t₃ method.text path headers module
        contentType (join (byte ';') names) payload
      verifySignature crypto lib pattern now (mapRequest method path sent payload) cfg.secretAccessKey) =
    .returns true

/-- The request before its `Authorization` header is added. -/
def mapUnsigned (method : Verb) (path : Str) (headers : OrderedMap Str Str) : HttpRequest :=
  mapRequest method path (insertMandatoryHeaders crypto cfg t₁ contentType payload headers) payload

/-- The date header has what the third reading prints, and what is signed of a header, which is looked up as
    it is spelled, is what is found whatever the case. -/
structure MapFits (method : Verb) (path : Str) (headers : OrderedMap Str Str) : Prop where
  credential : CredentialFits cfg t₂ module path
  date : (mapUnsigned crypto cfg t₁ contentType payload method path headers).field (str "x-amz-date") =
    getISODateString t₃
  other : ∀ name ∈ names, OtherName name
  spelling : ∀ name ∈ names,
    ((insertMandatoryHeaders crypto cfg t₁ contentType payload headers).get? name).map trim =
      signedValue (mapUnsigned crypto cfg t₁ contentType payload method path headers) name
  authorization : ∀ name value, headers.get? name = some value → ¬ OtherName name →
    name = str "Authorization"

/-- Each header is one line, and none is `Authorization`. -/
def Unsigned (request : HttpRequest) : Prop :=
  ∀ field ∈ request.fields, byte '\n' ∉ field.2 ∧ OtherName field.1

/-- What the first overload has signed. -/
def requestSigning (request : HttpRequest) (query : Str) : Signing where
  cfg := cfg
  dateRead := t₂
  isoDateRead := t₃
  module := module
  names := names
  values := signedValue (setMandatoryHeaders crypto cfg t₁ contentType payload request)
  query := query
  sent :=
    let mandatory := setMandatoryHeaders crypto cfg t₁ contentType payload request
    let keys := signingKeys cfg (getDateString t₂) (getISODateString t₃) module (join (byte ';') names)
    mandatory.set (str "Authorization") (authorizationText cfg.accessKeyId keys
      (signatureOf crypto lib mandatory query keys))

/-- What the second overload has signed. -/
def mapSigning (method : Verb) (path : Str) (headers : OrderedMap Str Str) (query : Str) : Signing where
  cfg := cfg
  dateRead := t₂
  isoDateRead := t₃
  module := module
  names := names
  values name := ((insertMandatoryHeaders crypto cfg t₁ contentType payload headers).get? name).map trim
  query := query
  sent :=
    let mandatory := insertMandatoryHeaders crypto cfg t₁ contentType payload headers
    let keys := signingKeys cfg (getDateString t₂) (getISODateString t₃) module (join (byte ';') names)
    mapRequest method path (mandatory.insert (str "Authorization") (authorizationText cfg.accessKeyId keys
      (getSignature crypto keys (getStringToSign crypto (canonicalLines method.text (urlEncode lib path) query
        (getCanonicalMapHeaders mandatory keys) keys.signedHeaders (getSha256FromString crypto payload))
        keys)))) payload

end Claim

section Overloads

variable {cfg : SigningConfiguration} {t₁ t₂ t₃ now : Nat} {module contentType : Str} {names : List Str}
  {payload : Str} {query : Str}

theorem requestAccepted_iff {request : HttpRequest} :
    RequestAccepted crypto lib pattern cfg t₁ t₂ t₃ now module contentType names payload request ↔
      ∃ query, getCanonicalQueryParameters request.target = .returns query ∧
        verifySignature crypto lib pattern now (requestSigning crypto lib cfg t₁ t₂ t₃ module contentType
          names payload request query).sent cfg.secretAccessKey = .returns true := by
  have htarget : (setMandatoryHeaders crypto cfg t₁ contentType payload request).target =
      request.target := rfl
  simp only [RequestAccepted, addAuthorizationHeader, getCanonicalRequest, bind_assoc, htarget]
  rcases getCanonicalQueryParameters request.target with query | e | _
  · simp only [Outcome.returns_bind, Outcome.pure_eq, Outcome.returns.injEq, exists_eq_left']
    rfl
  · simp
  · simp

theorem mapAccepted_iff {method : Verb} {path : Str} {headers : OrderedMap Str Str} :
    MapAccepted crypto lib pattern cfg t₁ t₂ t₃ now module contentType names payload method path headers ↔
      ∃ query, getCanonicalQueryParameters path = .returns query ∧
        verifySignature crypto lib pattern now (mapSigning crypto lib cfg t₁ t₂ t₃ module contentType
          names payload method path headers query).sent cfg.secretAccessKey = .returns true := by
  simp only [MapAccepted, addMapAuthorizationHeader, getCanonicalMapRequest, bind_assoc]
  rcases getCanonicalQueryParameters path with query | e | _
  · simp only [Outcome.returns_bind, Outcome.pure_eq, Outcome.returns.injEq, exists_eq_left']
    rfl
  · simp
  · simp

theorem field_set_authorization (request : HttpRequest) (value : Str) :
    (request.set (str "Authorization") value).field (str "Authorization") = value := by
  rw [HttpRequest.field, HttpRequest.findField_set_self (by decide)]
  rfl

theorem requestSigning_isSent (hnames : ∀ name ∈ names, isToken name) {request : HttpRequest}
    (hquery : getCanonicalQueryParameters request.target = .returns query) :
    (requestSigning crypto lib cfg t₁ t₂ t₃ module contentType names payload request query).IsSent
      crypto lib := by
  refine Signing.isSent_of_text HttpRequest.set_method HttpRequest.set_target HttpRequest.set_body ?_ hquery
    (field_set_authorization _ _)
  rw [getCanonicalHeaders_eq]
  exact congrArg (fun names => unlines (byte '\n') (headerLines _ names)) (split_join_names hnames)

/-! ### The headers that are sent -/

theorem OtherName.signedValue_set {name : Str} (h : OtherName name) (request : HttpRequest) (value : Str) :
    signedValue (request.set (str "Authorization") value) name = signedValue request name := by
  rw [signedValue, HttpRequest.findField_set_of_ne h, signedValue]

theorem not_otherName {name : Str} : ¬ OtherName name ↔ equalsIgnoreCase (str "Authorization") name = true := by
  rw [OtherName, Bool.not_eq_false]

theorem isoDateTimeOf_eq {request : HttpRequest} {field : Str × Str}
    (h : request.findField (str "x-amz-date") = some field) : isoDateTimeOf now request = field.2 := by
  simp [isoDateTimeOf, hasHeader, getHeaderValue, HttpRequest.field, h]

/-- The date is the fourth of the five headers that are set. -/
theorem isoDateTimeOf_set (request : HttpRequest) (value : Str) :
    isoDateTimeOf now ((setMandatoryHeaders crypto cfg t₁ contentType payload request).set
      (str "Authorization") value) = getISODateString t₁ := by
  have hauthorization : equalsIgnoreCase (str "Authorization") (str "x-amz-date") = false := by decide
  have htoken : equalsIgnoreCase (str "x-amz-security-token") (str "x-amz-date") = false := by decide
  have hdate : equalsIgnoreCase (str "x-amz-date") (str "x-amz-date") = true := by decide
  have hmandatory : (setMandatoryHeaders crypto cfg t₁ contentType payload request).findField
      (str "x-amz-date") = some (str "x-amz-date", getISODateString t₁) := by
    rw [setMandatoryHeaders, HttpRequest.findField_set_of_ne htoken, HttpRequest.findField_set_self hdate]
  have hfind : ((setMandatoryHeaders crypto cfg t₁ contentType payload request).set (str "Authorization")
      value).findField (str "x-amz-date") = some (str "x-amz-date", getISODateString t₁) :=
    (HttpRequest.findField_set_of_ne hauthorization).trans hmandatory
  rw [isoDateTimeOf_eq hfind]

/-- Before it is signed, a request has no `Authorization` header. -/
theorem Unsigned.signedValue {request : HttpRequest} (h : Unsigned request) {name : Str}
    (hname : ¬ OtherName name) : signedValue request name = none := by
  have hfind : request.findField name = none := by
    refine List.find?_eq_none.mpr fun field hfield heq => ?_
    have hother := (h field hfield).2
    rw [not_otherName] at hname
    simp only [OtherName, equalsIgnoreCase, decide_eq_true_eq, decide_eq_false_iff_not] at hother hname heq
    exact hother (hname.trans heq.symm)
  rw [AwsMock.signedValue, hfind]
  rfl

theorem Unsigned.noNewline {request : HttpRequest} (h : Unsigned request) {name v : Str}
    (hv : AwsMock.signedValue request name = some v) : byte '\n' ∉ v := by
  obtain ⟨field, hfind, rfl⟩ := Option.map_eq_some_iff.mp hv
  exact fun hmem => (h field (List.mem_of_find?_eq_some hfind)).1 (mem_trim hmem)

theorem signedValue_set_authorization {name : Str} (hname : ¬ OtherName name) (request : HttpRequest)
    (value : Str) : signedValue (request.set (str "Authorization") value) name = some (trim value) := by
  rw [signedValue, HttpRequest.findField_set_self (not_otherName.mp hname)]
  rfl

/-- A request that is accepted, and had no `Authorization` header before it was signed. -/
theorem Signing.IsSent.agrees_of_unsigned {s : Signing} (hnames : s.Names) (hfree : crypto.CollisionFree)
    (hsent : s.IsSent crypto lib) {request : HttpRequest} (hunsigned : Unsigned request)
    (hsame : ∀ name, OtherName name → signedValue s.sent name = signedValue request name)
    (hnew : ∀ name, ¬ OtherName name → ∃ v, signedValue s.sent name = some v)
    (hvalues : ∀ name v, s.values name = some v → (signedValue request name).isSome ∧ byte '\n' ∉ v)
    (hfields : ∀ field ∈ s.sent.fields, field.2 = s.sent.field (str "Authorization") ∨ field ∈ request.fields)
    (hdate : byte '\n' ∉ isoDateTimeOf now s.sent)
    (haccepted : verifySignature crypto lib pattern now s.sent s.cfg.secretAccessKey = .returns true) :
    s.Agrees now ∧ ∀ name ∈ s.names, OtherName name := by
  have hagrees : s.Agrees now := by
    refine Signing.IsSent.agrees hnames hfree hsent (fun name _ hsome => ?_)
      (fun name _ v hv => (hvalues name v hv).2) (fun field hfield => ?_) hdate haccepted
    · obtain ⟨v, hv⟩ := Option.isSome_iff_exists.mp hsome
      by_cases hname : OtherName name
      · rw [hsame name hname]
        exact (hvalues name v hv).1
      · obtain ⟨w, hw⟩ := hnew name hname
        rw [hw]
        rfl
    · exact (hfields field hfield).imp_right fun hold => (hunsigned field hold).1
  refine ⟨hagrees, fun name hname => ?_⟩
  by_contra hother
  obtain ⟨v, hv⟩ := hnew name hother
  have hvalue := hagrees.headers name hname
  have hsome := (hvalues name v (hvalue.trans hv)).1
  rw [hunsigned.signedValue hother] at hsome
  cases hsome

/-! ### A signed request -/

theorem requestAccepted_of_fits (hkey : cfg.accessKeyId.all isAlphaNumeric) (hnames : ∀ name ∈ names, isToken name)
    {request : HttpRequest} (hfits : RequestFits cfg t₁ t₂ t₃ module names request) :
    RequestAccepted crypto lib pattern cfg t₁ t₂ t₃ now module contentType names payload request := by
  obtain ⟨query, hquery⟩ := getCanonicalQueryParameters_returns.mpr hfits.credential.query
  refine requestAccepted_iff.mpr ⟨query, hquery, ?_⟩
  refine Signing.IsSent.accepted ⟨hkey, hnames⟩ (requestSigning_isSent hnames hquery) ?_
  exact {
    accessKeyId := hfits.credential.accessKeyId
    region := hfits.credential.region
    module := hfits.credential.module
    secret := hfits.credential.secret
    date := hfits.credential.date
    isoDate := (isoDateTimeOf_set request _).trans hfits.clock
    headers := fun name hname => ((hfits.other name hname).signedValue_set _ _).symm }

/-- The signature covers everything that has to fit. -/
theorem requestFits_of_accepted (hfree : crypto.CollisionFree) (hkey : cfg.accessKeyId.all isAlphaNumeric)
    (hnames : ∀ name ∈ names, isToken name) {request : HttpRequest}
    (hunsigned : Unsigned (setMandatoryHeaders crypto cfg t₁ contentType payload request))
    (haccepted : RequestAccepted crypto lib pattern cfg t₁ t₂ t₃ now module contentType names payload request) :
    RequestFits cfg t₁ t₂ t₃ module names request := by
  obtain ⟨query, hquery, hverified⟩ := requestAccepted_iff.mp haccepted
  let s := requestSigning crypto lib cfg t₁ t₂ t₃ module contentType names payload request query
  have hsent : s.IsSent crypto lib := requestSigning_isSent hnames hquery
  have hdate : isoDateTimeOf now s.sent = getISODateString t₁ := isoDateTimeOf_set request _
  obtain ⟨hagrees, hother⟩ : s.Agrees now ∧ ∀ name ∈ s.names, OtherName name := by
    refine hsent.agrees_of_unsigned ⟨hkey, hnames⟩ hfree hunsigned
      (fun name hname => hname.signedValue_set _ _)
      (fun name hname => ⟨_, signedValue_set_authorization hname _ _⟩)
      (fun name v hv => ⟨by rw [show signedValue _ name = some v from hv]; rfl, hunsigned.noNewline hv⟩)
      (fun field hfield => ?_) (hdate ▸ getISODateString_noNewline t₁) hverified
    rcases HttpRequest.mem_set hfield with rfl | hold
    · exact .inl (field_set_authorization _ _).symm
    · exact .inr hold
  exact ⟨⟨hagrees.accessKeyId, hagrees.region, hagrees.module, hagrees.secret, hagrees.date,
    getCanonicalQueryParameters_returns.mp ⟨query, hquery⟩⟩, hdate.symm.trans hagrees.isoDate, hother⟩

/-! ### A signed map -/

variable {method : Verb} {path : Str} {headers : OrderedMap Str Str}

theorem signedValue_mapRequest (name : Str) : signedValue (mapRequest method path headers payload) name =
    (headers.findIf fun key _ => equalsIgnoreCase key name).map fun entry => trim entry.2 := rfl

theorem OtherName.signedValue_insert {name : Str} (h : OtherName name) (value : Str) :
    signedValue (mapRequest method path (headers.insert (str "Authorization") value) payload) name =
      signedValue (mapRequest method path headers payload) name := by
  have hfind : (headers.insert (str "Authorization") value).findIf (fun key _ => equalsIgnoreCase key name) =
      headers.findIf fun key _ => equalsIgnoreCase key name := OrderedMap.findIf_insert_of_key value fun _ => h
  rw [signedValue_mapRequest, hfind, signedValue_mapRequest]

theorem signedValue_insert_authorization {name : Str} (hname : ¬ OtherName name) (value : Str) :
    ∃ v, signedValue (mapRequest method path (headers.insert (str "Authorization") value) payload) name =
      some v := by
  have hfind : ((headers.insert (str "Authorization") value).findIf
      fun key _ => equalsIgnoreCase key name).isSome :=
    OrderedMap.findIf_isSome.mpr ⟨_, _, OrderedMap.get?_insert_self _ _ _, not_otherName.mp hname⟩
  obtain ⟨entry, hentry⟩ := Option.isSome_iff_exists.mp hfind
  exact ⟨trim entry.2, by rw [signedValue_mapRequest, hentry]; rfl⟩

/-- No other spelling of the name stands in front of the header. -/
theorem field_insert_authorization (value : Str)
    (honly : ∀ name v, headers.get? name = some v → ¬ OtherName name → name = str "Authorization") :
    (mapRequest method path (headers.insert (str "Authorization") value) payload).field
      (str "Authorization") = value := by
  have hfind : (headers.insert (str "Authorization") value).findIf
      (fun key _ => equalsIgnoreCase key (str "Authorization")) = some (str "Authorization", value) := by
    refine OrderedMap.findIf_unique (OrderedMap.get?_insert_self _ _ _) (by decide) fun name v hv hname => ?_
    by_contra hne
    rw [OrderedMap.get?_insert_of_ne _ _ hne] at hv
    refine hne (honly name v hv ?_)
    rw [not_otherName]
    simpa [equalsIgnoreCase, eq_comm] using hname
  exact congrArg (fun found => ((Option.map Prod.snd found).getD [])) hfind

/-- The headers that are put into the map are not `Authorization`. -/
theorem insertMandatoryHeaders_authorization {name : Str} (hname : ¬ OtherName name) :
    (insertMandatoryHeaders crypto cfg t₁ contentType payload headers).get? name = headers.get? name := by
  have hne : name ≠ str "Host" ∧ name ≠ str "Content-Type" ∧ name ≠ str "x-amz-content-sha256" ∧
      name ≠ str "x-amz-date" ∧ name ≠ str "x-amz-security-token" := by
    refine ⟨?_, ?_, ?_, ?_, ?_⟩ <;> rintro rfl <;> exact hname (by unfold OtherName; decide)
  obtain ⟨hhost, hcontent, hsha, hdate, htoken⟩ := hne
  have hmissing : ∀ (m : OrderedMap Str Str) {key value : Str}, name ≠ key →
      (insertMissing m key value).get? name = m.get? name := by
    intro m key value hkey
    unfold insertMissing
    split
    · rfl
    · exact OrderedMap.get?_insert_of_ne _ _ hkey
  rw [insertMandatoryHeaders, OrderedMap.get?_insert_of_ne _ _ htoken, hmissing _ hdate,
    OrderedMap.get?_insert_of_ne _ _ hsha, OrderedMap.get?_insert_of_ne _ _ hcontent, hmissing _ hhost]

theorem insertMandatoryHeaders_date :
    ∃ v, (insertMandatoryHeaders crypto cfg t₁ contentType payload headers).get? (str "x-amz-date") =
      some v := by
  rw [insertMandatoryHeaders, OrderedMap.get?_insert_of_ne _ _ (by decide), insertMissing]
  split
  · next h => exact Option.isSome_iff_exists.mp h
  · exact ⟨_, OrderedMap.get?_insert_self _ _ _⟩

/-- The date of the request that is sent is the one of its header. -/
theorem isoDateTimeOf_insert (value : Str) :
    isoDateTimeOf now (mapRequest method path ((insertMandatoryHeaders crypto cfg t₁ contentType payload
      headers).insert (str "Authorization") value) payload) =
        (mapUnsigned crypto cfg t₁ contentType payload method path headers).field (str "x-amz-date") := by
  let mandatory := insertMandatoryHeaders crypto cfg t₁ contentType payload headers
  have hdate : equalsIgnoreCase (str "x-amz-date") (str "x-amz-date") = true := by decide
  have hauthorization : equalsIgnoreCase (str "Authorization") (str "x-amz-date") = false := by decide
  obtain ⟨v, hv⟩ : ∃ v, mandatory.get? (str "x-amz-date") = some v := insertMandatoryHeaders_date
  have hfound : (mandatory.findIf fun key _ => equalsIgnoreCase key (str "x-amz-date")).isSome :=
    OrderedMap.findIf_isSome.mpr ⟨_, v, hv, hdate⟩
  obtain ⟨entry, hentry⟩ := Option.isSome_iff_exists.mp hfound
  have hsent : (mandatory.insert (str "Authorization") value).findIf
      (fun key _ => equalsIgnoreCase key (str "x-amz-date")) = some entry :=
    (OrderedMap.findIf_insert_of_key value fun _ => hauthorization).trans hentry
  rw [isoDateTimeOf_eq (show (mapRequest method path (mandatory.insert (str "Authorization") value)
    payload).findField (str "x-amz-date") = some entry from hsent), HttpRequest.field, show (mapUnsigned crypto
    cfg t₁ contentType payload method path headers).findField (str "x-amz-date") = some entry from hentry]
  rfl

theorem mapSigning_isSent (hnames : ∀ name ∈ names, isToken name)
    (hquery : getCanonicalQueryParameters path = .returns query)
    (honly : ∀ name v, headers.get? name = some v → ¬ OtherName name → name = str "Authorization") :
    (mapSigning crypto lib cfg t₁ t₂ t₃ module contentType names payload method path headers query).IsSent
      crypto lib := by
  refine Signing.isSent_of_text rfl rfl rfl ?_ hquery (field_insert_authorization _ fun name v hv hname => ?_)
  · rw [getCanonicalMapHeaders_eq]
    exact congrArg (fun names => unlines (byte '\n') (headerLines _ names)) (split_join_names hnames)
  · rw [insertMandatoryHeaders_authorization hname] at hv
    exact honly name v hv hname

theorem mapAccepted_of_fits (hkey : cfg.accessKeyId.all isAlphaNumeric) (hnames : ∀ name ∈ names, isToken name)
    (hfits : MapFits crypto cfg t₁ t₂ t₃ module contentType names payload method path headers) :
    MapAccepted crypto lib pattern cfg t₁ t₂ t₃ now module contentType names payload method path headers := by
  obtain ⟨query, hquery⟩ := getCanonicalQueryParameters_returns.mpr hfits.credential.query
  refine mapAccepted_iff.mpr ⟨query, hquery, ?_⟩
  refine Signing.IsSent.accepted ⟨hkey, hnames⟩ (mapSigning_isSent hnames hquery hfits.authorization) ?_
  exact {
    accessKeyId := hfits.credential.accessKeyId
    region := hfits.credential.region
    module := hfits.credential.module
    secret := hfits.credential.secret
    date := hfits.credential.date
    isoDate := (isoDateTimeOf_insert _).trans hfits.date
    headers := fun name hname =>
      (hfits.spelling name hname).trans ((hfits.other name hname).signedValue_insert _).symm }

/-- The signature covers everything that has to fit. -/
theorem mapFits_of_accepted (hfree : crypto.CollisionFree) (hkey : cfg.accessKeyId.all isAlphaNumeric)
    (hnames : ∀ name ∈ names, isToken name)
    (hunsigned : Unsigned (mapUnsigned crypto cfg t₁ contentType payload method path headers))
    (haccepted : MapAccepted crypto lib pattern cfg t₁ t₂ t₃ now module contentType names payload method path
      headers) : MapFits crypto cfg t₁ t₂ t₃ module contentType names payload method path headers := by
  let mandatory := insertMandatoryHeaders crypto cfg t₁ contentType payload headers
  have hentry : ∀ {name v}, mandatory.get? name = some v → byte '\n' ∉ v ∧ OtherName name := fun hv =>
    hunsigned _ (OrderedMap.get?_eq_some.mp hv)
  have honly : ∀ name v, headers.get? name = some v → ¬ OtherName name → name = str "Authorization" := by
    intro name v hv hname
    rw [← insertMandatoryHeaders_authorization hname] at hv
    exact absurd (hentry hv).2 hname
  obtain ⟨query, hquery, hverified⟩ := mapAccepted_iff.mp haccepted
  let s := mapSigning crypto lib cfg t₁ t₂ t₃ module contentType names payload method path headers query
  have hsent : s.IsSent crypto lib := mapSigning_isSent hnames hquery honly
  have hdate : isoDateTimeOf now s.sent =
      (mapUnsigned crypto cfg t₁ contentType payload method path headers).field (str "x-amz-date") :=
    isoDateTimeOf_insert _
  obtain ⟨hagrees, hother⟩ : s.Agrees now ∧ ∀ name ∈ s.names, OtherName name := by
    refine hsent.agrees_of_unsigned ⟨hkey, hnames⟩ hfree hunsigned (fun name hname => hname.signedValue_insert _)
      (fun name hname => signedValue_insert_authorization hname _) (fun name v hv => ?_)
      (fun field hfield => ?_) ?_ hverified
    · obtain ⟨w, hw, rfl⟩ := Option.map_eq_some_iff.mp hv
      have hfound : (mandatory.findIf fun key _ => equalsIgnoreCase key name).isSome :=
        OrderedMap.findIf_isSome.mpr ⟨name, w, hw, by simp [equalsIgnoreCase]⟩
      refine ⟨?_, fun hmem => (hentry hw).1 (mem_trim hmem)⟩
      rw [mapUnsigned, signedValue_mapRequest, Option.isSome_map]
      exact hfound
    · have hget := OrderedMap.get?_eq_some.mpr hfield
      by_cases hname : field.1 = str "Authorization"
      · refine .inl ?_
        rw [hname, OrderedMap.get?_insert_self, Option.some.injEq] at hget
        rw [hsent.authorization, ← hget]
        exact (hsent.authorization.symm.trans (field_insert_authorization _ fun name v hv hname =>
          absurd (hentry hv).2 hname)).symm
      · rw [OrderedMap.get?_insert_of_ne _ _ hname] at hget
        exact .inr (OrderedMap.get?_eq_some.mp hget)
    · rw [hdate, HttpRequest.field]
      rcases hfind : (mapUnsigned crypto cfg t₁ contentType payload method path headers).findField
        (str "x-amz-date") with _ | field
      · simp
      · exact (hunsigned field (List.mem_of_find?_eq_some hfind)).1
  exact ⟨⟨hagrees.accessKeyId, hagrees.region, hagrees.module, hagrees.secret, hagrees.date,
    getCanonicalQueryParameters_returns.mp ⟨query, hquery⟩⟩, hdate.symm.trans hagrees.isoDate, hother,
    fun name hname => (hagrees.headers name hname).trans ((hother name hname).signedValue_insert _), honly⟩

end Overloads

/-- What fits is accepted. Where no two texts share a digest, a request that was not signed before is accepted
    only if it fits. -/
theorem sign_verify_agree {cfg : SigningConfiguration} (hkey : cfg.accessKeyId.all isAlphaNumeric)
    {names : List Str} (hnames : ∀ name ∈ names, isToken name) (t₁ t₂ t₃ now : Nat)
    (module contentType payload : Str) :
    ((∀ request, RequestFits cfg t₁ t₂ t₃ module names request →
        RequestAccepted crypto lib pattern cfg t₁ t₂ t₃ now module contentType names payload request) ∧
      ∀ method path headers, MapFits crypto cfg t₁ t₂ t₃ module contentType names payload method path headers →
        MapAccepted crypto lib pattern cfg t₁ t₂ t₃ now module contentType names payload method path headers) ∧
    (crypto.CollisionFree →
      (∀ request, Unsigned (setMandatoryHeaders crypto cfg t₁ contentType payload request) →
        (RequestAccepted crypto lib pattern cfg t₁ t₂ t₃ now module contentType names payload request ↔
          RequestFits cfg t₁ t₂ t₃ module names request)) ∧
      ∀ method path headers, Unsigned (mapUnsigned crypto cfg t₁ contentType payload method path headers) →
        (MapAccepted crypto lib pattern cfg t₁ t₂ t₃ now module contentType names payload method path headers ↔
          MapFits crypto cfg t₁ t₂ t₃ module contentType names payload method path headers)) := by
  refine ⟨⟨fun request hfits => requestAccepted_of_fits hkey hnames hfits,
    fun method path headers hfits => mapAccepted_of_fits hkey hnames hfits⟩, fun hfree => ⟨?_, ?_⟩⟩
  · intro request hunsigned
    exact ⟨requestFits_of_accepted hfree hkey hnames hunsigned, requestAccepted_of_fits hkey hnames⟩
  · intro method path headers hunsigned
    exact ⟨mapFits_of_accepted hfree hkey hnames hunsigned, mapAccepted_of_fits hkey hnames⟩

/-! ### A clock that ticks -/

def sampleConfiguration : SigningConfiguration where
  region := str "eu-central-1"
  accessKeyId := str "none"
  secretAccessKey := str "none"
  hostName := str "h"

def sampleNames : List Str := [str "Host", str "x-amz-date"]

theorem sampleCredential_fits {t₂ : Nat} (hdate : (getDateString t₂).length = 8) :
    CredentialFits sampleConfiguration t₂ (str "s3") (str "/b/k") where
  accessKeyId := by decide
  region := by decide
  module := by decide
  secret := by decide
  date := hdate
  query := by
    intro h
    exact absurd h (by decide)

theorem sampleNames_other : ∀ name ∈ sampleNames, OtherName name := by
  unfold OtherName
  decide

theorem sign_verify_sample :
    RequestAccepted sampleDigests.crypto .standard .any sampleConfiguration 1709164799 1709164799
      1709164799 0 (str "s3") (str "text/xml") sampleNames [] ⟨.get, str "/b/k", [], []⟩ ∧
    MapAccepted sampleDigests.crypto .standard .any sampleConfiguration 1709164799 1709164799
      1709164799 0 (str "s3") (str "text/xml") sampleNames [] .get (str "/b/k") ∅ := by
  have hcredential : CredentialFits sampleConfiguration 1709164799 (str "s3") (str "/b/k") :=
    sampleCredential_fits (by decide +kernel)
  obtain ⟨⟨hrequest, hmap⟩, -⟩ := @sign_verify_agree sampleDigests.crypto .standard .any
    sampleConfiguration (by decide) sampleNames (by decide) 1709164799 1709164799 1709164799 0 (str "s3")
    (str "text/xml") []
  refine ⟨hrequest _ ⟨hcredential, rfl, sampleNames_other⟩, hmap _ _ _ ?_⟩
  exact {
    credential := hcredential
    date := by decide +kernel
    other := sampleNames_other
    spelling := by decide +kernel
    authorization := fun name v hv => by cases hv }

/-- The clock ticks between the date header and the signature. -/
theorem sign_verify_clock_tick : ∃ (crypto : Crypto) (lib : PocoUri) (pattern : AuthorizationPattern)
    (cfg : SigningConfiguration) (t₁ t₂ t₃ now : Nat) (module contentType : Str) (names : List Str)
    (payload : Str) (request : HttpRequest), t₁ ≤ t₂ ∧ t₂ ≤ t₃ ∧ t₃ ≤ now ∧ request.method.Standard ∧
      cfg.accessKeyId.all isAlphaNumeric ∧ (∀ name ∈ names, isToken name) ∧
      ¬ RequestAccepted crypto lib pattern cfg t₁ t₂ t₃ now module contentType names payload request := by
  refine ⟨sampleDigests.crypto, .standard, .any, sampleConfiguration, 1709164798, 1709164799, 1709164799,
    1709164799, str "s3", str "text/xml", sampleNames, [], ⟨.get, str "/b/k", [], []⟩, by decide, by decide,
    by decide, trivial, by decide, by decide, fun haccepted => ?_⟩
  have hunsigned : Unsigned (setMandatoryHeaders sampleDigests.crypto sampleConfiguration 1709164798
      (str "text/xml") [] ⟨.get, str "/b/k", [], []⟩) := by
    unfold Unsigned OtherName
    decide +kernel
  have hfits := requestFits_of_accepted sampleDigests.crypto_collisionFree (by decide) (by decide) hunsigned
    haccepted
  exact absurd hfits.clock (by decide +kernel)

end AwsMock
