import Mathlib.Data.List.Forall2
import AwsMock.Core.AuthorizationText

/-!
# What a signature binds

Two requests with one `Authorization` header that are both accepted have the same method, target and body,
and the first value of each signed header is the same. The later values of a header are not signed.
-/

namespace AwsMock

open Lib

/-! ### Requests that can be sent -/

/-- The names of the fields are tokens and the values stand on one line. -/
structure HttpRequest.WellFormed (request : HttpRequest) : Prop where
  name : ∀ field ∈ request.fields, isToken field.1
  value : ∀ field ∈ request.fields, byte '\n' ∉ field.2

/-! ### The claim -/

/-- The headers a request is signed with. -/
def signedNames (pattern : AuthorizationPattern) (request : HttpRequest) : List Str :=
  match pattern.search (request.field (str "Authorization")) with
  | some m => split (byte ';') m.signedHeaders
  | none => []

/-- The values of a header, in their order. -/
def headerValues (request : HttpRequest) (name : Str) : List Str :=
  (request.fields.filter fun field => equalsIgnoreCase field.1 name).map Prod.snd

/-- The same text, with whitespace around it. -/
def SameUpToWhitespace (v w : Str) : Prop :=
  ∃ text a b a' b', v = a ++ text ++ b ∧ w = a' ++ text ++ b' ∧ (a ++ b ++ a' ++ b').all isSpace

/-- What the signature of two requests binds. -/
structure SameSigned (pattern : AuthorizationPattern) (r r' : HttpRequest) : Prop where
  method : r.method = r'.method
  target : r.target = r'.target
  body : r.body = r'.body
  presence : ∀ name ∈ signedNames pattern r, hasHeader r name = hasHeader r' name
  first : ∀ name ∈ signedNames pattern r, SameUpToWhitespace (r.field name) (r'.field name)

/-- Each value of a signed header is the same. -/
def SameValues (pattern : AuthorizationPattern) (r r' : HttpRequest) : Prop :=
  ∀ name ∈ signedNames pattern r,
    List.Forall₂ SameUpToWhitespace (headerValues r name) (headerValues r' name)

/-- The values behind the first one of a signed header are the same. -/
def SameLaterValues (pattern : AuthorizationPattern) (r r' : HttpRequest) : Prop :=
  ∀ name ∈ signedNames pattern r,
    List.Forall₂ SameUpToWhitespace (headerValues r name).tail (headerValues r' name).tail

/-! ### The first value of a header -/

theorem headerValues_head? (request : HttpRequest) (name : Str) :
    (headerValues request name).head? = (request.findField name).map Prod.snd := by
  rw [headerValues, List.head?_map, List.head?_filter]
  rfl

theorem sameUpToWhitespace_of_trim {v w : Str} (h : trim v = trim w) : SameUpToWhitespace v w := by
  have hparts : ∀ s : Str, ∃ a b, s = a ++ trim s ++ b ∧ (a ++ b).all isSpace := by
    intro s
    refine ⟨s.takeWhile (· = byte ' '), (s.dropWhile (· = byte ' ')).rtakeWhile (· = byte ' '), ?_, ?_⟩
    · rw [List.append_assoc, trim, List.rdropWhile_append_rtakeWhile, List.takeWhile_append_dropWhile]
    · rw [List.all_append, Bool.and_eq_true]
      constructor
      · refine List.all_eq_true.mpr fun c hc => ?_
        have hblank : c = byte ' ' := by simpa using List.mem_takeWhile_imp hc
        rw [hblank]
        decide
      · refine List.all_eq_true.mpr fun c hc => ?_
        have hblank : c = byte ' ' := by simpa using List.mem_rtakeWhile_imp hc
        rw [hblank]
        decide
  obtain ⟨a, b, hv, hab⟩ := hparts v
  obtain ⟨a', b', hw, hab'⟩ := hparts w
  refine ⟨trim v, a, b, a', b', hv, h ▸ hw, ?_⟩
  rw [List.append_assoc, List.all_append, hab, hab']
  rfl

/-- Values that are found under a name stand behind a token. -/
theorem signedValue_some {request : HttpRequest} (hwf : request.WellFormed) {name v : Str} {c : UInt8}
    (htoken : isTokenByte c = false) (hc : c < 97) (h : signedValue request name = some v) :
    c ∉ toLower name ∧ byte '\n' ∉ v := by
  obtain ⟨field, hfind, rfl⟩ := Option.map_eq_some_iff.mp h
  have hmem := List.mem_of_find?_eq_some hfind
  have hname : toLower field.1 = toLower name := by simpa [equalsIgnoreCase] using List.find?_some hfind
  refine ⟨?_, fun hv => hwf.value field hmem (mem_trim hv)⟩
  rw [← hname]
  exact notMem_toLower hc (notMem_token (hwf.name field hmem) htoken)

/-- The lines of the signed headers determine the first values. -/
theorem headerLines_inj {r r' : HttpRequest} (hwf : r.WellFormed) (hwf' : r'.WellFormed)
    {names : List Str} (hnames : ∀ name ∈ names, byte '\n' ∉ name)
    (h : unlines (byte '\n') (headerLines (signedValue r) names) =
      unlines (byte '\n') (headerLines (signedValue r') names)) :
    ∀ name ∈ names, signedValue r name = signedValue r' name := by
  have hfield : ∀ (r : HttpRequest) {name name' : Str}, toLower name = toLower name' →
      signedValue r name = signedValue r name' := by
    intro r name name' heq
    simp only [signedValue, HttpRequest.findField, equalsIgnoreCase, heq]
  have hline : ∀ {r : HttpRequest}, r.WellFormed →
      ∀ t ∈ headerLines (signedValue r) names, byte '\n' ∉ t := by
    intro r hr
    exact notMem_labelled (by decide) (fun name hname _ _ => notMem_toLower (by decide) (hnames name hname))
      fun _ _ _ hv => (signedValue_some hr (c := byte ':') (by decide) (by decide) hv).2
  have hlines := unlines_injective (hline hwf) (hline hwf') h
  have hcolon : ∀ {r : HttpRequest}, r.WellFormed → ∀ name ∈ names, ∀ v, signedValue r name = some v →
      byte ':' ∉ toLower name := fun hr _ _ _ hv => (signedValue_some hr (by decide) (by decide) hv).1
  intro name hname
  refine Option.ext fun v => ⟨fun hv => ?_, fun hv => ?_⟩
  · exact labelled_get (hcolon hwf) (hcolon hwf') (fun _ _ _ _ => hfield r') hlines hname hv
  · exact labelled_get (hcolon hwf') (hcolon hwf) (fun _ _ _ _ => hfield r) hlines.symm hname hv

/-! ### Two accepted requests -/

variable {crypto : Crypto} {lib : PocoUri} {pattern : AuthorizationPattern}

theorem isoDateTimeOf_noNewline {request : HttpRequest} (hwf : request.WellFormed) (now : Nat) :
    byte '\n' ∉ isoDateTimeOf now request := by
  unfold isoDateTimeOf
  split
  · simp only [getHeaderValue, HttpRequest.field, ne_eq, not_true_eq_false, and_false, if_false]
    rcases hfind : request.findField (str "x-amz-date") with _ | field
    · simp
    · exact hwf.value field (List.mem_of_find?_eq_some hfind)
  · exact getISODateString_noNewline now

/-- Both signatures are the one in the header, so the same text was signed. -/
theorem accepted_sameSigned (hfree : crypto.CollisionFree) {r r' : HttpRequest} (hwf : r.WellFormed)
    (hwf' : r'.WellFormed) (hmethod : r.method.Standard) (hmethod' : r'.method.Standard)
    (hauthorization : r.field (str "Authorization") = r'.field (str "Authorization"))
    {now now' : Nat} {secret : Str} (haccepted : verifySignature crypto lib pattern now r secret = .returns true)
    (haccepted' : verifySignature crypto lib pattern now' r' secret = .returns true) :
    SameSigned pattern r r' := by
  obtain ⟨m, query, hsearch, hquery, hsignature⟩ :=
    (verifySignature_eq_true crypto lib pattern).mp haccepted
  obtain ⟨m', query', hsearch', hquery', hsignature'⟩ :=
    (verifySignature_eq_true crypto lib pattern).mp haccepted'
  have hmatch : m' = m := by
    rw [← hauthorization, hsearch] at hsearch'
    exact (Option.some.inj hsearch').symm
  subst hmatch
  have hsigned : byte '\n' ∉ m'.signedHeaders := (pattern.search_matches hsearch).1.2.2.2.2.1
  have htext := getSignature_inj hfree (hsignature.trans hsignature'.symm)
  obtain ⟨-, -, hdigest⟩ := getStringToSign_inj crypto
    (by simp only [verifyKeys, keysOfMatch, hauthorization])
    (isoDateTimeOf_noNewline hwf now) (isoDateTimeOf_noNewline hwf' now') htext
  have hcanonical := getSha256FromString_injective hfree hdigest
  obtain ⟨hverb, hurl, hrest⟩ := canonicalLines_inj r.method.text_noNewline r'.method.text_noNewline
    (notMem_urlEncode lib (by decide) (by decide) _) (notMem_urlEncode lib (by decide) (by decide) _)
    hsigned hsigned (sha256_noNewline crypto _) (sha256_noNewline crypto _) hcanonical
  have htarget := urlEncode_injective lib hurl
  have hsame : query = query' := by
    rw [htarget, hquery'] at hquery
    exact (Outcome.returns.inj hquery).symm
  obtain ⟨hheaders, -, hpayload⟩ := hrest hsame
  rw [getCanonicalHeaders_eq, getCanonicalHeaders_eq] at hheaders
  have hnames : signedNames pattern r = split (byte ';') m'.signedHeaders := by
    rw [signedNames, hsearch]
  have hvalues := headerLines_inj hwf hwf'
    (fun name hname hmem => hsigned (mem_of_mem_split hname hmem)) hheaders
  refine ⟨Verb.text_injective hmethod hmethod' hverb, htarget,
    getSha256FromString_injective hfree hpayload, fun name hname => ?_, fun name hname => ?_⟩
  · have hvalue := hvalues name (hnames ▸ hname)
    have hsome := congrArg Option.isSome hvalue
    simpa [signedValue, hasHeader] using hsome
  · have hvalue := hvalues name (hnames ▸ hname)
    refine sameUpToWhitespace_of_trim ?_
    rcases hfind : r.findField name with _ | field <;> rcases hfind' : r'.findField name with _ | field' <;>
      simp_all [signedValue, HttpRequest.field]

/-- With the first values the same, all are when the later ones are. -/
theorem SameSigned.sameValues_iff {r r' : HttpRequest} (h : SameSigned pattern r r') :
    SameValues pattern r r' ↔ SameLaterValues pattern r r' := by
  constructor
  · intro hvalues name hname
    simpa only [List.drop_one] using List.forall₂_drop 1 (hvalues name hname)
  · intro hlater name hname
    have hpresence := h.presence name hname
    have hfirst := h.first name hname
    have hlaterName := hlater name hname
    have hhead := headerValues_head? r name
    have hhead' := headerValues_head? r' name
    rcases hv : headerValues r name with _ | ⟨v, vs⟩ <;>
      rcases hv' : headerValues r' name with _ | ⟨v', vs'⟩ <;>
      rw [hv] at hhead hlaterName <;> rw [hv'] at hhead' hlaterName
    · exact .nil
    · rcases hfind : r.findField name with _ | field <;>
        rcases hfind' : r'.findField name with _ | field' <;> simp_all [hasHeader]
    · rcases hfind : r.findField name with _ | field <;>
        rcases hfind' : r'.findField name with _ | field' <;> simp_all [hasHeader]
    · refine .cons ?_ hlaterName
      simpa [HttpRequest.field, ← hhead, ← hhead'] using hfirst

/-! ### Repeated headers -/

/-- Two requests with one `Authorization` header that are both accepted have the same method, target and
    body, the same signed headers, and the same first value of each; the other values are the same exactly
    when the values behind the first one are. -/
theorem signature_binding (hfree : crypto.CollisionFree) {r r' : HttpRequest} (hwf : r.WellFormed)
    (hwf' : r'.WellFormed) (hmethod : r.method.Standard) (hmethod' : r'.method.Standard)
    (hauthorization : r.field (str "Authorization") = r'.field (str "Authorization"))
    {now now' : Nat} {secret : Str} (haccepted : verifySignature crypto lib pattern now r secret = .returns true)
    (haccepted' : verifySignature crypto lib pattern now' r' secret = .returns true) :
    SameSigned pattern r r' ∧ (SameValues pattern r r' ↔ SameLaterValues pattern r r') := by
  have hsame := accepted_sameSigned hfree hwf hwf' hmethod hmethod' hauthorization haccepted haccepted'
  exact ⟨hsame, hsame.sameValues_iff⟩

/-- A signed request with any headers behind its own. -/
def sampleRequest (fields : List (Str × Str)) : HttpRequest where
  method := .get
  target := str "/b/k"
  fields := (str "Host", str "h") :: (str "X-Amz-Date", str "2024-02-28T23:59:59Z") ::
    (str "Authorization", sampleMatch.signedText) :: fields

/-- Headers behind the signed ones are not looked at. -/
theorem sampleRequest_canonical (fields : List (Str × Str)) :
    canonicalOf sampleDigests.crypto .standard (sampleRequest fields) [] sampleKeys = sampleCanonical := by
  have hheaders : getCanonicalHeaders (sampleRequest fields) sampleKeys =
      getCanonicalHeaders (sampleRequest []) sampleKeys := rfl
  have hfirst : canonicalOf sampleDigests.crypto .standard (sampleRequest []) [] sampleKeys =
      sampleCanonical := by decide +kernel
  rw [← hfirst, canonicalOf, hheaders]
  rfl

theorem sampleRequest_accepted (pattern : AuthorizationPattern) (fields : List (Str × Str)) :
    verifySignature sampleDigests.crypto .standard pattern 0 (sampleRequest fields) (str "none") =
      .returns true := by
  have hfield : (sampleRequest fields).field (str "Authorization") = sampleMatch.signedText := rfl
  have hdate : isoDateTimeOf 0 (sampleRequest fields) = str "2024-02-28T23:59:59Z" := rfl
  have hkeys : verifyKeys 0 (sampleRequest fields) (str "none") sampleMatch = sampleKeys := by
    rw [verifyKeys, hfield, AuthorizationMatch.signingVersion_signedText, hdate]
    rfl
  have hquery : getCanonicalQueryParameters (str "/b/k") = .returns [] := by decide +kernel
  refine (verifySignature_eq_true _ _ pattern).mpr ⟨sampleMatch, [], ?_, hquery, ?_⟩
  · rw [hfield, search_sampleMatch]
  · rw [hkeys, signatureOf, sampleRequest_canonical, sample_stringToSign, sample_signature]

theorem sampleRequest_wellFormed {fields : List (Str × Str)}
    (hfields : ∀ field ∈ fields, isToken field.1 ∧ byte '\n' ∉ field.2) :
    (sampleRequest fields).WellFormed := by
  have hall : ∀ field ∈ (sampleRequest fields).fields, isToken field.1 ∧ byte '\n' ∉ field.2 := by
    have hown : ∀ field ∈ (sampleRequest []).fields, isToken field.1 ∧ byte '\n' ∉ field.2 := by
      decide +kernel
    intro field hmem
    have happend : (sampleRequest fields).fields = (sampleRequest []).fields ++ fields := rfl
    rw [happend] at hmem
    rcases List.mem_append.mp hmem with hmem | hmem
    · exact hown field hmem
    · exact hfields field hmem
  exact ⟨fun field hmem => (hall field hmem).1, fun field hmem => (hall field hmem).2⟩

theorem signature_binding_sample : SameSigned .any (sampleRequest []) (sampleRequest []) ∧
    (SameValues .any (sampleRequest []) (sampleRequest []) ↔
      SameLaterValues .any (sampleRequest []) (sampleRequest [])) :=
  signature_binding sampleDigests.crypto_collisionFree (sampleRequest_wellFormed (by simp))
    (sampleRequest_wellFormed (by simp)) trivial trivial rfl (sampleRequest_accepted .any [])
    (sampleRequest_accepted .any [])

/-- The signature does not bind the second value of a signed header. -/
theorem signature_repeated_header : ∃ (crypto : Crypto) (lib : PocoUri) (pattern : AuthorizationPattern)
    (r r' : HttpRequest), crypto.CollisionFree ∧ r.WellFormed ∧ r'.WellFormed ∧
      r.method.Standard ∧ r'.method.Standard ∧ hasHeader r (str "x-amz-date") ∧
      hasHeader r' (str "x-amz-date") ∧ r.field (str "Authorization") = r'.field (str "Authorization") ∧
      verifySignature crypto lib pattern 0 r (str "none") = .returns true ∧
      verifySignature crypto lib pattern 0 r' (str "none") = .returns true ∧ ¬ SameValues pattern r r' := by
  refine ⟨sampleDigests.crypto, .standard, .any, sampleRequest [], sampleRequest [(str "Host", str "other")],
    sampleDigests.crypto_collisionFree, sampleRequest_wellFormed (by simp),
    sampleRequest_wellFormed (by decide), trivial, trivial, by decide, by decide, rfl,
    sampleRequest_accepted _ _, sampleRequest_accepted _ _, fun h => ?_⟩
  have hfield : (sampleRequest []).field (str "Authorization") = sampleMatch.signedText := rfl
  have hnames : str "host" ∈ signedNames .any (sampleRequest []) := by
    rw [signedNames, hfield, search_sampleMatch]
    decide
  have hlength := (h (str "host") hnames).length_eq
  exact absurd hlength (by decide +kernel)

end AwsMock
