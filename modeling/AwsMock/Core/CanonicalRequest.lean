import Mathlib.Data.List.Sort
import Mathlib.Data.Prod.Lex
import AwsMock.Core.QueryParameters
import AwsMock.Core.SignatureAgreement
import AwsMock.Core.SignatureBinding

/-!
# Canonical requests

When `GetCanonicalRequest` is the canonical form of AWS: the line of the URI has the query in it. The line
of the query is right as long as no name is repeated and each parameter arrives encoded.
-/

namespace AwsMock

open Lib

variable (crypto : Crypto) (lib : PocoUri)

/-! ### The canonical form of AWS -/

/-- What stands in front of the query. -/
def targetPath (target : Str) : Str := target.takeWhile (· ≠ byte '?')

/-- All but the unreserved characters are escaped. -/
def awsEncode (s : Str) : Str := s.flatMap fun c => if isUnreserved c then [c] else percent c

/-- Encoded once, however it arrives. -/
def encodedOnce (s : Str) : Str := awsEncode ((lib.decode s).toOption.getD s)

/-- A name and a value; the value may be missing. -/
def awsParameter (it : Str) : Str × Str :=
  (encodedOnce lib (it.takeWhile (· ≠ byte '=')), encodedOnce lib (it.dropWhile (· ≠ byte '=')).tail)

/-- By name, then by value. -/
def awsSorted (parameters : List (Str × Str)) : List (Str × Str) :=
  parameters.mergeSort fun p q => toLex p ≤ toLex q

def awsQuery (parameters : List Str) : Str :=
  join (byte '&') ((awsSorted (parameters.map (awsParameter lib))).map fun p => p.1 ++ byte '=' :: p.2)

/-- The line of the URI has the path, the next one the query. -/
def awsCanonicalRequest (request : HttpRequest) (keys : AuthorizationHeaderKeys) : Str :=
  canonicalLines request.method.text (urlEncode lib (targetPath request.target))
    (awsQuery lib (targetParameters request.target)) (getCanonicalHeaders request keys) keys.signedHeaders
    (getSha256FromString crypto request.body)

theorem awsSorted_sorted (parameters : List (Str × Str)) :
    (awsSorted parameters).Pairwise fun p q => toLex p ≤ toLex q := by
  have hsorted : (awsSorted parameters).Pairwise fun p q => decide (toLex p ≤ toLex q) = true := by
    refine List.pairwise_mergeSort (fun a b c hab hbc => ?_) (fun a b => ?_) parameters
    · exact decide_eq_true (le_trans (of_decide_eq_true hab) (of_decide_eq_true hbc))
    · simpa using le_total (toLex a) (toLex b)
  exact hsorted.imp fun h => of_decide_eq_true h

theorem awsSorted_perm (parameters : List (Str × Str)) : (awsSorted parameters).Perm parameters :=
  List.mergeSort_perm ..

/-- A list in this order is the one that sorting gives. -/
theorem eq_awsSorted {parameters sorted : List (Str × Str)} (hperm : sorted.Perm parameters)
    (hsorted : sorted.Pairwise fun p q => toLex p ≤ toLex q) : sorted = awsSorted parameters := by
  refine List.Perm.eq_of_pairwise (fun p q _ _ hpq hqp => ?_) hsorted (awsSorted_sorted parameters)
    (hperm.trans (awsSorted_perm parameters).symm)
  exact toLex.injective (le_antisymm hpq hqp)

/-- The order in which the parameters arrive makes no difference. -/
theorem awsQuery_perm {parameters parameters' : List Str} (hperm : parameters.Perm parameters') :
    awsQuery lib parameters = awsQuery lib parameters' := by
  have hsame : awsSorted (parameters.map (awsParameter lib)) =
      awsSorted (parameters'.map (awsParameter lib)) :=
    eq_awsSorted ((awsSorted_perm _).trans (hperm.map _)) (awsSorted_sorted _)
  rw [awsQuery, hsame, awsQuery]

/-! ### The line of the query -/

/-- A name and a value that arrive encoded. -/
def ArrivesEncoded (it : Str) : Prop :=
  ∃ name value, it = name ++ byte '=' :: value ∧ value ≠ [] ∧ encodedOnce lib name = name ∧
    encodedOnce lib value = value

theorem notMem_awsEncode (s : Str) : byte '=' ∉ awsEncode s := by
  intro h
  obtain ⟨c, -, hc⟩ := List.mem_flatMap.mp h
  split at hc
  · next hplain =>
    rw [← List.mem_singleton.mp hc] at hplain
    exact absurd hplain (by decide)
  · simp only [percent, List.mem_cons, List.not_mem_nil, or_false] at hc
    have hdigit : ∀ n < 16, byte '=' ≠ hexDigit n := by decide
    have hlt := c.toNat_lt
    rcases hc with heq | heq | heq
    · exact absurd heq (by decide)
    · exact hdigit _ (by omega) heq
    · exact hdigit _ (by omega) heq

theorem ArrivesEncoded.read {it : Str} (h : ArrivesEncoded lib it) (parameters : OrderedMap Str Str) :
    insertParameter parameters it =
      .returns (parameters.insert (awsParameter lib it).1 (awsParameter lib it).2) := by
  obtain ⟨name, value, rfl, hvalue, hname, hvalueOnce⟩ := h
  have hnameEq : byte '=' ∉ name := hname ▸ notMem_awsEncode _
  have hvalueEq : byte '=' ∉ value := hvalueOnce ▸ notMem_awsEncode _
  have hplain : ∀ c ∈ name, c ≠ byte '=' := fun c hc heq => hnameEq (heq ▸ hc)
  have haws : awsParameter lib (name ++ byte '=' :: value) = (name, value) := by
    rw [awsParameter, List.takeWhile_append_of_pos (by simpa using hplain),
      List.dropWhile_append_of_pos (by simpa using hplain)]
    simp [hname, hvalueOnce]
  have hsplit : split (byte '=') (name ++ byte '=' :: value) = [name, value] := by
    rw [split_append hnameEq, split_last hvalueEq hvalue]
  rw [haws, insertParameter, hsplit]
  rfl

/-- The map has the parameters in the order of AWS. -/
theorem getQueryParameters_entries {target : Str} (hquery : contains target (str "?"))
    (hencoded : ∀ it ∈ targetParameters target, ArrivesEncoded lib it)
    (hnames : ((targetParameters target).map fun it => (awsParameter lib it).1).Nodup) :
    ∃ parameters, getQueryParameters target = .returns parameters ∧
      parameters.entries = awsSorted ((targetParameters target).map (awsParameter lib)) := by
  have hits : queryParameters target = targetParameters target := by
    simp [queryParameters, getQueryString, targetParameters, hquery]
  have hread : ∀ (its : List Str) (m : OrderedMap Str Str), (∀ it ∈ its, ArrivesEncoded lib it) →
      its.foldlM insertParameter m =
        .returns ((its.map (awsParameter lib)).foldl (fun m e => m.insert e.1 e.2) m) := by
    intro its
    induction its with
    | nil => intro m _; rfl
    | cons it its ih =>
      intro m h
      rw [List.foldlM_cons, (h it (by simp)).read, Outcome.returns_bind, ih _ fun x hx => h x (by simp [hx])]
      rfl
  refine ⟨.ofList ((targetParameters target).map (awsParameter lib)), ?_, ?_⟩
  · rw [getQueryParameters, if_pos hquery, hits, hread _ _ hencoded]
    rfl
  · refine eq_awsSorted (OrderedMap.ofList_entries_perm ?_) ?_
    · rwa [List.map_map]
    · refine (OrderedMap.sorted _).imp fun {p q} hlt => ?_
      exact Prod.Lex.toLex_le_toLex.mpr (.inl hlt)

/-- Where the parameters arrive encoded and no name is repeated, the line is the one of AWS, in whatever
    order they arrive. -/
theorem getCanonicalQueryParameters_aws {target : Str}
    (hencoded : ∀ it ∈ targetParameters target, ArrivesEncoded lib it)
    (hnames : ((targetParameters target).map fun it => (awsParameter lib it).1).Nodup) :
    getCanonicalQueryParameters target = .returns (awsQuery lib (targetParameters target)) := by
  by_cases hquery : contains target (str "?")
  · obtain ⟨parameters, hread, hentries⟩ := getQueryParameters_entries lib hquery hencoded hnames
    have hamp : str "&" = [byte '&'] := by decide
    have hequals : str "=" = [byte '='] := by decide
    have hlines : (parameters.entries.flatMap fun p => p.1 ++ str "=" ++ p.2 ++ str "&") =
        unlines (byte '&') (parameters.entries.map fun p => p.1 ++ byte '=' :: p.2) := by
      rw [unlines, List.flatMap_map]
      exact List.flatMap_congr fun p _ => by simp [hamp, hequals]
    rw [getCanonicalQueryParameters, hread, Outcome.returns_bind, hlines, awsQuery, ← hentries, hamp]
    simp only [contains_single]
    rw [← dropLast_unlines]
    split
    · rfl
    · next hmem => rw [unlines_eq_nil hmem]; rfl
  · have hnone : targetParameters target = [] := by simp [targetParameters, hquery]
    have hnil : awsQuery lib [] = [] := by simp [awsQuery, awsSorted, join]
    rw [getCanonicalQueryParameters, getQueryParameters, if_neg hquery, hnone, hnil]
    decide

/-! ### The whole request -/

/-- The request with its parameters in another order. -/
def HttpRequest.reordered (request : HttpRequest) (parameters : List Str) : HttpRequest :=
  if contains request.target (str "?") then
    { request with target := targetPath request.target ++ byte '?' :: join (byte '&') parameters }
  else request

/-- The canonical request does not depend on the order of the parameters, it is the one of AWS, and the
    overload that gets the headers in a map makes the same. -/
structure IsCanonical (request : HttpRequest) (keys : AuthorizationHeaderKeys) : Prop where
  reordered : ∀ parameters, parameters.Perm (targetParameters request.target) →
    ∃ text, getCanonicalRequest crypto lib request keys = .returns text ∧
      getCanonicalRequest crypto lib (request.reordered parameters) keys = .returns text
  aws : getCanonicalRequest crypto lib request keys = .returns (awsCanonicalRequest crypto lib request keys)
  overloads : getCanonicalMapRequest crypto lib request.method.text request.target (getHeaders request)
    request.body keys = getCanonicalRequest crypto lib request keys

/-- A signed header that the request has is spelled as it is signed, and where it is repeated, the header
    that is found whatever its case has the value that the map keeps. -/
def SpelledAsSigned (request : HttpRequest) (keys : AuthorizationHeaderKeys) : Prop :=
  ∀ name ∈ split (byte ';') keys.signedHeaders, ∀ field, request.findField name = some field →
    ∃ value, (getHeaders request).get? name = some value ∧ trim value = trim field.2

/-- A header of the map is a header of the request. -/
theorem getHeaders_get? {request : HttpRequest} {name value : Str}
    (h : (getHeaders request).get? name = some value) : (name, value) ∈ request.fields :=
  OrderedMap.mem_of_get?_ofList h

theorem signedValue_isSome {request : HttpRequest} {name value : Str}
    (h : (getHeaders request).get? name = some value) : (signedValue request name).isSome := by
  rw [signedValue, Option.isSome_map, HttpRequest.findField, List.find?_isSome]
  exact ⟨(name, value), getHeaders_get? h, by simp [equalsIgnoreCase]⟩

/-- The two lookups find the same when the headers are spelled as they are signed. -/
theorem spelledAsSigned_iff {request : HttpRequest} {keys : AuthorizationHeaderKeys} :
    SpelledAsSigned request keys ↔ ∀ name ∈ split (byte ';') keys.signedHeaders,
      ((getHeaders request).get? name).map trim = signedValue request name := by
  constructor
  · intro h name hname
    rcases hfind : request.findField name with _ | field
    · rcases hvalue : (getHeaders request).get? name with _ | value
      · simp [signedValue, hfind]
      · have hsome := signedValue_isSome hvalue
        simp [signedValue, hfind] at hsome
    · obtain ⟨value, hvalue, htrim⟩ := h name hname field hfind
      simp [signedValue, hfind, hvalue, htrim]
  · intro h name hname field hfind
    have hsame := h name hname
    rw [signedValue, hfind, Option.map_some] at hsame
    exact Option.map_eq_some_iff.mp hsame

/-- The lines of the headers are the same for both overloads exactly then. -/
theorem getCanonicalMapHeaders_eq_iff {request : HttpRequest} (hwf : request.WellFormed)
    (keys : AuthorizationHeaderKeys) :
    getCanonicalMapHeaders (getHeaders request) keys = getCanonicalHeaders request keys ↔
      SpelledAsSigned request keys := by
  rw [spelledAsSigned_iff, getCanonicalMapHeaders_eq, getCanonicalHeaders_eq]
  constructor
  · intro h
    have hmap : ∀ name v, ((getHeaders request).get? name).map trim = some v →
        byte '\n' ∉ toLower name ∧ byte '\n' ∉ v := by
      intro name v hv
      obtain ⟨value, hvalue, rfl⟩ := Option.map_eq_some_iff.mp hv
      have hmem := getHeaders_get? hvalue
      exact ⟨notMem_toLower (by decide) (notMem_token (hwf.name _ hmem) (by decide)),
        fun hin => hwf.value _ hmem (mem_trim hin)⟩
    have hrequest : ∀ name v, signedValue request name = some v →
        byte '\n' ∉ toLower name ∧ byte '\n' ∉ v :=
      fun _ _ hv => signedValue_some hwf (by decide) (by decide) hv
    have hlines := unlines_injective
      (notMem_labelled (by decide) (fun name _ v hv => (hmap name v hv).1) fun name _ v hv => (hmap name v hv).2)
      (notMem_labelled (by decide) (fun name _ v hv => (hrequest name v hv).1)
        fun name _ v hv => (hrequest name v hv).2) h
    refine labelled_eq_of_imp (fun name _ hsome => ?_) hlines
    obtain ⟨v, hv⟩ := Option.isSome_iff_exists.mp hsome
    obtain ⟨value, hvalue, -⟩ := Option.map_eq_some_iff.mp hv
    exact signedValue_isSome hvalue
  · intro h
    refine congrArg _ (List.filterMap_congr fun name hname => ?_)
    rw [labelled, labelled, h name hname]

/-- The overloads agree where the query can be read exactly when the headers are spelled as signed. -/
theorem overloads_agree_iff {request : HttpRequest} (hwf : request.WellFormed)
    (keys : AuthorizationHeaderKeys) (hquery : ReadableQuery request.target) :
    getCanonicalMapRequest crypto lib request.method.text request.target (getHeaders request) request.body
      keys = getCanonicalRequest crypto lib request keys ↔ SpelledAsSigned request keys := by
  obtain ⟨query, hreturns⟩ := getCanonicalQueryParameters_returns.mpr hquery
  rw [getCanonicalMapRequest, getCanonicalRequest, hreturns, ← getCanonicalMapHeaders_eq_iff hwf keys]
  simp [canonicalLines]

/-- The line of the URI is the path only when there is no query. -/
theorem urlEncode_targetPath {target : Str} :
    urlEncode lib target = urlEncode lib (targetPath target) ↔ byte '?' ∉ target := by
  constructor
  · intro h hmem
    have htarget : target.takeWhile (· ≠ byte '?') = target := (urlEncode_injective lib h).symm
    have hall := List.takeWhile_eq_self_iff.mp htarget (byte '?') hmem
    simp at hall
  · intro h
    have hself : target.takeWhile (· ≠ byte '?') = target := by
      rw [List.takeWhile_eq_self_iff]
      intro c hc
      simpa using fun heq : c = byte '?' => h (heq ▸ hc)
    rw [targetPath, hself]

/-- The method and the line of the URI stand in front of all others. -/
theorem canonicalLines_url (verb : Verb) {target target' query query' headers headers' signed signed' payload
    payload' : Str} (h : canonicalLines verb.text (urlEncode lib target) query headers signed payload =
      canonicalLines verb.text (urlEncode lib target') query' headers' signed' payload') : target = target' := by
  have hnewline : str "\n" = [byte '\n'] := by decide
  simp only [canonicalLines, hnewline, List.append_assoc, List.cons_append, List.nil_append] at h
  obtain ⟨-, hrest⟩ := append_cons_inj verb.text_noNewline verb.text_noNewline h
  exact urlEncode_injective lib (append_cons_inj (notMem_urlEncode lib (by decide) (by decide) _)
    (notMem_urlEncode lib (by decide) (by decide) _) hrest).1

theorem getCanonicalRequest_aws_iff {request : HttpRequest} (keys : AuthorizationHeaderKeys) :
    getCanonicalRequest crypto lib request keys = .returns (awsCanonicalRequest crypto lib request keys) ↔
      byte '?' ∉ request.target := by
  constructor
  · intro h
    rw [← urlEncode_targetPath lib]
    rcases hquery : getCanonicalQueryParameters request.target with query | e | _
    · rw [getCanonicalRequest, hquery, Outcome.returns_bind] at h
      exact congrArg _ (canonicalLines_url lib request.method (Outcome.returns.inj h))
    · rw [getCanonicalRequest, hquery] at h
      cases h
    · rw [getCanonicalRequest, hquery] at h
      cases h
  · intro h
    have hnone : targetParameters request.target = [] := by
      have hquery : ¬ contains request.target (str "?") := by
        rw [show str "?" = [byte '?'] by decide, contains_single]
        exact h
      simp [targetParameters, hquery]
    have hquery : getCanonicalQueryParameters request.target =
        .returns (awsQuery lib (targetParameters request.target)) :=
      getCanonicalQueryParameters_aws lib (by simp [hnone]) (by simp [hnone])
    rw [getCanonicalRequest, hquery, awsCanonicalRequest, ← (urlEncode_targetPath lib).mpr h]
    rfl

/-- The canonical request is as it should be exactly when the target has no query and the signed headers
    are spelled as they are signed. -/
theorem canonical_request_iff {request : HttpRequest} (hwf : request.WellFormed)
    (keys : AuthorizationHeaderKeys) :
    IsCanonical crypto lib request keys ↔ byte '?' ∉ request.target ∧ SpelledAsSigned request keys := by
  have hreadable : byte '?' ∉ request.target → ¬ contains request.target (str "?") := by
    intro h
    rwa [show str "?" = [byte '?'] by decide, contains_single]
  constructor
  · intro h
    have hplain := (getCanonicalRequest_aws_iff crypto lib keys).mp h.aws
    have hquery : ReadableQuery request.target := fun hc => absurd hc (hreadable hplain)
    exact ⟨hplain, (overloads_agree_iff crypto lib hwf keys hquery).mp h.overloads⟩
  · rintro ⟨hplain, hspelled⟩
    have hquery : ReadableQuery request.target := fun hc => absurd hc (hreadable hplain)
    have haws := (getCanonicalRequest_aws_iff crypto lib keys).mpr hplain
    refine ⟨fun parameters _ => ?_, haws, (overloads_agree_iff crypto lib hwf keys hquery).mpr hspelled⟩
    rw [HttpRequest.reordered, if_neg (hreadable hplain)]
    exact ⟨_, haws, haws⟩

/-! ### Two orders of two parameters -/

/-- A request with one header, which is signed in lower case. -/
def orderRequest (target header : Str) : HttpRequest where
  method := .get
  target := target
  fields := [(header, str "h")]

def orderKeys : AuthorizationHeaderKeys where
  signedHeaders := str "host"

theorem canonical_request_plain :
    IsCanonical sampleDigests.crypto .standard (orderRequest (str "/b/k") (str "host")) orderKeys := by
  have hwf : (orderRequest (str "/b/k") (str "host")).WellFormed := ⟨by decide, by decide⟩
  refine (canonical_request_iff sampleDigests.crypto .standard hwf orderKeys).mpr ⟨by decide, ?_⟩
  intro name hname field hfind
  have hhost : name = str "host" := by simpa using show name ∈ [str "host"] from hname
  subst hhost
  have hfield : field = (str "host", str "h") := by
    have hfound : (orderRequest (str "/b/k") (str "host")).findField (str "host") =
      some (str "host", str "h") := by decide
    exact Option.some.inj (hfind.symm.trans hfound)
  subst hfield
  exact ⟨str "h", by decide, rfl⟩

/-- Two orders of two parameters give two canonical requests, and a header that is signed in lower case is
    not found in the map. -/
theorem canonical_request_order :
    (orderRequest (str "/b/k?a=1&b=2") (str "host")).WellFormed ∧
    [str "b=2", str "a=1"].Perm (targetParameters (str "/b/k?a=1&b=2")) ∧
    getCanonicalRequest sampleDigests.crypto .standard ((orderRequest (str "/b/k?a=1&b=2")
      (str "host")).reordered [str "b=2", str "a=1"]) orderKeys ≠
      getCanonicalRequest sampleDigests.crypto .standard (orderRequest (str "/b/k?a=1&b=2") (str "host"))
        orderKeys ∧
    getCanonicalRequest sampleDigests.crypto .standard (orderRequest (str "/b/k?a=1&b=2") (str "host"))
      orderKeys ≠ .returns (awsCanonicalRequest sampleDigests.crypto .standard
        (orderRequest (str "/b/k?a=1&b=2") (str "host")) orderKeys) ∧
    getCanonicalMapRequest sampleDigests.crypto .standard (str "GET") (str "/b/k")
      (getHeaders (orderRequest (str "/b/k") (str "Host"))) [] orderKeys ≠
      getCanonicalRequest sampleDigests.crypto .standard (orderRequest (str "/b/k") (str "Host")) orderKeys := by
  have hquery : ∀ target ∈ [str "/b/k?a=1&b=2", str "/b/k?b=2&a=1"],
      getCanonicalQueryParameters target = .returns (str "a=1&b=2") := by decide +kernel
  refine ⟨⟨by decide, by decide⟩, by decide, fun h => ?_, fun h => ?_, fun h => ?_⟩
  · have htarget : ((orderRequest (str "/b/k?a=1&b=2") (str "host")).reordered
        [str "b=2", str "a=1"]).target = str "/b/k?b=2&a=1" := by decide
    rw [getCanonicalRequest, getCanonicalRequest, htarget, hquery _ (by decide), hquery _ (by decide),
      Outcome.returns_bind, Outcome.returns_bind] at h
    have hsame := canonicalLines_url .standard .get (Outcome.returns.inj h)
    exact absurd hsame (by decide)
  · exact absurd ((getCanonicalRequest_aws_iff _ _ _).mp h) (by decide)
  · have hwf : (orderRequest (str "/b/k") (str "Host")).WellFormed := ⟨by decide, by decide⟩
    have hreadable : ReadableQuery (str "/b/k") := fun hc => absurd hc (by decide)
    have hspelled := (overloads_agree_iff sampleDigests.crypto .standard hwf orderKeys hreadable).mp h
    obtain ⟨value, hvalue, -⟩ := hspelled (str "host") (by decide) (str "Host", str "h") (by decide)
    exact absurd hvalue (by decide +revert)

end AwsMock
