import AwsMock.Core.Authorization
import AwsMock.Dto.ClientCommand

/-!
# Routing a request

The keys a request is routed by, and when the parsers that run before an action index past the end of
a split.
-/

namespace AwsMock.Gateway

open Lib

variable (pattern : AuthorizationPattern) (lib : PocoUri)

/-- `GatewaySession::GetAuthorizationKeys`: the first word of the header is taken unchecked, outside the
    `try` block. -/
def getAuthorizationKeys (authorizationHeader secretAccessKey : Str) :
    Outcome Error AuthorizationHeaderKeys := do
  let signingVersion ← .get (split (byte ' ') authorizationHeader) 0
  match pattern.search authorizationHeader with
  | none => return {}
  | some m =>
    let requestVersion := str "aws4_request"
    return { signingVersion := signingVersion,
             secretAccessKey := if secretAccessKey = [] then str "none" else secretAccessKey,
             dateTime := m.dateTime, region := m.region, module := m.module,
             requestVersion := requestVersion, signedHeaders := m.signedHeaders,
             signature := m.signature,
             scope := m.dateTime ++ str "/" ++ m.region ++ str "/" ++ m.module ++ str "/" ++
               requestVersion }

theorem getAuthorizationKeys_defined {authorizationHeader secretAccessKey : Str} :
    (getAuthorizationKeys pattern authorizationHeader secretAccessKey).Defined ↔
      authorizationHeader ≠ [] := by
  rw [getAuthorizationKeys, Outcome.defined_get_bind [], List.length_pos_iff, split_ne_nil]
  refine and_iff_left ?_
  split <;> exact Outcome.defined_returns _

/-! ### The user agent -/

/-- The module and the command in the twelfth word of a command line user agent: what stands between its
    first two `#`, split at the dots. -/
def cliTokens (words : List Str) : List Str :=
  split (byte '.') ((split (byte '#') (words.getD 11 [])).getD 1 [])

/-- The request comes from the command line client, by its first word. -/
def FromCli (request : HttpRequest) : Prop :=
  hasHeader request (str "User-Agent") ∧ 4 ≤ (userAgentWords request).length ∧
    userAgentTypeFromString ((userAgentWords request).getD 0 []) = .awsCli

instance (request : HttpRequest) : Decidable (FromCli request) :=
  inferInstanceAs (Decidable (_ ∧ _ ∧ _))

/-- A command line user agent has a module and a command. -/
def NamesCommand (request : HttpRequest) : Prop :=
  FromCli request → 2 ≤ (cliTokens (userAgentWords request)).length

theorem lt_length_of_split {d : UInt8} {words : List Str} {i : Nat}
    (h : 0 < (split d (words.getD i [])).length) : i < words.length := by
  by_contra hi
  rw [List.getD_eq_getElem?_getD, List.getElem?_eq_none (by omega)] at h
  simp at h

/-- The unchecked reads of a command line user agent stay in range when the last one does. -/
theorem cliUserAgent_inRange {words : List Str} (h : 2 ≤ (cliTokens words).length) :
    11 < words.length ∧ 1 < (split (byte '#') (words.getD 11 [])).length := by
  have hcommand : 1 < (split (byte '#') (words.getD 11 [])).length :=
    lt_length_of_split (Nat.zero_lt_of_lt h)
  exact ⟨lt_length_of_split (Nat.zero_lt_of_lt hcommand), hcommand⟩

theorem cliUserAgent_defined {words : List Str} :
    (cliUserAgent words).Defined ↔ 2 ≤ (cliTokens words).length := by
  simp only [cliUserAgent, Outcome.defined_get_bind [], Outcome.pure_eq, Outcome.defined_returns,
    and_true]
  constructor
  · rintro ⟨-, -, -, -, -, -, -, -, htokens⟩
    exact htokens
  · intro htokens
    obtain ⟨hwords, hcommand⟩ := cliUserAgent_inRange htokens
    exact ⟨by omega, by omega, by omega, by omega, by omega, hwords, hcommand,
      Nat.zero_lt_of_lt htokens, htokens⟩

theorem cliUserAgent_returns {words : List Str} (h : 2 ≤ (cliTokens words).length) :
    ∃ userAgent, cliUserAgent words = .returns userAgent ∧
      userAgent.clientCommand = (cliTokens words).getD 1 [] := by
  obtain ⟨hwords, hcommand⟩ := cliUserAgent_inRange h
  simp only [cliUserAgent, Outcome.get_bind_eq_returns [], Outcome.pure_eq, Outcome.returns.injEq]
  exact ⟨_, ⟨by omega, by omega, by omega, by omega, by omega, hwords, hcommand,
    Nat.zero_lt_of_lt h, h, rfl⟩, rfl⟩

/-- The words of a user agent are as many as every client sends. -/
def EnoughWords (request : HttpRequest) : Prop :=
  hasHeader request (str "User-Agent") → 4 ≤ (userAgentWords request).length

/-- The command a user agent names. -/
def clientCommandOf (request : HttpRequest) : Str :=
  if FromCli request then (cliTokens (userAgentWords request)).getD 1 [] else []

theorem userAgent_throws {request : HttpRequest} (h : ¬ EnoughWords request) :
    userAgentFromRequest request =
      .throws (.serviceException (str "Could not extract user agent DTO")) := by
  simp only [EnoughWords, Classical.not_imp, Nat.not_le] at h
  rw [userAgentFromRequest, if_neg (not_not.mpr h.1), if_pos h.2]

theorem withContentType_clientCommand (request : HttpRequest) (userAgent : UserAgent) :
    (withContentType request userAgent).clientCommand = userAgent.clientCommand := by
  unfold withContentType
  split <;> rfl

theorem userAgent_defined {request : HttpRequest} :
    (userAgentFromRequest request).Defined ↔ NamesCommand request := by
  by_cases hheader : hasHeader request (str "User-Agent")
  · by_cases hwords : (userAgentWords request).length < 4
    · rw [userAgent_throws fun h => absurd (h hheader) (Nat.not_le.mpr hwords)]
      exact iff_of_true (Outcome.defined_throws _) fun h => absurd h.2.1 (Nat.not_le.mpr hwords)
    · have hzero : 0 < (userAgentWords request).length := by omega
      rw [userAgentFromRequest, if_neg (not_not.mpr hheader), if_neg hwords,
        Outcome.defined_get_bind [], and_iff_right hzero]
      by_cases htype : userAgentTypeFromString ((userAgentWords request).getD 0 []) = .awsCli
      · have hfrom : FromCli request := ⟨hheader, Nat.not_lt.mp hwords, htype⟩
        simp only [if_pos htype, Outcome.defined_bind, cliUserAgent_defined, Outcome.pure_eq,
          Outcome.defined_returns, implies_true, and_true]
        exact ⟨fun h _ => h, fun h => h hfrom⟩
      · simp only [if_neg htype, Outcome.pure_eq, Outcome.defined_returns, true_iff]
        exact fun h => absurd h.2.2 htype
  · rw [userAgentFromRequest, if_pos hheader]
    exact iff_of_true (Outcome.defined_returns _) fun h => absurd h.1 hheader

theorem userAgent_returns {request : HttpRequest} (hcli : NamesCommand request)
    (henough : EnoughWords request) : ∃ userAgent,
      userAgentFromRequest request = .returns userAgent ∧
        userAgent.clientCommand = clientCommandOf request := by
  by_cases hheader : hasHeader request (str "User-Agent")
  · have hwords := henough hheader
    have hzero : 0 < (userAgentWords request).length := by omega
    rw [userAgentFromRequest, if_neg (not_not.mpr hheader), if_neg (Nat.not_lt.mpr hwords),
      Outcome.get_bind [], if_pos hzero]
    by_cases htype : userAgentTypeFromString ((userAgentWords request).getD 0 []) = .awsCli
    · have hfrom : FromCli request := ⟨hheader, hwords, htype⟩
      obtain ⟨userAgent, hreturns, hcommand⟩ := cliUserAgent_returns (hcli hfrom)
      simp only [if_pos htype, hreturns, clientCommandOf, if_pos hfrom]
      exact ⟨_, rfl, (withContentType_clientCommand ..).trans hcommand⟩
    · have hfrom : ¬ FromCli request := fun h => htype h.2.2
      simp only [if_neg htype, clientCommandOf, if_neg hfrom]
      exact ⟨_, rfl, withContentType_clientCommand ..⟩
  · rw [clientCommandOf, if_neg fun h => hheader h.1]
    exact ⟨_, if_pos hheader, rfl⟩

/-- What follows a user agent depends on the command it names, and is reached when there are enough
    words. -/
theorem userAgent_bind_defined {request : HttpRequest} {α : Type} {f : UserAgent → Outcome Error α}
    {P : Str → Prop} (hf : ∀ userAgent, (f userAgent).Defined ↔ P userAgent.clientCommand) :
    (userAgentFromRequest request >>= f).Defined ↔
      NamesCommand request ∧ (EnoughWords request → P (clientCommandOf request)) := by
  rw [Outcome.defined_bind, userAgent_defined]
  refine and_congr_right fun hcli => ⟨fun h henough => ?_, fun h userAgent hreturns => ?_⟩
  · obtain ⟨userAgent, hreturns, hcommand⟩ := userAgent_returns hcli henough
    exact hcommand ▸ (hf userAgent).mp (h userAgent hreturns)
  · by_cases henough : EnoughWords request
    · obtain ⟨other, hother, hcommand⟩ := userAgent_returns hcli henough
      obtain rfl : other = userAgent := by
        rw [hother] at hreturns
        exact Outcome.returns.inj hreturns
      exact (hf other).mpr (hcommand ▸ h henough)
    · rw [userAgent_throws henough] at hreturns
      cases hreturns

/-! ### The commands -/

/-- The length a request announces is a number. -/
def NumericLength (request : HttpRequest) : Prop := ∃ length, getContentLength request = .returns length

/-- The action of an SQS request can be read off its headers: a form has no empty parameter before its
    `Action`, and the JSON target has something behind its first dot. -/
def NamesAction (request : HttpRequest) : Prop :=
  let form := containsIgnoreCase (request.field (str "Content-Type"))
    (str "application/x-www-form-urlencoded")
  let json := containsIgnoreCase (request.field (str "Content-Type"))
    (str "application/x-amz-json-1.0")
  (form → Scannable (str "Action") (queryParameters request.body)) ∧
    (¬ form → json → 2 ≤ (split (byte '.') (request.field (str "X-Amz-Target"))).length)

theorem headerAction_defined {request : HttpRequest} :
    (headerAction lib request request.body).Defined ↔ NamesAction request := by
  simp only [headerAction, NamesAction]
  split
  · next hform => simp [getQueryParameterValueByName_defined, hform]
  · next hform =>
    split
    · next hjson => simp [Outcome.defined_get, hform, hjson, Nat.succ_le_iff]
    · next hjson => simp [hform, hjson]

theorem getContentLength_defined (request : HttpRequest) : (getContentLength request).Defined := by
  unfold getContentLength
  split
  · exact Outcome.defined_ofExcept _
  · exact Outcome.defined_returns _

/-- What follows the length of a request, and does not read it. -/
theorem contentLength_bind_defined {request : HttpRequest} {α : Type} {f : Int → Outcome Error α}
    {P : Prop} (hf : ∀ length, (f length).Defined ↔ P) :
    (getContentLength request >>= f).Defined ↔ (NumericLength request → P) := by
  simp only [Outcome.defined_bind, getContentLength_defined, true_and, hf]
  exact ⟨fun h ⟨length, hlength⟩ => h length hlength, fun h length hlength => h ⟨length, hlength⟩⟩

theorem sqsClientCommand_defined {request : HttpRequest} {region user randomId : Str} :
    (sqsClientCommandFromRequest lib request region user randomId).Defined ↔
      NamesCommand request ∧ (EnoughWords request → NumericLength request →
        clientCommandOf request = [] → NamesAction request) := by
  refine userAgent_bind_defined (P := fun c => NumericLength request → c = [] → NamesAction request)
    fun userAgent => contentLength_bind_defined fun length => ?_
  simp only [Outcome.defined_bind, Outcome.pure_eq, Outcome.defined_returns, implies_true, and_true,
    sqsCommandName]
  split
  · next hcommand =>
    simp [getCommandFromHeader, Outcome.defined_bind, headerAction_defined, hcommand]
  · next hcommand => simp [hcommand]

/-- The parameters of an S3 target are found before an empty one is reached, as far as the parser looks
    for them. -/
def FindsParameters (request : HttpRequest) (clientCommand bucket key : Str) : Prop :=
  let scannable : String → Prop := fun name => Scannable (str name) (queryParameters request.target)
  scannable "uploads" ∧ scannable "uploadId" ∧
    ∀ uploadId, getQueryParameterValueByName lib request.target (str "uploadId") = .returns uploadId →
      scannable "partNumber" ∧ scannable "notification" ∧ scannable "versioning" ∧
        scannable "encryption" ∧
        (clientCommand = [] → request.method = .get → bucket ≠ [] → key = [] →
          scannable "versions" ∧
            (((queryParameters request.target).find? (isNamed (str "versions"))).isSome →
              scannable "prefix"))

theorem getCommandFromMethod_defined {target : Str} {c : S3ClientCommand} :
    (getCommandFromMethod lib target c).Defined ↔
      (c.method = .get → c.bucket ≠ [] → c.key = [] →
        Scannable (str "versions") (queryParameters target) ∧
          (((queryParameters target).find? (isNamed (str "versions"))).isSome →
            Scannable (str "prefix") (queryParameters target))) := by
  unfold getCommandFromMethod
  cases hmethod : c.method with
  | get =>
    simp only [Outcome.defined_ite, hasQueryParameter_bind_defined]
    simp only [Outcome.defined_bind, Outcome.pure_eq, Outcome.defined_returns, implies_true, true_and,
      and_true, getQueryParameterValueByName_defined]
    constructor
    · intro h _ hbucket hkey
      exact h (fun hempty => hbucket hempty.1) ⟨hbucket, hkey⟩
    · intro h _ hlist
      exact h trivial hlist.1 hlist.2
  | _ => simp [Outcome.defined_ite]

theorem s3ClientCommandOf_defined {request : HttpRequest} {region user randomId : Str}
    {userAgent : UserAgent} {contentLength : Int} {bucket key : Str} :
    (s3ClientCommandOf lib request region user randomId userAgent contentLength bucket key).Defined ↔
      FindsParameters lib request userAgent.clientCommand bucket key := by
  rw [s3ClientCommandOf, hasQueryParameter_bind_defined, Outcome.defined_bind,
    getQueryParameterValueByName_defined]
  refine and_congr_right fun _ => and_congr_right fun _ => forall_congr' fun uploadId =>
    imp_congr_right fun _ => ?_
  rw [hasQueryParameter_bind_defined, hasQueryParameter_bind_defined, hasQueryParameter_bind_defined,
    hasQueryParameter_bind_defined, Outcome.defined_ite, getCommandFromMethod_defined]
  simp

theorem getS3BucketName_defined (request : HttpRequest) : (getS3BucketName lib request).Defined := by
  unfold getS3BucketName
  split
  · exact Outcome.defined_returns _
  · exact getPathParameter_defined lib _ _

theorem s3ClientCommand_defined {request : HttpRequest} {region user randomId : Str} :
    (s3ClientCommandFromRequest lib request region user randomId).Defined ↔
      NamesCommand request ∧ (EnoughWords request → NumericLength request →
        ∀ bucket, getS3BucketName lib request = .returns bucket →
          ∀ key, getS3ObjectKey lib request = .returns key →
            FindsParameters lib request (clientCommandOf request) bucket key) := by
  refine userAgent_bind_defined (P := fun c => NumericLength request →
    ∀ bucket, getS3BucketName lib request = .returns bucket →
      ∀ key, getS3ObjectKey lib request = .returns key → FindsParameters lib request c bucket key)
    fun userAgent => contentLength_bind_defined fun length => ?_
  have hkey : (getS3ObjectKey lib request).Defined := urlDecode_defined lib _
  simp only [Outcome.defined_bind, getS3BucketName_defined, hkey, s3ClientCommandOf_defined, true_and]

/-! ### Index safety -/

/-- A request on which no parser that runs before an action goes out of range. -/
structure InRange (request : HttpRequest) : Prop where
  authorization : request.field (str "Authorization") ≠ []
  userAgent : NamesCommand request
  sqs : EnoughWords request → NumericLength request → clientCommandOf request = [] →
    NamesAction request
  s3 : EnoughWords request → NumericLength request →
    ∀ bucket, getS3BucketName lib request = .returns bucket →
      ∀ key, getS3ObjectKey lib request = .returns key →
        FindsParameters lib request (clientCommandOf request) bucket key

/-- The parsers of a request index a split within its size exactly when the request is in range. -/
theorem index_safety (request : HttpRequest) (region user randomId : Str) :
    ((getAuthorizationKeys pattern (request.field (str "Authorization")) []).Defined ∧
      (userAgentFromRequest request).Defined ∧
      (sqsClientCommandFromRequest lib request region user randomId).Defined ∧
      (s3ClientCommandFromRequest lib request region user randomId).Defined) ↔ InRange lib request := by
  rw [getAuthorizationKeys_defined, userAgent_defined, sqsClientCommand_defined,
    s3ClientCommand_defined]
  constructor
  · rintro ⟨hauthorization, huserAgent, ⟨-, hsqs⟩, -, hs3⟩
    exact ⟨hauthorization, huserAgent, hsqs, hs3⟩
  · rintro ⟨hauthorization, huserAgent, hsqs, hs3⟩
    exact ⟨hauthorization, huserAgent, ⟨huserAgent, hsqs⟩, huserAgent, hs3⟩

/-- Each parser goes out of range on some request: one without an `Authorization` header, one of a short
    command line user agent, a JSON one without a target, and one for the key `a&&b`. -/
theorem index_unsafe :
    ¬ (getAuthorizationKeys .any (({ method := .get, target := str "/" } : HttpRequest).field
        (str "Authorization")) []).Defined ∧
      ¬ (userAgentFromRequest { method := .get, target := str "/", fields :=
        [(str "User-Agent", str "aws-cli/2.15.0 Python/3.11 Linux/5.15 exe/x86_64")] }).Defined ∧
      ¬ (sqsClientCommandFromRequest .standard { method := .post, target := str "/", fields :=
        [(str "Content-Type", str "application/x-amz-json-1.0")] } [] [] []).Defined ∧
      ¬ (s3ClientCommandFromRequest .standard
        { method := .put, target := str "/bucket/a&&b" } [] [] []).Defined :=
  ⟨by decide +kernel, by decide +kernel, by decide +kernel, by decide +kernel⟩

end AwsMock.Gateway
