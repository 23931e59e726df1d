import AwsMock.Core.Signature

/-!
# The header that signing writes

The regular expression finds the keys of a header that was written by signing, and nothing else in it.
-/

namespace AwsMock

open Lib

def isTokenByte (c : UInt8) : Bool := isAlphaNumeric c ∨ c ∈ str "!#$%&'*+-.^_`|~"

/-- A field name. -/
def isToken (s : Str) : Bool := s ≠ [] ∧ s.all isTokenByte

theorem notMem_of_all {p : UInt8 → Bool} {s : Str} {c : UInt8} (hs : s.all p) (hc : p c = false) :
    c ∉ s := by
  intro h
  exact absurd (List.all_eq_true.mp hs c h) (by simp [hc])

theorem notMem_token {s : Str} {c : UInt8} (hs : isToken s) (hc : isTokenByte c = false) : c ∉ s :=
  notMem_of_all (decide_eq_true_eq.mp hs).2 hc

namespace AuthorizationMatch

theorem notMem_name {s : Str} {c : UInt8} (hs : isName s)
    (hc : ¬ (isAlphaNumeric c ∨ c = byte '-')) : c ∉ s :=
  notMem_of_all (decide_eq_true_eq.mp hs).2 (decide_eq_false hc)

/-- The credential of a match. -/
def credential (m : AuthorizationMatch) : Str :=
  m.accessKeyId ++ byte '/' :: (m.dateTime ++ byte '/' :: (m.region ++ byte '/' ::
    (m.module ++ byte '/' :: str "aws4_request")))

/-- The text of a match, cut at the three equal signs. -/
theorem text_eq (m : AuthorizationMatch) (first second : Bool) : m.text first second =
    str "Credential" ++ byte '=' :: (m.credential ++ str "," ++ (if first then str " " else []) ++
      str "SignedHeaders" ++ byte '=' :: (m.signedHeaders ++ str "," ++
        (if second then str " " else []) ++ str "Signature" ++ byte '=' :: m.signature)) := by
  simp [text, credential, str, byte]

/-- No part of a match can be taken for another one. -/
structure Plain (m : AuthorizationMatch) : Prop where
  accessKeyId : m.accessKeyId.all isAlphaNumeric
  dateTime : m.dateTime.all isDigit
  region : isName m.region
  module : isName m.module
  signedHeaders : byte '=' ∉ m.signedHeaders ∧ byte '\n' ∉ m.signedHeaders
  signature : byte '=' ∉ m.signature ∧ byte '\n' ∉ m.signature

theorem Plain.wellFormed_iff {m : AuthorizationMatch} (h : m.Plain) :
    m.WellFormed ↔ m.accessKeyId ≠ [] ∧ m.dateTime.length = 8 := by
  unfold WellFormed
  simp only [h.accessKeyId, h.dateTime, h.region, h.module, h.signedHeaders.2, h.signature.2, and_true,
    not_false_eq_true]

theorem Plain.notMem_credential {m : AuthorizationMatch} (h : m.Plain) {c : UInt8}
    (hc : ¬ (isAlphaNumeric c ∨ c = byte '-')) (hslash : c ≠ byte '/') (hversion : c ∉ str "aws4_request") :
    c ∉ m.credential := by
  have hdigit : isDigit c = false := by
    have halpha := (not_or.mp hc).1
    simp only [isAlphaNumeric, decide_eq_true_eq, not_or] at halpha
    simpa using halpha.1
  simp only [credential, List.mem_append, List.mem_cons, not_or]
  exact ⟨notMem_of_all h.accessKeyId (by simpa using (not_or.mp hc).1), hslash,
    notMem_of_all h.dateTime hdigit, hslash, notMem_name h.region hc, hslash, notMem_name h.module hc, hslash,
    hversion⟩

/-- A match whose parts fit the pattern and have no further equal sign. -/
theorem WellFormed.plain {m : AuthorizationMatch} (h : m.WellFormed) (hsignedHeaders : byte '=' ∉ m.signedHeaders)
    (hsignature : byte '=' ∉ m.signature) : m.Plain := by
  obtain ⟨⟨-, hkey⟩, ⟨-, hdate⟩, hregion, hmodule, hheaders, hsign⟩ := h
  exact ⟨hkey, hdate, hregion, hmodule, ⟨hsignedHeaders, hheaders⟩, ⟨hsignature, hsign⟩⟩

/-- The parts of a credential are found at its slashes. -/
theorem credential_inj {m m' : AuthorizationMatch} (h : m.Plain) (h' : m'.WellFormed)
    (heq : m.credential = m'.credential) : m.accessKeyId = m'.accessKeyId ∧ m.dateTime = m'.dateTime ∧
      m.region = m'.region ∧ m.module = m'.module := by
  have hslash : ¬ (isAlphaNumeric (byte '/') ∨ byte '/' = byte '-') := by decide
  obtain ⟨⟨-, hkey'⟩, ⟨-, hdate'⟩, hregion', hmodule', -, -⟩ := h'
  obtain ⟨hk, hrest⟩ := append_cons_inj (notMem_of_all h.accessKeyId (by decide))
    (notMem_of_all hkey' (by decide)) heq
  obtain ⟨hd, hrest⟩ := append_cons_inj (notMem_of_all h.dateTime (by decide))
    (notMem_of_all hdate' (by decide)) hrest
  obtain ⟨hr, hrest⟩ := append_cons_inj (notMem_name h.region hslash) (notMem_name hregion' hslash) hrest
  obtain ⟨hm, -⟩ := append_cons_inj (notMem_name h.module hslash) (notMem_name hmodule' hslash) hrest
  exact ⟨hk, hd, hr, hm⟩

/-- An optional blank in front of a word that the text does not have. -/
theorem blank_inj {a b word : Str} {blank : Bool}
    (h : a ++ str "," ++ word = b ++ str "," ++ (if blank then str " " else []) ++ word) : a = b := by
  have hcancel := List.append_cancel_right h
  cases blank
  · simpa using hcancel
  · have hlast := congrArg List.getLast? hcancel
    simp [str, byte] at hlast

/-- What signing writes. -/
def signedText (m : AuthorizationMatch) : Str := str "AWS4-HMAC-SHA256 " ++ m.text false false

theorem WellFormed.matches_signedText {m : AuthorizationMatch} (h : m.WellFormed) :
    m.Matches m.signedText :=
  ⟨h, str "AWS4-HMAC-SHA256 ", false, false, [], .inl rfl, (List.append_nil _).symm⟩

/-- A match of what was written is what was written. -/
theorem Plain.eq_of_matches {m m' : AuthorizationMatch} (h : m.Plain) (hmatch : m'.Matches m.signedText) :
    m' = m := by
  obtain ⟨hwf', before, first, second, after, hafter, heq⟩ := hmatch
  obtain ⟨hsignedHeaders, -⟩ := h.signedHeaders
  obtain ⟨hsignature, hnewline⟩ := h.signature
  have hcredential : byte '=' ∉ m.credential := h.notMem_credential (by decide) (by decide) (by decide)
  obtain ⟨hversion, hcred, hheaders, hsign, hcomma⟩ : byte '=' ∉ str "AWS4-HMAC-SHA256 " ∧
      byte '=' ∉ str "Credential" ∧ byte '=' ∉ str "SignedHeaders" ∧ byte '=' ∉ str "Signature" ∧
      byte '=' ∉ str "," := by decide
  have hblank : ∀ b : Bool, byte '=' ∉ if b then str " " else [] := by decide
  simp only [signedText, text_eq, Bool.false_eq_true, if_false, List.append_nil] at heq
  -- the text has three equal signs, so the parts of the match have none
  obtain ⟨hbefore, hcredential', hsignedHeaders'⟩ : byte '=' ∉ before ∧ byte '=' ∉ m'.credential ∧
      byte '=' ∉ m'.signedHeaders := by
    have hcount := congrArg (List.count (byte '=')) heq
    simp only [List.count_append, List.count_cons_self, List.count_eq_zero.mpr hcredential,
      List.count_eq_zero.mpr hsignedHeaders,
      List.count_eq_zero.mpr hsignature, List.count_eq_zero.mpr hversion, List.count_eq_zero.mpr hcred,
      List.count_eq_zero.mpr hheaders, List.count_eq_zero.mpr hsign, List.count_eq_zero.mpr hcomma,
      List.count_eq_zero.mpr (hblank _), Nat.zero_add, Nat.add_zero] at hcount
    simp only [← List.count_eq_zero]
    omega
  rw [← List.append_assoc, List.append_assoc before, List.append_assoc (str "Credential"),
    List.cons_append, ← List.append_assoc before] at heq
  obtain ⟨-, hrest⟩ := append_cons_inj (by simp [hversion, hcred]) (by simp [hbefore, hcred]) heq
  rw [List.append_assoc _ _ after, List.cons_append] at hrest
  obtain ⟨hfirst, hrest⟩ := append_cons_inj (by simp [hcredential, hcomma, hheaders])
    (by simp [hcredential', hcomma, hheaders, hblank]) hrest
  rw [List.append_assoc _ _ after, List.cons_append] at hrest
  obtain ⟨hsecond, hend⟩ := append_cons_inj (by simp [hsignedHeaders, hcomma, hsign])
    (by simp [hsignedHeaders', hcomma, hsign, hblank]) hrest
  obtain ⟨hk, hd, hr, hm⟩ := credential_inj h hwf' (blank_inj hfirst)
  have hs := blank_inj hsecond
  rcases hafter with rfl | rfl
  · rw [List.append_nil] at hend
    cases m
    cases m'
    simp_all
  · exact absurd (hend ▸ List.mem_append_right _ (by decide)) hnewline

/-- The regular expression finds what was written, when the parts fit. -/
theorem Plain.search_signedText {m : AuthorizationMatch} (h : m.Plain) (hwf : m.WellFormed)
    (pattern : AuthorizationPattern) : pattern.search m.signedText = some m := by
  obtain ⟨m', hm'⟩ := Option.isSome_iff_exists.mp (pattern.search_isSome hwf.matches_signedText)
  rw [hm', h.eq_of_matches (pattern.search_matches hm')]

theorem Plain.signedText_noNewline {m : AuthorizationMatch} (h : m.Plain) : byte '\n' ∉ m.signedText := by
  have hcredential : byte '\n' ∉ m.credential := h.notMem_credential (by decide) (by decide) (by decide)
  have hliteral : byte '\n' ∉ str "AWS4-HMAC-SHA256 " ∧ byte '\n' ∉ str "Credential" ∧
      byte '\n' ∉ str "SignedHeaders" ∧ byte '\n' ∉ str "Signature" ∧ byte '\n' ∉ str "," ∧
      byte '\n' ≠ byte '=' := by decide
  simp only [signedText, text_eq, Bool.false_eq_true, if_false, List.append_nil, List.mem_append,
    List.mem_cons, hliteral, hcredential, h.signedHeaders.2, h.signature.2, or_self, not_false_eq_true]

theorem signingVersion_signedText (m : AuthorizationMatch) :
    (split (byte ' ') m.signedText).getD 0 [] = str "AWS4-HMAC-SHA256" := by
  have hword : m.signedText = str "AWS4-HMAC-SHA256" ++ byte ' ' :: m.text false false := by
    simp [signedText, str, byte]
  rw [hword, split_append (by decide)]
  rfl

theorem authorizationText_eq {accessKeyId : Str} {keys : AuthorizationHeaderKeys} {signature : Str}
    (hversion : keys.requestVersion = str "aws4_request") : authorizationText accessKeyId keys signature =
      signedText ⟨accessKeyId, keys.dateTime, keys.region, keys.module, keys.signedHeaders, signature⟩ := by
  simp [authorizationText, signedText, text, hversion, str, byte]

/-- In a header of any region and module, the signature is what stands behind the last equal sign. -/
theorem Matches.signature_eq {m m' : AuthorizationMatch} (h : m'.Matches m.signedText)
    (hsignature : byte '=' ∉ m.signature) (hnewline : byte '\n' ∉ m.signature)
    (hsignature' : byte '=' ∉ m'.signature) : m'.signature = m.signature := by
  have htext : ∀ (m : AuthorizationMatch) (first second : Bool), ∃ start,
      m.text first second = start ++ byte '=' :: m.signature := fun m first second =>
    ⟨str "Credential" ++ byte '=' :: (m.credential ++ str "," ++ (if first then str " " else []) ++
      str "SignedHeaders" ++ byte '=' :: (m.signedHeaders ++ str "," ++ (if second then str " " else []) ++
        str "Signature")), by rw [text_eq]; simp only [List.append_assoc, List.cons_append]⟩
  obtain ⟨-, before, first, second, after, hafter, heq⟩ := h
  obtain ⟨start, hstart⟩ := htext m false false
  obtain ⟨start', hstart'⟩ := htext m' first second
  rw [signedText, hstart, hstart', ← List.append_assoc, ← List.append_assoc, List.append_assoc (before ++ _),
    List.cons_append] at heq
  rcases hafter with rfl | rfl
  · rw [List.append_nil] at heq
    exact (append_cons_inj_last hsignature hsignature' heq).2.symm
  · have hend := (append_cons_inj_last hsignature (by simp [hsignature', show byte '=' ∉ str "\n" by decide]) heq).2
    exact absurd (hend ▸ List.mem_append_right _ (by decide)) hnewline

/-- The scope has as many parts as a match. -/
theorem WellFormed.scope_inj {m : AuthorizationMatch} (h : m.WellFormed) {date region module version : Str}
    (hdate : date.all isDigit) (heq : date ++ str "/" ++ region ++ str "/" ++ module ++ str "/" ++ version =
      m.dateTime ++ str "/" ++ m.region ++ str "/" ++ m.module ++ str "/" ++ version) :
    date = m.dateTime ∧ region = m.region ∧ module = m.module := by
  obtain ⟨-, ⟨-, hdate'⟩, hregion', hmodule', -, -⟩ := h
  have hname : ¬ (isAlphaNumeric (byte '/') ∨ byte '/' = byte '-') := by decide
  have hslash : str "/" = [byte '/'] := by decide
  have hcancel := List.append_cancel_right (List.append_cancel_right heq)
  simp only [hslash, List.append_assoc, List.cons_append, List.nil_append] at hcancel
  obtain ⟨hd, hrest⟩ := append_cons_inj (notMem_of_all hdate (by decide)) (notMem_of_all hdate' (by decide)) hcancel
  -- there is one slash between the region and the module
  obtain ⟨hregion, hmodule⟩ : byte '/' ∉ region ∧ byte '/' ∉ module := by
    have hcount := congrArg (List.count (byte '/')) hrest
    simp only [List.count_append, List.count_cons_self, List.count_eq_zero.mpr (notMem_name hregion' hname),
      List.count_eq_zero.mpr (notMem_name hmodule' hname)] at hcount
    simp only [← List.count_eq_zero]
    omega
  obtain ⟨hr, hm⟩ := append_cons_inj hregion (notMem_name hregion' hname) hrest
  exact ⟨hd, hr, hm⟩

end AuthorizationMatch

/-! ### A signed request

The digests of a request without a body for the object `k` of the bucket `b`, signed with the default
keys. -/

/-- The bytes of a number, the most significant one first. -/
def bigEndian : Nat → Nat → Str
  | 0, _ => []
  | k + 1, n => bigEndian k (n / 256) ++ [UInt8.ofNat n]

def sampleMatch : AuthorizationMatch where
  accessKeyId := str "none"
  dateTime := str "20240228"
  region := str "eu-central-1"
  module := str "s3"
  signedHeaders := str "host;x-amz-date"
  signature := hexEncode
    (bigEndian 32 0xa6b090b356050ac26d064aeaf193d317946b6605121de72ef44ac4d29d761a52)

theorem sampleMatch_wellFormed : sampleMatch.WellFormed := by
  unfold AuthorizationMatch.WellFormed
  decide +kernel

theorem sampleMatch_plain : sampleMatch.Plain :=
  sampleMatch_wellFormed.plain (by decide) (by decide +kernel)

theorem search_sampleMatch (pattern : AuthorizationPattern) :
    pattern.search sampleMatch.signedText = some sampleMatch :=
  sampleMatch_plain.search_signedText sampleMatch_wellFormed pattern

/-- What is signed, for a request whose headers are `h` and a time. -/
def sampleCanonical : Str :=
  str "GET\n/b/k\n\nhost:h\nx-amz-date:2024-02-28T23:59:59Z\n\nhost;x-amz-date\n" ++
    hexEncode (bigEndian 32 0xe3b0c44298fc1c149afbf4c8996fb92427ae41e4649b934ca495991b7852b855)

def sampleStringToSign : Str :=
  str "AWS4-HMAC-SHA256\n2024-02-28T23:59:59Z\n20240228/eu-central-1/s3/aws4_request\n" ++
    hexEncode (bigEndian 32 0xbacfa44d62d7f70f7d13366b0199aee59c3dd017c6663fd48cfd43300bdc954f)

/-- The keys that are derived from the secret one after the other, and the signature. -/
def sampleChain : List Str :=
  [bigEndian 32 0x59c787211d8ea1be7a0cacac552a2c123320f2c8526f3b794402997aad84cb5f,
    bigEndian 32 0xad6834874b5051d55f284cafce295676ad4a5daf6c865ccb3a5af28506f6e54e,
    bigEndian 32 0xf635f277f57ac19cc7bdb6b51be9fe6ac07ac2b48aafa8f2b9474791c7009c19,
    bigEndian 32 0xa748761333c9ce12038db95a4aac1293d2f8ed66f5ad41b56aa0a67fb91336b9,
    bigEndian 32 0xa6b090b356050ac26d064aeaf193d317946b6605121de72ef44ac4d29d761a52]

def sampleDigests : KnownDigests where
  sha256 :=
    [([], bigEndian 32 0xe3b0c44298fc1c149afbf4c8996fb92427ae41e4649b934ca495991b7852b855),
      (sampleCanonical,
        bigEndian 32 0xbacfa44d62d7f70f7d13366b0199aee59c3dd017c6663fd48cfd43300bdc954f)]
  hmacSha256 :=
    ((str "AWS4none" :: sampleChain).zip [str "20240228", str "eu-central-1", str "s3",
      str "aws4_request", sampleStringToSign]).zip sampleChain
  sha256_nodup := by decide +kernel
  sha256_length := by decide +kernel
  hmacSha256_nodup := by decide +kernel
  hmacSha256_length := by decide +kernel

def sampleKeys : AuthorizationHeaderKeys :=
  keysOfMatch (str "AWS4-HMAC-SHA256") (str "none") (str "2024-02-28T23:59:59Z") sampleMatch

theorem sample_signature :
    getSignature sampleDigests.crypto sampleKeys sampleStringToSign = sampleMatch.signature := by
  have hsecret : str "AWS4" ++ sampleKeys.secretAccessKey = str "AWS4none" := by decide
  have hfirst : sampleDigests.crypto.hmacSha256 (str "AWS4none") sampleKeys.dateTime =
      sampleChain.getD 0 [] := by decide +kernel
  have hsecond : sampleDigests.crypto.hmacSha256 (sampleChain.getD 0 []) sampleKeys.region =
      sampleChain.getD 1 [] := by decide +kernel
  have hthird : sampleDigests.crypto.hmacSha256 (sampleChain.getD 1 []) sampleKeys.module =
      sampleChain.getD 2 [] := by decide +kernel
  have hfourth : sampleDigests.crypto.hmacSha256 (sampleChain.getD 2 []) sampleKeys.requestVersion =
      sampleChain.getD 3 [] := by decide +kernel
  have hlast : sampleDigests.crypto.hmacSha256 (sampleChain.getD 3 []) sampleStringToSign =
      sampleChain.getD 4 [] := by decide +kernel
  simp only [getSignature, hsecret, hfirst, hsecond, hthird, hfourth, hlast]
  decide +kernel

theorem sample_stringToSign :
    getStringToSign sampleDigests.crypto sampleCanonical sampleKeys = sampleStringToSign := by
  decide +kernel

end AwsMock
