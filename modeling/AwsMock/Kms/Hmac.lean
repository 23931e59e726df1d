import AwsMock.Kms.Encryption

/-!
# Message authentication

What `KMSService::Encrypt` returns under an HMAC key, against the HMAC of the message.
-/

namespace AwsMock.Kms

open Lib

/-- The specification of the keys for a digest. -/
def Digest.keySpec : Digest → KeySpec
  | sha224 => .hmac224
  | sha256 => .hmac256
  | sha384 => .hmac384
  | sha512 => .hmac512

/-- The key that is stored for a digest. -/
def Digest.storedKey (key : Key) : Digest → Str
  | sha224 => key.hmac224Key
  | sha256 => key.hmac256Key
  | sha384 => key.hmac384Key
  | sha512 => key.hmac512Key

/-- A key and data only have the digest that they have in exchange when they are the same. -/
def Hmac.ExchangeFree (hmac : Hmac) : Prop :=
  ∀ digest key data, hmac.mac digest data key = hmac.mac digest key data → data = key

/-- The request succeeds with the encoded HMAC of its message under the stored key. -/
def Authenticates (library : CryptoLibrary) (rt : Runtime) (w : World) (digest : Digest) (key : Str)
    (request : EncryptRequest) : Prop :=
  ∃ response buffers w', (encrypt library request).run (exec rt) w = some (.ok (response, buffers), w') ∧
    response.ciphertext =
      library.base64.encode (hexEncode (library.hmac.mac digest key (library.base64.decode request.plainText)))

theorem Base64.encode_inj (base64 : Base64) {s t : Str} : base64.encode s = base64.encode t ↔ s = t := by
  constructor
  · intro h
    rw [← base64.decode_encode s, h, base64.decode_encode]
  · rintro rfl
    rfl

theorem length_hexEncode (hash : Str) : (hexEncode hash).length = hash.length * 2 := by
  induction hash with
  | nil => rfl
  | cons c hash ih =>
    simp only [hexEncode, List.flatMap_cons, List.length_append, List.length_cons, List.length_nil] at ih ⊢
    omega

variable {library : CryptoLibrary} {rt : Runtime} {w : World} {digest : Digest} {key : Key} {request : EncryptRequest}

/-- Under a key that is there, a request ends as the encryption of its plaintext does. -/
theorem authenticates_iff (hkey : w.db.keyOf request.keyId = some key) (stored : Str) :
    Authenticates library rt w digest stored request ↔
      (encryptPlaintext library key request.plainText).map Prod.fst = .ok (library.base64.encode
        (hexEncode (library.hmac.mac digest stored (library.base64.decode request.plainText)))) := by
  obtain ⟨keyId', w', -, hrun⟩ := encrypt_run library rt hkey
  rcases hencrypt : encryptPlaintext library key request.plainText with e | ⟨ciphertext, buffers⟩
  · rw [hencrypt] at hrun
    constructor
    · rintro ⟨response, buffers, w'', hrun', -⟩
      cases hrun.symm.trans hrun'
    · intro h
      cases h
  · rw [hencrypt] at hrun
    constructor
    · rintro ⟨response, buffers', w'', hrun', hciphertext⟩
      cases hrun.symm.trans hrun'
      exact congrArg Except.ok hciphertext
    · intro h
      exact ⟨_, _, _, hrun, Except.ok.inj h⟩

/-- Every digest has some bytes. -/
theorem Digest.size_pos (digest : Digest) : 0 < digest.size := by
  cases digest <;> decide

theorem hexEncode_mac_iff {hmac : Hmac} (hfree : hmac.ExchangeFree) (stored msg : Str) :
    hexEncode (hmac.mac digest msg stored) = hexEncode (hmac.mac digest stored msg) ↔ msg = stored := by
  constructor
  · intro h
    exact hfree digest stored msg (hexEncode_injective h)
  · rintro rfl
    rfl

/-- The text of a digest without its first characters is only the whole text of a digest when there are none. -/
theorem stringFrom_hmac_iff {hmac : Hmac} (hfree : hmac.ExchangeFree) (stored msg : Str) :
    stringFrom (getHmacFromString hmac digest stored msg) msg.length =
      .ok (hexEncode (hmac.mac digest stored msg)) ↔ msg = [] ∧ stored = [] := by
  have hsize := digest.size_pos
  have hlength : ∀ key data, (hexEncode (hmac.mac digest key data)).length = digest.size * 2 := fun key data => by
    rw [length_hexEncode, hmac.length_mac]
  rw [stringFrom, getHmacFromString]
  constructor
  · intro h
    split at h
    · cases h
    · next hshort =>
      have hdrop := Except.ok.inj h
      have hdropped := congrArg List.length hdrop
      rw [List.length_drop, hlength, hlength] at hdropped
      rw [hlength] at hshort
      obtain rfl : msg = [] := List.length_eq_zero_iff.mp (by omega)
      exact ⟨rfl, ((hexEncode_mac_iff hfree stored []).mp hdrop).symm⟩
  · rintro ⟨rfl, rfl⟩
    exact if_neg (Nat.not_lt_zero _)

/-- Half of the text of a digest is not the whole text of a digest. -/
theorem take_hmac_ne {hmac : Hmac} (stored msg : Str) :
    (getHmacFromString hmac digest stored msg).take digest.size ≠ hexEncode (hmac.mac digest stored msg) := by
  intro h
  have hsize := digest.size_pos
  have htaken := congrArg List.length h
  rw [List.length_take, getHmacFromString, length_hexEncode, length_hexEncode, hmac.length_mac, hmac.length_mac] at htaken
  omega

theorem take_hmac_eq {hmac : Hmac} (stored msg : Str) :
    (getHmacFromString hmac digest stored msg).take (digest.size * 2) = hexEncode (hmac.mac digest msg stored) := by
  refine List.take_of_length_le (Nat.le_of_eq ?_)
  rw [getHmacFromString, length_hexEncode, hmac.length_mac]

/-- When a request under an HMAC key returns the HMAC of its message: for SHA-224 and SHA-256, when both the message
    and the key are empty, and for SHA-512, when they are the same. -/
def Digest.Returned (digest : Digest) (stored msg : Str) : Prop :=
  match digest with
  | sha224 | sha256 => msg = [] ∧ stored = []
  | sha384 => False
  | sha512 => msg = stored

theorem encryptPlaintext_hmac_iff (hfree : library.hmac.ExchangeFree)
    (hspec : KeySpec.fromString key.keySpec = digest.keySpec) (plainText : Str) :
    (encryptPlaintext library key plainText).map Prod.fst = .ok (library.base64.encode
        (hexEncode (library.hmac.mac digest (digest.storedKey key) (library.base64.decode plainText)))) ↔
      digest.Returned (digest.storedKey key) (library.base64.decode plainText) := by
  have hencoded : ∀ x : Except Error Str, ∀ text,
      ((x.map fun s => (library.base64.encode s, ([] : List Buffer))).map Prod.fst =
        .ok (library.base64.encode text)) ↔ x = .ok text := by
    intro x text
    rcases x with e | s
    · exact ⟨nofun, nofun⟩
    · constructor
      · intro h
        exact congrArg _ (library.base64.encode_inj.mp (Except.ok.inj h))
      · rintro ⟨⟩
        rfl
  rw [encryptPlaintext, hspec]
  cases digest with
  | sha224 => exact (hencoded _ _).trans (stringFrom_hmac_iff hfree _ _)
  | sha256 => exact (hencoded _ _).trans (stringFrom_hmac_iff hfree _ _)
  | sha384 =>
    refine (hencoded (.ok _) _).trans ⟨fun h => ?_, False.elim⟩
    rw [library.hmac.length_mac] at h
    exact take_hmac_ne _ _ (Except.ok.inj h)
  | sha512 =>
    refine (hencoded (.ok _) _).trans ?_
    rw [library.hmac.length_mac, Except.ok.injEq]
    exact (Eq.congr_left (take_hmac_eq _ _)).trans (hexEncode_mac_iff hfree _ _)

/-- A request under an HMAC key returns the HMAC of its message only when message and key cannot be told apart. -/
theorem encrypt_authenticates_iff (library : CryptoLibrary) (hfree : library.hmac.ExchangeFree) (rt : Runtime)
    (w : World) (digest : Digest) (key : Key) (request : EncryptRequest)
    (hkey : w.db.keyOf request.keyId = some key) (hspec : KeySpec.fromString key.keySpec = digest.keySpec) :
    Authenticates library rt w digest (digest.storedKey key) request ↔
      digest.Returned (digest.storedKey key) (library.base64.decode request.plainText) := by
  rw [authenticates_iff hkey]
  exact encryptPlaintext_hmac_iff hfree hspec request.plainText

/-! ### A key -/

theorem exchangeFree_sample : CryptoLibrary.sample.hmac.ExchangeFree := by
  intro digest key data h
  have hsize := digest.size_pos
  have hbit : (if data < key then (1 : UInt8) else 0) = if key < data then 1 else 0 :=
    (List.replicate_inj.mp h).2.resolve_left hsize.ne'
  rcases lt_trichotomy data key with hlt | heq | hlt
  · rw [if_pos hlt, if_neg hlt.asymm] at hbit
    exact absurd hbit (by decide)
  · exact heq
  · rw [if_neg hlt.asymm, if_pos hlt] at hbit
    exact absurd hbit (by decide)

def sampleHmacKey : Key where
  keyId := str "key"
  keySpec := str "HMAC_256"
  hmac256Key := [97]
  scheduledDeletion := 0

theorem sampleHmacKey_keyOf : (World.withKey sampleHmacKey).db.keyOf (str "key") = some sampleHmacKey.undated := by
  decide +kernel

theorem sampleHmacKey_keySpec : KeySpec.fromString sampleHmacKey.undated.keySpec = Digest.sha256.keySpec := by
  decide +kernel

theorem encrypt_authenticates_sample :
    Authenticates .sample .counting (.withKey sampleHmacKey) .sha256 [97] (encryptionRequest [98, 99]) ↔
      Digest.sha256.Returned [97] (CryptoLibrary.sample.base64.decode [98, 99]) :=
  encrypt_authenticates_iff .sample exchangeFree_sample .counting (.withKey sampleHmacKey) .sha256
    sampleHmacKey.undated (encryptionRequest [98, 99]) sampleHmacKey_keyOf sampleHmacKey_keySpec

theorem not_authenticates_sample : ¬ Authenticates .sample .counting (.withKey sampleHmacKey) .sha256
    (Digest.sha256.storedKey sampleHmacKey.undated) (encryptionRequest [98, 99]) := by
  rw [authenticates_iff sampleHmacKey_keyOf, encryptPlaintext_hmac_iff exchangeFree_sample sampleHmacKey_keySpec]
  rintro ⟨hnil, -⟩
  cases hnil

/-- The first characters of the digest are missing. -/
theorem digest_cut_off : ¬ (∀ (library : CryptoLibrary) (_ : library.hmac.ExchangeFree) (rt : Runtime) (w : World)
    (digest : Digest) (key : Key) (request : EncryptRequest), w.db.keyOf request.keyId = some key →
      KeySpec.fromString key.keySpec = digest.keySpec →
      Authenticates library rt w digest (digest.storedKey key) request) := fun h =>
  not_authenticates_sample (h .sample exchangeFree_sample .counting _ .sha256 _ (encryptionRequest [98, 99])
    sampleHmacKey_keyOf sampleHmacKey_keySpec)

end AwsMock.Kms
