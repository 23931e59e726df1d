import AwsMock.Core.Aes256
import AwsMock.Core.CryptoUtils
import AwsMock.Kms.Service
import AwsMock.Kms.Steps

/-!
# Encryption under a key

`KMSService::Encrypt` and `Decrypt`, with every buffer that they allocate. The lengths of texts fit an `int`: what a
request holds comes in a body whose limit is an `int`.
-/

namespace AwsMock.Kms

open Lib OrderedMap

/-! ### The libraries -/

/-- The Base64 streams of Poco. -/
structure Base64 where
  encode : Str → Str
  decode : Str → Str
  decode_encode : ∀ s, decode (encode s) = s

inductive Digest where
  | sha224 | sha256 | sha384 | sha512
  deriving DecidableEq

/-- The length of a digest in bytes. -/
def Digest.size : Digest → Nat
  | sha224 => 28
  | sha256 => 32
  | sha384 => 48
  | sha512 => 64

/-- `HMAC` of OpenSSL, of a key and of data. -/
structure Hmac where
  mac : Digest → Str → Str → Str
  length_mac : ∀ digest key data, (mac digest key data).length = digest.size

/-- What is called of OpenSSL and Poco; RSA takes the text of a key. -/
structure CryptoLibrary where
  stream : StreamCipher
  base64 : Base64
  hmac : Hmac
  rsaEncrypt : Str → Str → Str
  rsaDecrypt : Str → Str → Str

/-! ### `Crypto` -/

/-- The message is passed as the key, and the key as the data. -/
def getHmacFromString (hmac : Hmac) (digest : Digest) (key msg : Str) : Str := hexEncode (hmac.mac digest msg key)

def getHmacSha224FromString (hmac : Hmac) (key msg : Str) : Str := getHmacFromString hmac .sha224 key msg

def getHmacSha256FromString (hmac : Hmac) (key msg : Str) : Str := getHmacFromString hmac .sha256 key msg

/-- The text and `hashLen`. -/
def getHmacSha384FromString (hmac : Hmac) (key msg : Str) : Str × Nat :=
  (getHmacFromString hmac .sha384 key msg, (hmac.mac .sha384 msg key).length)

def getHmacSha512FromString (hmac : Hmac) (key msg : Str) : Str × Nat :=
  (getHmacFromString hmac .sha512 key msg, (hmac.mac .sha512 msg key).length)

/-- `HexDecode` into a buffer of `OPENSSL_hexstr2buf`, which is as long as what it decodes; a terminator is written
    behind it. -/
def hexDecodeBuffer (hex : Str) : Buffer :=
  let out := hexDecode hex
  (Buffer.write { size := out.length } 0 out).write out.length [0]

/-- `std::string{s, pos}`. -/
def stringFrom (s : Str) (pos : Nat) : Except Error Str :=
  if s.length < pos then .error (.stdException (str "basic_string::basic_string")) else .ok (s.drop pos)

/-- A C string. -/
def cString (bytes : Str) : Str := bytes.takeWhile (· ≠ 0)

/-! ### The service -/

inductive EncryptionAlgorithm where
  | symmetricDefault | rsaesOaepSha1 | rsaesOaepSha256 | sm2pke
  deriving DecidableEq

/-- The texts are in Base64. -/
structure EncryptRequest where
  region : Str
  keyId : Str
  encryptionAlgorithm : EncryptionAlgorithm
  plainText : Str

structure EncryptResponse where
  region : Str
  keyId : Str
  encryptionAlgorithm : EncryptionAlgorithm
  ciphertext : Str
  deriving DecidableEq

structure DecryptRequest where
  region : Str
  keyId : Str
  encryptionAlgorithm : EncryptionAlgorithm
  ciphertext : Str

structure DecryptResponse where
  region : Str
  keyId : Str
  encryptionAlgorithm : EncryptionAlgorithm
  plaintext : Str
  deriving DecidableEq

variable (library : CryptoLibrary)

/-- `EncryptPlaintext`, with the buffers that it wrote. -/
def encryptPlaintext (key : Key) (plainText : Str) : Except Error (Str × List Buffer) :=
  match KeySpec.fromString key.keySpec with
  | .symmetricDefault =>
    let rawKey := hexDecodeBuffer key.aes256Key
    let rawPlaintext := library.base64.decode plainText
    let rawCiphertext := aes256EncryptString library.stream rawPlaintext rawKey.bytes
    .ok (library.base64.encode rawCiphertext.bytes, [rawKey, rawCiphertext])
  | .rsa2048 | .rsa3072 | .rsa4096 =>
    let rawPlaintext := library.base64.decode plainText
    .ok (library.base64.encode (library.rsaEncrypt key.rsaPublicKey rawPlaintext), [])
  | .eccNistP256 | .eccNistP384 | .eccNistP521 | .eccSecgP256k1 => .ok ([], [])
  | .hmac224 =>
    -- the length of the plaintext is a position in the digest
    let rawPlaintext := library.base64.decode plainText
    let ciphertext := getHmacSha224FromString library.hmac key.hmac224Key rawPlaintext
    (stringFrom ciphertext rawPlaintext.length).map fun s => (library.base64.encode s, [])
  | .hmac256 =>
    let rawPlaintext := library.base64.decode plainText
    let ciphertext := getHmacSha256FromString library.hmac key.hmac256Key rawPlaintext
    (stringFrom ciphertext rawPlaintext.length).map fun s => (library.base64.encode s, [])
  | .hmac384 =>
    -- of a C string, the length of the digest is a number of characters
    let rawPlaintext := library.base64.decode plainText
    let (ciphertext, hashLen) := getHmacSha384FromString library.hmac key.hmac384Key rawPlaintext
    .ok (library.base64.encode (ciphertext.take hashLen), [])
  | .hmac512 =>
    let rawPlaintext := library.base64.decode plainText
    let (ciphertext, hashLen) := getHmacSha512FromString library.hmac key.hmac512Key rawPlaintext
    .ok (library.base64.encode (ciphertext.take (hashLen * 2)), [])

/-- `DecryptPlaintext`: a decrypted text ends at its first NUL. -/
def decryptPlaintext (key : Key) (ciphertext : Str) : Str × List Buffer :=
  match KeySpec.fromString key.keySpec with
  | .symmetricDefault =>
    let rawKey := hexDecodeBuffer key.aes256Key
    let rawCiphertext := library.base64.decode ciphertext
    let rawPlaintext := aes256DecryptString library.stream rawCiphertext rawKey.bytes
    (library.base64.encode (cString rawPlaintext.bytes), [rawKey, rawPlaintext])
  | .rsa2048 | .rsa3072 | .rsa4096 =>
    let rawCiphertext := library.base64.decode ciphertext
    (library.base64.encode (library.rsaDecrypt key.rsaPrivateKey rawCiphertext), [])
  | .eccNistP256 | .eccNistP384 | .eccNistP521 | .eccSecgP256k1 | .hmac224 | .hmac256 | .hmac384 | .hmac512 => ([], [])

def encrypt (request : EncryptRequest) : KmsProg (EncryptResponse × List Buffer) := do
  if ← call (.keyExists request.keyId) then
    let key ← call (.getKeyByKeyId request.keyId)
    let (ciphertext, buffers) ← .ofExcept (encryptPlaintext library key request.plainText)
    return ({ region := request.region, keyId := key.keyId, encryptionAlgorithm := request.encryptionAlgorithm,
              ciphertext := ciphertext }, buffers)
  else .throw (.serviceException (str "Key not found, keyId: " ++ request.keyId))

def decrypt (request : DecryptRequest) : KmsProg (DecryptResponse × List Buffer) := do
  if ← call (.keyExists request.keyId) then
    let key ← call (.getKeyByKeyId request.keyId)
    let (plaintext, buffers) := decryptPlaintext library key request.ciphertext
    return ({ region := request.region, keyId := key.keyId, encryptionAlgorithm := request.encryptionAlgorithm,
              plaintext := plaintext }, buffers)
  else .throw (.serviceException (str "Key not found, keyId: " ++ request.keyId))

/-- A plaintext is encrypted, and what came of it is decrypted. -/
def encryptDecrypt (request : EncryptRequest) : KmsProg (DecryptResponse × List Buffer) := do
  let (response, buffers) ← encrypt library request
  let (response', buffers') ← decrypt library {
    region := request.region, keyId := request.keyId, encryptionAlgorithm := request.encryptionAlgorithm,
    ciphertext := response.ciphertext }
  return (response', buffers ++ buffers')

/-! ### The key that is read -/

/-- A key without its object id and its date, which a read sets. -/
def Key.undated (key : Key) : Key := { key with oid := [], scheduledDeletion := 0 }

/-- The key that both requests work with. -/
def KMSDatabase.keyOf (db : KMSDatabase) (keyId : Str) : Option Key :=
  match db with
  | memory keys => (findKey keys keyId).map fun it => it.2.undated
  | mongo documents => (findOne documents (str "keyId") keyId).map fun it => (it.2.toKey it.1 0).undated

variable {library} {rt : Runtime} {w : World} {keyId plaintext : Str} {key : Key}

theorem encryptPlaintext_undated (key : Key) (plainText : Str) :
    encryptPlaintext library key.undated plainText = encryptPlaintext library key plainText := rfl

theorem decryptPlaintext_undated (key : Key) (ciphertext : Str) :
    decryptPlaintext library key.undated ciphertext = decryptPlaintext library key ciphertext := rfl

/-- Both requests read the key of an id and leave it in the store. -/
theorem readKey_run {α : Type} (rt : Runtime) (hkey : w.db.keyOf keyId = some key) (f : Key → KmsProg α) (e : Error) :
    ∃ found w', found.undated = key ∧ w'.db.keyOf keyId = some key ∧
      (do if ← call (.keyExists keyId) then
            let found ← call (.getKeyByKeyId keyId)
            f found
          else Prog.throw e : KmsProg α).run (exec rt) w = (f found).run (exec rt) w' := by
  obtain ⟨db, calls⟩ := w
  have hread : ∃ found db', found.undated = key ∧ db'.keyOf keyId = some key ∧ db.keyExists keyId = true ∧
      db.getKeyByKeyId keyId (rt.now (calls + 1)) = some (found, db') := by
    cases db with
    | memory keys =>
      obtain ⟨⟨oid, found⟩, hit, rfl⟩ := Option.map_eq_some_iff.mp hkey
      have hget : keys.get? oid = some found := (findIf_some hit).1
      refine ⟨{ found with oid := oid }, .memory (keys.insert oid { found with oid := oid }), rfl, ?_, ?_, ?_⟩
      · refine (firstNamed_rewrite Key.keyId Key.undated hget ?_ ?_).trans hkey <;> rfl
      · rw [KMSDatabase.keyExists, hit]
        rfl
      · rw [KMSDatabase.getKeyByKeyId, hit]
        rfl
    | mongo documents =>
      obtain ⟨⟨oid, document⟩, hit, rfl⟩ := Option.map_eq_some_iff.mp hkey
      refine ⟨document.toKey oid (rt.now (calls + 1)), .mongo documents, rfl, hkey, ?_, ?_⟩
      · rw [KMSDatabase.keyExists, hit]
        rfl
      · rw [KMSDatabase.getKeyByKeyId, hit]
        rfl
  obtain ⟨found, db', hfound, hkey', hexists, hget⟩ := hread
  refine ⟨found, ⟨db', calls + 1 + 1⟩, hfound, hkey', ?_⟩
  have hexec : exec rt (.keyExists keyId) ⟨db, calls⟩ = some (true, ⟨db, calls + 1⟩) := by
    rw [exec, KmsCall.apply, hexists]
    rfl
  have hexec' : exec rt (.getKeyByKeyId keyId) ⟨db, calls + 1⟩ = some (found, ⟨db', calls + 1 + 1⟩) := by
    rw [exec, KmsCall.apply, hget]
    rfl
  rw [Prog.run_perform_bind_some hexec, if_pos rfl, Prog.run_perform_bind_some hexec']

theorem encrypt_run (library : CryptoLibrary) (rt : Runtime) {request : EncryptRequest}
    (hkey : w.db.keyOf request.keyId = some key) :
    ∃ keyId' w', w'.db.keyOf request.keyId = some key ∧ (encrypt library request).run (exec rt) w =
      some ((encryptPlaintext library key request.plainText).map fun r =>
        ({ region := request.region, keyId := keyId', encryptionAlgorithm := request.encryptionAlgorithm,
           ciphertext := r.1 }, r.2), w') := by
  obtain ⟨found, w', rfl, hkey', hrun⟩ := readKey_run rt hkey (fun key => do
    let (ciphertext, buffers) ← .ofExcept (encryptPlaintext library key request.plainText)
    return ({ region := request.region, keyId := key.keyId, encryptionAlgorithm := request.encryptionAlgorithm,
              ciphertext := ciphertext : EncryptResponse }, buffers))
    (.serviceException (str "Key not found, keyId: " ++ request.keyId))
  refine ⟨found.keyId, w', hkey', hrun.trans ?_⟩
  rw [encryptPlaintext_undated]
  rcases encryptPlaintext library found request.plainText with e | r <;> rfl

theorem decrypt_run (library : CryptoLibrary) (rt : Runtime) (request : DecryptRequest)
    (hkey : w.db.keyOf request.keyId = some key) :
    ∃ keyId' w', w'.db.keyOf request.keyId = some key ∧ (decrypt library request).run (exec rt) w =
      some (.ok ({ region := request.region, keyId := keyId', encryptionAlgorithm := request.encryptionAlgorithm,
                   plaintext := (decryptPlaintext library key request.ciphertext).1 },
        (decryptPlaintext library key request.ciphertext).2), w') := by
  obtain ⟨found, w', rfl, hkey', hrun⟩ := readKey_run rt hkey (fun key => do
    let (plaintext, buffers) := decryptPlaintext library key request.ciphertext
    return ({ region := request.region, keyId := key.keyId, encryptionAlgorithm := request.encryptionAlgorithm,
              plaintext := plaintext : DecryptResponse }, buffers))
    (.serviceException (str "Key not found, keyId: " ++ request.keyId))
  exact ⟨found.keyId, w', hkey', hrun⟩

/-! ### Round trips -/

/-- The key of an id is 32 bytes for AES-256. -/
def KMSDatabase.HasSymmetricKey (db : KMSDatabase) (keyId : Str) : Prop :=
  ∃ key raw, db.keyOf keyId = some key ∧ KeySpec.fromString key.keySpec = .symmetricDefault ∧
    key.aes256Key = hexEncode raw ∧ raw.length = 32

/-- Decrypting the ciphertext gives the plaintext. -/
def ReturnsPlaintext (library : CryptoLibrary) (rt : Runtime) (w : World) (request : EncryptRequest) : Prop :=
  ∃ response buffers w', (encryptDecrypt library request).run (exec rt) w = some (.ok (response, buffers), w') ∧
    library.base64.decode response.plaintext = library.base64.decode request.plainText

/-- It gives the plaintext, and every buffer is written where it was allocated. -/
def RoundTrips (library : CryptoLibrary) (rt : Runtime) (w : World) (request : EncryptRequest) : Prop :=
  ∃ response buffers w', (encryptDecrypt library request).run (exec rt) w = some (.ok (response, buffers), w') ∧
    library.base64.decode response.plaintext = library.base64.decode request.plainText ∧
    ∀ buffer ∈ buffers, buffer.inBounds = true

theorem cString_eq_iff {s : Str} : cString (s ++ [0]) = s ↔ 0 ∉ s := by
  have hstop : cString (s ++ [0]) = cString s := by
    induction s with
    | nil => rfl
    | cons c s ih =>
      simp only [cString, List.cons_append, List.takeWhile_cons] at ih ⊢
      rw [ih]
  rw [hstop, cString, List.takeWhile_eq_self_iff]
  constructor
  · intro h hmem
    exact absurd (h 0 hmem) (by decide)
  · intro h c hc
    exact decide_eq_true (ne_of_mem_of_not_mem hc h)

theorem encryptPlaintext_symmetric (hspec : KeySpec.fromString key.keySpec = .symmetricDefault) (plainText : Str) :
    encryptPlaintext library key plainText =
      .ok (library.base64.encode
          (library.stream.encrypted (hexDecodeBuffer key.aes256Key).bytes (library.base64.decode plainText)),
        [hexDecodeBuffer key.aes256Key, aes256EncryptString library.stream (library.base64.decode plainText)
          (hexDecodeBuffer key.aes256Key).bytes]) := by
  rw [encryptPlaintext, hspec]
  simp only [aes256EncryptString_eq]

/-- What comes back of a ciphertext is a C string, and its terminator is written behind the buffer. -/
theorem decryptPlaintext_symmetric (hspec : KeySpec.fromString key.keySpec = .symmetricDefault) (raw : Str) :
    decryptPlaintext library key
        (library.base64.encode (library.stream.encrypted (hexDecodeBuffer key.aes256Key).bytes raw)) =
      (library.base64.encode (cString (raw ++ [0])),
        [hexDecodeBuffer key.aes256Key, { size := raw.length, bytes := raw ++ [0], inBounds := false }]) := by
  rw [decryptPlaintext, hspec]
  simp only [aes256DecryptString_eq, library.base64.decode_encode, library.stream.decrypted_encrypted,
    library.stream.length_encrypted]

theorem encryptDecrypt_run (library : CryptoLibrary) (rt : Runtime) {request : EncryptRequest}
    (hkey : w.db.keyOf request.keyId = some key) (hspec : KeySpec.fromString key.keySpec = .symmetricDefault) :
    ∃ response buffers w', (encryptDecrypt library request).run (exec rt) w = some (.ok (response, buffers), w') ∧
      response.plaintext = library.base64.encode (cString (library.base64.decode request.plainText ++ [0])) ∧
      ∃ buffer ∈ buffers, buffer.inBounds = false := by
  obtain ⟨keyId', w', hkey', hencrypt⟩ := encrypt_run library rt hkey
  rw [encryptPlaintext_symmetric hspec] at hencrypt
  obtain ⟨keyId'', w'', -, hdecrypt⟩ := decrypt_run library rt
    ⟨request.region, request.keyId, request.encryptionAlgorithm, _⟩ hkey'
  rw [decryptPlaintext_symmetric hspec] at hdecrypt
  refine ⟨_, _, w'', Prog.run_bind_eq_ok.mpr ⟨_, w', hencrypt,
    Prog.run_bind_eq_ok.mpr ⟨_, w'', hdecrypt, rfl⟩⟩, rfl, ?_⟩
  exact ⟨_, List.mem_append_right _ (List.mem_cons_of_mem _ (List.mem_cons_self ..)), rfl⟩

/-- The terminator of a plaintext is written behind its buffer. -/
theorem not_roundTrips (library : CryptoLibrary) (rt : Runtime) {request : EncryptRequest}
    (hkey : w.db.HasSymmetricKey request.keyId) : ¬ RoundTrips library rt w request := by
  obtain ⟨key, raw, hkey, hspec, -, -⟩ := hkey
  obtain ⟨response, buffers, w', hrun, -, buffer, hmem, hout⟩ := encryptDecrypt_run library rt hkey hspec
  rintro ⟨response', buffers', w'', hrun', -, hinBounds⟩
  obtain rfl : buffers = buffers' := by
    cases hrun.symm.trans hrun'
    rfl
  cases hout.symm.trans (hinBounds buffer hmem)

theorem returnsPlaintext_iff (library : CryptoLibrary) (rt : Runtime) {request : EncryptRequest}
    (hkey : w.db.HasSymmetricKey request.keyId) :
    ReturnsPlaintext library rt w request ↔ 0 ∉ library.base64.decode request.plainText := by
  obtain ⟨key, raw, hkey, hspec, -, -⟩ := hkey
  obtain ⟨response, buffers, w', hrun, hplaintext, -⟩ := encryptDecrypt_run library rt hkey hspec
  have hdecoded : library.base64.decode response.plaintext =
      cString (library.base64.decode request.plainText ++ [0]) := by
    rw [hplaintext, library.base64.decode_encode]
  rw [← cString_eq_iff, ← hdecoded]
  constructor
  · rintro ⟨response', buffers', w'', hrun', hback⟩
    cases hrun.symm.trans hrun'
    exact hback
  · intro hback
    exact ⟨response, buffers, w', hrun, hback⟩

/-- No round trip stays within its buffers, and the plaintext comes back exactly when it holds no NUL. -/
theorem symmetric_roundTrip (library : CryptoLibrary) (rt : Runtime) (w : World) (request : EncryptRequest)
    (hkey : w.db.HasSymmetricKey request.keyId) : ¬ RoundTrips library rt w request ∧
      (ReturnsPlaintext library rt w request ↔ 0 ∉ library.base64.decode request.plainText) :=
  ⟨not_roundTrips library rt hkey, returnsPlaintext_iff library rt hkey⟩

/-! ### A key -/

namespace CryptoLibrary

/-- The plaintext is its own Base64, and a digest tells whether its key comes before its data. -/
def sample : CryptoLibrary where
  stream := .sample
  base64 := { encode := id, decode := id, decode_encode := fun _ => rfl }
  hmac := {
    mac := fun digest key data => List.replicate digest.size (if key < data then 1 else 0)
    length_mac := fun _ _ _ => List.length_replicate .. }
  rsaEncrypt := fun _ text => text
  rsaDecrypt := fun _ text => text

end CryptoLibrary

/-- A store of one key. -/
def World.withKey (key : Key) : World where
  db := .memory ((∅ : OrderedMap Str Key).insert (str "1") key)

def sampleKey : Key where
  keyId := str "key"
  keySpec := str "SYMMETRIC_DEFAULT"
  aes256Key := hexEncode (List.replicate 32 7)
  scheduledDeletion := 0

def encryptionRequest (plainText : Str) : EncryptRequest where
  region := str "eu-central-1"
  keyId := str "key"
  encryptionAlgorithm := .symmetricDefault
  plainText := plainText

theorem sampleKey_symmetric (plainText : Str) :
    (World.withKey sampleKey).db.HasSymmetricKey (encryptionRequest plainText).keyId :=
  ⟨sampleKey.undated, List.replicate 32 7, rfl, by decide +kernel, rfl, List.length_replicate ..⟩

theorem symmetric_roundTrip_sample :
    ¬ RoundTrips .sample .counting (.withKey sampleKey) (encryptionRequest [97]) ∧
      (ReturnsPlaintext .sample .counting (.withKey sampleKey) (encryptionRequest [97]) ↔
        0 ∉ CryptoLibrary.sample.base64.decode [97]) :=
  symmetric_roundTrip .sample .counting _ _ (sampleKey_symmetric [97])

/-- A text with a NUL does not come back. -/
theorem nul_cut_off : ¬ (∀ (library : CryptoLibrary) (rt : Runtime) (w : World) (request : EncryptRequest),
    w.db.HasSymmetricKey request.keyId → RoundTrips library rt w request) ∧
    ¬ ReturnsPlaintext .sample .counting (.withKey sampleKey) (encryptionRequest [97, 0, 98]) := by
  constructor
  · intro h
    exact not_roundTrips .sample .counting (sampleKey_symmetric [97]) (h _ _ _ _ (sampleKey_symmetric [97]))
  · rw [returnsPlaintext_iff .sample .counting (sampleKey_symmetric [97, 0, 98])]
    decide

end AwsMock.Kms
