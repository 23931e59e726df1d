import Mathlib.Data.UInt
import AwsMock.Lib.Bytes
import AwsMock.Lib.OrderedMap

/-!
# AES-256 of strings and files

The encryption of `CryptoUtils`. The cipher context is that of OpenSSL, which is not part of the repository: in
Galois counter mode without a tag it is a stream cipher, whose final step writes nothing.
-/

namespace AwsMock

open Lib

/-- Contexts for encryption and decryption, by the key data that the key is derived from. -/
structure StreamCipher where
  Ctx : Type
  encryptionInit : Str → Ctx
  decryptionInit : Str → Ctx
  update : Ctx → Str → Str × Ctx
  update_length : ∀ ctx s, (update ctx s).1.length = s.length
  update_append : ∀ ctx s t, update ctx (s ++ t) =
    ((update ctx s).1 ++ (update (update ctx s).2 t).1, (update (update ctx s).2 t).2)
  update_update : ∀ keyData s, (update (decryptionInit keyData) (update (encryptionInit keyData) s).1).1 = s

namespace StreamCipher

/-- A key stream of one byte that is the sum of the key data. -/
def sample : StreamCipher where
  Ctx := UInt8
  encryptionInit keyData := keyData.sum
  decryptionInit keyData := keyData.sum
  update ctx s := (s.map (· ^^^ ctx), ctx)
  update_length ctx s := List.length_map ..
  update_append ctx s t := by rw [List.map_append]
  update_update keyData s := by
    rw [List.map_map]
    refine (List.map_congr_left fun c _ => ?_).trans (List.map_id s)
    simp only [Function.comp_apply, UInt8.xor_assoc, UInt8.xor_self, UInt8.xor_zero, id_eq]

variable (cipher : StreamCipher)

/-- `strlen` of a key, which ends with a NUL. -/
def keyData (key : Str) : Str := key.takeWhile (· ≠ 0)

/-- A text as it is encrypted in one piece. -/
def encrypted (key s : Str) : Str := (cipher.update (cipher.encryptionInit (keyData key)) s).1

def decrypted (key s : Str) : Str := (cipher.update (cipher.decryptionInit (keyData key)) s).1

theorem decrypted_encrypted (key s : Str) : cipher.decrypted key (cipher.encrypted key s) = s :=
  cipher.update_update (keyData key) s

theorem length_encrypted (key s : Str) : (cipher.encrypted key s).length = s.length := cipher.update_length _ s

theorem length_decrypted (key s : Str) : (cipher.decrypted key s).length = s.length := cipher.update_length _ s

end StreamCipher

/-! ### Strings -/

/-- Allocated memory, what was written to it, and whether all of it was within the allocated size. -/
structure Buffer where
  size : Nat
  bytes : Str := []
  inBounds : Bool := true
  deriving DecidableEq

/-- Write behind the first `offset` bytes that were written. -/
def Buffer.write (buffer : Buffer) (offset : Nat) (s : Str) : Buffer :=
  { buffer with
    bytes := buffer.bytes.take offset ++ s ++ buffer.bytes.drop (offset + s.length)
    inBounds := buffer.inBounds && decide (offset + s.length ≤ buffer.size) }

/-- The final step writes nothing behind the ciphertext. -/
def aes256EncryptString (cipher : StreamCipher) (plaintext key : Str) : Buffer :=
  let ciphertext := cipher.encrypted key plaintext
  (Buffer.write { size := plaintext.length + 16 } 0 ciphertext).write ciphertext.length []

/-- The final step writes nothing; a terminator is written behind the plaintext. -/
def aes256DecryptString (cipher : StreamCipher) (ciphertext key : Str) : Buffer :=
  let plaintext := cipher.decrypted key ciphertext
  ((Buffer.write { size := ciphertext.length } 0 plaintext).write ciphertext.length []).write ciphertext.length [0]

theorem aes256EncryptString_eq (cipher : StreamCipher) (plaintext key : Str) :
    aes256EncryptString cipher plaintext key =
      { size := plaintext.length + 16, bytes := cipher.encrypted key plaintext, inBounds := true } := by
  have hlength := cipher.length_encrypted key plaintext
  simp [aes256EncryptString, Buffer.write, hlength]

/-- The terminator is written behind the end of the buffer. -/
theorem aes256DecryptString_eq (cipher : StreamCipher) (ciphertext key : Str) :
    aes256DecryptString cipher ciphertext key =
      { size := ciphertext.length, bytes := cipher.decrypted key ciphertext ++ [0], inBounds := false } := by
  have hlength := cipher.length_decrypted key ciphertext
  have hbefore := List.take_of_length_le hlength.le
  simp [aes256DecryptString, Buffer.write, hlength, hbefore]

/-! ### Files -/

/-- An input stream: what is left of the file, and its flags. -/
structure IfStream where
  rest : Str := []
  eof : Bool := false
  fail : Bool := false
  deriving DecidableEq

namespace IfStream

/-- A file that is missing, or cannot be opened, leaves the stream failed. -/
def openFile : Option Str → IfStream
  | some content => { rest := content }
  | none => { fail := true }

/-- `read` with `gcount`: nothing is read unless the stream is good, and only a read that comes to the end of the
    file sets `eof`. -/
def read (n : Nat) (s : IfStream) : Str × IfStream :=
  if s.eof = true ∨ s.fail = true then ([], { s with fail := true })
  else (s.rest.take n, { rest := s.rest.drop n, eof := decide (s.rest.length < n), fail := decide (s.rest.length < n) })

end IfStream

/-- `AWSMOCK_BUFFER_SIZE`. -/
def bufferSize : Nat := 4096

/-- The loop of both functions, with a bound on its turns: what it appends to the output file. -/
def updateLoop (cipher : StreamCipher) (size : Nat) : Nat → IfStream → cipher.Ctx → Option Str
  | 0, _, _ => none
  | fuel + 1, s, ctx =>
    if s.eof then some []
    else
      let (data, s) := s.read size
      let (out, ctx) := cipher.update ctx data
      (updateLoop cipher size fuel s ctx).map (out ++ ·)

/-- The files of a directory by name. -/
abbrev FileStore := OrderedMap Str Str

/-- The output file takes the place of the input file. -/
def aes256EncryptFile (cipher : StreamCipher) (size fuel : Nat) (filename key : Str) (files : FileStore) :
    Option FileStore :=
  let inputFile := IfStream.openFile (files.get? filename)
  let outFilename := filename ++ str ".aes256"
  (updateLoop cipher size fuel inputFile (cipher.encryptionInit (StreamCipher.keyData key))).map fun out =>
    (files.eraseIf fun name _ => name = outFilename).insert filename out

/-- The plaintext stays in a file of its own. -/
def aes256DecryptFile (cipher : StreamCipher) (size fuel : Nat) (filename key : Str) (files : FileStore) :
    Option FileStore :=
  let inputFile := IfStream.openFile (files.get? filename)
  let outFilename := filename ++ str ".plain"
  (updateLoop cipher size fuel inputFile (cipher.decryptionInit (StreamCipher.keyData key))).map fun out =>
    files.insert outFilename out

/-! ### The loop -/

section Loop

variable (cipher : StreamCipher) {size : Nat} (ctx : cipher.Ctx)

/-- A loop on a stream that has failed never ends. -/
theorem updateLoop_failed {s : IfStream} (heof : s.eof = false) (hfail : s.fail = true) :
    ∀ (fuel : Nat) (ctx : cipher.Ctx), updateLoop cipher size fuel s ctx = none
  | 0, _ => rfl
  | fuel + 1, ctx => by
    have hread : s.read size = ([], s) := by
      rw [IfStream.read, if_pos (.inr hfail), ← hfail]
    rw [updateLoop, heof, if_neg Bool.false_ne_true, hread]
    simp only [updateLoop_failed heof hfail fuel, Option.map_none]

/-- A file is read to its end in pieces, and the pieces are updated as the whole. -/
theorem updateLoop_file (hsize : 0 < size) : ∀ (fuel : Nat) (content : Str) (ctx : cipher.Ctx),
    content.length + 1 < fuel → updateLoop cipher size fuel { rest := content } ctx = some (cipher.update ctx content).1
  | fuel + 2, content, ctx, hfuel => by
    rw [updateLoop, if_neg Bool.false_ne_true, IfStream.read, if_neg (by simp)]
    by_cases hlast : content.length < size
    · -- the last piece, which may be empty
      simp only [hlast, decide_true, updateLoop, if_true, Option.map_some, List.append_nil,
        List.take_of_length_le hlast.le]
    · have hdrop : (content.drop size).length + 1 < fuel + 1 := by
        rw [List.length_drop]
        omega
      have happend := cipher.update_append ctx (content.take size) (content.drop size)
      rw [List.take_append_drop] at happend
      simp only [hlast, decide_false]
      rw [updateLoop_file hsize (fuel + 1) _ _ hdrop, Option.map_some, happend]

/-- With enough turns, the loop ends exactly on a file that was opened. -/
theorem updateLoop_openFile (hsize : 0 < size) (file : Option Str) {fuel : Nat}
    (hfuel : file.elim 0 List.length + 1 < fuel) : updateLoop cipher size fuel (.openFile file) ctx =
      file.map fun content => (cipher.update ctx content).1 := by
  rcases file with _ | content
  · exact updateLoop_failed cipher rfl rfl fuel ctx
  · exact updateLoop_file cipher hsize fuel content ctx hfuel

end Loop

/-! ### Encrypting and decrypting a file -/

/-- Both functions end, and decrypting the encrypted file gives its content again, whatever the sizes of the
    buffers. -/
structure FileRoundTrips (cipher : StreamCipher) (filename key : Str) (files : FileStore) : Prop where
  encryptEnds : ∃ fuel, (aes256EncryptFile cipher bufferSize fuel filename key files).isSome
  decryptEnds : ∃ fuel, (aes256DecryptFile cipher bufferSize fuel filename key files).isSome
  back : ∀ content, files.get? filename = some content → ∀ size size', 0 < size → 0 < size' →
    ∃ fuel encryptedFiles decryptedFiles, aes256EncryptFile cipher size fuel filename key files = some encryptedFiles ∧
      encryptedFiles.get? filename = some (cipher.encrypted key content) ∧
      aes256DecryptFile cipher size' fuel filename key encryptedFiles = some decryptedFiles ∧
      decryptedFiles.get? (filename ++ str ".plain") = some content

variable {cipher : StreamCipher} {size fuel : Nat} {filename key content : Str} {files : FileStore}

theorem aes256EncryptFile_missing (h : files.get? filename = none) (fuel : Nat) :
    aes256EncryptFile cipher size fuel filename key files = none := by
  rw [aes256EncryptFile, h]
  simp only [updateLoop_failed cipher (s := .openFile none) rfl rfl, Option.map_none]

theorem aes256EncryptFile_eq (hsize : 0 < size) (h : files.get? filename = some content)
    (hfuel : content.length + 1 < fuel) : aes256EncryptFile cipher size fuel filename key files =
      some ((files.eraseIf fun name _ => name = filename ++ str ".aes256").insert filename
        (cipher.encrypted key content)) := by
  rw [aes256EncryptFile, h]
  simp only [updateLoop_openFile cipher _ hsize (some content) hfuel, Option.map_some, StreamCipher.encrypted]

theorem aes256DecryptFile_eq (hsize : 0 < size) (h : files.get? filename = some content)
    (hfuel : content.length + 1 < fuel) : aes256DecryptFile cipher size fuel filename key files =
      some (files.insert (filename ++ str ".plain") (cipher.decrypted key content)) := by
  rw [aes256DecryptFile, h]
  simp only [updateLoop_openFile cipher _ hsize (some content) hfuel, Option.map_some, StreamCipher.decrypted]

/-- The loops end, and the file comes back, exactly when there is a file. -/
theorem file_roundTrips_iff (cipher : StreamCipher) (filename key : Str) (files : FileStore) :
    FileRoundTrips cipher filename key files ↔ (files.get? filename).isSome = true := by
  constructor
  · intro h
    obtain ⟨fuel, hends⟩ := h.encryptEnds
    rcases hfile : files.get? filename with _ | content
    · rw [aes256EncryptFile_missing hfile] at hends
      cases hends
    · rfl
  · intro h
    obtain ⟨content, hfile⟩ := Option.isSome_iff_exists.mp h
    have hfuel : content.length + 1 < content.length + 2 := Nat.lt_succ_self _
    refine ⟨⟨content.length + 2, ?_⟩, ⟨content.length + 2, ?_⟩,
      fun content' hcontent size size' hsize hsize' => ?_⟩
    · rw [aes256EncryptFile_eq (by decide) hfile hfuel]
      rfl
    · rw [aes256DecryptFile_eq (by decide) hfile hfuel]
      rfl
    · obtain rfl := Option.some.inj (hfile.symm.trans hcontent)
      have hagain : (cipher.encrypted key content).length + 1 < content.length + 2 := by
        rw [cipher.length_encrypted]
        exact hfuel
      have hget := OrderedMap.get?_insert_self (files.eraseIf fun name _ => name = filename ++ str ".aes256") filename
        (cipher.encrypted key content)
      refine ⟨_, _, _, aes256EncryptFile_eq hsize hfile hfuel, hget, aes256DecryptFile_eq hsize' hget hagain, ?_⟩
      rw [OrderedMap.get?_insert_self, cipher.decrypted_encrypted]

/-- The loop over a missing file never ends. -/
theorem missing_file_loops : ¬ (∀ (cipher : StreamCipher) (filename key : Str) (files : FileStore),
    FileRoundTrips cipher filename key files) ∧
    ¬ FileRoundTrips .sample (str "missing") (str "key") ∅ := by
  have hmissing : ¬ FileRoundTrips .sample (str "missing") (str "key") ∅ := by
    intro h
    obtain ⟨fuel, hends⟩ := h.encryptEnds
    rw [aes256EncryptFile_missing (OrderedMap.get?_empty _)] at hends
    cases hends
  exact ⟨fun h => hmissing (h _ _ _ _), hmissing⟩

end AwsMock
