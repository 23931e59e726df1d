import Mathlib.Data.List.DropRight
import Mathlib.Data.List.Nodup
import AwsMock.Core.NumberUtils

/-!
# Digests

SHA-256 and HMAC-SHA256 of OpenSSL, which is not part of the repository, and their hexadecimal text.
-/

namespace AwsMock

open Lib

/-- SHA-256 and HMAC-SHA256, the latter of a key and a message. -/
structure Crypto where
  sha256 : Str → Str
  hmacSha256 : Str → Str → Str
  hmacSha256_ne : ∀ key message, hmacSha256 key message ≠ []

/-- The digit of a number below sixteen, in lowercase. -/
def lowerHexDigit (n : Nat) : UInt8 := UInt8.ofNat (if n < 10 then 48 + n else 87 + n)

def hexEncode (hash : Str) : Str :=
  hash.flatMap fun c => [lowerHexDigit (c.toNat / 16), lowerHexDigit (c.toNat % 16)]

def hexDecode : Str → Str
  | hi :: lo :: hex => UInt8.ofNat (16 * hexDigitValue hi + hexDigitValue lo) :: hexDecode hex
  | _ => []

theorem lowerHexDigit_value {n : Nat} (h : n < 16) :
    isHexDigit (lowerHexDigit n) = true ∧ hexDigitValue (lowerHexDigit n) = n := by
  have hall : ∀ n < 16, isHexDigit (lowerHexDigit n) = true ∧ hexDigitValue (lowerHexDigit n) = n := by
    decide
  exact hall n h

theorem hexDecode_hexEncode (hash : Str) : hexDecode (hexEncode hash) = hash := by
  induction hash with
  | nil => rfl
  | cons c hash ih =>
    have hc : c.toNat < 256 := c.toNat_lt
    obtain ⟨-, hhi⟩ := lowerHexDigit_value (n := c.toNat / 16) (by omega)
    obtain ⟨-, hlo⟩ := lowerHexDigit_value (n := c.toNat % 16) (by omega)
    rw [hexEncode, List.flatMap_cons, List.cons_append, List.cons_append, hexDecode, hhi, hlo,
      Nat.div_add_mod, UInt8.ofNat_toNat]
    exact congrArg (c :: ·) ih

theorem hexEncode_injective : Function.Injective hexEncode := fun a b h => by
  rw [← hexDecode_hexEncode a, h, hexDecode_hexEncode]

theorem isHexDigit_hexEncode {hash : Str} {c : UInt8} (hc : c ∈ hexEncode hash) : isHexDigit c := by
  obtain ⟨b, -, hb⟩ := List.mem_flatMap.mp hc
  have hlt : b.toNat < 256 := b.toNat_lt
  simp only [List.mem_cons, List.not_mem_nil, or_false] at hb
  rcases hb with rfl | rfl
  · exact (lowerHexDigit_value (by omega)).1
  · exact (lowerHexDigit_value (by omega)).1

theorem notMem_hexEncode {hash : Str} {c : UInt8} (hc : isHexDigit c = false) : c ∉ hexEncode hash := by
  intro h
  exact absurd (isHexDigit_hexEncode h) (by simp [hc])

theorem hexEncode_ne {hash : Str} (hne : hash ≠ []) : hexEncode hash ≠ [] := by
  obtain ⟨c, cs, rfl⟩ := List.exists_cons_of_ne_nil hne
  simp [hexEncode]

/-! ### Collisions -/

/-- HMAC pads its key with zero bytes, so zero bytes at the end of a key do not count. -/
def stripZeros (key : Str) : Str := key.rdropWhile (· = 0)

/-- No two texts have the same digest, and no two keys and messages have digests that are the same as a
    key. -/
structure Crypto.CollisionFree (crypto : Crypto) : Prop where
  sha256_injective : Function.Injective crypto.sha256
  hmacSha256_injective : ∀ {key key' message message'},
    stripZeros (crypto.hmacSha256 key message) = stripZeros (crypto.hmacSha256 key' message') →
      stripZeros key = stripZeros key' ∧ message = message'

/-! ### Digests that are known

A function that has given values at some inputs and collides nowhere. -/

section Known

variable {α : Type} [DecidableEq α]

def known (table : List (α × Str)) (unknown : α → Str) (a : α) : Str :=
  ((table.find? (·.1 = a)).map Prod.snd).getD (unknown a)

theorem known_cases (table : List (α × Str)) (unknown : α → Str) (a : α) :
    known table unknown a = unknown a ∨ ∃ e ∈ table, e.1 = a ∧ known table unknown a = e.2 := by
  unfold known
  rcases h : table.find? (·.1 = a) with _ | e
  · exact .inl (by rw [h]; rfl)
  · exact .inr ⟨e, List.mem_of_find?_eq_some h, by simpa using List.find?_some h, by rw [h]; rfl⟩

/-- Where no digest of the table is another one's or as long as an unknown one. -/
theorem known_inj {table : List (α × Str)} {unknown : α → Str} {out : Str → Str} {n : Nat}
    (hnodup : (table.map fun e => out e.2).Nodup) (hshort : ∀ e ∈ table, (out e.2).length ≤ n)
    (hlong : ∀ a, n < (out (unknown a)).length) {a b : α}
    (h : out (known table unknown a) = out (known table unknown b)) :
    a = b ∨ out (unknown a) = out (unknown b) := by
  rcases known_cases table unknown a with ha | ⟨x, hx, rfl, ha⟩
  · rcases known_cases table unknown b with hb | ⟨y, hy, rfl, hb⟩
    · exact .inr (by rw [← ha, h, hb])
    · have hlt := hlong a
      have hle := hshort y hy
      rw [← ha, h, hb] at hlt
      omega
  · rcases known_cases table unknown b with hb | ⟨y, hy, rfl, hb⟩
    · have hlt := hlong b
      have hle := hshort x hx
      rw [← hb, ← h, ha] at hlt
      omega
    · rw [ha, hb] at h
      exact .inl (congrArg Prod.fst (List.inj_on_of_nodup_map hnodup hx hy h))

end Known

/-- Digests of known inputs. -/
structure KnownDigests where
  sha256 : List (Str × Str)
  hmacSha256 : List ((Str × Str) × Str)
  sha256_nodup : (sha256.map Prod.snd).Nodup
  sha256_length : ∀ e ∈ sha256, e.2.length = 32
  hmacSha256_nodup : (hmacSha256.map fun e => stripZeros e.2).Nodup
  hmacSha256_length : ∀ e ∈ hmacSha256, e.2.length = 32

namespace KnownDigests

variable (digests : KnownDigests)

/-- An unknown digest is longer than a known one. -/
def unknown (s : Str) : Str := List.replicate 33 1 ++ s ++ [1]

/-- A key and a message as one text. -/
def keyed (p : Str × Str) : Str := (stripZeros p.1).flatMap (fun c => [1, c]) ++ 0 :: p.2

def crypto : Crypto where
  sha256 := known digests.sha256 unknown
  hmacSha256 key message := known digests.hmacSha256 (fun p => unknown (keyed p)) (key, message)
  hmacSha256_ne key message := by
    rcases known_cases digests.hmacSha256 (fun p => unknown (keyed p)) (key, message) with
      h | ⟨e, he, -, h⟩
    · rw [h]
      exact List.append_ne_nil_of_right_ne_nil _ (List.cons_ne_nil _ _)
    · rw [h]
      exact List.ne_nil_of_length_pos (by rw [digests.hmacSha256_length e he]; decide)

theorem unknown_injective : Function.Injective unknown := fun s t h => by
  simpa [unknown] using h

theorem stripZeros_unknown (s : Str) : stripZeros (unknown s) = unknown s :=
  List.rdropWhile_concat_neg _ _ _ (by decide)

theorem keyed_inj : ∀ {k k' m m' : Str},
    k.flatMap (fun c => [1, c]) ++ 0 :: m = k'.flatMap (fun c => [1, c]) ++ 0 :: m' → k = k' ∧ m = m'
  | [], [], _, _, h => ⟨rfl, by simpa using h⟩
  | [], _ :: _, _, _, h => by simp at h
  | _ :: _, [], _, _, h => by simp at h
  | c :: k, c' :: k', m, m', h => by
    simp only [List.flatMap_cons, List.cons_append, List.nil_append, List.cons.injEq, true_and] at h
    obtain ⟨hk, hm⟩ := keyed_inj h.2
    exact ⟨by rw [h.1, hk], hm⟩

theorem crypto_collisionFree : digests.crypto.CollisionFree where
  sha256_injective s t h := by
    have hlength : ∀ s, 32 < (id (unknown s)).length := by simp [unknown]
    have hshort : ∀ e ∈ digests.sha256, (id e.2).length ≤ 32 := fun e he =>
      (digests.sha256_length e he).le
    rcases known_inj digests.sha256_nodup hshort hlength h with rfl | heq
    · rfl
    · exact unknown_injective heq
  hmacSha256_injective {k k' m m'} h := by
    have hlength : ∀ p, 32 < (stripZeros (unknown (keyed p))).length := by
      intro p
      rw [stripZeros_unknown]
      simp [unknown]
    have hshort : ∀ e ∈ digests.hmacSha256, (stripZeros e.2).length ≤ 32 := fun e he =>
      (List.rdropWhile_prefix _ _).length_le.trans (digests.hmacSha256_length e he).le
    rcases known_inj digests.hmacSha256_nodup hshort hlength h with heq | heq
    · obtain ⟨rfl, rfl⟩ := Prod.mk.inj heq
      exact ⟨rfl, rfl⟩
    · rw [stripZeros_unknown, stripZeros_unknown] at heq
      exact keyed_inj (unknown_injective heq)

end KnownDigests

end AwsMock
