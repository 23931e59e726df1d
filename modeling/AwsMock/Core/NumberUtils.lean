import AwsMock.Core.Poco

/-!
# Hexadecimal numbers

`NumberUtils::HexToInt` and `std::stoul` to base 16.
-/

namespace AwsMock

open Lib

def isHexDigit (c : UInt8) : Bool := isDigit c ∨ 65 ≤ c ∧ c ≤ 70 ∨ 97 ≤ c ∧ c ≤ 102

/-- The value of a hexadecimal digit. -/
def hexDigitValue (c : UInt8) : Nat :=
  if isDigit c then c.toNat - 48 else if c ≤ 70 then c.toNat - 55 else c.toNat - 87

/-- The value of a sequence of hexadecimal digits. -/
def hexValue (ds : Str) : Nat := ds.foldl (fun n c => n * 16 + hexDigitValue c) 0

/-- The optional prefix of a hexadecimal number is dropped. -/
def dropHexPrefix : Str → Str
  | z :: x :: d :: cs =>
    if z = byte '0' ∧ (x = byte 'x' ∨ x = byte 'X') ∧ isHexDigit d then d :: cs else z :: x :: d :: cs
  | s => s

/-- `std::stoul(s, nullptr, 16)`: what follows the digits is ignored, and a minus sign negates modulo
    `2^64`. The error is the `what` of its exceptions. -/
def stoul16 (s : Str) : Except Str Nat :=
  let (sign, rest) := signOf (s.dropWhile isSpace)
  let digits := (dropHexPrefix rest).takeWhile isHexDigit
  if digits = [] ∨ 18446744073709551616 ≤ hexValue digits then .error (str "stoul")
  else .ok ((sign * hexValue digits) % 18446744073709551616).toNat

/-- `HexToInt`: the `unsigned long` is converted to `int`. -/
def hexToInt (hex : Str) : Except Str Int := (stoul16 hex).map fun n => (n : Int).bmod 4294967296

/-- `StripLineEndings`. -/
def stripLineEndings (s : Str) : Str := s.filter fun c => c ≠ byte '\n' ∧ c ≠ byte '\r'

theorem isHexDigit_facts {c : UInt8} (h : isHexDigit c) :
    isSpace c = false ∧ c ≠ byte '-' ∧ c ≠ byte '+' ∧ c ≠ byte '\n' ∧ c ≠ byte '\r' := by
  refine ⟨?_, ?_, ?_, ?_, ?_⟩
  · simp only [isHexDigit, isDigit, isSpace, decide_eq_true_eq, decide_eq_false_iff_not,
      UInt8.le_iff_toNat_le, ← UInt8.toNat_inj] at h ⊢
    simp at h ⊢
    omega
  all_goals
    rintro rfl
    exact absurd h (by decide)

/-- Hexadecimal digits that end at a semicolon. -/
theorem stoul16_digits {ds : Str} (hne : ds ≠ []) (hds : ∀ c ∈ ds, isHexDigit c) (rest : Str) :
    stoul16 (ds ++ byte ';' :: rest) =
      if 18446744073709551616 ≤ hexValue ds then .error (str "stoul") else .ok (hexValue ds) := by
  obtain ⟨c, cs, rfl⟩ := List.exists_cons_of_ne_nil hne
  obtain ⟨hspace, hminus, hplus, -⟩ := isHexDigit_facts (hds c (by simp))
  have hprefix : dropHexPrefix (c :: cs ++ byte ';' :: rest) = c :: cs ++ byte ';' :: rest := by
    rcases cs with _ | ⟨x, cs⟩
    · rcases rest with _ | ⟨d, rest⟩
      · rfl
      · exact if_neg fun h => absurd h.2.1 (by decide)
    · have hx : ¬ (x = byte 'x' ∨ x = byte 'X') := by
        have hhex := hds x (by simp)
        rintro (rfl | rfl) <;> exact absurd hhex (by decide)
      rcases cs with _ | ⟨d, cs⟩
      · exact if_neg fun h => hx h.2.1
      · exact if_neg fun h => hx h.2.1
  have htake : (c :: cs ++ byte ';' :: rest).takeWhile isHexDigit = c :: cs := by
    rw [List.takeWhile_append_of_pos hds]
    simp [show isHexDigit (byte ';') = false from by decide]
  have hdrop : (c :: cs ++ byte ';' :: rest).dropWhile isSpace = c :: cs ++ byte ';' :: rest := by
    simp [hspace]
  have hsign : signOf (c :: cs ++ byte ';' :: rest) = (1, c :: cs ++ byte ';' :: rest) := by
    simp [signOf, hminus, hplus]
  simp only [stoul16, hdrop, hsign, hprefix, htake, Int.one_mul]
  by_cases hbig : 18446744073709551616 ≤ hexValue (c :: cs)
  · rw [if_pos (Or.inr hbig), if_pos hbig]
  · rw [if_neg (by simp [hbig]), if_neg hbig]
    have hlt : (hexValue (c :: cs) : Int) < 18446744073709551616 := by omega
    rw [Int.emod_eq_of_lt (by omega) hlt, Int.toNat_natCast]

example : hexToInt (str "1f;chunk-signature=ab") = .ok 31 := by decide

end AwsMock
