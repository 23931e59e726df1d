import Mathlib.Data.List.Lex
import Mathlib.Data.List.Basic
import Mathlib.Order.Lattice

/-!
# Byte strings

`Str` is the value of a C++ `std::string`: any list of bytes, compared byte by byte. `split` is the
token loop over `std::getline`: a delimiter ends a token, and an empty rest at the end of the
input is no token (`split d "a:b:" = ["a", "b"]`).
-/

namespace Lib

instance uint8LinearOrder : LinearOrder UInt8 where
  le_refl := UInt8.le_refl
  le_trans _ _ _ := UInt8.le_trans
  lt_iff_le_not_ge _ _ := by rw [UInt8.not_le]; exact ⟨fun h => ⟨UInt8.le_of_lt h, h⟩, And.right⟩
  le_antisymm _ _ := UInt8.le_antisymm
  le_total := UInt8.le_total
  toDecidableLE := inferInstance

/-- The bytes of a C++ `std::string`. -/
abbrev Str := List UInt8

instance : LawfulBEq Str := inferInstance

/-- The byte of an ASCII character. -/
def byte (c : Char) : UInt8 := UInt8.ofNat c.toNat

/-- The bytes of an ASCII literal. -/
def str (s : String) : Str := s.toList.map byte

/-- The decimal digits of a number, as `std::to_string` writes it. -/
def toStr (n : Int) : Str := str (toString n)

theorem replicate_u_ne (n : Nat) : List.replicate (n + 1) (byte 'u') ≠ [] := nofun

/-- Counted letters differ. -/
theorem replicate_u_inj : ∀ {n m : Nat}, List.replicate n (byte 'u') = List.replicate m (byte 'u') → n = m :=
  fun h => (List.replicate_inj.mp h).1

theorem replicate_succ_u_inj {n m : Nat}
    (h : List.replicate (n + 1) (byte 'u') = List.replicate (m + 1) (byte 'u')) : n = m :=
  Nat.succ.inj (replicate_u_inj h)

/-- `while (getline(stream, token, d)) tokens.push_back(token)`; `acc` is the token read so far. -/
def splitAux (d : UInt8) (acc : Str) : Str → List Str
  | [] => if acc = [] then [] else [acc]
  | c :: cs => if c = d then acc :: splitAux d [] cs else splitAux d (acc ++ [c]) cs

/-- `StringUtils`-style split of a string at a delimiter. -/
def split (d : UInt8) (s : Str) : List Str := splitAux d [] s

theorem splitAux_append {d : UInt8} : ∀ {t : Str}, d ∉ t → ∀ (acc rest : Str),
    splitAux d acc (t ++ rest) = splitAux d (acc ++ t) rest
  | [], _, acc, rest => by simp
  | c :: t, h, acc, rest => by
    obtain ⟨hc, ht⟩ := not_or.mp (mt List.mem_cons.mpr h)
    rw [List.cons_append, splitAux, if_neg (Ne.symm hc), splitAux_append ht]
    simp

/-- A token without the delimiter, ended by it, is split off. -/
theorem split_append {d : UInt8} {t : Str} (h : d ∉ t) (rest : Str) :
    split d (t ++ d :: rest) = t :: split d rest := by
  unfold split
  rw [splitAux_append h, splitAux, if_pos rfl, List.nil_append]

/-- A non-empty last token needs no delimiter. -/
theorem split_last {d : UInt8} {t : Str} (h : d ∉ t) (hne : t ≠ []) : split d t = [t] := by
  have := splitAux_append h [] []
  rw [List.append_nil, List.nil_append] at this
  rw [split, this, splitAux, if_neg hne]

@[simp] theorem split_nil (d : UInt8) : split d [] = [] := rfl

/-- The C string that starts a piece of memory; none when no NUL ends it there. -/
def cString (memory : Str) : Option Str :=
  if 0 ∈ memory then some (memory.takeWhile (· ≠ 0)) else none

theorem cString_cons {c : UInt8} {memory : Str} (hc : c ≠ 0) :
    cString (c :: memory) = (cString memory).map (c :: ·) := by
  by_cases h : 0 ∈ memory <;> simp [cString, h, hc, Ne.symm hc]

/-- The C string is what stands before the first NUL. -/
theorem cString_eq_some : ∀ {memory s : Str},
    cString memory = some s ↔ 0 ∉ s ∧ s ++ [0] <+: memory
  | [], s => by simp [cString]
  | c :: memory, s => by
    by_cases hc : c = 0
    · subst hc
      rcases s with _ | ⟨d, s⟩
      · simp [cString]
      · simp only [cString, List.mem_cons, true_or, if_true, List.cons_append,
          List.cons_prefix_cons, not_or]
        simp [eq_comm]
        intro hd _ h
        exact absurd h hd
    · rw [cString_cons hc]
      rcases s with _ | ⟨d, s⟩
      · simp [Ne.symm hc]
      · simp only [Option.map_eq_some_iff, cString_eq_some, List.cons.injEq, List.mem_cons,
          List.cons_append, List.cons_prefix_cons, not_or]
        constructor
        · rintro ⟨_, ⟨hs, hp⟩, rfl, rfl⟩
          exact ⟨⟨Ne.symm hc, hs⟩, rfl, hp⟩
        · rintro ⟨⟨_, hs⟩, rfl, hp⟩
          exact ⟨s, ⟨hs, hp⟩, rfl, rfl⟩

example : split (byte ':') (str "a::b:") = [str "a", [], str "b"] := by decide

end Lib
