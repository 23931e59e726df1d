import AwsMock.Lib.Json

/-!
# The Poco library and `std::stoi`

`Poco` stands for the JSON parser, the conversions of `Poco::Dynamic::Var`, the JSON writer and the
HTTP date format, which are not part of the repository: their exceptions carry a text, and strings
and numbers in range convert to themselves.
-/

namespace AwsMock

open Lib

/-- The exceptions that reach a caller of the SQS service. -/
inductive Error where
  | serviceException (message : Str)
  | pocoException (message : Str)
  | stdException (what : Str)
  deriving DecidableEq

/-- `catch (Poco::Exception &exc) { throw Core::ServiceException(exc.message()); }` -/
def Error.toServiceException : Error → Error
  | .serviceException message => .serviceException message
  | .pocoException message => .serviceException message
  | .stdException what => .stdException what

/-- The range of `int`. -/
def IsInt (n : Int) : Prop := -2147483648 ≤ n ∧ n ≤ 2147483647

instance (n : Int) : Decidable (IsInt n) := inferInstanceAs (Decidable (_ ∧ _))

/-- The range of `long`. -/
def IsLong (n : Int) : Prop := -9223372036854775808 ≤ n ∧ n ≤ 9223372036854775807

instance (n : Int) : Decidable (IsLong n) := inferInstanceAs (Decidable (_ ∧ _))

structure Poco where
  parse : Str → Except Str Json
  convertString : Json → Except Str Str
  convertInt : Json → Except Str Int
  convertLong : Json → Except Str Int
  stringify : Json → Str
  httpFormat : Int → Str
  convertString_str : ∀ s, convertString (.str s) = .ok s
  convertInt_int : ∀ n, IsInt n → convertInt (.int n) = .ok n
  convertLong_int : ∀ n, IsLong n → convertLong (.int n) = .ok n

/-- A library that accepts nothing else. -/
def Poco.minimal : Poco where
  parse _ := .error []
  convertString | .str s => .ok s | _ => .error []
  convertInt | .int n => .ok n | _ => .error []
  convertLong | .int n => .ok n | _ => .error []
  stringify _ := []
  httpFormat _ := []
  convertString_str _ := rfl
  convertInt_int _ _ := rfl
  convertLong_int _ _ := rfl

/-- A Poco exception escapes as it is. -/
def pocoTry {α : Type} : Except Str α → Except Error α
  | .ok a => .ok a
  | .error message => .error (.pocoException message)

/-- `JsonUtils::GetJsonValueString`, `GetJsonValueInt` and `GetJsonValueLong`: a member that is missing
    leaves the attribute as it is. -/
def getJsonValue {α : Type} (convert : Json → Except Str α) (name : Str) (members : List (Str × Json)) (value₀ : α) :
    Except Error α :=
  match Json.member name members with
  | some value => pocoTry (convert value)
  | none => .ok value₀

/-- The characters `isspace` accepts. -/
def isSpace (c : UInt8) : Bool := c = 32 ∨ 9 ≤ c ∧ c ≤ 13

def isDigit (c : UInt8) : Bool := 48 ≤ c ∧ c ≤ 57

/-- The value of a digit sequence. -/
def digitsValue (ds : Str) : Nat := ds.foldl (fun n c => n * 10 + (c.toNat - 48)) 0

/-- The optional sign of a number and the rest. -/
def signOf : Str → Int × Str
  | c :: cs => if c = byte '-' then (-1, cs) else if c = byte '+' then (1, cs) else (1, c :: cs)
  | [] => (1, [])

/-- `std::stoi`: what follows the digits is ignored. -/
def stoi (s : Str) : Except Error Int :=
  let (sign, rest) := signOf (s.dropWhile isSpace)
  let digits := rest.takeWhile isDigit
  let n := sign * digitsValue digits
  if digits = [] then .error (.stdException (str "stoi"))
  else if IsInt n then .ok n
  else .error (.stdException (str "stoi"))

/-! ### Decimal digits -/

theorem toStr_natCast (n : Nat) : toStr n = (Nat.toDigits 10 n).map byte := by
  rw [toStr, str, ← Nat.toList_repr]
  rfl

theorem byte_digit {c : Char} (h : c.isDigit) : (byte c).toNat = c.toNat ∧ isDigit (byte c) := by
  have hrange : 48 ≤ c.toNat ∧ c.toNat ≤ 57 := by
    simp only [Char.isDigit, Bool.and_eq_true, decide_eq_true_eq] at h
    exact ⟨UInt32.le_iff_toNat_le.mp h.1, UInt32.le_iff_toNat_le.mp h.2⟩
  have hbyte : (byte c).toNat = c.toNat := by
    rw [byte, UInt8.toNat_ofNat']
    omega
  refine ⟨hbyte, ?_⟩
  simp only [isDigit, decide_eq_true_eq, UInt8.le_iff_toNat_le, hbyte]
  simpa using hrange

theorem toStr_digits {n : Nat} {c : UInt8} (hc : c ∈ toStr n) : isDigit c := by
  rw [toStr_natCast] at hc
  obtain ⟨d, hd, rfl⟩ := List.mem_map.mp hc
  exact (byte_digit (Nat.isDigit_of_mem_toDigits (by decide) (by decide) hd)).2

theorem toStr_ne (n : Nat) : toStr n ≠ [] := by
  rw [toStr_natCast]
  simp [Nat.toDigits_ne_nil]

theorem digitsValue_toStr (n : Nat) : digitsValue (toStr n) = n := by
  have hfold : ∀ (cs : List Char), (∀ c ∈ cs, c.isDigit) → ∀ init,
      (cs.map byte).foldl (fun n c => n * 10 + (c.toNat - 48)) init = Nat.ofDigitChars 10 cs init := by
    intro cs
    induction cs with
    | nil => intro _ init; rfl
    | cons c cs ih =>
      intro hcs init
      rw [List.map_cons, List.foldl_cons, ih fun d hd => hcs d (List.mem_cons_of_mem _ hd),
        Nat.ofDigitChars_cons, (byte_digit (hcs c (List.mem_cons_self ..))).1, Nat.mul_comm]
      rfl
  rw [digitsValue, toStr_natCast, hfold _ fun c hc => Nat.isDigit_of_mem_toDigits (by decide) (by decide) hc]
  exact Nat.ofDigitChars_ten_toDigits

theorem isDigit_facts {c : UInt8} (h : isDigit c = true) : isSpace c = false ∧ c ≠ byte '-' ∧ c ≠ byte '+' := by
  refine ⟨?_, ?_, ?_⟩
  · simp only [isDigit, isSpace, decide_eq_true_eq, decide_eq_false_iff_not, UInt8.le_iff_toNat_le, ← UInt8.toNat_inj] at h ⊢
    simp at h ⊢
    omega
  all_goals
    rintro rfl
    exact absurd h (by decide)

theorem toStr_negSucc (m : Nat) : toStr (Int.negSucc m) = byte '-' :: toStr ((m + 1 : Nat) : Int) := by
  simp [toStr, str, toString, Int.repr]

/-- What was written as a number is read as that number. -/
theorem stoi_toStr {n : Int} (h : IsInt n) : stoi (toStr n) = .ok n := by
  have hdigits : ∀ m : Nat, (toStr m).takeWhile isDigit = toStr m := fun m => by
    simpa using @List.takeWhile_append_of_pos _ isDigit (toStr m) [] fun c hc => toStr_digits hc
  rcases n with m | m
  · obtain ⟨c, cs, hcs⟩ := List.exists_cons_of_ne_nil (toStr_ne m)
    obtain ⟨hspace, hminus, hplus⟩ := isDigit_facts (toStr_digits (hcs ▸ List.mem_cons_self : c ∈ toStr m))
    have hsign : signOf ((toStr m).dropWhile isSpace) = (1, toStr m) := by
      rw [hcs, List.dropWhile_cons_of_neg (by simp [hspace])]
      simp only [signOf, hminus, hplus, if_false]
    change stoi (toStr m) = .ok (m : Int)
    have hint : IsInt (m : Int) := h
    simp only [stoi, hsign, hdigits, digitsValue_toStr, toStr_ne, if_false, Int.one_mul, hint, if_true]
  · have hsign : signOf ((toStr (Int.negSucc m)).dropWhile isSpace) = (-1, toStr ((m + 1 : Nat) : Int)) := by
      rw [toStr_negSucc, List.dropWhile_cons_of_neg (by decide)]
      rfl
    have hneg : (-1 : Int) * ((m + 1 : Nat) : Int) = Int.negSucc m := by omega
    simp only [stoi, hsign, hdigits, digitsValue_toStr, toStr_ne, if_false, hneg, h, if_true]
end AwsMock
